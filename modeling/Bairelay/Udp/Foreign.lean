import Bairelay.Udp.Source

/-!
# Datagrams of others

What the datagrams that are not from the camera do to a connection. They are read like
those of the camera, and left out only when they are taken from the queue, so they
can end the connection, or keep it up: by a datagram that is not a sequence of
packets, or has one that ends the connection, by filling the queue, and by resetting the
receive timeout.

* `foreign_inert_iff`: a connection does the same as without them, all along, exactly
  if each step is `Harmless`, so none of these happens.
-/

namespace Bairelay.UdpPayloadInner

variable {ρ α : Type}

/-! ## The tasks keep the invariant -/

/-- Between its turns, `run` has passed on all that is complete, and its queue is
    within the cap. -/
structure Wf (addr : α) (s : UdpPayloadInner ρ α) : Prop where
  cameraAddr : s.cameraAddr = addr
  length_le : s.socketOut.length ≤ socketOutCap
  drained : s.ended = none → s.flow.received[s.flow.packetsWant]? = none

variable {addr : α} {s : UdpPayloadInner ρ α}

theorem received_drainContiguous (flow : UdpFlowState) :
    flow.drainContiguous.1.received[flow.drainContiguous.1.packetsWant]? = none :=
  UdpFlowState.drainContiguous_induction
    (motive := fun _ r => r.1.received[r.1.packetsWant]? = none)
    (fun _ h => h) (fun _ _ _ _ h => h) flow

/-- Without the wanted packet there is nothing to deliver. -/
theorem deliver_of_none (h : s.flow.received[s.flow.packetsWant]? = none) : s.deliver = s := by
  rw [UdpPayloadInner.deliver, UdpFlowState.drainContiguous_of_none h]
  split
  · rfl
  · dsimp only
    rw [List.append_nil]

/-- Delivering touches neither the address nor the order of the queue. -/
theorem Wf.deliver (hcamera : s.cameraAddr = addr) (hlen : s.socketOut.length ≤ socketOutCap) :
    Wf addr s.deliver := by
  rw [UdpPayloadInner.deliver]
  split
  next h => exact ⟨hcamera, hlen, fun hnone => by rw [hnone] at h; exact nomatch h⟩
  next => exact ⟨hcamera, hlen, fun _ => received_drainContiguous s.flow⟩

/-- A packet that was read changes the flow, not the socket. -/
theorem onPacket_frame (s : UdpPayloadInner ρ α) (now : Instant) (item : BcUdp ρ) :
    (s.onPacket now item).cameraAddr = s.cameraAddr ∧
      (s.onPacket now item).socketOut = s.socketOut := by
  cases item with
  | discovery _ => exact ⟨rfl, rfl⟩
  | ack ack =>
    rw [onPacket]
    split <;> exact ⟨rfl, rfl⟩
  | data data =>
    rw [onPacket]
    split
    · rw [updateAck]
      split <;> exact ⟨rfl, rfl⟩
    · exact ⟨rfl, rfl⟩

theorem wf_new (clientId cameraId : Int32) (now : Instant) :
    Wf addr (new addr clientId cameraId now : UdpPayloadInner ρ α) :=
  ⟨rfl, Nat.zero_le _, fun _ => Std.ExtTreeMap.getElem?_empty⟩

/-- The ack timer changes neither the address nor the queue. -/
theorem updateAck_frame (s : UdpPayloadInner ρ α) : s.updateAck.cameraAddr = s.cameraAddr ∧
    s.updateAck.socketOut = s.socketOut := by
  rw [updateAck]
  split <;> exact ⟨rfl, rfl⟩

theorem feed_frame (s : UdpPayloadInner ρ α) (packets : List UdpData) :
    (s.feed packets).cameraAddr = s.cameraAddr ∧ (s.feed packets).socketOut = s.socketOut := by
  rw [feed]
  split <;> exact ⟨rfl, rfl⟩

/-- Reading from a datagram, by what the codec makes of it. -/
theorem next_cons {crates : UdpCrates ρ} {source : α} {rd : Bytes} {inner : List (α × Bytes)}
    (h : s.inner = (source, rd) :: inner) (now : Instant) : s.next crates now =
      match BcUdpCodex.decodeEof crates () rd with
      | (_, _, .ok none) => { s with inner }
      | (_, rd, .ok (some packet)) =>
        if s.socketOut.length < socketOutCap then
          { s with
            inner := (source, rd) :: inner
            heard := s.heard ++ [(now, source)]
            socketOut := s.socketOut ++ [(packet, source)] }
        else
          { s with
            inner := (source, rd) :: inner
            heard := s.heard ++ [(now, source)]
            broken := some .dropReceiverSendFailed }
      | (_, _, .error e) => { s with broken := some (.codec e) } := by
  rcases hd : BcUdpCodex.decodeEof crates () rd with ⟨_, rest, _ | _ | _⟩ <;>
    simp only [next, h, hd]

/-- Reading a datagram breaks the connection if it is an error, or the queue is full. -/
theorem broken_next (crates : UdpCrates ρ) {source : α} {rd : Bytes} {inner : List (α × Bytes)}
    (hinner : s.inner = (source, rd) :: inner) (hbroken : s.broken = none) (now : Instant) :
    (s.next crates now).broken = none ↔
      match (BcUdpCodex.decodeEof crates () rd).2.2 with
      | .ok none => True
      | .ok (some _) => s.socketOut.length < socketOutCap
      | .error _ => False := by
  rw [next_cons hinner]
  rcases BcUdpCodex.decodeEof crates () rd with ⟨_, rest, e | _ | packet⟩
  · exact iff_of_false nofun id
  · exact iff_of_true hbroken trivial
  · dsimp only
    split
    next hlt => exact iff_of_true hbroken hlt
    next hge => exact iff_of_false nofun hge

/-- The next datagram is read or dropped, and the source stays well formed. -/
theorem Wf.next (h : Wf addr s) (crates : UdpCrates ρ) (now : Instant) :
    Wf addr (s.next crates now) := by
  rw [UdpPayloadInner.next]
  split
  · exact h
  · split
    · exact ⟨h.cameraAddr, h.length_le, h.drained⟩
    · dsimp only
      split
      next hlt =>
        refine ⟨h.cameraAddr, ?_, h.drained⟩
        rw [List.length_append]
        exact hlt
      next => exact ⟨h.cameraAddr, h.length_le, h.drained⟩
    · exact ⟨h.cameraAddr, h.length_le, h.drained⟩

variable [DecidableEq α]

/-- What the kernel delivers only lengthens the input. -/
theorem Wf.receive (h : Wf addr s) (now : Instant) : Wf addr (s.receive now) := by
  rw [UdpPayloadInner.receive]
  split
  · split
    · exact ⟨h.cameraAddr, h.length_le, nofun⟩
    · exact h
  next item source socketOut hqueue =>
    have hlen : socketOut.length ≤ socketOutCap := by
      have hle := h.length_le
      rw [hqueue, List.length_cons] at hle
      omega
    dsimp only
    split
    · obtain ⟨hcamera, hqueue⟩ := onPacket_frame { s with socketOut } now item
      exact .deliver (hcamera.trans h.cameraAddr) (hqueue ▸ hlen)
    · exact .deliver h.cameraAddr hlen

theorem Wf.step (crates : UdpCrates ρ) (h : Wf addr s) (event : Event α) :
    Wf addr (s.step crates event) := by
  unfold UdpPayloadInner.step
  split
  · exact h
  next hended =>
    cases event with
    | arrive source bytes => exact ⟨h.cameraAddr, h.length_le, h.drained⟩
    | next now =>
      dsimp only
      split
      · exact h
      · exact h.next crates now
    | checkTimeout now =>
      dsimp only
      split
      · exact h
      · rw [UdpPayloadInner.checkTimeout]
        split
        · exact ⟨h.cameraAddr, h.length_le, h.drained⟩
        · exact h
    | receive now => exact h.receive now
    | send item =>
      obtain ⟨hcamera, hqueue⟩ :=
        feed_frame { s with flow := (s.flow.enqueueSend item).1 } (s.flow.enqueueSend item).2
      exact .deliver (hcamera.trans h.cameraAddr)
        ((congrArg List.length hqueue).trans_le h.length_le)
    | resendTick =>
      obtain ⟨hcamera, hqueue⟩ := feed_frame s s.flow.resendPackets
      dsimp only [UdpPayloadInner.resendTick]
      split
      next hfailed =>
        refine ⟨hcamera.trans h.cameraAddr, hqueue ▸ h.length_le, fun hnone => ?_⟩
        rw [hnone] at hfailed
        exact nomatch hfailed
      next =>
        obtain ⟨hcamera', hqueue'⟩ := updateAck_frame (s.feed s.flow.resendPackets)
        exact .deliver (hcamera'.trans (hcamera.trans h.cameraAddr))
          ((congrArg List.length (hqueue'.trans hqueue)).trans_le h.length_le)
    | ackTick =>
      dsimp only [UdpPayloadInner.ackTick]
      split
      · exact h
      · exact ⟨h.cameraAddr, h.length_le, h.drained⟩

/-! ## The connection without others -/

variable (crates : UdpCrates ρ) (addr : α)

/-- A datagram of someone else arrives, or a task spends a turn on one. -/
def foreign (s : UdpPayloadInner ρ α) : Event α → Bool
  | .arrive source _ => source ≠ addr
  | .next _ => (s.inner.head?.map fun datagram => decide (datagram.1 ≠ addr)).getD false
  | .receive _ => (s.socketOut.head?.map fun item => decide (item.2 ≠ addr)).getD false
  | _ => false

/-- The connection without what is not from the camera. -/
def ofCamera (s : UdpPayloadInner ρ α) : UdpPayloadInner ρ α :=
  { s with
    inner := s.inner.filter fun datagram => datagram.1 = addr
    heard := s.heard.filter fun packet => packet.2 = addr
    socketOut := s.socketOut.filter fun item => item.2 = addr }

/-- What is seen of a connection: the payloads delivered to the application, the packets
    kept for retransmission, the packets sent, acknowledgements included, and
    whether and why it has ended. -/
def observed (s : UdpPayloadInner ρ α) :
    List Bytes × KeyMap UInt32 UdpData × List (BcUdp ρ) × Option UdpError × Option UdpError :=
  (s.threadStream, s.flow.sent, s.socketIn, s.broken, s.ended)

/-- A step that others have no influence on: a datagram of theirs is not an error, the
    queue is not filled by their packets, and the timeout does not depend on them. -/
def Harmless (s : UdpPayloadInner ρ α) : Event α → Prop
  | .next _ => s.ended = none → s.broken = none →
    ∀ source rd inner, s.inner = (source, rd) :: inner →
      match (BcUdpCodex.decodeEof crates () rd).2.2 with
      | .ok none => True
      | .ok (some _) => s.socketOut.length < socketOutCap ∨
          source = addr ∧ ∀ item ∈ s.socketOut, item.2 = addr
      | .error _ => source = addr
  | .checkTimeout now => s.ended = none → s.broken = none →
    (s.recvTimeout ≤ now ↔ (s.ofCamera addr).recvTimeout ≤ now)
  | _ => True

variable {crates addr}

/-! ### What `run` and the other tasks do does not depend on others -/

/-- Reading a batch does not depend on what foreign peers have waiting. -/
theorem ofCamera_feed (s : UdpPayloadInner ρ α) (packets : List UdpData) :
    (s.feed packets).ofCamera addr = (s.ofCamera addr).feed packets := by
  rw [feed, feed, apply_ite (ofCamera addr)]
  rfl

theorem ofCamera_updateAck (s : UdpPayloadInner ρ α) :
    s.updateAck.ofCamera addr = (s.ofCamera addr).updateAck := by
  rw [updateAck, updateAck, show (s.ofCamera addr).flow = s.flow from rfl]
  cases s.flow.buildSendAck <;> rfl

theorem ofCamera_deliver (s : UdpPayloadInner ρ α) :
    s.deliver.ofCamera addr = (s.ofCamera addr).deliver := by
  rw [deliver, deliver, apply_ite (ofCamera addr)]
  rfl

theorem ofCamera_onPacket (s : UdpPayloadInner ρ α) (now : Instant) (item : BcUdp ρ) :
    (s.onPacket now item).ofCamera addr = (s.ofCamera addr).onPacket now item := by
  cases item with
  | discovery _ => rfl
  | ack ack =>
    rw [onPacket, onPacket, apply_ite (ofCamera addr)]
    rfl
  | data data =>
    rw [onPacket, onPacket, show (s.ofCamera addr).flow = s.flow from rfl]
    rcases s.flow.handleData data with ⟨flow, accepted⟩
    cases accepted with
    | true => exact ofCamera_updateAck { s with flow }
    | false => rfl

theorem ofCamera_send (s : UdpPayloadInner ρ α) (item : Bytes) :
    (s.send item).ofCamera addr = (s.ofCamera addr).send item := by
  rw [send, send, ofCamera_deliver, ofCamera_feed]
  rfl

theorem ofCamera_resendTick (s : UdpPayloadInner ρ α) :
    s.resendTick.ofCamera addr = (s.ofCamera addr).resendTick := by
  rw [resendTick, resendTick, show (s.ofCamera addr).flow = s.flow from rfl, ← ofCamera_feed,
    ← ofCamera_updateAck, ← ofCamera_deliver, apply_ite (ofCamera addr)]
  rfl

theorem ofCamera_ackTick (s : UdpPayloadInner ρ α) :
    s.ackTick.ofCamera addr = (s.ofCamera addr).ackTick := by
  rw [ackTick, ackTick, apply_ite (ofCamera addr)]
  rfl

/-- Taking a packet of someone else changes nothing for the camera. -/
theorem ofCamera_receive (h : Wf addr s) (hended : s.ended = none) (now : Instant) :
    (s.receive now).ofCamera addr =
      if s.foreign addr (.receive now) then s.ofCamera addr else (s.ofCamera addr).receive now := by
  obtain rfl := h.cameraAddr
  rw [receive, foreign]
  cases hqueue : s.socketOut with
  | nil =>
    have hview : (s.ofCamera s.cameraAddr).socketOut = [] := by rw [ofCamera, hqueue]; rfl
    rw [List.head?_nil, Option.map_none, Option.getD_none, if_neg Bool.false_ne_true, receive,
      hview, apply_ite (ofCamera s.cameraAddr)]
    rfl
  | cons packet socketOut =>
    obtain ⟨item, source⟩ := packet
    rw [List.head?_cons, Option.map_some, Option.getD_some]
    dsimp only
    by_cases hsource : source = s.cameraAddr
    · have hview : (s.ofCamera s.cameraAddr).socketOut =
          (item, source) :: socketOut.filter fun item => item.2 = s.cameraAddr := by
        simp [ofCamera, hqueue, hsource]
      rw [if_pos hsource, decide_eq_false (not_not_intro hsource), if_neg Bool.false_ne_true,
        receive, hview, ofCamera_deliver, ofCamera_onPacket]
      exact (if_pos hsource).symm
    · -- Nothing was complete after the last turn.
      have hdrained : deliver { s with socketOut } = { s with socketOut } :=
        deliver_of_none (h.drained hended)
      have hview : s.socketOut.filter (fun item => item.2 = s.cameraAddr) =
          socketOut.filter fun item => item.2 = s.cameraAddr := by
        simp [hqueue, hsource]
      rw [if_neg hsource, decide_eq_true hsource, if_pos rfl, hdrained, ofCamera, ofCamera, hview]

/-! ### The task of the socket -/

/-- A datagram of the camera stays at the head when the foreign ones are removed. -/
theorem ofCamera_inner {source : α} {rd : Bytes} {inner : List (α × Bytes)}
    (h : s.inner = (source, rd) :: inner) (hsource : source = addr) :
    (s.ofCamera addr).inner = (source, rd) :: inner.filter fun datagram => datagram.1 = addr := by
  simp [ofCamera, h, hsource]

/-- The head of the input is foreign if its sender is not the camera. -/
theorem foreign_next {source : α} {rd : Bytes} {inner : List (α × Bytes)}
    (h : s.inner = (source, rd) :: inner) (now : Instant) :
    s.foreign addr (.next now) = decide (source ≠ addr) := by
  rw [foreign, h]
  rfl

/-- A packet of the camera is queued as it would be without others. -/
theorem ofCamera_next_camera {source : α} {rd : Bytes} {inner : List (α × Bytes)}
    (hinner : s.inner = (source, rd) :: inner) (hsource : source = addr)
    (hfull : ∀ packet, (BcUdpCodex.decodeEof crates () rd).2.2 = .ok (some packet) →
      s.socketOut.length < socketOutCap ∨ ∀ item ∈ s.socketOut, item.2 = addr) (now : Instant) :
    (s.next crates now).ofCamera addr = (s.ofCamera addr).next crates now := by
  rw [next_cons hinner, next_cons (ofCamera_inner hinner hsource)]
  rcases hdecode : BcUdpCodex.decodeEof crates () rd with ⟨_, rest, _ | _ | packet⟩
  · rfl
  · rfl
  · rw [hdecode] at hfull
    dsimp only
    rcases hfull packet rfl with hlt | hall
    · have hlt' : (s.ofCamera addr).socketOut.length < socketOutCap :=
        (List.length_filter_le _ _).trans_lt hlt
      rw [if_pos hlt, if_pos hlt']
      simp [ofCamera, hsource]
    · have hview : (s.ofCamera addr).socketOut = s.socketOut :=
        List.filter_eq_self.2 fun item hitem => decide_eq_true (hall item hitem)
      rw [hview]
      split
      · simp [ofCamera, hsource]
        exact fun item source hitem => hall _ hitem
      · simp [ofCamera, hsource]
        exact fun item source hitem => hall _ hitem

/-- A packet of someone else changes nothing for the camera. -/
theorem ofCamera_next_foreign {source : α} {rd : Bytes} {inner : List (α × Bytes)}
    (hinner : s.inner = (source, rd) :: inner) (hsource : source ≠ addr)
    (hok : ∀ e, (BcUdpCodex.decodeEof crates () rd).2.2 ≠ .error e)
    (hroom : ∀ packet, (BcUdpCodex.decodeEof crates () rd).2.2 = .ok (some packet) →
      s.socketOut.length < socketOutCap) (now : Instant) :
    (s.next crates now).ofCamera addr = s.ofCamera addr := by
  rw [next_cons hinner]
  rcases hdecode : BcUdpCodex.decodeEof crates () rd with ⟨_, rest, e | _ | packet⟩
  · exact absurd (congrArg (·.2.2) hdecode) (hok e)
  · simp [ofCamera, hinner, hsource]
  · rw [hdecode] at hroom
    dsimp only
    rw [if_pos (hroom packet rfl)]
    simp [ofCamera, hinner, hsource]

/-! ## Runs with and without others -/

/-- Without the foreign datagrams a step is either nothing or the same step, as long as none of them
    ends the task. -/
theorem ofCamera_step (h : Wf addr s) (event : Event α) (hharmless : Harmless crates addr s event) :
    (s.step crates event).ofCamera addr =
      if s.foreign addr event then s.ofCamera addr else (s.ofCamera addr).step crates event := by
  unfold step
  by_cases hended : s.ended.isSome
  · rw [if_pos hended, if_pos (show (s.ofCamera addr).ended.isSome from hended), ite_self]
  rw [if_neg hended, if_neg (show ¬ (s.ofCamera addr).ended.isSome from hended)]
  have hnone : s.ended = none := by simpa using hended
  cases event with
  | arrive source bytes =>
    by_cases hsource : source = addr <;> simp [ofCamera, foreign, hsource]
  | next now =>
    dsimp only
    by_cases hbroken : s.broken.isSome
    · rw [if_pos hbroken, if_pos (show (s.ofCamera addr).broken.isSome from hbroken), ite_self]
    rw [if_neg hbroken, if_neg (show ¬ (s.ofCamera addr).broken.isSome from hbroken)]
    cases hinner : s.inner with
    | nil =>
      rw [next, hinner, foreign, hinner, next,
        show (s.ofCamera addr).inner = [] by rw [ofCamera, hinner]; rfl]
      rfl
    | cons datagram inner =>
      obtain ⟨source, rd⟩ := datagram
      have hread := hharmless hnone (by simpa using hbroken) source rd inner hinner
      rw [foreign_next hinner]
      by_cases hsource : source = addr
      · rw [decide_eq_false (not_not_intro hsource), if_neg Bool.false_ne_true]
        refine ofCamera_next_camera hinner hsource (fun packet hpacket => ?_) now
        rw [hpacket] at hread
        exact hread.imp_right And.right
      · rw [decide_eq_true hsource, if_pos rfl]
        refine ofCamera_next_foreign hinner hsource (fun e he => ?_) (fun packet hpacket => ?_) now
        · rw [he] at hread
          exact hsource hread
        · rw [hpacket] at hread
          exact hread.resolve_right fun hcamera => hsource hcamera.1
  | checkTimeout now =>
    rw [show s.foreign addr (.checkTimeout now) = false from rfl, if_neg Bool.false_ne_true]
    dsimp only
    by_cases hbroken : s.broken.isSome
    · rw [if_pos hbroken, if_pos (show (s.ofCamera addr).broken.isSome from hbroken)]
    rw [if_neg hbroken, if_neg (show ¬ (s.ofCamera addr).broken.isSome from hbroken)]
    rw [checkTimeout, checkTimeout, apply_ite (ofCamera addr)]
    exact if_congr (hharmless hnone (by simpa using hbroken)) rfl rfl
  | receive now => exact ofCamera_receive h hnone now
  | send item => exact ofCamera_send s item
  | resendTick => exact ofCamera_resendTick s
  | ackTick => exact ofCamera_ackTick s

/-- Harm shows: the connection breaks, or stays up, where it would not without others. -/
theorem harmless_of_observed (h : Wf addr s) (event : Event α)
    (hobs : (s.step crates event).observed =
      (if s.foreign addr event then s.ofCamera addr
        else (s.ofCamera addr).step crates event).observed) :
    Harmless crates addr s event := by
  -- Of what a peer can observe, the broken socket is enough to decide.
  have hsame := congrArg (fun o => o.2.2.2.1) hobs
  cases event with
  | next now =>
    intro hended hbroken source rd inner hinner
    have hstep (t : UdpPayloadInner ρ α) (hended : t.ended = none) (hbroken : t.broken = none) :
        (t.step crates (.next now)) = t.next crates now := by
      unfold step
      rw [hended, hbroken]
      rfl
    have hnext := broken_next crates hinner hbroken now
    rw [hstep s hended hbroken, foreign_next hinner] at hsame
    -- A datagram of the camera is decoded in both runs, and a full queue is full in both.
    by_cases hsource : source = addr
    · rw [decide_eq_false (not_not_intro hsource), if_neg Bool.false_ne_true,
        hstep _ (show (s.ofCamera addr).ended = none from hended) hbroken] at hsame
      have hview := broken_next crates (ofCamera_inner hinner hsource) hbroken now
      dsimp only [observed] at hsame
      rw [← hsame, hnext] at hview
      generalize (BcUdpCodex.decodeEof crates () rd).2.2 = decoded at hview ⊢
      cases decoded with
      | error e => exact hsource
      | ok packet =>
        cases packet with
        | none => exact True.intro
        | some packet =>
          refine or_iff_not_imp_left.2 fun hfull => ⟨hsource, fun item hitem => ?_⟩
          -- The queue is full without others as well, so there are none in it.
          have hlen : (s.ofCamera addr).socketOut.length = s.socketOut.length :=
            le_antisymm (List.length_filter_le _ _)
              (h.length_le.trans (Nat.not_lt.1 fun hlt => hfull (hview.2 hlt)))
          exact of_decide_eq_true (List.length_filter_eq_length_iff.1 hlen item hitem)
    -- A foreign datagram must not break the socket, so it decodes or it is nothing at all.
    · rw [decide_eq_true hsource, if_pos rfl] at hsame
      have hnone : (s.next crates now).broken = none := hsame.trans hbroken
      rw [hnext] at hnone
      cases hdecode : (BcUdpCodex.decodeEof crates () rd).2.2 with
      | error e =>
        rw [hdecode] at hnone
        exact hnone.elim
      | ok packet =>
        rw [hdecode] at hnone
        cases packet with
        | none => exact True.intro
        | some packet => exact .inl hnone
  | checkTimeout now =>
    intro hended hbroken
    have hstep (t : UdpPayloadInner ρ α) (hended : t.ended = none) (hbroken : t.broken = none) :
        (t.step crates (.checkTimeout now)).broken = none ↔ ¬ t.recvTimeout ≤ now := by
      have heq : t.step crates (.checkTimeout now) = t.checkTimeout now := by
        unfold step
        rw [if_neg (by simp [hended])]
        exact if_neg (by simp [hbroken])
      rw [heq, checkTimeout]
      split
      next hle => exact iff_of_false nofun (not_not_intro hle)
      next hnle => exact iff_of_true hbroken hnle
    -- The timeout is the same with and without the foreign datagrams.
    have hview := hstep (s.ofCamera addr) hended hbroken
    rw [show s.foreign addr (.checkTimeout now) = false from rfl,
      if_neg Bool.false_ne_true] at hsame
    dsimp only [observed] at hsame
    rw [← hsame, hstep s hended hbroken] at hview
    exact not_iff_not.1 hview
  | arrive | receive | send | resendTick | ackTick => exact True.intro

/-- The run without the datagrams of others, and the turns spent on them. -/
def withoutForeign (crates : UdpCrates ρ) (addr : α) (s : UdpPayloadInner ρ α)
    (events : List (Event α)) : List (Event α) :=
  Purge.purge (step crates) (fun s event => s.foreign addr event) s events

/-- A task takes something that has arrived. -/
def Event.isTurn : Event α → Bool
  | .next _ | .receive _ => true
  | _ => false

/-- A datagram of someone else. -/
def Event.isForeign (addr : α) : Event α → Bool
  | .arrive source _ => source ≠ addr
  | _ => false

/-- The datagrams of others make no difference, at any time of a run, exactly if each of
    its steps is harmless: none of them is an error or fills the queue, and the receive
    timeout does not depend on them. The run without them has the same other events, of
    which it leaves out only turns spent on them. -/
theorem foreign_inert_iff (crates : UdpCrates ρ) (addr : α) (clientId cameraId : Int32)
    (now : Instant) (events : List (Event α)) :
    (withoutForeign crates addr (new addr clientId cameraId now) events).filter (!·.isTurn) =
        (events.filter (!·.isTurn)).filter (!·.isForeign addr) ∧
      ((∀ before, before <+: events →
          (run crates (new addr clientId cameraId now) before).observed =
            (run crates (new addr clientId cameraId now)
              (withoutForeign crates addr (new addr clientId cameraId now) before)).observed) ↔
        Past.Always (fun before event =>
          Harmless crates addr (run crates (new addr clientId cameraId now) before) event)
          events) := by
  constructor
  · refine Purge.filter_purge (fun s event hkeep => ?_) _ events
    cases event with
    | next | receive => exact nomatch hkeep
    | arrive | checkTimeout | send | resendTick | ackTick => exact (Bool.not_not _).symm
  · exact Purge.forall_obs_iff (ofCamera addr) (wf_new clientId cameraId now)
      (fun s event hs => hs.step crates event) (fun s event hs => ofCamera_step hs event)
      (fun _ => rfl) (fun s event hs => harmless_of_observed hs event) events

/-- A single byte from anywhere. -/
def strayByte : List (Event ℕ) := [.arrive 2 [0], .next 0]

/-- A single byte from anywhere ends the connection. -/
theorem broken_strayByte_ne :
    (run sampleUdpCrates (new 1 7 9 0) strayByte).broken = some (.codec .bytesRemaining) ∧
      (run sampleUdpCrates (new 1 7 9 0)
        (withoutForeign sampleUdpCrates 1 (new 1 7 9 0) strayByte)).broken = none := by
  decide +kernel

end Bairelay.UdpPayloadInner
