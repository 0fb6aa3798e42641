import Bairelay.Udp.Acks
import Bairelay.Udp.Link

/-!
# The end of the packet ids

Two flows that have been in use for a long time, with all packets delivered so far, at the same
packet id. The counters go on at zero behind the largest id (`wrapping_add`), while packets and
acknowledgements are compared by the plain order.

* `survives_iff`: the flows go on just as long as no packet has got the largest id.
-/

namespace Bairelay

namespace Link

/-- Both sides are at the packet `n`, with nothing under way. -/
structure AtPacket (n : UInt32) (l : Link) : Prop where
  clientId_eq : l.sender.clientId = l.receiver.cameraId
  cameraId_eq : l.sender.cameraId = l.receiver.clientId
  packetsSent_eq : l.sender.packetsSent = n
  packetsWant_eq : l.receiver.packetsWant = n
  sent_eq : l.sender.sent = ∅
  received_eq : l.receiver.received = ∅
  enqueued_eq : l.enqueued = []
  acks_eq : l.acks = []
  drained_eq : l.drained = []

/-- A packet that was enqueued, and not too far ahead of what was delivered. -/
def InWindow (l : Link) (i : ℕ) (data : UdpData) : Prop :=
  l.enqueued[i]? = some data ∧ i < l.drained.length + reorderCap

/-- A step of one of the two sides. The packets of the network arrive in any order within the
    reorder window. -/
inductive WindowStep : Link → Link → Prop
  | enqueue (l : Link) (payload : Bytes) : WindowStep l (l.enqueue payload)
  | deliver (l : Link) {i : ℕ} {data : UdpData} : l.InWindow i data → WindowStep l (l.deliver data)
  | drain (l : Link) : WindowStep l l.drain
  | emitAck (l : Link) {ack : UdpAck} : l.receiver.buildSendAck = some ack →
    WindowStep l (l.emitAck ack)
  | receiveAck (l : Link) {ack : UdpAck} (now : Instant) : ack ∈ l.acks →
    WindowStep l (l.receiveAck ack now)

/-- A packet that is kept is sent again, or the receiver delivers what it can. -/
inductive Recovery : Link → Link → Prop
  | resend (l : Link) {i : ℕ} {data : UdpData} : l.InWindow i data →
    data ∈ l.sender.resendPackets → Recovery l (l.deliver data)
  | drain (l : Link) : Recovery l l.drain

/-- No packet is lost. -/
structure Survives (l : Link) : Prop where
  /-- All payloads can still be delivered, in order. -/
  drainable : ∃ l', Relation.ReflTransGen Recovery l l' ∧
    l'.drained = l.enqueued.map UdpData.payload
  /-- A packet that is still to be delivered is buffered, or accepted when it arrives. -/
  accepted : ∀ i data, l.InWindow i data → l.drained.length ≤ i →
    l.receiver.received[data.packetId]? = some data.payload ∨ (l.receiver.handleData data).2 = true
  /-- What was delivered is acknowledged next. -/
  acknowledges : ∀ ack, l.receiver.buildSendAck = some ack →
    ∀ i data, l.enqueued[i]? = some data → i < l.drained.length → ack.Acknowledges data.packetId
  /-- What is acknowledged is not kept. -/
  released : ∀ ack ∈ l.acks, ∀ now k, ack.Acknowledges k →
    (l.sender.handleAck ack now).sent[k]? = none

variable {n : UInt32} {l l' : Link}

/-! ## The receiver does not wrap -/

/-- The receiver has delivered the packets from the first one on. -/
structure Counts (n : UInt32) (l : Link) : Prop where
  wf : l.receiver.Wf
  want : l.receiver.packetsWant.toNat = n.toNat + l.drained.length

/-- Draining leaves the counts of both sides alone. -/
theorem Counts.drain (hl : Counts n l) : Counts n l.drain := by
  refine UdpFlowState.drainContiguous_induction (motive := fun s r => ∀ l : Link,
    l.receiver = s → Counts n l →
      Counts n { l with receiver := r.1, drained := l.drained ++ r.2 })
    ?_ ?_ l.receiver l rfl hl
  · rintro s - l rfl hl
    simpa using hl
  · rintro s payload r h ih l rfl hl
    have hnext := hl.wf.toNat_packetsWant_deliverNext h
    have hwant := hl.want
    simpa using ih { l with
      receiver := l.receiver.deliverNext, drained := l.drained ++ [payload] } rfl
      ⟨hl.wf.deliverNext h, by
        rw [List.length_append, List.length_singleton]
        exact hnext.trans (by omega)⟩

theorem Counts.step (hl : Counts n l) (h : WindowStep l l') : Counts n l' := by
  cases h with
  | enqueue payload => exact ⟨hl.wf, hl.want⟩
  | deliver hdata =>
    exact ⟨hl.wf.handleData _, (congrArg _ (UdpFlowState.handleData_packetsWant _ _)).trans hl.want⟩
  | drain => exact hl.drain
  | emitAck hack => exact ⟨hl.wf, hl.want⟩
  | receiveAck now hack => exact ⟨hl.wf, hl.want⟩

theorem AtPacket.counts (h : AtPacket n l) : Counts n l := by
  refine ⟨⟨fun {k payload} hk => ?_, fun {k payload} hk => ?_⟩, ?_⟩
  · rw [h.received_eq, Std.ExtTreeMap.getElem?_empty] at hk
    cases hk
  · rw [h.received_eq, Std.ExtTreeMap.getElem?_empty] at hk
    cases hk
  · rw [h.packetsWant_eq, h.drained_eq, List.length_nil, Nat.add_zero]

/-- A recovery is made of steps with a window. -/
theorem Recovery.windowStep (h : Recovery l l') : WindowStep l l' := by
  cases h with
  | resend hdata _ => exact .deliver l hdata
  | drain => exact .drain l

/-! ## As long as no packet has the largest id -/

/-- The packets have the ids from `n` on, up to the largest one at most. -/
def Fits (n : UInt32) (l : Link) : Prop := n.toNat + l.enqueued.length ≤ 2 ^ 32 - 1

/-- What holds as long as the ids do not wrap. -/
structure Unwrapped (n : UInt32) (l : Link) : Prop where
  counts : Counts n l
  cameraId_eq : l.sender.cameraId = l.receiver.clientId
  /-- The packets are numbered in the order they were enqueued. -/
  numbered : ∀ (i : ℕ) (data : UdpData), l.enqueued[i]? = some data →
    data.packetId.toNat = n.toNat + i ∧ data.connectionId = l.receiver.clientId
  count : l.sender.packetsSent.toNat = n.toNat + l.enqueued.length
  delivered : l.drained <+: l.enqueued.map UdpData.payload
  /-- What is buffered was enqueued, and is in the window. -/
  buffered : ∀ (k : UInt32) payload, l.receiver.received[k]? = some payload →
    ∃ i data, l.InWindow i data ∧ l.drained.length ≤ i ∧ data.packetId = k ∧ data.payload = payload
  /-- A packet is kept until the receiver has it. -/
  kept : ∀ (i : ℕ) (data : UdpData), l.enqueued[i]? = some data →
    l.sender.sent[data.packetId]? = some data ∨ l.receiver.Has data.packetId
  /-- The receiver has what it has acknowledged. -/
  acked : ∀ ack ∈ l.acks, (ack.packetId = Word32.maxValue ∨ ¬ack.Crosses) ∧
    ∀ k, ack.Acknowledges k → l.receiver.Has k

/-- A link at packet `n` whose ids fit has not wrapped. -/
theorem AtPacket.unwrapped (h : AtPacket n l) : Unwrapped n l where
  counts := h.counts
  cameraId_eq := h.cameraId_eq
  numbered i data hi := by simp [h.enqueued_eq] at hi
  count := by rw [h.packetsSent_eq, h.enqueued_eq, List.length_nil, Nat.add_zero]
  delivered := by
    rw [h.drained_eq]
    exact List.nil_prefix
  buffered k payload hk := by simp [h.received_eq] at hk
  kept i data hi := by simp [h.enqueued_eq] at hi
  acked ack hack := by simp [h.acks_eq] at hack

namespace Unwrapped

theorem drained_length_le (hl : Unwrapped n l) : l.drained.length ≤ l.enqueued.length := by
  have := hl.delivered.length_le
  rwa [List.length_map] at this

/-- A chunk with an id to spare keeps the ids unwrapped. -/
theorem enqueueChunk (hl : Unwrapped n l)
    (hroom : n.toNat + l.enqueued.length < 2 ^ 32 - 1) (chunk : Bytes) (payloads : List Bytes) :
    Unwrapped n { l with
      sender := (l.sender.enqueueChunk chunk).1
      payloads := payloads
      enqueued := l.enqueued ++ [(l.sender.enqueueChunk chunk).2] } where
  counts := ⟨hl.counts.wf, hl.counts.want⟩
  cameraId_eq := hl.cameraId_eq
  numbered i data hi := by
    rw [List.getElem?_append] at hi
    split at hi
    · exact hl.numbered i data hi
    next hlt =>
      obtain ⟨hlen, rfl⟩ := List.getElem?_eq_some_iff.1 hi
      obtain rfl : i = l.enqueued.length := by simp at hlen; omega
      simp [UdpFlowState.enqueueChunk, hl.count, hl.cameraId_eq]
  count := by
    have := hl.count
    rw [List.length_append, List.length_singleton, UdpFlowState.enqueueChunk, UInt32.toNat_add,
      UInt32.toNat_one, Nat.mod_eq_of_lt (by omega)]
    omega
  delivered := by
    simp only [List.map_append]
    exact hl.delivered.trans (List.prefix_append _ _)
  buffered k payload hk := by
    obtain ⟨i, data, ⟨hi, hwindow⟩, h⟩ := hl.buffered k payload hk
    exact ⟨i, data, ⟨(List.getElem?_append_left (List.getElem?_eq_some_iff.1 hi).1).trans hi,
      hwindow⟩, h⟩
  kept i data hi := by
    rw [List.getElem?_append] at hi
    split at hi
    · next hlt =>
      refine (hl.kept i data hi).imp (fun hsent => ?_) id
      -- The new id is none of the old ones.
      have hne : l.sender.packetsSent ≠ data.packetId := by
        intro e
        have := (hl.numbered i data hi).1
        rw [← e, hl.count] at this
        omega
      rw [UdpFlowState.enqueueChunk, KeyMap.lookup_insert, if_neg hne]
      exact hsent
    · obtain rfl := List.mem_singleton.1 (List.mem_of_getElem? hi)
      left
      rw [UdpFlowState.enqueueChunk, KeyMap.lookup_insert, if_pos rfl]
  acked := hl.acked

theorem enqueueChunks (hl : Unwrapped n l) (chunks : List Bytes) (payloads : List Bytes)
    (hfits : n.toNat + (l.enqueued ++ (l.sender.enqueueChunks chunks).2).length ≤ 2 ^ 32 - 1) :
    Unwrapped n { l with
      sender := (l.sender.enqueueChunks chunks).1
      payloads := payloads
      enqueued := l.enqueued ++ (l.sender.enqueueChunks chunks).2 } := by
  induction chunks generalizing l with
  | nil =>
    simp only [UdpFlowState.enqueueChunks, List.append_nil]
    exact { hl with counts := ⟨hl.counts.wf, hl.counts.want⟩ }
  | cons chunk chunks ih =>
    simp only [UdpFlowState.enqueueChunks] at hfits ⊢
    rw [List.append_cons] at hfits ⊢
    refine ih (hl.enqueueChunk ?_ chunk l.payloads) hfits
    simp only [List.length_append, List.length_singleton] at hfits
    omega

/-- A packet of the window is stored at its own place. -/
theorem deliver (hl : Unwrapped n l) {i : ℕ} {data : UdpData} (hdata : l.InWindow i data) :
    Unwrapped n (l.deliver data) := by
  have hhas : ∀ k, l.receiver.Has k → (l.deliver data).receiver.Has k :=
    fun k hk => (UdpFlowState.has_handleData l.receiver data).2 (.inl hk)
  have hcounts := hl.counts.step (.deliver l hdata)
  rcases UdpFlowState.handleData_cases l.receiver data with h | ⟨-, -, hle, -, h⟩
  · rw [Link.deliver, h]
    exact hl
  · have hstill : (l.deliver data).receiver.clientId = l.receiver.clientId := by
      rw [Link.deliver, h]
    exact {
      counts := hcounts
      cameraId_eq := hl.cameraId_eq.trans hstill.symm
      numbered := fun j d hj => hstill.symm ▸ hl.numbered j d hj
      count := hl.count
      delivered := hl.delivered
      buffered := by
        intro k payload hk
        rw [Link.deliver, h, KeyMap.lookup_insert] at hk
        split at hk
        · next e =>
          refine ⟨i, data, hdata, ?_, e, Option.some.inj hk⟩
          have hid := (hl.numbered i data hdata.1).1
          rw [UInt32.le_iff_toNat_le, hl.counts.want, hid] at hle
          exact Nat.le_of_add_le_add_left hle
        · exact hl.buffered k payload hk
      kept := fun j d hj => (hl.kept j d hj).imp id (hhas _)
      acked := fun ack hack => (hl.acked ack hack).imp id fun hacked k hk => hhas k (hacked k hk) }

/-- One turn of draining. -/
theorem deliverNext (hl : Unwrapped n l) {payload : Bytes}
    (h : l.receiver.received[l.receiver.packetsWant]? = some payload) :
    Unwrapped n { l with
      receiver := l.receiver.deliverNext
      drained := l.drained ++ [payload] } := by
  obtain ⟨i, data, ⟨hi, -⟩, hle, hid, rfl⟩ := hl.buffered _ _ h
  have hwant := hl.counts.want
  have hnumber := (hl.numbered i data hi).1
  have hnext := hl.counts.wf.toNat_packetsWant_deliverNext h
  -- The wanted packet is the first one that was not delivered.
  obtain rfl : i = l.drained.length := by
    rw [hid, hwant] at hnumber
    omega
  have hhas : ∀ k, l.receiver.Has k → l.receiver.deliverNext.Has k :=
    fun k hk => (hl.counts.wf.has_deliverNext h).2 hk
  exact {
    counts := ⟨hl.counts.wf.deliverNext h, by
      rw [List.length_append, List.length_singleton]
      exact hnext.trans (by omega)⟩
    cameraId_eq := hl.cameraId_eq
    numbered := hl.numbered
    count := hl.count
    delivered := by
      obtain ⟨rest, hrest⟩ := hl.delivered
      have hget : (l.enqueued.map UdpData.payload)[l.drained.length]? = some data.payload := by
        rw [List.getElem?_map, hi, Option.map_some]
      rw [← hrest, List.getElem?_append_right (le_refl _), Nat.sub_self] at hget
      obtain ⟨rest', rfl⟩ := List.head?_eq_some_iff.1 (List.head?_eq_getElem? ▸ hget)
      exact ⟨rest', by rw [← hrest]; simp⟩
    buffered := by
      intro k payload hk
      rw [UdpFlowState.deliverNext, KeyMap.lookup_erase] at hk
      split at hk
      · cases hk
      next hne =>
        obtain ⟨j, d, ⟨hj, hwindow⟩, hlej, rfl, hp⟩ := hl.buffered k payload hk
        have hnej : j ≠ l.drained.length := by
          rintro rfl
          rw [hi] at hj
          exact hne (hid.symm.trans (congrArg _ (Option.some.inj hj)))
        refine ⟨j, d, ⟨hj, ?_⟩, ?_, rfl, hp⟩ <;>
          simp only [List.length_append, List.length_singleton] <;> omega
    kept := fun j d hj => (hl.kept j d hj).imp id (hhas _)
    acked := fun ack hack => (hl.acked ack hack).imp id fun hacked k hk => hhas k (hacked k hk) }

theorem drain (hl : Unwrapped n l) : Unwrapped n l.drain := by
  -- By induction on the turns of the loop, for the link after each of them.
  refine UdpFlowState.drainContiguous_induction (motive := fun s r => ∀ l : Link,
    l.receiver = s → Unwrapped n l →
      Unwrapped n { l with receiver := r.1, drained := l.drained ++ r.2 })
    ?_ ?_ l.receiver l rfl hl
  · rintro s - l rfl hl
    simpa using hl
  · rintro s payload r h ih l rfl hl
    simpa using ih _ rfl (hl.deliverNext h)

theorem emitAck (hl : Unwrapped n l) {ack : UdpAck} (h : l.receiver.buildSendAck = some ack) :
    Unwrapped n (l.emitAck ack) := by
  refine { hl with counts := ⟨hl.counts.wf, hl.counts.want⟩, acked := fun ack' hack => ?_ }
  rcases List.mem_append.1 hack with hack | hack
  · exact hl.acked ack' hack
  · obtain rfl := List.mem_singleton.1 hack
    refine ⟨?_, fun k hk => UdpFlowState.buildSendAck_sound h hk⟩
    by_cases hwant : 0 < l.receiver.packetsWant
    · obtain ⟨built, hbuilt, hexact⟩ := hl.counts.wf.acknowledged_buildSendAck hwant
      rw [hbuilt] at h
      obtain rfl := Option.some.inj h
      exact .inr hexact.notCrosses
    · rw [UdpFlowState.buildSendAck, if_neg hwant] at h
      obtain rfl := Option.some.inj h
      exact .inl rfl

theorem receiveAck (hl : Unwrapped n l) {ack : UdpAck} (hack : ack ∈ l.acks) (now : Instant) :
    Unwrapped n (l.receiveAck ack now) :=
  { hl with
    counts := ⟨hl.counts.wf, hl.counts.want⟩
    cameraId_eq := (UdpFlowState.handleAck_cameraId l.sender ack now).trans hl.cameraId_eq
    count := (congrArg _ (UdpFlowState.handleAck_packetsSent l.sender ack now)).trans hl.count
    kept := by
      intro i data hi
      rcases hl.kept i data hi with hsent | hhas
      · rcases UdpFlowState.lookup_sent_handleAck l.sender ack now data.packetId with h | h
        · exact .inl (h.trans hsent)
        · exact .inr ((hl.acked ack hack).2 _ h)
      · exact .inr hhas }

theorem step (hl : Unwrapped n l) (h : WindowStep l l') (hfits : Fits n l') : Unwrapped n l' := by
  cases h with
  | enqueue payload => exact hl.enqueueChunks _ _ hfits
  | deliver hdata => exact hl.deliver hdata
  | drain => exact hl.drain
  | emitAck hack => exact hl.emitAck hack
  | receiveAck now hack => exact hl.receiveAck hack now

/-! ## Nothing is lost -/

/-- There is room for the packets of the window. -/
theorem size_lt (hl : Unwrapped n l) {i : ℕ} {data : UdpData} (hdata : l.InWindow i data)
    (hle : l.drained.length ≤ i) (hnot : l.receiver.received[data.packetId]? ≠ some data.payload) :
    l.receiver.received.size < reorderCap := by
  have hids : ∀ k ∈ l.receiver.received.keys,
      k.toNat ∈ (Finset.Ico (n.toNat + l.drained.length)
        (n.toNat + l.drained.length + reorderCap)).erase (n.toNat + i) := by
    intro k hk
    rw [Std.ExtTreeMap.mem_keys, Std.ExtTreeMap.mem_iff_contains,
      KeyMap.contains_iff_lookup] at hk
    obtain ⟨payload, hpayload⟩ := hk
    obtain ⟨j, d, ⟨hj, hwindow⟩, hlej, rfl, rfl⟩ := hl.buffered k payload hpayload
    rw [(hl.numbered j d hj).1, Finset.mem_erase, Finset.mem_Ico]
    refine ⟨fun e => hnot ?_, by omega, by omega⟩
    obtain rfl : j = i := Nat.add_left_cancel e
    rw [hdata.1] at hj
    obtain rfl := Option.some.inj hj
    exact hpayload
  have hnodup : (l.receiver.received.keys.map UInt32.toNat).Nodup :=
    Std.ExtTreeMap.nodup_keys.map fun _ _ e => UInt32.toNat_inj.1 e
  have hmem : n.toNat + i ∈ Finset.Ico (n.toNat + l.drained.length)
      (n.toNat + l.drained.length + reorderCap) := by
    have := hdata.2
    rw [Finset.mem_Ico]
    omega
  have hcard : (l.receiver.received.keys.map UInt32.toNat).toFinset.card ≤
      ((Finset.Ico (n.toNat + l.drained.length)
        (n.toNat + l.drained.length + reorderCap)).erase (n.toNat + i)).card := by
    refine Finset.card_le_card fun k hk => ?_
    obtain ⟨k', hk', rfl⟩ := List.mem_map.1 (List.mem_toFinset.1 hk)
    exact hids k' hk'
  rw [List.toFinset_card_of_nodup hnodup, List.length_map, Std.ExtTreeMap.length_keys,
    Finset.card_erase_of_mem hmem, Nat.card_Ico] at hcard
  have : reorderCap = 1024 := rfl
  omega

/-- A packet of the window is buffered, or accepted. -/
theorem accepted (hl : Unwrapped n l) (hfits : Fits n l) {i : ℕ} {data : UdpData}
    (hdata : l.InWindow i data) (hle : l.drained.length ≤ i) :
    l.receiver.received[data.packetId]? = some data.payload ∨
      l.receiver.handleData data = ({ l.receiver with
        received := l.receiver.received.insert data.packetId data.payload }, true) := by
  by_cases hnot : l.receiver.received[data.packetId]? = some data.payload
  · exact .inl hnot
  · right
    obtain ⟨hid, hconnection⟩ := hl.numbered i data hdata.1
    have hlt := (List.getElem?_eq_some_iff.1 hdata.1).1
    have hmax : data.packetId ≠ Word32.maxValue := by
      intro e
      rw [Fits] at hfits
      rw [e, Word32.toNat_maxValue] at hid
      omega
    have hwant : l.receiver.packetsWant ≤ data.packetId := by
      rw [UInt32.le_iff_toNat_le, hl.counts.want, hid]
      omega
    rw [UdpFlowState.handleData, if_neg (not_not.2 hconnection), if_neg hmax,
      if_pos ⟨hwant, hl.size_lt hdata hle hnot⟩]

/-- The wanted packet is buffered, and the receiver delivers it. -/
theorem length_lt_drain {payload : Bytes}
    (h : l.receiver.received[l.receiver.packetsWant]? = some payload) :
    l.drained.length < l.drain.drained.length := by
  rw [Link.drain, UdpFlowState.drainContiguous_of_some h]
  simp

/-- Some packets that are kept are sent again, and one more packet is delivered. -/
theorem exists_recovery (hl : Unwrapped n l) (hfits : Fits n l)
    (hlt : l.drained.length < l.enqueued.length) :
    ∃ l', Relation.ReflTransGen Recovery l l' ∧ l'.enqueued = l.enqueued ∧
      Unwrapped n l' ∧ l.drained.length < l'.drained.length := by
  obtain ⟨data, hdata⟩ : ∃ data, l.enqueued[l.drained.length]? = some data :=
    ⟨_, List.getElem?_eq_getElem hlt⟩
  have hwindow : l.InWindow l.drained.length data :=
    ⟨hdata, Nat.lt_add_of_pos_right (by decide)⟩
  have hid : data.packetId = l.receiver.packetsWant :=
    UInt32.toNat_inj.1 ((hl.numbered _ _ hdata).1.trans hl.counts.want.symm)
  rcases hl.accepted hfits hwindow le_rfl with hbuffered | haccepted
  · rw [hid] at hbuffered
    exact ⟨l.drain, .single (.drain l), rfl, hl.drain, length_lt_drain hbuffered⟩
  · by_cases hbuffered : ∃ payload, l.receiver.received[l.receiver.packetsWant]? = some payload
    · obtain ⟨payload, hpayload⟩ := hbuffered
      exact ⟨l.drain, .single (.drain l), rfl, hl.drain, length_lt_drain hpayload⟩
    · -- The packet was not acknowledged, so it is kept.
      have hkept : data ∈ l.sender.resendPackets := by
        rcases hl.kept _ _ hdata with hsent | hlt | hcontains
        · exact KeyMap.mem_values.2 ⟨_, hsent⟩
        · rw [hid] at hlt
          exact absurd hlt (UInt32.lt_irrefl _)
        · rw [hid, KeyMap.contains_iff_lookup] at hcontains
          exact absurd hcontains hbuffered
      have hdelivered : (l.deliver data).receiver.received[(l.deliver data).receiver.packetsWant]? =
          some data.payload := by
        rw [Link.deliver, haccepted, KeyMap.lookup_insert, if_pos hid]
      exact ⟨(l.deliver data).drain, .tail (.single (.resend l hwindow hkept)) (.drain _), rfl,
        (hl.deliver hwindow).drain, length_lt_drain hdelivered⟩

/-- From such a link everything enqueued can still be drained. -/
theorem drainable (hl : Unwrapped n l) (hfits : Fits n l) :
    ∃ l', Relation.ReflTransGen Recovery l l' ∧ l'.drained = l.enqueued.map UdpData.payload := by
  induction hm : l.enqueued.length - l.drained.length using Nat.strongRecOn generalizing l with
  | ind m ih =>
    by_cases hlt : l.drained.length < l.enqueued.length
    · obtain ⟨l', hrecovery, henqueued, hl', hmore⟩ := hl.exists_recovery hfits hlt
      have hfits' : Fits n l' := by rwa [Fits, henqueued]
      obtain ⟨l'', hrecovery', hall⟩ :=
        ih (l'.enqueued.length - l'.drained.length) (by rw [henqueued]; omega) hl' hfits' rfl
      exact ⟨l'', hrecovery.trans hrecovery', by rw [hall, henqueued]⟩
    · refine ⟨l, .refl, hl.delivered.eq_of_length ?_⟩
      rw [List.length_map]
      exact le_antisymm hl.drained_length_le (not_lt.1 hlt)

theorem survives (hl : Unwrapped n l) (hfits : Fits n l) : l.Survives where
  drainable := hl.drainable hfits
  accepted i data hdata hle := (hl.accepted hfits hdata hle).imp id fun h => by rw [h]
  acknowledges ack hack i data hi hlt := by
    have hdelivered : data.packetId < l.receiver.packetsWant := by
      rw [UInt32.lt_iff_toNat_lt, hl.counts.want, (hl.numbered i data hi).1]
      omega
    have hpos : 0 < l.receiver.packetsWant := UInt32.lt_of_le_of_lt UInt32.zero_le hdelivered
    obtain ⟨built, hbuilt, hexact⟩ := hl.counts.wf.acknowledged_buildSendAck hpos
    rw [hbuilt] at hack
    obtain rfl := Option.some.inj hack
    refine ⟨UdpFlowState.not_crosses_maxValue hexact.notCrosses, .inl ?_⟩
    exact hexact.greatest _ fun k hk => .inl (UInt32.lt_of_le_of_lt hk hdelivered)
  released ack hack now k hk := by
    rcases (hl.acked ack hack).1 with hmax | hcrosses
    · exact absurd hmax hk.1
    · obtain ⟨hmarked, hnot⟩ := UdpFlowState.lookup_sent_of_not_crosses l.sender now hcrosses k
      by_cases hmarks : ack.Marks k
      · exact hmarked hmarks
      · rw [hnot hmarks, if_neg (UInt32.not_lt.2 (hk.2.resolve_right hmarks))]

end Unwrapped

/-! ## Behind the largest id -/

theorem WindowStep.length_le (h : WindowStep l l') : l.enqueued.length ≤ l'.enqueued.length := by
  cases h <;> simp [Link.enqueue, Link.deliver, Link.drain, Link.emitAck, Link.receiveAck]

/-- A run from packet `n` counts from `n`, and has not wrapped while its ids fit. -/
theorem AtPacket.reachable {start : Link} (hstart : AtPacket n start)
    (h : Relation.ReflTransGen WindowStep start l) :
    Counts n l ∧ (Fits n l → Unwrapped n l) := by
  induction h with
  | refl => exact ⟨hstart.counts, fun _ => hstart.unwrapped⟩
  | tail _ hstep ih =>
    refine ⟨ih.1.step hstep, fun hfits => (ih.2 ?_).step hstep hfits⟩
    exact (Nat.add_le_add_left hstep.length_le _).trans hfits

/-- Were all packets delivered in the end, the receiver would have gone past the largest id. -/
theorem AtPacket.fits_of_survives {start : Link} (hstart : AtPacket n start)
    (h : Relation.ReflTransGen WindowStep start l) (hsurvives : l.Survives) : Fits n l := by
  obtain ⟨l', hrecovery, hall⟩ := hsurvives.drainable
  have hreach : Relation.ReflTransGen WindowStep start l' :=
    h.trans (Relation.ReflTransGen.mono (fun _ _ h => Recovery.windowStep h) l l' hrecovery)
  have hwant := (hstart.reachable hreach).1.want
  have hlt := l'.receiver.packetsWant.toNat_lt
  rw [hall, List.length_map] at hwant
  rw [Fits]
  omega

/-- Two flows that start at the packet `n` lose nothing just as long as no packet has got the
    largest id. -/
theorem survives_iff {start : Link} (hstart : AtPacket n start)
    (h : Relation.ReflTransGen WindowStep start l) :
    l.Survives ↔ n.toNat + l.enqueued.length ≤ 2 ^ 32 - 1 :=
  ⟨hstart.fits_of_survives h, fun hfits => ((hstart.reachable h).2 hfits).survives hfits⟩

/-- Two flows that have delivered all packets up to the last but one id. -/
def old : Link where
  sender := { UdpFlowState.new 7 9 with packetsSent := 0xfffffffe }
  receiver := { UdpFlowState.new 9 7 with packetsWant := 0xfffffffe }
  payloads := []
  enqueued := []
  acks := []
  drained := []

/-- The old link has one packet on the wire before its ids end. -/
theorem old_atPacket : AtPacket 0xfffffffe old := by
  constructor <;> rfl

theorem survives_old : (old.enqueue [1]).Survives :=
  (survives_iff old_atPacket (.single (.enqueue old [1]))).2 (by decide +kernel)

/-- The second packet has the largest id, and the third one the id zero. -/
theorem not_survives_old : ¬∀ (n : UInt32) (start l : Link), AtPacket n start →
    Relation.ReflTransGen WindowStep start l → l.Survives := by
  intro h
  have hsteps : Relation.ReflTransGen WindowStep old
      (((old.enqueue [1]).enqueue [2]).enqueue [3]) :=
    .tail (.tail (.single (.enqueue _ _)) (.enqueue _ _)) (.enqueue _ _)
  have hfits := old_atPacket.fits_of_survives hsteps (h _ _ _ old_atPacket hsteps)
  rw [Fits] at hfits
  exact absurd hfits (by decide +kernel)

end Link

end Bairelay
