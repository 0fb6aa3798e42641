import Bairelay.Connection.Snap

/-!
# Snapshots in any order of steps

Which pictures arrive whole: those of which no chunk is queued for the poller before
the subscription to the message id is (`Snapshot.getSnapshot_iff`). A chunk that comes
earlier finds no subscription, since the client subscribes to the id only once it has
read the reply.

The poller is followed by what it holds for the message id (`Stage`), and the whole by
where the messages of the camera are (`Inv`).
-/

namespace Bairelay

variable {σ : Type}

/-! ## What the poller holds for snapshots -/

/-- What the poller holds for the message id of snapshots, and what it passed on since
    `start`. Entries of dropped subscriptions may be left, unless it has just cleaned up. -/
structure Stage (start p : Poller (Elements σ)) (clean : Bool) (closed : Finset ℕ)
    (own : List (Option UInt16 × ℕ)) (count : ℕ)
    (ds : List (Recipient × Except PollError (Bc (Elements σ)))) : Prop where
  running : p.ended = none
  handlers : p.id[msgIdSnap]? = none
  dropped : p.closed = closed
  requests : p.requests.length = start.requests.length + count
  delivered : p.delivered = start.delivered ++ ds
  entries {n : Option UInt16} {k : ℕ} : p.registered msgIdSnap n = some k →
    clean = false ∧ k ∈ closed ∨ (n, k) ∈ own
  held {n : Option UInt16} {k : ℕ} : (n, k) ∈ own → k ∉ closed →
    p.registered msgIdSnap n = some k

namespace Stage

variable {start p : Poller (Elements σ)} {clean : Bool} {closed : Finset ℕ}
  {own : List (Option UInt16 × ℕ)} {count : ℕ}
  {ds : List (Recipient × Except PollError (Bc (Elements σ)))}

/-- Cleaning up forgets only subscriptions that are closed. -/
theorem cleanUp (h : Stage start p clean closed own count ds) :
    Stage start p.cleanUp true closed own count ds where
  running := h.running
  handlers := h.handlers
  dropped := h.dropped
  requests := h.requests
  delivered := h.delivered
  entries := by
    intro n k hk
    rw [Poller.registered_cleanUp, Option.filter_eq_some_iff, h.dropped] at hk
    rcases h.entries hk.1 with ⟨-, hclosed⟩ | hown
    · exact absurd hclosed (of_decide_eq_true hk.2)
    · exact .inr hown
  held := by
    intro n k hown hopen
    rw [Poller.registered_cleanUp, Option.filter_eq_some_iff, h.dropped]
    exact ⟨h.held hown hopen, decide_eq_true hopen⟩

/-- Another subscriber may go away at any time. -/
theorem drop (h : Stage start p clean closed own count ds) (j : ℕ) :
    Stage start (p.drop j) clean (insert j closed) own count ds where
  running := h.running
  handlers := h.handlers
  dropped := congrArg (insert j) h.dropped
  requests := h.requests
  delivered := h.delivered
  entries := fun hk => (h.entries hk).imp_left fun hc => ⟨hc.1, Finset.mem_insert_of_mem hc.2⟩
  held := fun hown hopen => h.held hown fun hc => hopen (Finset.mem_insert_of_mem hc)

/-- A subscription under a number that is free is registered. -/
theorem addSubscriber {n : Option UInt16} (h : Stage start p true closed own count ds)
    (hfree : ∀ k, (n, k) ∉ own) :
    Stage start (p.handle (.addSubscriber msgIdSnap n)) false closed
      ((n, start.requests.length + count) :: own) (count + 1) ds := by
  rcases Poller.addSubscriber_cases p msgIdSnap n with ha | hno
  · refine ⟨ha.ended.trans h.running, ha.handlers ▸ h.handlers, ha.closed.trans h.dropped, ?_,
      ha.delivered.trans h.delivered, fun {n' k} hk => ?_, fun {n' k} hown hopen => ?_⟩
    · change (p.addSubscriber msgIdSnap n).requests.length = _
      rw [ha.requests, List.length_append, h.requests]
      rfl
    · change (p.addSubscriber msgIdSnap n).registered msgIdSnap n' = some k at hk
      rw [ha.registered] at hk
      split at hk
      next hn =>
        rw [← hn.2, ← Option.some.inj hk, h.requests]
        exact .inr List.mem_cons_self
      next =>
        rcases h.entries hk with ⟨hc, -⟩ | hown
        · exact nomatch hc
        · exact .inr (List.mem_cons_of_mem _ hown)
    · change (p.addSubscriber msgIdSnap n).registered msgIdSnap n' = some k
      rw [ha.registered]
      rcases List.mem_cons.1 hown with hnew | hown
      · obtain ⟨rfl, rfl⟩ := Prod.mk.inj hnew
        rw [if_pos ⟨rfl, rfl⟩, h.requests]
      · rw [if_neg]
        · exact h.held hown hopen
        · rintro ⟨-, rfl⟩
          exact hfree k hown
  · obtain ⟨k, hk, -⟩ := hno.taken
    rcases h.entries hk with ⟨hc, -⟩ | hown
    · exact nomatch hc
    · exact absurd hown (hfree k)

section Message

variable {bc : Bc (Elements σ)} (hid : bc.bcMeta.msgId = msgIdSnap)

include hid

theorem lookup_handler (h : Stage start p clean closed own count ds) :
    p.id[bc.bcMeta.msgId]? = none := by
  rw [hid]
  exact h.handlers

/-- A message goes to the subscription that has its number. -/
theorem direct {k : ℕ} (h : Stage start p true closed own count ds)
    (hown : (some bc.bcMeta.msgNum, k) ∈ own) (hopen : k ∉ closed) :
    Stage start (p.handle (.bc (.ok bc))) false closed own count
      (ds ++ [(.subscription k, .ok bc)]) := by
  obtain ⟨hhandlers, hclosed, hrequests, hended⟩ := Poller.route_frame p bc
  have hk := h.held hown hopen
  have hk' : k ∉ p.closed := h.dropped ▸ hopen
  rw [← hid] at hk
  have hdel : (p.route bc).delivered = p.delivered ++ [(.subscription k, .ok bc)] ∧
      (p.route bc).registered = p.registered := by
    cases Poller.routes_route p bc with
    | handler hh hreg hdel => exact nomatch (h.lookup_handler hid).symm.trans hh
    | direct hh hj _ hreg hdel => exact ⟨Option.some.inj (hj.symm.trans hk) ▸ hdel, hreg⟩
    | upgrade hh hall hj hreg hdel => exact absurd (hall k hk) hk'
    | nobody hh hall hnone hreg hdel => exact absurd (hall k hk) hk'
  refine ⟨hended.trans h.running, hhandlers ▸ h.handlers, hclosed.trans h.dropped,
    hrequests ▸ h.requests, ?_, fun hj => ?_, fun hj hopen => ?_⟩
  · exact hdel.1.trans (by rw [h.delivered, List.append_assoc])
  · rcases h.entries (hdel.2 ▸ hj) with ⟨hc, -⟩ | hj
    · exact nomatch hc
    · exact .inr hj
  · exact hdel.2 ▸ h.held hj hopen

/-- A message goes to the subscription without a number, which gets that of the message. -/
theorem upgrade {k : ℕ} (h : Stage start p true closed ((none, k) :: own) count ds)
    (hopen : k ∉ closed) (hnum : ∀ j, (some bc.bcMeta.msgNum, j) ∉ own)
    (hnone : ∀ j, (none, j) ∉ own) :
    Stage start (p.handle (.bc (.ok bc))) false closed ((some bc.bcMeta.msgNum, k) :: own) count
      (ds ++ [(.subscription k, .ok bc)]) := by
  obtain ⟨hhandlers, hclosed, hrequests, hended⟩ := Poller.route_frame p bc
  -- The subscription without a number is still held, and its owner has not dropped it.
  have hk := h.held List.mem_cons_self hopen
  have hk' : k ∉ p.closed := h.dropped ▸ hopen
  have hfree (j : ℕ) : p.registered msgIdSnap (some bc.bcMeta.msgNum) ≠ some j := by
    intro hj
    rcases h.entries hj with ⟨hc, -⟩ | hj
    · exact nomatch hc
    · rcases List.mem_cons.1 hj with hj | hj
      · exact nomatch hj
      · exact hnum j hj
  -- Of the four ways to route a message only the upgrade is possible.
  have hdel : (p.route bc).delivered = p.delivered ++ [(.subscription k, .ok bc)] ∧
      ∀ n, (p.route bc).registered msgIdSnap n =
        if n = some bc.bcMeta.msgNum then some k
        else if n = none then none else p.registered msgIdSnap n := by
    cases Poller.routes_route p bc with
    | handler hh hreg hdel => exact nomatch (h.lookup_handler hid).symm.trans hh
    | direct hh hj _ hreg hdel => exact absurd (hid ▸ hj) (hfree _)
    | upgrade hh hall hj hreg hdel =>
      rw [hid] at hj hreg
      obtain rfl := Option.some.inj (hj.symm.trans hk)
      rw [if_neg hk'] at hdel
      refine ⟨hdel, fun n => ?_⟩
      rw [hreg]
      simp
    | nobody hh hall hnone hreg hdel =>
      rw [hid, hk] at hnone
      exact nomatch hnone
  -- The map of subscriptions now has the number in place of the missing one.
  refine ⟨hended.trans h.running, hhandlers ▸ h.handlers, hclosed.trans h.dropped,
    hrequests ▸ h.requests, ?_, fun {n j} hj => ?_, fun {n j} hj hopen => ?_⟩
  · exact hdel.1.trans (by rw [h.delivered, List.append_assoc])
  · replace hj := (hdel.2 n).symm.trans hj
    split at hj
    next hn =>
      rw [hn, Option.some.inj hj]
      exact .inr List.mem_cons_self
    next =>
      split at hj
      next => exact nomatch hj
      next hn =>
        rcases h.entries hj with ⟨hc, -⟩ | hj
        · exact nomatch hc
        · rcases List.mem_cons.1 hj with hj | hj
          · exact absurd (Prod.mk.inj hj).1 hn
          · exact .inr (List.mem_cons_of_mem _ hj)
  · refine (hdel.2 n).trans ?_
    rcases List.mem_cons.1 hj with hj | hj
    · rw [if_pos (Prod.mk.inj hj).1, (Prod.mk.inj hj).2]
    · rw [if_neg (fun hn : n = some bc.bcMeta.msgNum => hnum j (hn ▸ hj)),
        if_neg (fun hn : n = none => hnone j (hn ▸ hj))]
      exact h.held (List.mem_cons_of_mem _ hj) hopen

/-- A message for which there is no subscription is lost. -/
theorem nobody (h : Stage start p true closed own count ds)
    (hnum : ∀ j, (some bc.bcMeta.msgNum, j) ∉ own) (hnone : ∀ j, (none, j) ∉ own) :
    Stage start (p.handle (.bc (.ok bc))) false closed own count ds := by
  obtain ⟨hhandlers, hclosed, hrequests, hended⟩ := Poller.route_frame p bc
  have hfree {n : Option UInt16} {j : ℕ} (hn : ∀ j, (n, j) ∉ own)
      (hj : p.registered msgIdSnap n = some j) : False := by
    rcases h.entries hj with ⟨hc, -⟩ | hj
    · exact nomatch hc
    · exact hn j hj
  have hdel : (p.route bc).delivered = p.delivered ∧
      ∀ id n, (p.route bc).registered id n = p.registered id n ∨
        (p.route bc).registered id n = none ∧ ∃ k, p.registered id n = some k ∧ k ∈ p.closed := by
    cases Poller.routes_route p bc with
    | handler hh hreg hdel => exact nomatch (h.lookup_handler hid).symm.trans hh
    | direct hh hj _ hreg hdel => exact (hfree hnum (hid ▸ hj)).elim
    | upgrade hh hall hj hreg hdel => exact (hfree hnone (hid ▸ hj)).elim
    | nobody hh hall hnone hreg hdel => exact ⟨hdel, hreg⟩
  refine ⟨hended.trans h.running, hhandlers ▸ h.handlers, hclosed.trans h.dropped,
    hrequests ▸ h.requests, hdel.1.trans h.delivered, fun {n j} hj => ?_, fun {n j} hj hopen => ?_⟩
  · rcases hdel.2 msgIdSnap n with heq | ⟨hgone, -⟩
    · rcases h.entries (heq.symm.trans hj) with ⟨hc, -⟩ | hj
      · exact nomatch hc
      · exact .inr hj
    · exact nomatch hgone.symm.trans hj
  · rcases hdel.2 msgIdSnap n with heq | ⟨-, k, hk, hc⟩
    · exact heq.trans (h.held hj hopen)
    · rw [h.held hj hopen] at hk
      rw [← Option.some.inj hk, h.dropped] at hc
      exact absurd hc hopen

end Message

end Stage

/-! ## The answer of the camera -/

/-- The bytes of a chunk. -/
def chunkBytes (bc : Bc (Elements σ)) : Bytes :=
  if bc.bcMeta.responseCode = 200 then (chunkData bc.body).getD [] else (lastData bc.body).getD []

/-- The answer of a camera: the description of the picture under the number of the
    request, and its chunks, the last one marked, under another number. -/
structure Answer (req : SnapRequest σ) where
  reply : Bc (Elements σ)
  chunks : List (Bc (Elements σ))
  last : Bc (Elements σ)
  size : UInt32
  number : UInt16
  reply_id : reply.bcMeta.msgId = msgIdSnap
  reply_num : reply.bcMeta.msgNum = req.msgNum
  reply_code : reply.bcMeta.responseCode = 200
  reply_snap : ∃ filename, (takeSnap reply).2 = some (filename, size)
  number_ne : number ≠ req.msgNum
  chunk_id : ∀ bc ∈ chunks ++ [last], bc.bcMeta.msgId = msgIdSnap
  chunk_num : ∀ bc ∈ chunks ++ [last], bc.bcMeta.msgNum = number
  chunk_more : ∀ bc ∈ chunks, bc.bcMeta.responseCode = 200 ∧ (chunkData bc.body).isSome
  last_code : last.bcMeta.responseCode = 201
  last_data : (lastData last.body).isSome
  length_eq : ((chunks ++ [last]).flatMap chunkBytes).length = size.toNat
  size_le : size.toNat ≤ maxSnapshotBytes

namespace Answer

variable {req : SnapRequest σ} (ans : Answer req)

/-- All messages of the picture. -/
def all : List (Bc (Elements σ)) := ans.chunks ++ [ans.last]

/-- The picture. -/
def picture : Bytes := ans.all.flatMap chunkBytes

/-- The number of the subscription to the message id, once it got messages. -/
def numberOf (got : List (Bc (Elements σ))) : Option UInt16 :=
  if got = [] then none else some ans.number

/-- All messages of the answer: the chunks and the last one. -/
theorem length_all : ans.all.length = ans.chunks.length + 1 := by
  rw [all, List.length_append]
  rfl

end Answer

/-- A chunk is the last one, or one of the others. -/
theorem Answer.last_or_more {req : SnapRequest σ} {ans : Answer req}
    {before after : List (Bc (Elements σ))} {bc : Bc (Elements σ)}
    (h : ans.all = before ++ bc :: after) :
    (bc = ans.last ∧ before = ans.chunks ∧ after = []) ∨
      bc ∈ ans.chunks ∧ before.length < ans.chunks.length := by
  rcases List.eq_nil_or_concat after with rfl | ⟨rest, x, rfl⟩
  · obtain ⟨hbefore, hbc⟩ := List.append_inj' (h : ans.chunks ++ [ans.last] = _) rfl
    exact .inl ⟨(List.cons.inj hbc).1.symm, hbefore.symm, rfl⟩
  · have h' : ans.chunks ++ [ans.last] = (before ++ bc :: rest) ++ [x] := by
      rw [← Answer.all, h]
      simp
    rw [(List.append_inj' h' rfl).1]
    exact .inr ⟨by simp, by simp⟩

/-- A connection in use on which no one waits for pictures. -/
structure Idle (p : Poller (Elements σ)) : Prop where
  reachable : ∃ events, p = Poller.run events
  running : p.ended = none
  handlers : p.id[msgIdSnap]? = none
  unused {n : Option UInt16} {k : ℕ} : p.registered msgIdSnap n = some k → k ∈ p.closed
  requested {k : ℕ} : k ∈ p.closed → k < p.requests.length

/-- Whether the client has subscribed to the message id. -/
def Phase.byId : Phase σ → Bool
  | .installed .. | .collecting .. | .done _ => true
  | _ => false

namespace Snapshot

variable (req : SnapRequest σ) (start : Poller (Elements σ)) (ans : Answer req)

/-- A message under another number than that of the request does not arrive before the
    client has subscribed to the message id. -/
def Timely (s : Snapshot σ) (act : Act) : Prop :=
  act = .arrive → ∀ bc coming, s.coming = bc :: coming →
    bc.bcMeta.msgNum = req.msgNum ∨ s.phase.byId = true

/-- The messages passed on since `start`. -/
def passedOn (s : Snapshot σ) : List (Bc (Elements σ)) :=
  (s.poller.delivered.drop start.delivered.length).filterMap fun d => d.2.toOption

/-! ## The invariant -/

/-- The subscription to the number of the request, with what was taken from it. -/
def subGet (taken : ℕ) : BcSubscription := ⟨start.requests.length, taken, some req.msgNum.toUInt32⟩

/-- The subscription to the message id, with what was taken from it. -/
def chunkSub (taken : ℕ) : BcSubscription where
  place := start.requests.length + 1
  taken := taken
  msgNum := if taken = 0 then none else some ans.number.toUInt32

/-- The message as the poller gets it. -/
def message (bc : Bc (Elements σ)) : PollCommand (Elements σ) := .bc (.ok bc)

/-- The poller holds nothing for snapshots. -/
def Fresh (s : Snapshot σ) : Prop :=
  Stage start s.poller s.turn.isSome start.closed [] 0 []

/-- The poller holds the subscription to the number of the request. -/
def Subscribed (s : Snapshot σ) (closed : Finset ℕ) (replies : List (Bc (Elements σ))) : Prop :=
  Stage start s.poller s.turn.isSome closed [(some req.msgNum, start.requests.length)] 1
    (replies.map fun bc => (.subscription start.requests.length, .ok bc))

/-- The poller holds both subscriptions. -/
def Installed (s : Snapshot σ) (closed : Finset ℕ) (got : List (Bc (Elements σ))) : Prop :=
  Stage start s.poller s.turn.isSome closed
    [(ans.numberOf got, start.requests.length + 1), (some req.msgNum, start.requests.length)] 2
    ((.subscription start.requests.length, .ok ans.reply) ::
      got.map fun bc => (.subscription (start.requests.length + 1), .ok bc))

/-- The client is asking for a picture. -/
def Asking (s : Snapshot σ) (queued : List (Bc (Elements σ))) : Prop :=
  (s.phase = .subscribed (subGet req start 0) ∧ s.out = [] ∧ queued = []) ∨
    s.phase = .asked (subGet req start 0) ∧ s.out ≠ []

/-- The client has subscribed to the message id, and takes what it got. -/
def Collecting (s : Snapshot σ) (closed : Finset ℕ) (lost got : List (Bc (Elements σ))) : Prop :=
  (s.phase = .installed (subGet req start 1) (chunkSub req start ans 0) ans.size ∧
    closed = start.closed) ∨
  ∃ taken, s.phase = .collecting (chunkSub req start ans taken) ans.size
      ((got.take taken).flatMap chunkBytes) ∧
    closed = insert start.requests.length start.closed ∧ taken ≤ got.length ∧
    (taken = 0 ∨ lost.length + taken ≤ ans.chunks.length)

/-- Where the messages of the camera are: `lost`, `got` by the subscription to the
    message id, or queued. The index are those queued before that subscription. -/
inductive Inv (s : Snapshot σ) : List (Bc (Elements σ)) → Prop
  | idle (hphase : s.phase = .start) (hout : s.out = []) (hpending : s.pending = [])
    (hcoming : s.coming = ans.reply :: ans.all) (hstage : Fresh start s) : Inv s []
  | opening {queued : List (Bc (Elements σ))} (hphase : Asking req start s queued)
    (hpending : s.pending =
      .addSubscriber msgIdSnap (some req.msgNum) :: queued.map message)
    (hcoming : ans.reply :: ans.all = queued ++ s.coming) (hstage : Fresh start s) :
    Inv s queued.tail
  | awaiting {queued : List (Bc (Elements σ))} (hphase : Asking req start s queued)
    (hpending : s.pending = queued.map message)
    (hcoming : ans.reply :: ans.all = queued ++ s.coming)
    (hstage : Subscribed req start s start.closed []) : Inv s queued.tail
  | answered {lost queued : List (Bc (Elements σ))}
    (hphase : s.phase = .asked (subGet req start 0) ∨
      s.phase = .replied (subGet req start 1) ans.size)
    (hout : s.out ≠ []) (hpending : s.pending = queued.map message)
    (hcoming : ans.all = lost ++ (queued ++ s.coming))
    (hstage : Subscribed req start s start.closed [ans.reply]) : Inv s (lost ++ queued)
  | installing {lost early late : List (Bc (Elements σ))} {closed : Finset ℕ}
    (hphase : Collecting req start ans s closed (lost ++ early) []) (hout : s.out ≠ [])
    (hpending : s.pending = early.map message ++
      .addSubscriber msgIdSnap none :: late.map message)
    (hcoming : ans.all = lost ++ early ++ (late ++ s.coming))
    (hstage : Subscribed req start s closed [ans.reply]) : Inv s (lost ++ early)
  | receiving {lost got queued : List (Bc (Elements σ))} {closed : Finset ℕ}
    (hphase : Collecting req start ans s closed lost got) (hout : s.out ≠ [])
    (hpending : s.pending = queued.map message)
    (hcoming : ans.all = lost ++ (got ++ (queued ++ s.coming)))
    (hstage : Installed req start ans s closed got) : Inv s lost
  | finished {lost got : List (Bc (Elements σ))} {result : Except (SnapError σ) Bytes}
    (hphase : s.phase = .done result) (hpending : s.pending = []) (hcoming : s.coming = [])
    (hall : ans.all = lost ++ got)
    (hdelivered : s.poller.delivered = start.delivered ++
      (.subscription start.requests.length, .ok ans.reply) ::
        got.map fun bc => (.subscription (start.requests.length + 1), .ok bc))
    (hresult : (got.flatMap chunkBytes).length = ans.size.toNat →
      result = .ok (got.flatMap chunkBytes)) : Inv s lost

variable {req start ans}

/-- Before anything has come, everything is still to come. -/
theorem inv_init (h : Idle start) : Inv req start ans (init start (ans.reply :: ans.all)) [] :=
  .idle rfl rfl rfl rfl
    { running := h.running
      handlers := h.handlers
      dropped := rfl
      requests := rfl
      delivered := (List.append_nil _).symm
      entries := fun hk => .inl ⟨rfl, h.unused hk⟩
      held := fun hk => (nomatch hk) }

/-! ## What each step does -/

variable {s s' : Snapshot σ} {missed : List (Bc (Elements σ))}

/-- A message comes in only after the request has been sent. -/
theorem step_arrive (h : s.step req .arrive = some s') : s.out ≠ [] ∧ ∃ bc coming,
    s.coming = bc :: coming ∧ s' = { s with queue := s.queue ++ [message bc], coming } := by
  rw [step] at h
  split at h
  next out bc coming hout hcoming =>
    exact ⟨hout ▸ List.cons_ne_nil _ _, bc, coming, hcoming, (Option.some.inj h).symm⟩
  next => exact nomatch h

/-- The poller takes a command when it has none. -/
theorem step_take (h : s.step req .take = some s') : ∃ command queue, s.turn = none ∧
    s.queue = command :: queue ∧
    s' = { s with poller := s.poller.cleanUp, turn := some command, queue } := by
  rw [step] at h
  split at h
  next command queue hend hturn hqueue =>
    exact ⟨command, queue, hturn, hqueue, (Option.some.inj h).symm⟩
  next => exact nomatch h

/-- The poller deals with the command it has taken. -/
theorem step_handle (h : s.step req .handle = some s') : ∃ command, s.turn = some command ∧
    s' = { s with poller := s.poller.handle command, turn := none } := by
  rw [step] at h
  split at h
  next command hturn => exact ⟨command, hturn, (Option.some.inj h).symm⟩
  next => exact nomatch h

theorem pending_arrive (s : Snapshot σ) (command : PollCommand (Elements σ))
    (coming : List (Bc (Elements σ))) :
    pending { s with queue := s.queue ++ [command], coming } = s.pending ++ [command] := by
  rw [pending, pending, List.append_assoc]

/-- A chunk that comes before the subscription to the message id is lost. -/
theorem stage_early {p : Poller (Elements σ)} {bc : Bc (Elements σ)} {closed : Finset ℕ}
    {ds : List (Recipient × Except PollError (Bc (Elements σ)))}
    (h : Stage start p true closed [(some req.msgNum, start.requests.length)] 1 ds)
    (hbc : bc ∈ ans.all) : Stage start (p.handle (message bc)) false closed
      [(some req.msgNum, start.requests.length)] 1 ds := by
  refine h.nobody (ans.chunk_id bc hbc) (fun j hj => ?_) (by simp)
  rw [ans.chunk_num bc hbc, List.mem_singleton] at hj
  exact ans.number_ne (Option.some.inj (Prod.mk.inj hj).1)

/-- A chunk goes to the subscription to the message id. -/
theorem stage_chunk {p : Poller (Elements σ)} {bc : Bc (Elements σ)} {closed : Finset ℕ}
    {got : List (Bc (Elements σ))}
    (h : Stage start p true closed
      [(ans.numberOf got, start.requests.length + 1), (some req.msgNum, start.requests.length)] 2
      ((.subscription start.requests.length, .ok ans.reply) ::
        got.map fun bc => (.subscription (start.requests.length + 1), .ok bc)))
    (hbc : bc ∈ ans.all) (hopen : start.requests.length + 1 ∉ closed) :
    Stage start (p.handle (message bc)) false closed
      [(ans.numberOf (got ++ [bc]), start.requests.length + 1),
        (some req.msgNum, start.requests.length)] 2
      ((.subscription start.requests.length, .ok ans.reply) ::
        (got ++ [bc]).map fun bc => (.subscription (start.requests.length + 1), .ok bc)) := by
  have hnum := ans.chunk_num bc hbc
  have hnew : ans.numberOf (got ++ [bc]) = some bc.bcMeta.msgNum := by
    rw [hnum, Answer.numberOf, if_neg (by simp)]
  rw [hnew, List.map_append, ← List.cons_append]
  by_cases hgot : got = []
  · -- The first one gives the subscription its number.
    rw [Answer.numberOf, if_pos hgot] at h
    refine h.upgrade (ans.chunk_id bc hbc) hopen (fun j hj => ?_) (by simp)
    rw [hnum, List.mem_singleton] at hj
    exact ans.number_ne (Option.some.inj (Prod.mk.inj hj).1)
  · rw [Answer.numberOf, if_neg hgot, ← hnum] at h
    exact h.direct (ans.chunk_id bc hbc) List.mem_cons_self hopen

/-! ### The client -/

/-- What was sent to a subscription since `start`. -/
theorem inbox_of_stage {p : Poller (Elements σ)} {clean : Bool} {closed : Finset ℕ}
    {own : List (Option UInt16 × ℕ)} {count k : ℕ}
    {ds : List (Recipient × Except PollError (Bc (Elements σ)))} (hidle : Idle start)
    (h : Stage start p clean closed own count ds) (hk : start.requests.length ≤ k) :
    p.inbox k = ds.filterMap fun d => if d.1 = .subscription k then some d.2 else none := by
  obtain ⟨events, rfl⟩ := hidle.reachable
  rw [Poller.inbox_eq_append h.delivered, Poller.inbox_of_length_le events hidle.running hk,
    List.nil_append]

/-- What the subscription has in front is taken, and ties it to its number. -/
theorem recv_of_getElem? {p : Poller (Elements σ)} {sub : BcSubscription} {bc : Bc (Elements σ)}
    (h : (p.inbox sub.place)[sub.taken]? = some (.ok bc))
    (hnum : sub.msgNum = none ∨ sub.msgNum = some bc.bcMeta.msgNum.toUInt32) :
    sub.recv p = some (.ok bc, ⟨sub.place, sub.taken + 1, some bc.bcMeta.msgNum.toUInt32⟩) := by
  obtain ⟨place, taken, msgNum⟩ := sub
  rw [BcSubscription.recv, h]
  rcases hnum with rfl | rfl
  · rfl
  · simp

/-- A subscription to which nothing more was sent waits. -/
theorem recv_of_none {p : Poller (Elements σ)} {sub : BcSubscription}
    (h : (p.inbox sub.place)[sub.taken]? = none) (hend : p.ended = none) :
    sub.recv p = none := by
  rw [BcSubscription.recv, h, hend]
  rfl

/-- No message of the camera is one of these commands. -/
theorem countP_message (queued : List (Bc (Elements σ)))
    (p : PollCommand (Elements σ) → Bool) (hp : ∀ bc, p (message bc) = false) :
    (queued.map message).countP p = 0 := by
  rw [List.countP_eq_zero]
  intro command hcommand
  obtain ⟨bc, -, rfl⟩ := List.mem_map.1 hcommand
  rw [hp]
  exact Bool.false_ne_true

/-- The client accepts the reply. -/
theorem onReply_reply (s : Snapshot σ) (subGet : BcSubscription) :
    s.onReply subGet ans.reply = { s with phase := .replied subGet ans.size } := by
  obtain ⟨filename, hsnap⟩ := ans.reply_snap
  obtain ⟨msg, hmsg⟩ : ∃ msg, takeSnap ans.reply = (msg, some (filename, ans.size)) :=
    ⟨_, Prod.ext rfl hsnap⟩
  rw [onReply, if_neg (by simp [ans.reply_code]), hmsg]
  exact if_neg (Nat.not_lt.2 ans.size_le)

/-- The client accepts a chunk that is not the last. -/
theorem onChunk_more {bc : Bc (Elements σ)} (s : Snapshot σ) (chunkSub : BcSubscription)
    (result : Bytes) (hbc : bc ∈ ans.chunks)
    (hle : (result ++ chunkBytes bc).length ≤ maxSnapshotBytes) :
    s.onChunk req chunkSub ans.size result bc =
      { s with phase := .collecting chunkSub ans.size (result ++ chunkBytes bc) } := by
  obtain ⟨hcode, hdata⟩ := ans.chunk_more bc hbc
  obtain ⟨data, hdata⟩ := Option.isSome_iff_exists.1 hdata
  have hbytes : chunkBytes bc = data := by rw [chunkBytes, if_pos hcode, hdata]; rfl
  rw [hbytes] at hle ⊢
  rw [onChunk, if_pos hcode, hdata]
  exact if_neg (Nat.not_lt.2 hle)

/-- The client returns after the last chunk. -/
theorem onChunk_last (s : Snapshot σ) (chunkSub : BcSubscription) (result : Bytes) :
    ∃ r, s.onChunk req chunkSub ans.size result ans.last = s.finish [chunkSub] r ∧
      ((result ++ chunkBytes ans.last).length = ans.size.toNat →
        r = .ok (result ++ chunkBytes ans.last)) := by
  have hcode : ans.last.bcMeta.responseCode ≠ 200 := by rw [ans.last_code]; decide
  obtain ⟨data, hdata⟩ := Option.isSome_iff_exists.1 ans.last_data
  have hbytes : chunkBytes ans.last = data := by rw [chunkBytes, if_neg hcode, hdata]; rfl
  rw [hbytes, onChunk, if_neg hcode, if_pos ans.last_code, hdata]
  dsimp only
  split
  next hne => exact ⟨_, rfl, fun h => absurd h hne⟩
  next => exact ⟨_, rfl, fun _ => rfl⟩

/-- What the client has taken does not change with a message that it gets. -/
theorem Collecting.concat {closed : Finset ℕ} {lost got : List (Bc (Elements σ))}
    (h : Collecting req start ans s closed lost got) (bc : Bc (Elements σ)) :
    Collecting req start ans s closed lost (got ++ [bc]) := by
  refine h.imp_right fun ⟨taken, hphase, hclosed, htaken, hlast⟩ =>
    ⟨taken, ?_, hclosed, htaken.trans (by simp), hlast⟩
  rw [List.take_append_of_le_length htaken]
  exact hphase

namespace Inv

/-- The reply arrives in time, and no chunk does before the client has subscribed. -/
theorem timely_of_queued {queued coming : List (Bc (Elements σ))} {bc : Bc (Elements σ)}
    (hcoming : ans.reply :: ans.all = queued ++ s.coming) (hbc : s.coming = bc :: coming)
    (hphase : s.phase.byId = false) :
    (queued ++ [bc]).tail = [] ↔ queued.tail = [] ∧ Timely req s .arrive := by
  rw [hbc] at hcoming
  cases queued with
  | nil =>
    refine ⟨fun _ => ⟨rfl, fun _ bc' coming' h => .inl ?_⟩, fun _ => rfl⟩
    rw [hbc] at h
    obtain ⟨rfl, rfl⟩ := List.cons.inj h
    rw [← (List.cons.inj hcoming).1]
    exact ans.reply_num
  | cons first queued =>
    refine ⟨fun h => ?_, fun h => ?_⟩
    · simp at h
    · rcases h.2 rfl bc coming hbc with hnum | hby
      · have hmem : bc ∈ ans.all := by
          rw [(List.cons.inj hcoming).2]
          simp
        exact absurd ((ans.chunk_num bc hmem).symm.trans hnum) ans.number_ne
      · exact nomatch hphase.symm.trans hby

/-- A message comes in: it is missed if its subscription is not there yet. -/
theorem arrive (h : Inv req start ans s missed) (hstep : s.step req .arrive = some s') :
    ∃ missed', Inv req start ans s' missed' ∧
      (missed' = [] ↔ missed = [] ∧ Timely req s .arrive) := by
  obtain ⟨hout, bc, coming, hbc, rfl⟩ := step_arrive hstep
  -- The message joins the end of what is pending, and leaves what is still to come.
  have hqueued (queued : List (Bc (Elements σ))) :
      (queued ++ [bc]).map message = queued.map message ++ [message bc] := List.map_append
  have hassoc (queued : List (Bc (Elements σ))) :
      queued ++ s.coming = queued ++ [bc] ++ coming := by
    rw [hbc, List.append_assoc]
    rfl
  -- Only between the reply and the second subscription does an arrival lose a chunk.
  cases h with
  | idle _ hout' => exact absurd hout' hout
  | @opening queued hphase hpending hcoming hstage =>
    have hasked : s.phase = .asked (subGet req start 0) :=
      hphase.elim (fun h => absurd h.2.1 hout) (fun h => h.1)
    refine ⟨(queued ++ [bc]).tail, .opening (.inr ⟨hasked, hout⟩) ?_ ?_ hstage,
      timely_of_queued hcoming hbc (by rw [hasked]; rfl)⟩
    · rw [pending_arrive, hpending, hqueued]
      rfl
    · exact hcoming.trans (hassoc queued)
  | @awaiting queued hphase hpending hcoming hstage =>
    have hasked : s.phase = .asked (subGet req start 0) :=
      hphase.elim (fun h => absurd h.2.1 hout) (fun h => h.1)
    refine ⟨(queued ++ [bc]).tail, .awaiting (.inr ⟨hasked, hout⟩) ?_ ?_ hstage,
      timely_of_queued hcoming hbc (by rw [hasked]; rfl)⟩
    · rw [pending_arrive, hpending, hqueued]
    · exact hcoming.trans (hassoc queued)
  | @answered lost queued hphase hout hpending hcoming hstage =>
    refine ⟨lost ++ (queued ++ [bc]), .answered hphase hout ?_ ?_ hstage, ?_⟩
    · rw [pending_arrive, hpending, hqueued]
    · rw [hcoming, hassoc]
    · -- A chunk that arrives now is early.
      refine ⟨fun h => by simp at h, fun h => ?_⟩
      have hby : s.phase.byId = false := by rcases hphase with h | h <;> rw [h] <;> rfl
      rcases h.2 rfl bc coming hbc with hnum | hby'
      · have hmem : bc ∈ ans.all := by
          rw [hcoming, hbc]
          simp
        exact absurd ((ans.chunk_num bc hmem).symm.trans hnum) ans.number_ne
      · exact nomatch hby.symm.trans hby'
  | @installing lost early late closed hphase hout hpending hcoming hstage =>
    have hpending' : s.pending ++ [message bc] = early.map message ++
        .addSubscriber msgIdSnap none :: (late ++ [bc]).map message := by
      rw [hpending, hqueued, List.append_assoc]
      rfl
    refine ⟨_, .installing hphase hout ((pending_arrive _ _ _).trans hpending') ?_ hstage, ?_⟩
    · rw [hcoming, hassoc]
    · refine (and_iff_left fun _ _ _ _ => .inr ?_).symm
      rcases hphase with ⟨h, -⟩ | ⟨_, h, -⟩ <;> rw [h] <;> rfl
  | @receiving lost got queued closed hphase hout hpending hcoming hstage =>
    have hpending' : s.pending ++ [message bc] = (queued ++ [bc]).map message := by
      rw [hpending, hqueued]
    refine ⟨_, .receiving hphase hout ((pending_arrive _ _ _).trans hpending') ?_ hstage, ?_⟩
    · rw [hcoming, hassoc]
    · refine (and_iff_left fun _ _ _ _ => .inr ?_).symm
      rcases hphase with ⟨h, -⟩ | ⟨_, h, -⟩ <;> rw [h] <;> rfl
  | finished _ _ hcoming => exact nomatch hbc.symm.trans hcoming

theorem take (h : Inv req start ans s missed) (hstep : s.step req .take = some s') :
    Inv req start ans s' missed := by
  obtain ⟨command, queue, hturn, hqueue, rfl⟩ := step_take hstep
  have hpend : pending { s with poller := s.poller.cleanUp, turn := some command, queue } =
      s.pending := by
    rw [pending, pending, hturn, hqueue]
    rfl
  have hnil : s.pending ≠ [] := by
    rw [pending, hturn, hqueue]
    exact List.cons_ne_nil _ _
  cases h with
  | idle _ _ hpending => exact absurd hpending hnil
  | opening hphase hpending hcoming hstage =>
    exact .opening hphase (hpend.trans hpending) hcoming (Stage.cleanUp hstage)
  | awaiting hphase hpending hcoming hstage =>
    exact .awaiting hphase (hpend.trans hpending) hcoming (Stage.cleanUp hstage)
  | answered hphase hout hpending hcoming hstage =>
    exact .answered hphase hout (hpend.trans hpending) hcoming (Stage.cleanUp hstage)
  | installing hphase hout hpending hcoming hstage =>
    exact .installing hphase hout (hpend.trans hpending) hcoming (Stage.cleanUp hstage)
  | receiving hphase hout hpending hcoming hstage =>
    exact .receiving hphase hout (hpend.trans hpending) hcoming (Stage.cleanUp hstage)
  | finished _ hpending => exact absurd hpending hnil

/-- Dealing with a command passes it on to its subscription, if it has one. -/
theorem handle (hidle : Idle start) (h : Inv req start ans s missed)
    (hstep : s.step req .handle = some s') : Inv req start ans s' missed := by
  obtain ⟨command, hturn, rfl⟩ := step_handle hstep
  -- The poller handles the head of what is pending.
  have hpend : s.pending = command :: s.queue := by
    rw [pending, hturn]
    rfl
  have hclean : s.turn.isSome = true := by rw [hturn]; rfl
  have hget : start.requests.length ∉ start.closed := fun h => lt_irrefl _ (hidle.requested h)
  have hchunk : start.requests.length + 1 ∉ start.closed := fun h =>
    absurd (hidle.requested h) (by omega)
  -- Which command that is depends on how far the client has come.
  cases h with
  | idle _ _ hpending => exact nomatch hpend.symm.trans hpending
  | opening hphase hpending hcoming hstage =>
    obtain ⟨rfl, hqueue⟩ := List.cons.inj (hpend.symm.trans hpending)
    rw [Fresh, hclean] at hstage
    exact .awaiting hphase hqueue hcoming (hstage.addSubscriber fun _ h => (nomatch h))
  -- The first message is the reply, and the subscription to its number is in place.
  | @awaiting queued hphase hpending hcoming hstage =>
    obtain ⟨bc, queued, rfl, rfl, hqueue⟩ := List.map_eq_cons_iff.1 (hpending.symm.trans hpend)
    obtain ⟨rfl, hrest⟩ := List.cons.inj hcoming
    obtain ⟨hphase, hout⟩ := hphase.resolve_left fun h => (nomatch h.2.2)
    rw [Subscribed, hclean] at hstage
    change Inv req start ans _ ([] ++ queued)
    refine .answered (.inl hphase) hout hqueue.symm hrest ?_
    refine hstage.direct ans.reply_id ?_ hget
    rw [ans.reply_num]
    exact List.mem_cons_self
  -- A chunk before the second subscription reaches nobody.
  | @answered lost queued hphase hout hpending hcoming hstage =>
    obtain ⟨bc, queued, rfl, rfl, hqueue⟩ := List.map_eq_cons_iff.1 (hpending.symm.trans hpend)
    have hlost : lost ++ bc :: queued = lost ++ [bc] ++ queued := by simp
    have hmem : bc ∈ ans.all := by
      rw [hcoming]
      simp
    rw [Subscribed, hclean] at hstage
    rw [hlost]
    refine .answered hphase hout hqueue.symm (by rw [hcoming]; simp) ?_
    exact stage_early hstage hmem
  | @installing lost early late closed hphase hout hpending hcoming hstage =>
    rw [Subscribed, hclean] at hstage
    -- The queue before the subscription is lost, and the subscription itself comes after it.
    cases early with
    | nil =>
      obtain ⟨rfl, hqueue⟩ := List.cons.inj (hpend.symm.trans hpending)
      rw [List.append_nil] at hphase hcoming ⊢
      refine .receiving hphase hout hqueue hcoming ?_
      exact hstage.addSubscriber (by simp)
    | cons bc early =>
      obtain ⟨rfl, hqueue⟩ := List.cons.inj (hpend.symm.trans hpending)
      have hlost : lost ++ bc :: early = lost ++ [bc] ++ early := by simp
      have hmem : bc ∈ ans.all := by
        rw [hcoming]
        simp
      rw [hlost] at hphase hcoming ⊢
      exact .installing hphase hout hqueue hcoming (stage_early hstage hmem)
  -- From now on every message is a chunk for the subscription.
  | @receiving lost got queued closed hphase hout hpending hcoming hstage =>
    obtain ⟨bc, queued, rfl, rfl, hqueue⟩ := List.map_eq_cons_iff.1 (hpending.symm.trans hpend)
    have hmem : bc ∈ ans.all := by
      rw [hcoming]
      simp
    rw [Installed, hclean] at hstage
    have hopen : start.requests.length + 1 ∉ closed := by
      rcases hphase with ⟨-, rfl⟩ | ⟨_, -, rfl, -⟩
      · exact hchunk
      · simpa using hchunk
    have hcoming' : ans.all = missed ++ (got ++ [bc] ++ (queued ++ s.coming)) := by
      rw [hcoming]
      simp
    refine .receiving (hphase.concat bc) hout hqueue.symm hcoming' ?_
    exact stage_chunk hstage hmem hopen
  | finished _ hpending => exact nomatch hpend.symm.trans hpending

end Inv

/-- The client gets the reply. -/
theorem recv_reply {closed : Finset ℕ} (hidle : Idle start)
    (hstage : Subscribed req start s closed [ans.reply]) :
    (subGet req start 0).recv s.poller = some (.ok ans.reply, subGet req start 1) := by
  have hget : (s.poller.inbox (subGet req start 0).place)[0]? = some (.ok ans.reply) := by
    rw [subGet, inbox_of_stage hidle hstage le_rfl]
    simp
  rw [recv_of_getElem? hget (.inr (by rw [ans.reply_num]; rfl)), ans.reply_num]
  rfl

/-- What waits for the client after the chunks it took. -/
theorem recv_chunk {got : List (Bc (Elements σ))} {closed : Finset ℕ} {taken : ℕ}
    (hidle : Idle start) (hstage : Installed req start ans s closed got)
    (hall : ∀ bc ∈ got, bc ∈ ans.all) (htaken : taken ≤ got.length) :
    (taken = got.length ∧ (chunkSub req start ans taken).recv s.poller = none) ∨
      ∃ front bc back, got = front ++ bc :: back ∧ front.length = taken ∧
        (chunkSub req start ans taken).recv s.poller =
          some (.ok bc, chunkSub req start ans (taken + 1)) := by
  have hinbox : s.poller.inbox (start.requests.length + 1) = got.map .ok := by
    rw [inbox_of_stage hidle hstage (Nat.le_succ _)]
    simp [List.filterMap_map]
  rcases htaken.eq_or_lt with heq | hlt
  · refine .inl ⟨heq, recv_of_none ?_ hstage.running⟩
    rw [chunkSub, hinbox, heq]
    simp
  · obtain ⟨front, bc, back, rfl, rfl⟩ :
        ∃ front bc back, got = front ++ bc :: back ∧ front.length = taken := by
      refine ⟨got.take taken, got[taken], got.drop (taken + 1), ?_, List.length_take_of_le htaken⟩
      rw [List.cons_getElem_drop_succ, List.take_append_drop]
    have hnum : bc.bcMeta.msgNum = ans.number := ans.chunk_num bc (hall bc (by simp))
    have hget : (s.poller.inbox (chunkSub req start ans front.length).place)[front.length]? =
        some (.ok bc) := by
      rw [chunkSub, hinbox]
      simp
    refine .inr ⟨front, bc, back, rfl, rfl, ?_⟩
    rw [recv_of_getElem? hget]
    · rw [hnum]
      rfl
    · rw [hnum, chunkSub]
      split
      · exact .inl rfl
      · exact .inr rfl

/-- Sending the request does not fail. -/
theorem send_request (taken : ℕ) : (subGet req start taken).send req.bc = .ok () :=
  if_neg (not_not_intro rfl)

/-- Before the reply was passed on, the client can only send its request. -/
theorem client_asking {queued : List (Bc (Elements σ))} (hphase : Asking req start s queued)
    (hwait : (subGet req start 0).recv s.poller = none)
    (hstep : s.step req .client = some s') :
    s' = { s with out := s.out ++ [req.bc], phase := .asked (subGet req start 0) } := by
  rw [step, getSnapshot] at hstep
  rcases hphase with ⟨hphase, -, -⟩ | ⟨hphase, -⟩
  · simp only [hphase, send_request] at hstep
    exact (Option.some.inj hstep).symm
  · simp only [hphase, hwait] at hstep
    exact nomatch hstep

namespace Inv

/-- The client takes a chunk: it goes on, unless that was the last one. -/
theorem collect {front back queued : List (Bc (Elements σ))} {bc : Bc (Elements σ)}
    (hout : s.out ≠ []) (hpending : s.pending = queued.map message)
    (hcoming : ans.all = missed ++ ((front ++ bc :: back) ++ (queued ++ s.coming)))
    (hstage : Installed req start ans s (insert start.requests.length start.closed)
      (front ++ bc :: back)) :
    Inv req start ans (s.onChunk req (chunkSub req start ans (front.length + 1)) ans.size
      (front.flatMap chunkBytes) bc) missed := by
  have hsplit : ans.all = (missed ++ front) ++ bc :: (back ++ (queued ++ s.coming)) := by
    rw [hcoming]
    simp
  have hsum : front.flatMap chunkBytes ++ chunkBytes bc =
      (front ++ [bc]).flatMap chunkBytes := by simp
  have htake : (front ++ bc :: back).take (front.length + 1) = front ++ [bc] := by
    rw [List.append_cons, List.take_left']
    simp
  rcases Answer.last_or_more hsplit with ⟨rfl, hbefore, hafter⟩ | ⟨hmore, hlt⟩
  · obtain ⟨r, hr, hok⟩ := onChunk_last s (chunkSub req start ans (front.length + 1))
      (front.flatMap chunkBytes)
    rw [hr]
    obtain ⟨rfl, hqueued⟩ := List.append_eq_nil_iff.1 hafter
    obtain ⟨rfl, hnone⟩ := List.append_eq_nil_iff.1 hqueued
    have hall : ans.all = missed ++ (front ++ [ans.last]) := by
      rw [hcoming, hnone, List.append_nil, List.append_nil]
    refine .finished rfl hpending hnone hall hstage.delivered fun hlen => ?_
    rw [← hsum] at hlen ⊢
    exact hok hlen
  · have hle : (front.flatMap chunkBytes ++ chunkBytes bc).length ≤ maxSnapshotBytes := by
      refine le_trans ?_ (ans.length_eq.le.trans ans.size_le)
      rw [← Answer.all, hsplit]
      simp
      omega
    rw [onChunk_more _ _ _ hmore hle]
    refine .receiving (.inr ⟨front.length + 1, ?_, rfl, by simp, .inr ?_⟩) hout hpending hcoming
      hstage
    · rw [hsum, htake]
    · rw [List.length_append] at hlt
      omega

theorem client (hidle : Idle start) (h : Inv req start ans s missed)
    (hstep : s.step req .client = some s') : Inv req start ans s' missed := by
  -- One case for each phase of the exchange. While the client waits, a step only drops what is
  -- pending.
  cases h with
  | idle hphase hout hpending hcoming hstage =>
    rw [step, getSnapshot] at hstep
    simp only [hphase] at hstep
    obtain rfl := Option.some.inj hstep
    have hplace : s.nextPlace = start.requests.length := by
      rw [nextPlace, hpending, hstage.requests]
      rfl
    change Inv req start ans _ ([] : List (Bc (Elements σ))).tail
    refine .opening (.inl ⟨?_, hout, rfl⟩) ?_ hcoming.symm hstage
    · rw [hplace, subGet]
    · exact (pending_arrive s _ s.coming).trans (by rw [hpending]; rfl)
  -- The subscription to the id is not yet installed, so there is nothing to receive.
  | opening hphase hpending hcoming hstage =>
    have hwait : (subGet req start 0).recv s.poller = none :=
      recv_of_none (by rw [subGet, inbox_of_stage hidle hstage le_rfl]; rfl) hstage.running
    obtain rfl := client_asking hphase hwait hstep
    exact .opening (.inr ⟨rfl, List.append_ne_nil_of_right_ne_nil _ (List.cons_ne_nil _ _)⟩)
      hpending hcoming hstage
  | awaiting hphase hpending hcoming hstage =>
    have hwait : (subGet req start 0).recv s.poller = none :=
      recv_of_none (by rw [subGet, inbox_of_stage hidle hstage le_rfl]; rfl) hstage.running
    obtain rfl := client_asking hphase hwait hstep
    exact .awaiting (.inr ⟨rfl, List.append_ne_nil_of_right_ne_nil _ (List.cons_ne_nil _ _)⟩)
      hpending hcoming hstage
  | @answered lost queued hphase hout hpending hcoming hstage =>
    rw [step, getSnapshot] at hstep
    -- The client takes the reply, and only then asks for the subscription without a number.
    rcases hphase with hphase | hphase
    · simp only [hphase, recv_reply hidle hstage, onReply_reply] at hstep
      obtain rfl := Option.some.inj hstep
      exact .answered (.inr rfl) hout hpending hcoming hstage
    · simp only [hphase] at hstep
      obtain rfl := Option.some.inj hstep
      have hplace : s.nextPlace = start.requests.length + 1 := by
        rw [nextPlace, hpending, hstage.requests, countP_message _ _ fun _ => rfl]
      have hpending' : s.pending ++ [.addSubscriber msgIdSnap none] = queued.map message ++
          .addSubscriber msgIdSnap none :: ([] : List (Bc (Elements σ))).map message := by
        rw [hpending]
        rfl
      refine .installing (.inl ⟨?_, rfl⟩) hout ((pending_arrive s _ s.coming).trans hpending')
        ?_ hstage
      · rw [hplace]
        rfl
      · rw [hcoming, List.append_assoc]
        rfl
  | @installing lost early late closed hphase hout hpending hcoming hstage =>
    rw [step, getSnapshot] at hstep
    -- The subscription is requested behind what already stands in the queue.
    rcases hphase with ⟨hphase, rfl⟩ | ⟨taken, hphase, rfl, htaken, -⟩
    · simp only [hphase] at hstep
      obtain rfl := Option.some.inj hstep
      exact .installing (.inr ⟨0, rfl, rfl, le_rfl, .inl rfl⟩) hout hpending hcoming
        (Stage.drop hstage _)
    · obtain rfl := Nat.le_zero.1 htaken
      have hwait : (chunkSub req start ans 0).recv s.poller = none := by
        refine recv_of_none ?_ hstage.running
        rw [chunkSub, inbox_of_stage hidle hstage (Nat.le_succ _)]
        simp
      simp only [hphase, hwait] at hstep
      exact nomatch hstep
  | @receiving _ got queued closed hphase hout hpending hcoming hstage =>
    -- The client receives the chunks in the order in which they were stored.
    rcases hphase with ⟨hphase, rfl⟩ | ⟨taken, hphase, rfl, htaken, hlast⟩
    · rw [step, getSnapshot] at hstep
      simp only [hphase] at hstep
      obtain rfl := Option.some.inj hstep
      exact .receiving (.inr ⟨0, rfl, rfl, Nat.zero_le _, .inl rfl⟩) hout hpending hcoming
        (Stage.drop hstage _)
    · have hall (bc : Bc (Elements σ)) (hbc : bc ∈ got) : bc ∈ ans.all := by
        rw [hcoming]
        simp [hbc]
      -- Either every stored chunk was taken and the client waits, or the next one is there.
      rcases recv_chunk hidle hstage hall htaken with
        ⟨-, hwait⟩ | ⟨front, bc, back, rfl, rfl, hrecv⟩
      · rw [step, getSnapshot] at hstep
        simp only [hphase, hwait] at hstep
        exact nomatch hstep
      rw [List.take_left] at hphase
      rw [step, getSnapshot] at hstep
      simp only [hphase, hrecv] at hstep
      obtain rfl := Option.some.inj hstep
      exact collect hout hpending hcoming hstage
  | finished hphase =>
    rw [step, getSnapshot] at hstep
    simp only [hphase] at hstep
    exact nomatch hstep

end Inv

/-! ## Whole runs -/

/-- Each step keeps track of the messages, and whether one is early. -/
theorem Inv.step (hidle : Idle start) (h : Inv req start ans s missed) {act : Act}
    (hstep : s.step req act = some s') :
    ∃ missed', Inv req start ans s' missed' ∧ (missed' = [] ↔ missed = [] ∧ Timely req s act) := by
  have htimely (hact : act ≠ .arrive) : missed = [] ↔ missed = [] ∧ Timely req s act :=
    (and_iff_left fun h => absurd h hact).symm
  cases act with
  | arrive => exact h.arrive hstep
  | take => exact ⟨missed, h.take hstep, htimely nofun⟩
  | handle => exact ⟨missed, h.handle hidle hstep, htimely nofun⟩
  | client => exact ⟨missed, h.client hidle hstep, htimely nofun⟩

theorem run_concat (s : Snapshot σ) (acts : List Act) (act : Act) :
    s.run req (acts ++ [act]) = (s.run req acts).bind fun s => s.step req act := by
  rw [run, List.foldlM_append, run]
  simp

/-- No message arrives early in a run. -/
def AllTimely (req : SnapRequest σ) (s : Snapshot σ) (acts : List Act) : Prop :=
  Past.Always (fun before act => ∀ s', s.run req before = some s' → Timely req s' act) acts

/-- In every run the messages missed are those that came before their subscription. -/
theorem Inv.run (hidle : Idle start) (acts : List Act)
    (hrun : (init start (ans.reply :: ans.all)).run req acts = some s) :
    ∃ missed, Inv req start ans s missed ∧
      (missed = [] ↔ AllTimely req (init start (ans.reply :: ans.all)) acts) := by
  induction acts using List.reverseRecOn generalizing s with
  | nil =>
    obtain rfl := Option.some.inj hrun
    exact ⟨[], inv_init hidle, iff_of_true rfl Past.always_nil⟩
  | append_singleton acts act ih =>
    rw [run_concat] at hrun
    obtain ⟨r, hr, hstep⟩ := Option.bind_eq_some_iff.1 hrun
    obtain ⟨missed, hinv, hmissed⟩ := ih hr
    obtain ⟨missed', hinv', hmissed'⟩ := hinv.step hidle hstep
    refine ⟨missed', hinv', ?_⟩
    rw [hmissed', hmissed, AllTimely, AllTimely, Past.always_concat]
    refine and_congr_right fun _ => ⟨fun h s' hs' => ?_, fun h => h r hr⟩
    exact Option.some.inj (hr.symm.trans hs') ▸ h

/-! ### Every run ends -/

/-- How many steps the client may take, and its commands. -/
def rank (ans : Answer req) : Phase σ → ℕ
  | .start => ans.all.length + 12
  | .subscribed _ => ans.all.length + 8
  | .asked _ => ans.all.length + 7
  | .replied .. => ans.all.length + 6
  | .installed .. => ans.all.length + 2
  | .collecting chunkSub .. => ans.all.length + 1 - chunkSub.taken
  | .done _ => 0

/-- How many steps are left at most. -/
def weight (ans : Answer req) (s : Snapshot σ) : ℕ :=
  4 * s.coming.length + 3 * s.queue.length + 2 * s.turn.toList.length + rank ans s.phase

theorem taken_recv {p : Poller (Elements σ)} {sub sub' : BcSubscription} {bc : Bc (Elements σ)}
    (h : sub.recv p = some (.ok bc, sub')) : sub'.taken = sub.taken + 1 := by
  rw [BcSubscription.recv] at h
  split at h
  · split at h
    · split at h
      · exact nomatch h
      · rw [← (Prod.mk.inj (Option.some.inj h)).2]
    · rw [← (Prod.mk.inj (Option.some.inj h)).2]
  · exact nomatch h
  · split at h <;> exact nomatch h

theorem weight_onReply (ans : Answer req) (s : Snapshot σ) (subGet : BcSubscription)
    (msg : Bc (Elements σ)) : weight ans (s.onReply subGet msg) ≤
      weight ans { s with phase := .replied subGet 0 } := by
  have hfinish (result : Except (SnapError σ) Bytes) : weight ans (s.finish [subGet] result) ≤
      weight ans { s with phase := .replied subGet 0 } := Nat.add_le_add_left (Nat.zero_le _) _
  rw [onReply]
  split
  · exact hfinish _
  · split
    · split
      · exact hfinish _
      · exact le_rfl
    · exact hfinish _

theorem weight_onChunk (ans : Answer req) (s : Snapshot σ) (chunkSub : BcSubscription)
    (expectedSize : UInt32) (result : Bytes) (msg : Bc (Elements σ)) :
    weight ans (s.onChunk req chunkSub expectedSize result msg) ≤
      weight ans { s with phase := .collecting chunkSub 0 [] } := by
  have hfinish (r : Except (SnapError σ) Bytes) : weight ans (s.finish [chunkSub] r) ≤
      weight ans { s with phase := .collecting chunkSub 0 [] } :=
    Nat.add_le_add_left (Nat.zero_le _) _
  rw [onChunk]
  split
  · split
    · split
      · exact hfinish _
      · exact le_rfl
    · exact hfinish _
  · split
    · split
      · split <;> exact hfinish _
      · exact hfinish _
    · exact hfinish _

/-- The client takes no more chunks than there are. -/
theorem Inv.taken_le {sub : BcSubscription} {size : UInt32} {result : Bytes}
    (h : Inv req start ans s missed) (hphase : s.phase = .collecting sub size result) :
    sub.taken ≤ ans.all.length := by
  have hcollecting {closed : Finset ℕ} {lost got : List (Bc (Elements σ))}
      (hc : Collecting req start ans s closed lost got) : sub.taken ≤ got.length := by
    rcases hc with ⟨hp, -⟩ | ⟨taken, hp, -, htaken, -⟩
    · exact nomatch hphase.symm.trans hp
    · obtain ⟨rfl, -⟩ := Phase.collecting.inj (hphase.symm.trans hp)
      exact htaken
  cases h with
  | idle hp => exact nomatch hphase.symm.trans hp
  | opening hp | awaiting hp =>
    rcases hp with ⟨hp, -⟩ | ⟨hp, -⟩ <;> exact nomatch hphase.symm.trans hp
  | answered hp => rcases hp with hp | hp <;> exact nomatch hphase.symm.trans hp
  | installing hc => exact (hcollecting hc).trans (Nat.zero_le _)
  | receiving hc _ _ hcoming =>
    refine (hcollecting hc).trans ?_
    rw [hcoming]
    simp
    omega
  | finished hp => exact nomatch hphase.symm.trans hp

/-- Every step of the client leaves less to do. -/
theorem weight_client (h : Inv req start ans s missed) (hstep : s.step req .client = some s') :
    weight ans s' < weight ans s := by
  have hfinish (subs : List BcSubscription) (result : Except (SnapError σ) Bytes)
      (hpos : 0 < rank ans s.phase) : weight ans (s.finish subs result) < weight ans s :=
    Nat.add_lt_add_left hpos _
  have hcommand (command : PollCommand (Elements σ)) (phase : Phase σ)
      (hrank : rank ans phase + 3 < rank ans s.phase) :
      weight ans { s with queue := s.queue ++ [command], phase } < weight ans s := by
    simp only [weight, List.length_append, List.length_singleton]
    omega
  rw [step, getSnapshot] at hstep
  split at hstep
  next hphase =>
    obtain rfl := Option.some.inj hstep
    exact hcommand _ _ (by rw [hphase]; simp [rank])
  next subGet hphase =>
    split at hstep
    · obtain rfl := Option.some.inj hstep
      exact hfinish _ _ (by rw [hphase]; simp [rank])
    · obtain rfl := Option.some.inj hstep
      simp [weight, hphase, rank]
  next subGet hphase =>
    split at hstep
    · cases hstep
    · obtain rfl := Option.some.inj hstep
      exact hfinish _ _ (by rw [hphase]; simp [rank])
    · obtain rfl := Option.some.inj hstep
      refine (weight_onReply ans s _ _).trans_lt ?_
      simp [weight, hphase, rank]
  next hphase =>
    obtain rfl := Option.some.inj hstep
    exact hcommand _ _ (by rw [hphase]; simp [rank])
  next hphase =>
    obtain rfl := Option.some.inj hstep
    simp only [weight, hphase, rank]
    omega
  next sub size result hphase =>
    have htaken := h.taken_le hphase
    split at hstep
    · cases hstep
    · obtain rfl := Option.some.inj hstep
      refine hfinish _ _ ?_
      rw [hphase, rank]
      omega
    next hrecv =>
      obtain rfl := Option.some.inj hstep
      refine (weight_onChunk ans s _ _ _ _).trans_lt ?_
      simp only [weight, hphase, rank, taken_recv hrecv]
      omega
  next => cases hstep

theorem weight_step {act : Act} (h : Inv req start ans s missed)
    (hstep : s.step req act = some s') : weight ans s' < weight ans s := by
  cases act with
  | arrive =>
    obtain ⟨-, bc, coming, hbc, rfl⟩ := step_arrive hstep
    simp only [weight, hbc, List.length_append, List.length_cons, List.length_nil]
    omega
  | take =>
    obtain ⟨command, queue, hturn, hqueue, rfl⟩ := step_take hstep
    simp only [weight, hturn, hqueue, Option.toList_some, Option.toList_none, List.length_cons,
      List.length_nil]
    omega
  | handle =>
    obtain ⟨command, hturn, rfl⟩ := step_handle hstep
    simp only [weight, hturn, Option.toList_some, Option.toList_none, List.length_cons,
      List.length_nil]
    omega
  | client => exact weight_client h hstep

/-- Each step of a run uses up one of those that were left. -/
theorem length_add_weight_le (hidle : Idle start) (acts : List Act)
    (hrun : (init start (ans.reply :: ans.all)).run req acts = some s) :
    acts.length + weight ans s ≤ weight ans (init start (ans.reply :: ans.all)) := by
  induction acts using List.reverseRecOn generalizing s with
  | nil =>
    obtain rfl := Option.some.inj hrun
    exact (Nat.zero_add _).le
  | append_singleton acts act ih =>
    rw [run_concat] at hrun
    obtain ⟨r, hr, hstep⟩ := Option.bind_eq_some_iff.1 hrun
    obtain ⟨missed, hinv, -⟩ := Inv.run hidle acts hr
    have hlt := weight_step hinv hstep
    have hle := ih hr
    rw [List.length_append, List.length_singleton]
    omega

/-! ### Where runs end -/

/-- Nothing more can happen. -/
def Quiet (req : SnapRequest σ) (s : Snapshot σ) : Prop := ∀ act, s.step req act = none

/-- Where nothing can go on, nothing is left in the queue. -/
theorem Quiet.pending_eq_nil (h : Quiet req s) (hend : s.poller.ended = none) :
    s.pending = [] := by
  have htake := h .take
  have hhandle := h .handle
  simp only [step] at htake hhandle
  cases hturn : s.turn with
  | some command =>
    rw [hturn] at hhandle
    exact nomatch hhandle
  | none =>
    cases hqueue : s.queue with
    | nil => rw [pending, hturn, hqueue]; rfl
    | cons command queue =>
      rw [hend, hturn, hqueue] at htake
      exact nomatch htake

theorem Quiet.coming_eq_nil (h : Quiet req s) (hout : s.out ≠ []) : s.coming = [] := by
  have harrive := h .arrive
  rw [step] at harrive
  cases hcoming : s.coming with
  | nil => rfl
  | cons bc coming =>
    cases hsent : s.out with
    | nil => exact absurd hsent hout
    | cons bc' out =>
      rw [hsent, hcoming] at harrive
      exact nomatch harrive

/-- A run that has ended has delivered the picture, unless a chunk was early. -/
theorem Inv.returned_iff (hidle : Idle start) (h : Inv req start ans s missed)
    (hquiet : Quiet req s) :
    (s.phase = .done (.ok ans.picture) ∧ s.passedOn start = ans.reply :: ans.all) ↔
      missed = [] := by
  -- A quiet run has no step left for the client, which rules out the phases in which it could go
  -- on.
  have hclient := hquiet .client
  rw [Snapshot.step, getSnapshot] at hclient
  cases h with
  | idle hphase =>
    simp only [hphase] at hclient
    exact nomatch hclient
  | opening hphase hpending hcoming hstage =>
    exact nomatch (hquiet.pending_eq_nil hstage.running).symm.trans hpending
  | awaiting hphase hpending hcoming hstage =>
    rw [hquiet.pending_eq_nil hstage.running] at hpending
    obtain rfl := List.map_eq_nil_iff.1 hpending.symm
    rcases hphase with ⟨hphase, -⟩ | ⟨-, hout⟩
    · simp only [hphase, send_request] at hclient
      exact nomatch hclient
    · rw [hquiet.coming_eq_nil hout] at hcoming
      exact nomatch hcoming
  | answered hphase hout hpending hcoming hstage =>
    rcases hphase with hphase | hphase
    · simp only [hphase, recv_reply hidle hstage] at hclient
      exact nomatch hclient
    · simp only [hphase] at hclient
      exact nomatch hclient
  | installing hphase hout hpending hcoming hstage =>
    have hnil := (hquiet.pending_eq_nil hstage.running).symm.trans hpending
    exact absurd (List.append_eq_nil_iff.1 hnil.symm).2 (List.cons_ne_nil _ _)
  | @receiving _ got queued closed hphase hout hpending hcoming hstage =>
    rw [hquiet.pending_eq_nil hstage.running] at hpending
    obtain rfl := List.map_eq_nil_iff.1 hpending.symm
    rw [hquiet.coming_eq_nil hout, List.nil_append, List.append_nil] at hcoming
    rcases hphase with ⟨hphase, -⟩ | ⟨taken, hphase, -, htaken, hlast⟩
    · simp only [hphase] at hclient
      exact nomatch hclient
    have hall (bc : Bc (Elements σ)) (hbc : bc ∈ got) : bc ∈ ans.all := by
      rw [hcoming]
      exact List.mem_append_right _ hbc
    rcases recv_chunk hidle hstage hall htaken with ⟨rfl, -⟩ | ⟨_, _, _, -, -, hrecv⟩
    · -- The client waits for chunks that are all lost.
      have hlen := congrArg List.length hcoming
      rw [ans.length_all, List.length_append] at hlen
      refine iff_of_false (fun h => (nomatch hphase.symm.trans h.1)) fun h => ?_
      rw [h, List.length_nil] at hlen
      omega
    · simp only [hphase, hrecv] at hclient
      exact nomatch hclient
  | @finished _ got result hphase hpending hcoming hall hdelivered hresult =>
    -- The client has passed on the reply and then the chunks it got.
    have hpassed : s.passedOn start = ans.reply :: got := by
      rw [passedOn, hdelivered, List.drop_left]
      simp [Except.toOption]
    rw [hpassed]
    refine ⟨fun h => ?_, ?_⟩
    · have hgot := (List.cons.inj h.2).2
      rw [hall] at hgot
      exact List.append_left_eq_self.1 hgot.symm
    · rintro rfl
      rw [List.nil_append] at hall
      refine ⟨?_, by rw [hall]⟩
      rw [hphase, hresult, Answer.picture, hall]
      rw [← hall]
      exact ans.length_eq

/-- A picture arrives whole exactly if no chunk comes before the client has subscribed
    to the message id: every run comes to an end, where the client has returned the
    picture and all messages were passed on if and only if no message was early. -/
theorem getSnapshot_iff (req : SnapRequest σ) (ans : Answer req) (start : Poller (Elements σ))
    (hidle : Idle start) (acts : List Act) (s : Snapshot σ)
    (hrun : (init start (ans.reply :: ans.all)).run req acts = some s) :
    acts.length ≤ 5 * ans.all.length + 16 ∧
      (Quiet req s →
        ((s.phase = .done (.ok ans.picture) ∧ s.passedOn start = ans.reply :: ans.all) ↔
          AllTimely req (init start (ans.reply :: ans.all)) acts)) := by
  obtain ⟨missed, hinv, hmissed⟩ := Inv.run hidle acts hrun
  refine ⟨?_, fun hquiet => (hinv.returned_iff hidle hquiet).trans hmissed⟩
  have hlen := length_add_weight_le hidle acts hrun
  simp only [weight, init, rank, List.length_cons, List.length_nil, Option.toList_none] at hlen
  omega

/-! ### A picture of two chunks -/

theorem idle_new : Idle (Poller.new : Poller (Elements σ)) where
  reachable := ⟨[], rfl⟩
  running := rfl
  handlers := Std.ExtTreeMap.getElem?_empty
  unused := fun hk => by
    rw [Poller.registered, Poller.new, Std.ExtTreeMap.getElem?_empty] at hk
    cases hk
  requested := fun hk => absurd hk (Finset.notMem_empty _)

/-- A request with number 5. -/
def sampleRequest : SnapRequest Unit := ⟨0, 5, ()⟩

/-- A reply that announces three bytes. -/
def sampleReply : Bc (Elements Unit) where
  bcMeta :=
    { msgId := 109
      channelId := 0
      streamType := 0
      responseCode := 200
      msgNum := 5
      cls := 0x6414 }
  body := .modernMsg
    { extension := none
      payload := some (.bcXml
        { encryption := none
          loginUser := none
          rest := ⟨some { fileName := some "snap.jpg", pictureSize := some 3 }, ()⟩ }) }

/-- A chunk, under another number than the reply's. -/
def sampleChunk (responseCode : UInt16) (data : Bytes) : Bc (Elements Unit) where
  bcMeta :=
    { msgId := 109, channelId := 0, streamType := 0, responseCode, msgNum := 42, cls := 0x6414 }
  body := .modernMsg { extension := some { binaryData := some 1 }, payload := some (.binary data) }

/-- An answer of two chunks. -/
def sampleAnswer : Answer sampleRequest where
  reply := sampleReply
  chunks := [sampleChunk 200 [0xde, 0xad]]
  last := sampleChunk 201 [0xbe]
  size := 3
  number := 42
  reply_id := rfl
  reply_num := rfl
  reply_code := rfl
  reply_snap := ⟨"snap.jpg", rfl⟩
  number_ne := by decide
  chunk_id := by decide
  chunk_num := by decide
  chunk_more := by decide
  last_code := rfl
  last_data := rfl
  length_eq := by decide
  size_le := by decide

/-- The client subscribes to the message id before a chunk arrives. -/
def timelyActs : List Act :=
  [.client, .client, .take, .handle, .arrive, .take, .handle, .client, .client, .client,
    .arrive, .arrive, .take, .handle, .take, .handle, .client, .take, .handle, .client]

/-- A chunk arrives with the reply. -/
def earlyActs : List Act :=
  [.client, .client, .take, .handle, .arrive, .arrive, .take, .handle, .client, .client, .client,
    .arrive, .take, .handle, .take, .handle, .take, .handle, .client]

/-- Whether anything can go on can be tried out. -/
theorem quiet_of_all (h : [Act.arrive, .take, .handle, .client].all
    fun act => (s.step req act).isNone) : Quiet req s := by
  intro act
  refine Option.isNone_iff_eq_none.1 (List.all_eq_true.1 h act ?_)
  cases act <;> decide

/-- With the subscription there in time, the picture comes out whole. -/
theorem getSnapshot_timelyActs : ∃ s, (init Poller.new
      (sampleAnswer.reply :: sampleAnswer.all)).run sampleRequest timelyActs = some s ∧
    ((s.phase = .done (.ok sampleAnswer.picture) ∧
        s.passedOn Poller.new = sampleAnswer.reply :: sampleAnswer.all) ↔
      AllTimely sampleRequest (init Poller.new (sampleAnswer.reply :: sampleAnswer.all))
        timelyActs) := by
  have hrun : ((init Poller.new (sampleAnswer.reply :: sampleAnswer.all)).run sampleRequest
      timelyActs).map (fun s => [Act.arrive, .take, .handle, .client].all
        fun act => (s.step sampleRequest act).isNone) = some true := by decide +kernel
  obtain ⟨s, hs, hquiet⟩ := Option.map_eq_some_iff.1 hrun
  exact ⟨s, hs, (getSnapshot_iff sampleRequest sampleAnswer Poller.new idle_new timelyActs s
    hs).2 (quiet_of_all hquiet)⟩

/-- The chunk that arrives with the reply goes to nobody, and the picture is lost. -/
theorem getSnapshot_earlyActs_ne : ∃ s, (init Poller.new
      (sampleAnswer.reply :: sampleAnswer.all)).run sampleRequest earlyActs = some s ∧
    Quiet sampleRequest s ∧ s.phase ≠ .done (.ok sampleAnswer.picture) ∧
    s.passedOn Poller.new = [sampleReply, sampleChunk 201 [0xbe]] := by
  have hrun : ((init Poller.new (sampleAnswer.reply :: sampleAnswer.all)).run sampleRequest
      earlyActs).map (fun s => ([Act.arrive, .take, .handle, .client].all
          fun act => (s.step sampleRequest act).isNone,
        decide (s.phase ≠ .done (.ok sampleAnswer.picture)), s.passedOn Poller.new)) =
      some (true, true, [sampleReply, sampleChunk 201 [0xbe]]) := by decide +kernel
  obtain ⟨s, hs, hresult⟩ := Option.map_eq_some_iff.1 hrun
  obtain ⟨hquiet, hrest⟩ := Prod.mk.inj hresult
  obtain ⟨hphase, hpassed⟩ := Prod.mk.inj hrest
  exact ⟨s, hs, quiet_of_all hquiet, of_decide_eq_true hphase, hpassed⟩

end Snapshot

end Bairelay
