import Bairelay.BcUdp.De
import Bairelay.Lib.KeyMap
import Bairelay.Lib.Mailbox
import Bairelay.Lib.Past
import Bairelay.Wake.Address

/-!
# The discoverer

While a camera is searched for, all that is asked and answered goes through one socket
(`connection/discovery.rs`). One task reads it, and passes each datagram on to the call that waits
for its transmission id, or else to those that wait for a camera to begin. It never waits for a
call, what finds no room is dropped, until the socket fails: then it tells the calls one after the
other, each as soon as there is room, and nobody can subscribe in the meantime.

* `view_run`: the events that concern one call are a run of their own, in which it sees the same;
* `follows_run`: a call gets the answers with its id that come while it waits, in their order, as
  long as fewer than ten of them wait;
* `retrySend_ok`: what it returns.
-/

namespace Bairelay

/-- The room of a channel. -/
def discoveryChannel : ℕ := 10

/-- What a call is answered: a datagram and where it comes from. -/
abbrev Reply (ρ : Type) := UdpDiscovery ρ × SocketAddr

/-- The answers among what a call receives. -/
def replies {ρ ε : Type} (items : List (Except ε (Reply ρ))) : List (Reply ρ) :=
  items.filterMap Except.toOption

/-- Why a call ends without a result. -/
inductive CallError (ε : Type) where
  | discoveryIgnored
  | discoveryTimeout
  | connectionUnavailable
  /-- Nothing can be received, or sent. -/
  | socket (error : ε)
  /-- Nobody waits for the result any more. -/
  | dropped
  deriving DecidableEq

/-- A call that waits for the answers it accepts, or has ended. -/
structure Call (ρ ε τ : Type) where
  accept : UdpDiscovery ρ → SocketAddr → Option τ
  /-- The channel of its subscription, in which the failure of the socket is told as well. -/
  box : Mailbox discoveryChannel (Except ε (Reply ρ)) := .empty
  outcome : Option (Except (CallError ε) τ) := none

namespace Call

variable {ρ ε τ : Type} (c : Call ρ ε τ)

/-- An item is put into the channel of a call, unless it is full or closed. -/
def trySend (item : Except ε (Reply ρ)) : Call ρ ε τ := { c with box := c.box.trySend item }

/-- Nothing is put into a channel that is closed. -/
theorem trySend_of_closed {c : Call ρ ε τ} (h : c.box.closed = true)
    (item : Except ε (Reply ρ)) : c.trySend item = c := by
  rw [trySend, Mailbox.trySend_of_closed h]

/-- The call returns, and its channel is closed. -/
def finish (outcome : Except (CallError ε) τ) : Call ρ ε τ :=
  { c with box := c.box.close, outcome := some outcome }

/-- The loop of `retry_send` takes what has waited longest; that of `handle_incoming` has the
    transmission id `0`. -/
def poll (tid : UInt32) : Call ρ ε τ :=
  match c.box.queue.head? with
  | some (.ok reply) =>
    match c.accept reply.1 reply.2 with
    | some result => { c with box := c.box.take }.finish (.ok result)
    | none => { c with box := c.box.take }
  | some (.error error) =>
    -- A call that sends again and again does not mind.
    if 0 < tid then { c with box := c.box.take }
    else { c with box := c.box.take }.finish (.error (.socket error))
  | none =>
    c.finish (.error (if 0 < tid then .discoveryIgnored else .connectionUnavailable))

/-- The call still waits: it has accepted nothing of what it has received. -/
structure Waits : Prop where
  outcome : c.outcome = none
  isOpen : c.box.closed = false
  rejects : ∀ reply ∈ replies c.box.received, c.accept reply.1 reply.2 = none

/-- The call has ended: with the first answer that it accepts, or without such a one when there are
    to be no more, or for a reason of its own. -/
structure Ended : Prop where
  isSome : c.outcome.isSome = true
  closed : c.box.closed = true
  accepts : ∀ result, c.outcome = some (.ok result) →
    (replies c.box.received).findSome? (fun reply => c.accept reply.1 reply.2) = some result
  ignored : c.outcome = some (.error .discoveryIgnored) →
    c.box.queue = [] ∧ ∀ reply ∈ replies c.box.received, c.accept reply.1 reply.2 = none

variable {c}

theorem replies_append (xs ys : List (Except ε (Reply ρ))) :
    replies (xs ++ ys) = replies xs ++ replies ys := List.filterMap_append

theorem Waits.trySend (h : c.Waits) (item : Except ε (Reply ρ)) : (c.trySend item).Waits where
  outcome := h.outcome
  isOpen := (Mailbox.closed_trySend ..).trans h.isOpen
  rejects := by
    rw [Call.trySend, Mailbox.received_trySend]
    exact h.rejects

/-- A call that waits passes over a reply that it does not accept. -/
theorem Waits.take (h : c.Waits) (hhead : ∀ reply, c.box.queue.head? = some (.ok reply) →
    c.accept reply.1 reply.2 = none) : Waits { c with box := c.box.take } where
  outcome := h.outcome
  isOpen := h.isOpen
  rejects reply hreply := by
    rw [Mailbox.take] at hreply
    dsimp only at hreply
    rw [replies_append, List.mem_append] at hreply
    rcases hreply with hreply | hreply
    · exact h.rejects reply hreply
    · obtain ⟨item, hitem, hok⟩ := List.mem_filterMap.1 hreply
      rw [Option.mem_toList] at hitem
      cases item with
      | error error => cases hok
      | ok reply' =>
        obtain rfl := Option.some.inj hok
        exact hhead _ hitem

/-- A call that ends has left nothing unread if it says that it was ignored. -/
theorem Waits.finish (h : c.Waits) {why : CallError ε}
    (hwhy : why = .discoveryIgnored → c.box.queue = []) :
    (c.finish (.error why)).Ended where
  isSome := rfl
  closed := rfl
  accepts := nofun
  ignored hignored := ⟨hwhy (Except.error.inj (Option.some.inj hignored)), h.rejects⟩

/-- What becomes of a call with an id of its own that looks into its channel. -/
theorem Waits.poll {tid : UInt32} (htid : 0 < tid) (h : c.Waits) :
    (c.poll tid).Waits ∨ (c.poll tid).Ended := by
  rw [Call.poll]
  split
  · rename_i reply hhead
    split
    · rename_i result haccept
      refine .inr ⟨rfl, rfl, fun result' hresult => ?_, nofun⟩
      obtain rfl := Except.ok.inj (Option.some.inj hresult)
      have hreceived : replies (c.box.take).received = replies c.box.received ++ [reply] := by
        rw [Mailbox.take, hhead]
        exact replies_append ..
      change (replies (c.box.take).received).findSome? (fun reply => c.accept reply.1 reply.2) = _
      rw [hreceived, List.findSome?_append, List.findSome?_eq_none_iff.2 h.rejects,
        Option.none_or, List.findSome?_singleton]
      exact haccept
    · rename_i haccept
      refine .inl (h.take fun reply' hreply' => ?_)
      obtain rfl := Except.ok.inj (Option.some.inj (hhead.symm.trans hreply'))
      exact haccept
  · rename_i error hhead
    rw [if_pos htid]
    refine .inl (h.take fun reply hreply => ?_)
    cases hhead.symm.trans hreply
  · rename_i hhead
    exact .inr (h.finish fun _ => List.head?_eq_none_iff.1 hhead)

/-- A call that reads only takes from the front of its channel. -/
theorem contents_poll (c : Call ρ ε τ) (tid : UInt32) :
    (c.poll tid).box.contents = c.box.contents := by
  rw [Call.poll]
  split
  · split
    · exact (Mailbox.contents_close _).trans (Mailbox.contents_take _)
    · exact Mailbox.contents_take _
  · split_ifs
    · exact Mailbox.contents_take _
    · exact (Mailbox.contents_close _).trans (Mailbox.contents_take _)
  · exact Mailbox.contents_close _

theorem accept_poll (c : Call ρ ε τ) (tid : UInt32) : (c.poll tid).accept = c.accept := by
  rw [Call.poll]
  split
  · split <;> rfl
  · split_ifs <;> rfl
  · rfl

end Call

/-- Where the task that reads the socket is. -/
inductive Reader (ε : Type) where
  | reading
  /-- It has found a subscription that is over, and waits to remove it. -/
  | removing (tid : UInt32)
  /-- The socket has failed, which these are still to be told; the subscriptions are locked. -/
  | failing (error : ε) (left : List UInt32)
  | ended

namespace Reader

variable {ε : Type}

/-- The reader has nothing to finish first. -/
def isReading : Reader ε → Bool
  | reading => true
  | _ => false

/-- The reader is about to remove the subscription of this id. -/
def isRemoving (tid : UInt32) : Reader ε → Bool
  | removing other => other = tid
  | _ => false

/-- The reader has failed, and has subscribers to tell. -/
def isFailing : Reader ε → Bool
  | failing _ _ => true
  | _ => false

/-- What of it a transmission id has to do with. -/
def view (tid : UInt32) : Reader ε → Reader ε
  | .reading => .reading
  | .removing other => if other = tid then .removing tid else .reading
  | .failing error left => .failing error (left.filter (· = tid))
  | .ended => .ended

/-- A view of the reader shows whether it has failed. -/
theorem isFailing_view (tid : UInt32) (reader : Reader ε) :
    (reader.view tid).isFailing = reader.isFailing := by
  cases reader with
  | removing other =>
    rw [view]
    split_ifs <;> rfl
  | reading | failing _ _ | ended => rfl

variable {reader : Reader ε} {tid : UInt32}

theorem isReading_iff : reader.isReading = true ↔ reader = .reading := by
  cases reader <;> simp [isReading]

/-- The reader removes one subscription at a time. -/
theorem isRemoving_iff : reader.isRemoving tid = true ↔ reader = .removing tid := by
  cases reader <;> simp [isRemoving]

end Reader

/-- The calls are numbered, for each transmission id. -/
structure Discoverer (ρ ε τ : Type) where
  subscribers : KeyMap UInt32 ℕ := ∅
  /-- Those of `0` are the handlers. -/
  calls : UInt32 → List (Call ρ ε τ) := fun _ => []
  reader : Reader ε := .reading

namespace Discoverer

variable {ρ ε τ : Type}

/-- What happens to a discoverer: datagrams, calls, and the steps of the reader between them. -/
inductive Event (ρ ε τ : Type) where
  | subscribe (tid : UInt32) (accept : UdpDiscovery ρ → SocketAddr → Option τ)
  /-- A datagram is read. -/
  | arrive (packet : BcUdp ρ) (addr : SocketAddr)
  /-- The subscription that was over is removed. -/
  | remove (tid : UInt32)
  /-- The socket fails, or what it has received cannot be read. -/
  | error (error : ε)
  /-- A call is told. -/
  | tell (tid : UInt32)
  /-- All calls are told. -/
  | clear
  | endOfStream
  /-- A call looks into its channel. -/
  | poll (tid : UInt32) (n : ℕ)
  | timeout (tid : UInt32) (n : ℕ)
  | sendFailed (tid : UInt32) (n : ℕ) (error : ε)
  | drop (tid : UInt32) (n : ℕ)

variable (d : Discoverer ρ ε τ)

/-- Something happens to the `n`th call of an id. -/
def modify (tid : UInt32) (n : ℕ) (f : Call ρ ε τ → Call ρ ε τ) : Discoverer ρ ε τ :=
  { d with calls := Function.update d.calls tid ((d.calls tid).modify n f) }

/-- Whether the channel of a subscription is still there. -/
def isOpen (tid : UInt32) (n : ℕ) : Bool := (d.calls tid)[n]?.any (!·.box.closed)

/-- Nothing more can come for a call. -/
def gone (tid : UInt32) (n : ℕ) : Bool := 0 < tid && d.subscribers[tid]? ≠ some n

/-- A subscription and the call that waits for it. Id 0 is not subscribed to. -/
def insert (tid : UInt32) (accept : UdpDiscovery ρ → SocketAddr → Option τ) :
    Discoverer ρ ε τ :=
  { d with
    subscribers :=
      if 0 < tid then d.subscribers.insert tid (d.calls tid).length else d.subscribers
    calls := Function.update d.calls tid (d.calls tid ++ [{ accept }]) }

/-- A call waits for the answers of its id already. -/
def Occupied (tid : UInt32) : Prop := 0 < tid ∧ d.subscribers[tid]?.any (d.isOpen tid) = true

instance (tid : UInt32) : Decidable (d.Occupied tid) := inferInstanceAs (Decidable (_ ∧ _))

/-- A datagram is passed on. -/
def route (reply : Reply ρ) : Discoverer ρ ε τ :=
  let tid := reply.1.tid
  match if 0 < tid then d.subscribers[tid]? else none with
  | some n =>
    if d.isOpen tid n then d.modify tid n (·.trySend (.ok reply))
    else { d with reader := .removing tid }
  | none =>
    { d with
      calls := Function.update d.calls 0 ((d.calls 0).map (·.trySend (.ok reply))) }

/-- The next call is told, unless it is over. -/
def tell (tid : UInt32) : Discoverer ρ ε τ :=
  match d.reader with
  | .failing error (_ :: left) =>
    let told := match d.subscribers[tid]? with
      | some n => d.modify tid n (·.trySend (.error error))
      | none => d
    { told with reader := .failing error left }
  | _ => d

/-- Whether a call still waits. -/
def isWaiting (tid : UInt32) (n : ℕ) : Bool := (d.calls tid)[n]?.any (·.outcome.isNone)

/-- Whether an event can be. -/
def enabled : Event ρ ε τ → Bool
  -- The reader holds the lock of the subscriptions while it tells them, not that of the handlers.
  | .subscribe tid _ => tid = 0 || !d.reader.isFailing
  | .arrive _ _ | .error _ | .endOfStream => d.reader.isReading
  | .remove tid => d.reader.isRemoving tid
  | .tell tid =>
    match d.reader with
    | .failing _ (next :: _) => next = tid && d.subscribers[tid]?.all fun n =>
        (d.calls tid)[n]?.all fun c => c.box.closed || c.box.queue.length < discoveryChannel
    | _ => false
  | .clear =>
    match d.reader with
    | .failing _ [] => true
    | _ => false
  | .poll tid n =>
    (d.calls tid)[n]?.any fun c => c.outcome.isNone && (c.box.queue ≠ [] || d.gone tid n)
  | .sendFailed tid n _ => 0 < tid && d.isWaiting tid n
  | .timeout tid n | .drop tid n => d.isWaiting tid n

/-- What an event does. -/
def perform : Event ρ ε τ → Discoverer ρ ε τ
  | .subscribe tid accept => if d.Occupied tid then d else d.insert tid accept
  | .arrive (.discovery bcudp) addr => d.route (bcudp, addr)
  -- The others are not for a discovery.
  | .arrive _ _ => d
  | .remove tid => { d with subscribers := d.subscribers.erase tid, reader := .reading }
  | .error error => { d with reader := .failing error d.subscribers.keys }
  | .tell tid => d.tell tid
  | .clear => { d with subscribers := ∅, reader := .ended }
  | .endOfStream => { d with reader := .ended }
  | .poll tid n => d.modify tid n (·.poll tid)
  | .timeout tid n => d.modify tid n (·.finish (.error .discoveryTimeout))
  | .sendFailed tid n error => d.modify tid n (·.finish (.error (.socket error)))
  | .drop tid n => d.modify tid n (·.finish (.error .dropped))

/-- What cannot be changes nothing. -/
def step (e : Event ρ ε τ) : Discoverer ρ ε τ := if d.enabled e then d.perform e else d

/-- The discoverer after some events, of which those that are not enabled leave it as it is. -/
def run (events : List (Event ρ ε τ)) : Discoverer ρ ε τ := events.foldl step {}

theorem run_concat (events : List (Event ρ ε τ)) (e : Event ρ ε τ) :
    run (events ++ [e]) = (run events).step e := List.foldl_concat ..

/-- Every event of a run can be when it is. -/
def Legal (events : List (Event ρ ε τ)) : Prop :=
  Past.Always (fun before e => (run before).enabled e = true) events

instance (events : List (Event ρ ε τ)) : Decidable (Legal events) :=
  inferInstanceAs (Decidable (Past.Always _ _))

/-! ## The calls do not meet -/

/-- The events that a transmission id has to do with. -/
def concerns (tid : UInt32) : Event ρ ε τ → Bool
  | .subscribe other _ | .remove other | .tell other | .poll other _ | .timeout other _
  | .sendFailed other _ _ | .drop other _ => other = tid
  | .arrive (.discovery bcudp) _ => bcudp.tid = tid
  | .arrive _ _ => false
  | .error _ | .clear | .endOfStream => true

/-- A discoverer with one transmission id is what this id sees of another one. -/
structure Sees (tid : UInt32) (d d' : Discoverer ρ ε τ) : Prop where
  subscriber : d'.subscribers[tid]? = d.subscribers[tid]?
  calls : d'.calls tid = d.calls tid
  reader : d'.reader = d.reader.view tid
  only : ∀ other, other ≠ tid → d'.subscribers[other]? = none

variable {d d' : Discoverer ρ ε τ} {tid : UInt32}

theorem modify_calls_self (tid : UInt32) (n : ℕ) (f : Call ρ ε τ → Call ρ ε τ) :
    (d.modify tid n f).calls tid = (d.calls tid).modify n f := Function.update_self ..

theorem modify_calls_of_ne {other : UInt32} (h : tid ≠ other) (n : ℕ)
    (f : Call ρ ε τ → Call ρ ε τ) : (d.modify other n f).calls tid = d.calls tid :=
  Function.update_of_ne h ..

/-- A datagram for another id touches nothing of this one, except that the reader may have to remove
    the other's subscription. -/
theorem route_of_ne (htid : 0 < tid) (reply : Reply ρ) (h : tid ≠ reply.1.tid)
    (hreading : d.reader = .reading) : (d.route reply).subscribers = d.subscribers ∧
      (d.route reply).calls tid = d.calls tid ∧ (d.route reply).reader.view tid = .reading := by
  rw [route]
  split
  · split_ifs
    · refine ⟨rfl, modify_calls_of_ne h _ _, ?_⟩
      rw [modify]
      dsimp only
      rw [hreading, Reader.view]
    · exact ⟨rfl, rfl, if_neg h.symm⟩
  · refine ⟨rfl, Function.update_of_ne (UInt32.ne_of_lt htid).symm .., ?_⟩
    dsimp only
    rw [hreading, Reader.view]

/-- An event that concerns others only is not seen. -/
theorem Sees.frame (htid : 0 < tid) (h : Sees tid d d') {e : Event ρ ε τ}
    (he : concerns tid e = false) (henabled : d.enabled e = true) : Sees tid (d.perform e) d' := by
  cases e with
  | subscribe other accept =>
    have hne : tid ≠ other := Ne.symm (of_decide_eq_false he)
    rw [perform]
    split_ifs
    · exact h
    · refine ⟨h.subscriber.trans ?_, h.calls.trans (Function.update_of_ne hne ..).symm, h.reader,
        h.only⟩
      rw [insert]
      dsimp only
      split_ifs
      · rw [Std.ExtTreeMap.getElem?_insert, if_neg (by simpa using hne.symm)]
      · rfl
  | arrive packet addr =>
    have hreading := Reader.isReading_iff.1 henabled
    cases packet with
    | discovery bcudp =>
      obtain ⟨hsub, hcalls, hreader⟩ :=
        route_of_ne htid (bcudp, addr) (Ne.symm (of_decide_eq_false he)) hreading
      refine ⟨h.subscriber.trans (hsub ▸ rfl), h.calls.trans hcalls.symm, ?_, h.only⟩
      rw [perform, hreader, h.reader, hreading, Reader.view]
    | ack _ | data _ => exact h
  | remove other =>
    have hne : other ≠ tid := of_decide_eq_false he
    refine ⟨h.subscriber.trans ?_, h.calls, ?_, h.only⟩
    · rw [perform, Std.ExtTreeMap.getElem?_erase, if_neg (by simpa using hne)]
    · rw [h.reader, Reader.isRemoving_iff.1 henabled, Reader.view, if_neg hne]
      rfl
  | tell other =>
    have hne : tid ≠ other := Ne.symm (of_decide_eq_false he)
    rw [enabled] at henabled
    split at henabled
    · rename_i error next left hreader
      obtain rfl : next = other := of_decide_eq_true (Bool.and_eq_true_iff.1 henabled).1
      rw [perform, tell, hreader]
      have hview : d'.reader = .failing error (left.filter (· = tid)) := by
        rw [h.reader, hreader, Reader.view, List.filter_cons_of_neg (by simpa using hne.symm)]
      dsimp only
      split
      · exact ⟨h.subscriber, h.calls.trans (modify_calls_of_ne hne _ _).symm, hview, h.only⟩
      · exact ⟨h.subscriber, h.calls, hview, h.only⟩
    · cases henabled
  | error _ | clear | endOfStream => cases he
  | poll other n | timeout other n | sendFailed other n error | drop other n =>
    have hne : tid ≠ other := Ne.symm (of_decide_eq_false he)
    exact ⟨h.subscriber, h.calls.trans (modify_calls_of_ne hne _ _).symm, h.reader, h.only⟩

/-- Whether a call is gone can be seen from its own id. -/
theorem Sees.gone_eq (h : Sees tid d d') (n : ℕ) : d'.gone tid n = d.gone tid n := by
  rw [gone, gone, h.subscriber]

theorem Sees.isOpen_eq (h : Sees tid d d') (n : ℕ) : d'.isOpen tid n = d.isOpen tid n := by
  rw [isOpen, isOpen, h.calls]

/-- What can be can be for the transmission id alone. -/
theorem Sees.enabled (h : Sees tid d d') {e : Event ρ ε τ} (he : concerns tid e = true)
    (henabled : d.enabled e = true) : d'.enabled e = true := by
  have hreading : d.reader.isReading = true → d'.reader.isReading = true := by
    intro hreading
    rw [h.reader, Reader.isReading_iff.1 hreading]
    rfl
  cases e with
  | subscribe other accept =>
    have hfailing : d'.reader.isFailing = d.reader.isFailing := by
      rw [h.reader]
      exact Reader.isFailing_view _ _
    rw [Discoverer.enabled, hfailing]
    exact henabled
  | arrive packet addr => exact hreading henabled
  | error error => exact hreading henabled
  | endOfStream => exact hreading henabled
  | remove other =>
    obtain rfl : other = tid := of_decide_eq_true he
    refine Reader.isRemoving_iff.2 ?_
    rw [h.reader, Reader.isRemoving_iff.1 henabled]
    exact if_pos rfl
  | tell other =>
    obtain rfl : other = tid := of_decide_eq_true he
    rw [Discoverer.enabled] at henabled
    split at henabled
    · rename_i error next left hreader
      obtain rfl : next = other := of_decide_eq_true (Bool.and_eq_true_iff.1 henabled).1
      have hview : d'.reader = .failing error (next :: left.filter (· = next)) := by
        rw [h.reader, hreader, Reader.view, List.filter_cons_of_pos (by simp)]
      rw [Discoverer.enabled, hview]
      dsimp only
      rw [h.subscriber, h.calls]
      exact henabled
    · cases henabled
  | clear =>
    rw [Discoverer.enabled] at henabled
    split at henabled
    · rename_i error hreader
      rw [Discoverer.enabled, h.reader, hreader]
      rfl
    · cases henabled
  | poll other n =>
    obtain rfl : other = tid := of_decide_eq_true he
    rw [Discoverer.enabled, h.calls, h.gone_eq]
    exact henabled
  | sendFailed other n error | timeout other n | drop other n =>
    obtain rfl : other = tid := of_decide_eq_true he
    rw [Discoverer.enabled, isWaiting, h.calls]
    exact henabled

theorem Sees.modify (h : Sees tid d d') (n : ℕ) (f : Call ρ ε τ → Call ρ ε τ) :
    Sees tid (d.modify tid n f) (d'.modify tid n f) where
  subscriber := h.subscriber
  calls := by rw [modify_calls_self, modify_calls_self, h.calls]
  reader := h.reader
  only := h.only

theorem Sees.insert (htid : 0 < tid) (h : Sees tid d d')
    (accept : UdpDiscovery ρ → SocketAddr → Option τ) :
    Sees tid (d.insert tid accept) (d'.insert tid accept) where
  subscriber := by
    rw [Discoverer.insert, Discoverer.insert]
    dsimp only
    rw [if_pos htid, if_pos htid, Std.ExtTreeMap.getElem?_insert_self,
      Std.ExtTreeMap.getElem?_insert_self, h.calls]
  calls := by
    rw [Discoverer.insert, Discoverer.insert]
    dsimp only
    rw [Function.update_self, Function.update_self, h.calls]
  reader := h.reader
  only other hother := by
    rw [Discoverer.insert]
    dsimp only
    rw [if_pos htid, Std.ExtTreeMap.getElem?_insert, if_neg (by simpa using hother.symm),
      h.only other hother]

/-- A datagram for the id does the same on both sides. -/
theorem Sees.route (htid : 0 < tid) (h : Sees tid d d') {reply : Reply ρ}
    (hreply : reply.1.tid = tid) (hreading : d.reader = .reading) :
    Sees tid (d.route reply) (d'.route reply) := by
  subst hreply
  have hreading' : d'.reader = .reading := by
    rw [h.reader, hreading]
    rfl
  rw [Discoverer.route, Discoverer.route, if_pos htid, if_pos htid, h.subscriber]
  cases d.subscribers[reply.1.tid]? with
  | some n =>
    dsimp only
    rw [h.isOpen_eq]
    split_ifs
    · exact h.modify n _
    · exact ⟨h.subscriber, h.calls, (if_pos rfl).symm, h.only⟩
  | none =>
    have hne : reply.1.tid ≠ 0 := (UInt32.ne_of_lt htid).symm
    refine ⟨h.subscriber, ?_, h.reader, h.only⟩
    dsimp only
    rw [Function.update_of_ne hne, Function.update_of_ne hne, h.calls]

/-- Of all subscribers, only the one with the id is told. -/
theorem filter_keys (m : KeyMap UInt32 ℕ) (tid : UInt32) :
    m.keys.filter (· = tid) = if m[tid]?.isSome then [tid] else [] := by
  have hmem : tid ∈ m.keys ↔ m[tid]?.isSome = true := by
    rw [Std.ExtTreeMap.mem_keys, Std.ExtTreeMap.mem_iff_isSome_getElem?]
  rw [List.filter_eq]
  split_ifs with hsome
  · rw [List.count_eq_one_of_mem Std.ExtTreeMap.nodup_keys (hmem.2 hsome), List.replicate_one]
  · rw [List.count_eq_zero.2 fun h => hsome (hmem.1 h), List.replicate_zero]

/-- Of the subscriptions that are told of a failure, the transmission id has its own. -/
theorem Sees.keys (h : Sees tid d d') :
    d'.subscribers.keys = d.subscribers.keys.filter (· = tid) := by
  have hown : d'.subscribers.keys.filter (· = tid) = d'.subscribers.keys := by
    refine List.filter_eq_self.2 fun other hother => decide_eq_true ?_
    by_contra hne
    rw [Std.ExtTreeMap.mem_keys, Std.ExtTreeMap.mem_iff_isSome_getElem?, h.only other hne] at hother
    cases hother
  rw [← hown, filter_keys, filter_keys, h.subscriber]

/-- Being told of a failure looks the same on both sides. -/
theorem Sees.tell (h : Sees tid d d') (henabled : d.enabled (.tell tid : Event ρ ε τ) = true) :
    Sees tid (d.tell tid) (d'.tell tid) := by
  rw [Discoverer.enabled] at henabled
  split at henabled
  · rename_i error next left hreader
    obtain rfl : next = tid := of_decide_eq_true (Bool.and_eq_true_iff.1 henabled).1
    have hview : d'.reader = .failing error (next :: left.filter (· = next)) := by
      rw [h.reader, hreader, Reader.view, List.filter_cons_of_pos (by simp)]
    rw [Discoverer.tell, Discoverer.tell, hreader, hview, h.subscriber]
    dsimp only
    cases d.subscribers[next]? with
    | some n =>
      have hmodify := h.modify n (·.trySend (.error error))
      exact ⟨hmodify.subscriber, hmodify.calls, rfl, hmodify.only⟩
    | none => exact ⟨h.subscriber, h.calls, rfl, h.only⟩
  · cases henabled

/-- An event that concerns the transmission id is the same for it alone. -/
theorem Sees.local (htid : 0 < tid) (h : Sees tid d d') {e : Event ρ ε τ}
    (he : concerns tid e = true) (henabled : d.enabled e = true) :
    Sees tid (d.perform e) (d'.perform e) := by
  cases e with
  | subscribe other accept =>
    obtain rfl : other = tid := of_decide_eq_true he
    have hoccupied : d'.Occupied other ↔ d.Occupied other := by
      rw [Occupied, Occupied, h.subscriber, funext h.isOpen_eq]
    rw [perform, perform]
    by_cases hocc : d.Occupied other
    · rw [if_pos hocc, if_pos (hoccupied.2 hocc)]
      exact h
    · rw [if_neg hocc, if_neg fun hocc' => hocc (hoccupied.1 hocc')]
      exact h.insert htid accept
  | arrive packet addr =>
    cases packet with
    | discovery bcudp =>
      exact h.route htid (of_decide_eq_true he) (Reader.isReading_iff.1 henabled)
    | ack _ | data _ => cases he
  | remove other =>
    obtain rfl : other = tid := of_decide_eq_true he
    refine ⟨?_, h.calls, rfl, fun t ht => ?_⟩
    · rw [perform, perform, Std.ExtTreeMap.getElem?_erase_self, Std.ExtTreeMap.getElem?_erase_self]
    · rw [perform, Std.ExtTreeMap.getElem?_erase, h.only t ht, ite_self]
  | error error =>
    refine ⟨h.subscriber, h.calls, ?_, h.only⟩
    exact congrArg (Reader.failing error) h.keys
  | tell other =>
    obtain rfl : other = tid := of_decide_eq_true he
    exact h.tell henabled
  | clear =>
    refine ⟨?_, h.calls, rfl, fun t _ => Std.ExtTreeMap.getElem?_empty⟩
    rw [perform, perform, Std.ExtTreeMap.getElem?_empty]
  | endOfStream => exact ⟨h.subscriber, h.calls, rfl, h.only⟩
  | poll other n | timeout other n | sendFailed other n error | drop other n =>
    obtain rfl : other = tid := of_decide_eq_true he
    exact h.modify n _

/-- Whatever is sent to the others and whatever they do, the events that concern a call are a run
    of their own, and in this run the call sees what it sees. -/
theorem view_run {tid : UInt32} (htid : 0 < tid) (events : List (Event ρ ε τ))
    (hlegal : Legal events) :
    Legal (events.filter (concerns tid)) ∧
      Sees tid (run events) (run (events.filter (concerns tid))) := by
  induction events using List.reverseRecOn with
  | nil => exact ⟨Past.always_nil, rfl, rfl, rfl, fun _ _ => Std.ExtTreeMap.getElem?_empty⟩
  | append_singleton events e ih =>
    obtain ⟨hbefore, henabled⟩ := Past.always_concat.1 hlegal
    obtain ⟨hown, hsees⟩ := ih hbefore
    rw [List.filter_append, List.filter_singleton, run_concat, step, if_pos henabled]
    cases he : concerns tid e with
    | true =>
      have henabled' := hsees.enabled he henabled
      rw [cond_true, run_concat, step, if_pos henabled']
      exact ⟨Past.always_concat.2 ⟨hown, henabled'⟩, hsees.local htid he henabled⟩
    | false =>
      rw [cond_false, List.append_nil]
      exact ⟨hown, hsees.frame htid he henabled⟩

/-- A call that takes what comes from another port than `1`. -/
def byPort (_ : UdpDiscovery Unit) (addr : SocketAddr) : Option UInt16 :=
  if addr.port = 1 then none else some addr.port

/-- Two calls wait, the second one is answered first, and then the socket fails. -/
def twoCalls : List (Event Unit Unit UInt16) :=
  [.subscribe 7 byPort, .subscribe 9 byPort,
    .arrive (.discovery ⟨9, .other ()⟩) ⟨.v4 192 168 1 11, 2018⟩,
    .arrive (.discovery ⟨7, .other ()⟩) ⟨.v4 192 168 1 10, 1⟩, .error (), .tell 7, .poll 9 0,
    .tell 9, .poll 7 0, .poll 7 0, .clear, .poll 7 0]

theorem view_run_two : Legal (twoCalls.filter (concerns 7)) ∧
    Sees 7 (run twoCalls) (run (twoCalls.filter (concerns 7))) :=
  view_run (by decide) twoCalls (by decide +kernel)

/-! ## What a call gets -/

/-- The answer for a call that waits, where a datagram is one. -/
def answer? (tid : UInt32) (n : ℕ) (d : Discoverer ρ ε τ) : Event ρ ε τ → Option (Reply ρ)
  | .arrive (.discovery bcudp) addr =>
    if bcudp.tid = tid ∧ d.reader.isReading ∧ d.isWaiting tid n then some (bcudp, addr) else none
  | _ => none

/-- How much waits for a call. -/
def waiting (tid : UInt32) (n : ℕ) (d : Discoverer ρ ε τ) : ℕ :=
  ((d.calls tid)[n]?.map (·.box.queue.length)).getD 0

/-- A call waits: its subscription stands, or the reader has ended. -/
structure Waits (tid : UInt32) (n : ℕ) (d : Discoverer ρ ε τ) (c : Call ρ ε τ) : Prop where
  call : (d.calls tid)[n]? = some c
  waits : c.Waits
  sender : d.subscribers[tid]? = some n ∧ d.reader ≠ .removing tid ∨ d.reader = .ended

/-- What an event that can be does to a call. -/
def callAfter (tid : UInt32) (n : ℕ) (d : Discoverer ρ ε τ) (c : Call ρ ε τ) :
    Event ρ ε τ → Call ρ ε τ
  | .arrive (.discovery bcudp) addr =>
    if bcudp.tid = tid ∧ d.subscribers[tid]? = some n then c.trySend (.ok (bcudp, addr)) else c
  | .tell other =>
    match d.reader with
    | .failing error (_ :: _) =>
      if other = tid ∧ d.subscribers[tid]? = some n then c.trySend (.error error) else c
    | _ => c
  | .poll other m => if other = tid ∧ m = n then c.poll other else c
  | .timeout other m =>
    if other = tid ∧ m = n then c.finish (.error .discoveryTimeout) else c
  | .sendFailed other m error =>
    if other = tid ∧ m = n then c.finish (.error (.socket error)) else c
  | .drop other m => if other = tid ∧ m = n then c.finish (.error .dropped) else c
  | _ => c

/-- A call after something has happened to any of them. -/
theorem getElem?_modify {n : ℕ} {c : Call ρ ε τ} (h : (d.calls tid)[n]? = some c)
    (other : UInt32) (m : ℕ) (f : Call ρ ε τ → Call ρ ε τ) :
    ((d.modify other m f).calls tid)[n]? = some (if other = tid ∧ m = n then f c else c) := by
  by_cases hother : other = tid
  · subst hother
    rw [modify_calls_self, List.getElem?_modify, h]
    simp
  · rw [modify_calls_of_ne (Ne.symm hother), h, if_neg fun hand => hother hand.1]

/-- A step does to a call what `callAfter` says. -/
theorem getElem?_perform (htid : 0 < tid) {n : ℕ} {c : Call ρ ε τ}
    (h : (d.calls tid)[n]? = some c) (e : Event ρ ε τ) :
    ((d.perform e).calls tid)[n]? = some (callAfter tid n d c e) := by
  -- Each event changes at most one call, and at most one channel.
  cases e with
  | subscribe other accept =>
    rw [perform]
    split_ifs
    · exact h
    · rw [insert]
      dsimp only
      -- A new call comes behind those that are there.
      by_cases hother : tid = other
      · subst hother
        rw [Function.update_self]
        exact List.getElem?_append_left (List.getElem?_eq_some_iff.1 h).1 ▸ h
      · rw [Function.update_of_ne hother]
        exact h
  | arrive packet addr =>
    cases packet with
    | discovery bcudp =>
      rw [perform, route, callAfter]
      dsimp only
      have hzero : tid ≠ 0 := (UInt32.ne_of_lt htid).symm
      split
      · rename_i m hm
        have hsub : d.subscribers[bcudp.tid]? = some m := by
          -- The packet reaches this call if its own sender is the one in the map.
          split_ifs at hm
          exact hm
        have hiff : bcudp.tid = tid ∧ d.subscribers[tid]? = some n ↔ bcudp.tid = tid ∧ m = n := by
          refine and_congr_right fun htid' => ?_
          rw [← htid', hsub, Option.some.injEq]
        split_ifs with hopen hown hown
        · rw [getElem?_modify h, if_pos (hiff.1 hown)]
        · rw [getElem?_modify h, if_neg fun hand => hown (hiff.2 hand)]
        -- A closed channel takes nothing.
        · obtain ⟨htid', rfl⟩ := hiff.1 hown
          have hclosed : c.box.closed = true := by
            rw [isOpen, htid', h, Option.any_some] at hopen
            simpa using hopen
          rw [Call.trySend_of_closed hclosed]
          exact h
        · exact h
      · rename_i hm
        have hown : ¬(bcudp.tid = tid ∧ d.subscribers[tid]? = some n) := by
          rintro ⟨rfl, hsub⟩
          rw [if_pos htid, hsub] at hm
          cases hm
        rw [if_neg hown]
        dsimp only
        rw [Function.update_of_ne hzero]
        exact h
    | ack _ | data _ => exact h
  | remove other => exact h
  | error error => exact h
  | tell other =>
    rw [perform, tell, callAfter]
    split
    · cases hsub : d.subscribers[other]? with
      | some m =>
        have hiff : other = tid ∧ d.subscribers[tid]? = some n ↔ other = tid ∧ m = n := by
          refine and_congr_right fun hother => ?_
          rw [← hother, hsub, Option.some.injEq]
        simp only [hiff]
        exact getElem?_modify h other m _
      | none =>
        have hown : ¬(other = tid ∧ d.subscribers[tid]? = some n) := by
          rintro ⟨rfl, hsome⟩
          cases hsub.symm.trans hsome
        rw [if_neg hown]
        exact h
    · exact h
  | clear => exact h
  | endOfStream => exact h
  | poll other m => exact getElem?_modify h other m _
  | timeout other m => exact getElem?_modify h other m _
  | sendFailed other m error => exact getElem?_modify h other m _
  | drop other m => exact getElem?_modify h other m _

/-- What an event lets in. -/
def letIn (tid : UInt32) (n : ℕ) (d : Discoverer ρ ε τ) (e : Event ρ ε τ) : List (Reply ρ) :=
  if waiting tid n d < discoveryChannel then (answer? tid n d e).toList else []

theorem isWaiting_of_poll {n : ℕ} (h : d.enabled (.poll tid n : Event ρ ε τ) = true) :
    d.isWaiting tid n = true := by
  rw [enabled] at h
  rw [isWaiting]
  cases hcall : (d.calls tid)[n]? with
  | none =>
    rw [hcall] at h
    cases h
  | some c =>
    rw [hcall, Option.any_some, Bool.and_eq_true_iff] at h
    exact h.1

/-- A call waits as long as it has returned nothing. -/
theorem isWaiting_of_call {n : ℕ} {c : Call ρ ε τ} (h : (d.calls tid)[n]? = some c) :
    d.isWaiting tid n = c.outcome.isNone := by
  rw [isWaiting, h, Option.any_some]

/-- A call that has ended is left alone. -/
theorem callAfter_of_ended {n : ℕ} {c : Call ρ ε τ} (hcall : (d.calls tid)[n]? = some c)
    (h : c.Ended) {e : Event ρ ε τ} (henabled : d.enabled e = true) :
    callAfter tid n d c e = c := by
  have hown : ∀ {other : UInt32} {m : ℕ}, d.isWaiting other m = true →
      ¬(other = tid ∧ m = n) := by
    rintro other m hwaiting ⟨rfl, rfl⟩
    rw [isWaiting_of_call hcall, Option.isNone_iff_eq_none] at hwaiting
    exact Option.isSome_iff_ne_none.1 h.isSome hwaiting
  cases e with
  | arrive packet addr =>
    cases packet with
    | discovery bcudp => rw [callAfter, Call.trySend_of_closed h.closed, ite_self]
    | ack _ | data _ => rfl
  | tell other =>
    rw [callAfter]
    split
    · rw [Call.trySend_of_closed h.closed, ite_self]
    · rfl
  | poll other m => exact if_neg (hown (isWaiting_of_poll henabled))
  | timeout other m => exact if_neg (hown henabled)
  | sendFailed other m error => exact if_neg (hown (Bool.and_eq_true_iff.1 henabled).2)
  | drop other m => exact if_neg (hown henabled)
  | subscribe _ _ | remove _ | error _ | clear | endOfStream => rfl

/-- No datagram is an answer to a call that has returned. -/
theorem answer?_of_not_waiting {n : ℕ} (h : d.isWaiting tid n = false) (e : Event ρ ε τ) :
    answer? tid n d e = none := by
  rw [answer?.eq_def]
  split
  · refine if_neg ?_
    rintro ⟨-, -, hwaiting⟩
    cases h.symm.trans hwaiting
  · rfl

/-- A step that is not enabled brings no answer. -/
theorem answer?_of_not_enabled {n : ℕ} {e : Event ρ ε τ} (h : ¬d.enabled e = true) :
    answer? tid n d e = none := by
  rw [answer?.eq_def]
  split
  · refine if_neg ?_
    rintro ⟨-, hreading, -⟩
    exact h hreading
  · rfl

theorem ended_step (htid : 0 < tid) {n : ℕ} {c : Call ρ ε τ} (hcall : (d.calls tid)[n]? = some c)
    (h : c.Ended) (e : Event ρ ε τ) :
    ((d.step e).calls tid)[n]? = some c ∧ answer? tid n d e = none := by
  constructor
  · rw [step]
    split_ifs with henabled
    · rw [getElem?_perform htid hcall, callAfter_of_ended hcall h henabled]
    · exact hcall
  · refine answer?_of_not_waiting ?_ e
    rw [isWaiting_of_call hcall, Option.isNone_eq_false_iff]
    exact h.isSome

/-- The subscription of a call that waits stands, until the reader ends. -/
theorem Waits.sender_perform (htid : 0 < tid) {n : ℕ} {c : Call ρ ε τ} (h : Waits tid n d c)
    {e : Event ρ ε τ} (henabled : d.enabled e = true) :
    (d.perform e).subscribers[tid]? = some n ∧ (d.perform e).reader ≠ .removing tid ∨
      (d.perform e).reader = .ended := by
  have hopen : d.isOpen tid n = true := by
    -- The receiver is open as long as the call waits.
    rw [Discoverer.isOpen, h.call, Option.any_some, h.waits.isOpen]
    rfl
  rcases h.sender with ⟨hsub, hremoving⟩ | hended
  · cases e with
    -- A free transaction has no open channel, so it is not this one that is replaced.
    | subscribe other accept =>
      rw [perform]
      split_ifs with hocc
      · exact .inl ⟨hsub, hremoving⟩
      · refine .inl ⟨?_, hremoving⟩
        have hne : other ≠ tid := by
          rintro rfl
          exact hocc ⟨htid, by rw [hsub, Option.any_some, hopen]⟩
        rw [insert]
        dsimp only
        split_ifs
        · rw [Std.ExtTreeMap.getElem?_insert, if_neg (by simpa using hne)]
          exact hsub
        · exact hsub
    | arrive packet addr =>
      cases packet with
      | discovery bcudp =>
        have hreading := Reader.isReading_iff.1 henabled
        by_cases hown : bcudp.tid = tid
        · subst hown
          rw [perform, route, if_pos htid, hsub]
          dsimp only
          rw [if_pos hopen]
          exact .inl ⟨hsub, hremoving⟩
        -- A packet under another transaction leaves this one's sender where it is.
        · obtain ⟨hsame, -, hview⟩ :=
            route_of_ne htid (bcudp, addr) (Ne.symm hown) hreading
          refine .inl ⟨(congrArg (·[tid]?) hsame).trans hsub, fun hreader => ?_⟩
          rw [perform] at hreader
          rw [hreader, Reader.view, if_pos rfl] at hview
          cases hview
      | ack _ | data _ => exact .inl ⟨hsub, hremoving⟩
    -- The reader removes only the sender it found closed.
    | remove other =>
      have hne : other ≠ tid := by
        rintro rfl
        exact hremoving (Reader.isRemoving_iff.1 henabled)
      refine .inl ⟨?_, nofun⟩
      rw [perform, Std.ExtTreeMap.getElem?_erase, if_neg (by simpa using hne)]
      exact hsub
    | error error => exact .inl ⟨hsub, nofun⟩
    | tell other =>
      rw [perform, tell]
      split
      · refine .inl ⟨?_, nofun⟩
        dsimp only
        split <;> exact hsub
      · exact .inl ⟨hsub, hremoving⟩
    | clear | endOfStream => exact .inr rfl
    | poll _ _ | timeout _ _ | sendFailed _ _ _ | drop _ _ => exact .inl ⟨hsub, hremoving⟩
  · refine .inr ?_
    -- After its end the reader does nothing, and calls still come and go.
    cases e with
    | subscribe other accept =>
      rw [perform]
      split_ifs <;> exact hended
    | arrive _ _ | remove _ | error _ | tell _ | clear | endOfStream =>
      rw [Discoverer.enabled, hended] at henabled
      cases henabled
    | poll _ _ | timeout _ _ | sendFailed _ _ _ | drop _ _ => exact hended

/-- A datagram is let in if there is room for it. -/
theorem replies_trySend {n : ℕ} {c : Call ρ ε τ} (h : Waits tid n d c)
    (item : Except ε (Reply ρ)) : replies (c.trySend item).box.contents =
      replies c.box.contents ++
        if waiting tid n d < discoveryChannel then item.toOption.toList else [] := by
  have hwaiting : waiting tid n d = c.box.queue.length := by
    rw [waiting, h.call, Option.map_some, Option.getD_some]
  rw [Call.trySend, Mailbox.contents_trySend, hwaiting]
  by_cases hroom : c.box.queue.length < discoveryChannel
  · rw [if_pos hroom, if_pos ⟨h.waits.isOpen, hroom⟩, Call.replies_append]
    cases item <;> rfl
  · rw [if_neg hroom, if_neg fun hhas => hroom hhas.2, List.append_nil]

/-- A call that waits goes on or ends, and is let in what is for it. -/
theorem Waits.callAfter (htid : 0 < tid) {n : ℕ} {c : Call ρ ε τ} (h : Waits tid n d c)
    {e : Event ρ ε τ} (henabled : d.enabled e = true) :
    let c' := Discoverer.callAfter tid n d c e
    c'.accept = c.accept ∧ (c'.Waits ∨ c'.Ended) ∧
      replies c'.box.contents = replies c.box.contents ++ letIn tid n d e := by
  -- What nobody can answer is let in by nobody.
  have hnothing : answer? tid n d e = none → letIn tid n d e = [] := by
    intro hnone
    rw [letIn, hnone, Option.toList_none, ite_self]
  -- Most events leave the call alone, and some end it.
  have hsame : answer? tid n d e = none → c.accept = c.accept ∧ (c.Waits ∨ c.Ended) ∧
      replies c.box.contents = replies c.box.contents ++ letIn tid n d e := by
    intro hnone
    rw [hnothing hnone, List.append_nil]
    exact ⟨rfl, .inl h.waits, rfl⟩
  have hfinish : answer? tid n d e = none → ∀ {why : CallError ε}, why ≠ .discoveryIgnored →
      (c.finish (.error why)).accept = c.accept ∧
      ((c.finish (.error why)).Waits ∨ (c.finish (.error why)).Ended) ∧
      replies (c.finish (.error why)).box.contents =
        replies c.box.contents ++ letIn tid n d e := by
    intro hnone why hwhy
    rw [hnothing hnone, List.append_nil]
    exact ⟨rfl, .inr (h.waits.finish fun h => absurd h hwhy), rfl⟩
  intro c'
  cases e with
  | arrive packet addr =>
    cases packet with
    | discovery bcudp =>
      have hreading : d.reader.isReading = true := henabled
      by_cases hown : bcudp.tid = tid
      -- While the call waits its channel is open.
      · have hwaiting : d.isWaiting tid n = true := by
          rw [isWaiting_of_call h.call, h.waits.outcome]
          rfl
        have hanswer : answer? tid n d (.arrive (.discovery bcudp) addr) = some (bcudp, addr) :=
          if_pos ⟨hown, hreading, hwaiting⟩
        -- The reader is reading, so the sender is still in the map.
        have hsub : d.subscribers[tid]? = some n := by
          refine (h.sender.resolve_right fun hended => ?_).1
          rw [Reader.isReading_iff.1 hreading] at hended
          cases hended
        have hc' : c' = c.trySend (.ok (bcudp, addr)) := if_pos ⟨hown, hsub⟩
        rw [hc', letIn, hanswer]
        exact ⟨rfl, .inl (h.waits.trySend _), replies_trySend h _⟩
      · have hanswer : answer? tid n d (.arrive (.discovery bcudp) addr) = none :=
          if_neg fun hand => hown hand.1
        have hc' : c' = c := if_neg fun hand => hown hand.1
        rw [hc']
        exact hsame hanswer
    | ack _ | data _ => exact hsame rfl
  | tell other =>
    -- An error is told to the subscriber under this transaction only.
    have hc' : c' = c ∨ ∃ error, c' = c.trySend (.error error) := by
      simp only [c', Discoverer.callAfter]
      split
      · split_ifs
        · exact .inr ⟨_, rfl⟩
        · exact .inl rfl
      · exact .inl rfl
    rcases hc' with hc' | ⟨error, hc'⟩
    · rw [hc']
      exact hsame rfl
    · rw [hc', hnothing rfl, replies_trySend h]
      exact ⟨rfl, .inl (h.waits.trySend _), by rw [Except.toOption, Option.toList_none, ite_self]⟩
  | poll other m =>
    by_cases hown : other = tid ∧ m = n
    · have hc' : c' = c.poll other := if_pos hown
      rw [hc', hnothing rfl, List.append_nil, Call.contents_poll, Call.accept_poll, hown.1]
      exact ⟨rfl, h.waits.poll htid, rfl⟩
    · have hc' : c' = c := if_neg hown
      rw [hc']
      exact hsame rfl
  -- A call ends by its own timeout, by a failed send of its own, or when its future is dropped.
  | timeout other m | sendFailed other m error | drop other m =>
    by_cases hown : other = tid ∧ m = n
    · have hc' : c' = c.finish _ := if_pos hown
      rw [hc']
      exact hfinish rfl nofun
    · have hc' : c' = c := if_neg hown
      rw [hc']
      exact hsame rfl
  | subscribe _ _ | remove _ | error _ | clear | endOfStream => exact hsame rfl

/-- One step of a call that waits: it goes on waiting or ends, and its channel gets what was let
    in. -/
theorem Waits.step (htid : 0 < tid) {n : ℕ} {c : Call ρ ε τ} (h : Waits tid n d c)
    (e : Event ρ ε τ) : ∃ c', ((d.step e).calls tid)[n]? = some c' ∧ c'.accept = c.accept ∧
      (Waits tid n (d.step e) c' ∨ c'.Ended) ∧
      replies c'.box.contents = replies c.box.contents ++ letIn tid n d e := by
  by_cases henabled : d.enabled e = true
  · have hcall := getElem?_perform htid h.call e
    have hsender := h.sender_perform htid henabled
    obtain ⟨haccept, hgoes, hcontents⟩ := h.callAfter htid henabled
    rw [Discoverer.step, if_pos henabled]
    exact ⟨_, hcall, haccept, hgoes.imp_left fun hwaits => ⟨hcall, hwaits, hsender⟩, hcontents⟩
  · rw [Discoverer.step, if_neg henabled, letIn, answer?_of_not_enabled henabled,
      Option.toList_none, ite_self, List.append_nil]
    exact ⟨c, h.call, rfl, .inl h, rfl⟩

/-- The answers that come while a call waits. -/
def came (tid : UInt32) (n : ℕ) (d : Discoverer ρ ε τ) (events : List (Event ρ ε τ)) :
    List (Reply ρ) :=
  (Past.moments step d events).filterMap fun m => answer? tid n m.1 m.2

/-- Each of them finds room in the channel. -/
def Room (tid : UInt32) (n : ℕ) (d : Discoverer ρ ε τ) (events : List (Event ρ ε τ)) : Prop :=
  ∀ m ∈ Past.moments step d events, (answer? tid n m.1 m.2).isSome →
    waiting tid n m.1 < discoveryChannel

theorem came_concat (tid : UInt32) (n : ℕ) (d : Discoverer ρ ε τ) (events : List (Event ρ ε τ))
    (e : Event ρ ε τ) : came tid n d (events ++ [e]) =
      came tid n d events ++ (answer? tid n (events.foldl step d) e).toList := by
  rw [came, Past.moments_concat, List.filterMap_append, ← came]
  cases hanswer : answer? tid n (events.foldl step d) e <;> simp [hanswer]

/-- There was room before, and there is room for the last answer. -/
theorem room_concat {n : ℕ} {events : List (Event ρ ε τ)} {e : Event ρ ε τ}
    (h : Room tid n d (events ++ [e])) : Room tid n d events ∧
      ((answer? tid n (events.foldl step d) e).isSome →
        waiting tid n (events.foldl step d) < discoveryChannel) := by
  rw [Room, Past.moments_concat] at h
  exact ⟨fun m hm => h m (List.mem_append_left _ hm), h (_, e) (by simp)⟩

theorem letIn_sublist (tid : UInt32) (n : ℕ) (d : Discoverer ρ ε τ) (e : Event ρ ε τ) :
    (letIn tid n d e).Sublist (answer? tid n d e).toList := by
  rw [letIn]
  split_ifs
  · exact List.Sublist.refl _
  · exact List.nil_sublist _

theorem letIn_of_room {n : ℕ} {e : Event ρ ε τ}
    (h : (answer? tid n d e).isSome → waiting tid n d < discoveryChannel) :
    letIn tid n d e = (answer? tid n d e).toList := by
  rw [letIn]
  split_ifs with hroom
  · rfl
  · rw [Option.not_isSome_iff_eq_none.1 fun hsome => hroom (h hsome), Option.toList_none]

theorem waits_insert (htid : 0 < tid) (hremoving : d.reader ≠ .removing tid)
    (accept : UdpDiscovery ρ → SocketAddr → Option τ) :
    Waits tid (d.calls tid).length (d.insert tid accept) { accept } where
  call := by
    rw [insert]
    dsimp only
    rw [Function.update_self, List.getElem?_concat_length]
  waits := ⟨rfl, rfl, fun _ h => absurd h List.not_mem_nil⟩
  sender := by
    refine .inl ⟨?_, hremoving⟩
    rw [insert]
    dsimp only
    rw [if_pos htid, Std.ExtTreeMap.getElem?_insert_self]

/-- A call gets the answers that come while it waits, except those that find ten others. -/
theorem follows_run (htid : 0 < tid) {n : ℕ} {c : Call ρ ε τ} (h : Waits tid n d c)
    (hempty : replies c.box.contents = []) (events : List (Event ρ ε τ)) :
    ∃ c', ((events.foldl step d).calls tid)[n]? = some c' ∧ c'.accept = c.accept ∧
      (Waits tid n (events.foldl step d) c' ∨ c'.Ended) ∧
      (replies c'.box.contents).Sublist (came tid n d events) ∧
      (Room tid n d events → replies c'.box.contents = came tid n d events) := by
  induction events using List.reverseRecOn with
  | nil => exact ⟨c, h.call, rfl, .inl h, hempty ▸ List.Sublist.refl _, fun _ => hempty⟩
  | append_singleton events e ih =>
    obtain ⟨c', hcall, haccept, hgoes, hsub, hall⟩ := ih
    rw [List.foldl_concat, came_concat]
    rcases hgoes with hwaits | hended
    · obtain ⟨c'', hcall', haccept', hgoes', hcontents⟩ := hwaits.step htid e
      refine ⟨c'', hcall', haccept'.trans haccept, hgoes', ?_, fun hroom => ?_⟩
      · rw [hcontents]
        exact hsub.append (letIn_sublist ..)
      · obtain ⟨hbefore, hlast⟩ := room_concat hroom
        rw [hcontents, hall hbefore, letIn_of_room hlast]
    · obtain ⟨hcall', hnone⟩ := ended_step htid hcall hended e
      rw [hnone, Option.toList_none, List.append_nil]
      exact ⟨c', hcall', haccept, .inr hended, hsub, fun hroom => hall (room_concat hroom).1⟩

/-- A call returns nothing but what it accepts of the answers that come while it waits. Unless
    there are too many at a time, it is the first of them; and if there is one it is returned, when
    the call has read so far, unless the call is ended from outside. -/
theorem retrySend_ok (htid : 0 < tid) (before after : List (Event ρ ε τ))
    (accept : UdpDiscovery ρ → SocketAddr → Option τ)
    (hsubscribe : (run before).enabled (.subscribe tid accept) = true)
    (hfree : ¬(run before).Occupied tid) (hremoving : (run before).reader ≠ .removing tid) :
    let n := ((run before).calls tid).length
    let d := run (before ++ [.subscribe tid accept])
    let first := (came tid n d after).findSome? fun reply => accept reply.1 reply.2
    ∃ c, ((run (before ++ .subscribe tid accept :: after)).calls tid)[n]? = some c ∧
      (∀ result, c.outcome = some (.ok result) →
        ∃ reply ∈ came tid n d after, accept reply.1 reply.2 = some result) ∧
      (Room tid n d after →
        (∀ result, c.outcome = some (.ok result) → first = some result) ∧
        ∀ result, first = some result → c.outcome = some (.ok result) ∨
          (c.outcome = none ∧ c.box.queue ≠ []) ∨
          ∃ why, c.outcome = some (.error why) ∧ why ≠ .discoveryIgnored) := by
  intro n d first
  have hd : run (before ++ [.subscribe tid accept]) = (run before).insert tid accept := by
    rw [run_concat, step, if_pos hsubscribe, perform, if_neg hfree]
  have hrun : run (before ++ .subscribe tid accept :: after) = after.foldl step d := by
    rw [List.append_cons, run, List.foldl_append, ← run]
  have hstart : Waits tid n d { accept } := by
    dsimp only [d]
    rw [hd]
    exact waits_insert htid hremoving accept
  obtain ⟨c, hcall, haccept, hgoes, hsub, hall⟩ := follows_run htid hstart rfl after
  replace haccept : c.accept = accept := haccept
  rw [hrun]
  refine ⟨c, hcall, ?_⟩
  -- The call has read a part of what it was sent, from the front.
  have hreceived : replies c.box.received <+: replies c.box.contents :=
    c.box.received_prefix.filterMap _
  have hok : ∀ result, c.outcome = some (.ok result) →
      (replies c.box.received).findSome? (fun reply => accept reply.1 reply.2) = some result := by
    intro result hresult
    rcases hgoes with hwaits | hended
    · cases hwaits.waits.outcome.symm.trans hresult
    · rw [← haccept]
      exact hended.accepts result hresult
  refine ⟨fun result hresult => ?_, fun hroom => ⟨fun result hresult => ?_, ?_⟩⟩
  · obtain ⟨reply, hmem, hreply⟩ := List.exists_of_findSome?_eq_some (hok result hresult)
    exact ⟨reply, hsub.subset (hreceived.subset hmem), hreply⟩
  · exact (hall hroom ▸ hreceived).findSome?_eq_some (hok result hresult)
  · intro result hfirst
    have hsome : (replies c.box.contents).findSome? (fun reply => accept reply.1 reply.2) =
        some result := by
      rw [hall hroom]
      exact hfirst
    -- A call whose channel is empty has read everything.
    have hunread : c.box.queue = [] → (replies c.box.received).findSome?
        (fun reply => accept reply.1 reply.2) = some result := by
      intro hempty
      rw [Mailbox.contents, hempty, List.append_nil] at hsome
      exact hsome
    -- If it rejected all it has read, something must be left in the channel.
    have hrejected : (∀ reply ∈ replies c.box.received, c.accept reply.1 reply.2 = none) →
        c.box.queue ≠ [] := by
      intro hrejects hempty
      have hnone := List.findSome?_eq_none_iff.2 hrejects
      rw [haccept] at hnone
      cases hnone.symm.trans (hunread hempty)
    rcases hgoes with hwaits | hended
    · exact .inr (.inl ⟨hwaits.waits.outcome, hrejected hwaits.waits.rejects⟩)
    · obtain ⟨outcome, houtcome⟩ := Option.isSome_iff_exists.1 hended.isSome
      cases outcome with
      | ok result' =>
        have hsame := (hall hroom ▸ hreceived).findSome?_eq_some (hok result' houtcome)
        obtain rfl := Option.some.inj (hsame.symm.trans hfirst)
        exact .inl houtcome
      -- `discoveryIgnored` needs an empty channel, after a reply that nobody accepted.
      | error why =>
        refine .inr (.inr ⟨why, houtcome, ?_⟩)
        rintro rfl
        obtain ⟨hempty, hrejects⟩ := hended.ignored houtcome
        exact hrejected hrejects hempty

/-- What comes to a call from port `1` it does not take. -/
def answers : List (Event Unit Unit UInt16) :=
  [.arrive (.discovery ⟨9, .other ()⟩) ⟨.v4 192 168 1 11, 2017⟩,
    .arrive (.discovery ⟨7, .other ()⟩) ⟨.v4 192 168 1 10, 1⟩,
    .arrive (.discovery ⟨7, .other ()⟩) ⟨.v4 192 168 1 10, 2018⟩, .poll 7 0, .poll 7 0]

/-- A call that has passed over one answer and returned the next. -/
theorem retrySend_ok_two : ∃ c, ((run ([.subscribe 9 byPort] ++
    .subscribe 7 byPort :: answers)).calls 7)[0]? = some c ∧ c.outcome = some (.ok 2018) ∧
    ∃ reply ∈ came 7 0 (run ([.subscribe 9 byPort] ++ [.subscribe 7 byPort])) answers,
      byPort reply.1 reply.2 = some 2018 := by
  obtain ⟨c, hcall, hok, -⟩ := retrySend_ok (by decide : (0 : UInt32) < 7) [.subscribe 9 byPort]
    answers byPort (by decide +kernel) (by decide +kernel) nofun
  have houtcome : c.outcome = some (.ok 2018) :=
    Option.some.inj ((congrArg (Option.map Call.outcome) hcall).symm.trans rfl)
  exact ⟨c, hcall, houtcome, hok _ houtcome⟩

end Discoverer

end Bairelay
