import Bairelay.Bc.Model
import Bairelay.Lib.KeyMap

/-!
# Routing

The poller of a connection (`bc_protocol/connection/bcconn.rs`): it takes the
messages of the camera and the commands of the application off one queue, and
passes each message on to a handler of its id or to a subscription.

A subscription is known by its place among those requested; `closed` are the ones
that were dropped, which the poller notices when it next looks. Sending waits
while the channel of a subscription is full, so nothing is lost by that.

* `routes_route`: what becomes of a message;
* `step_cases`: what an event does, from which everything else follows;
* `Consistent.run`: the registrations fit the requests, over any run;
* `routing`: who gets which messages, over any run.
-/

namespace Bairelay

/-- What the poller reports to subscriptions, or ends with. -/
inductive PollError where
  | simultaneousSubscription (msgNum : Option UInt16)
  | simultaneousSubscriptionId (msgId : UInt32)
  | connectionShutdown
  | source (text : String)
  deriving DecidableEq, Repr

/-- What the poller is asked to do, by the connection or by its users. -/
inductive PollCommand (ρ : Type) where
  | bc (response : Except PollError (Bc ρ))
  | addHandler (msgId : UInt32) (handler : ℕ)
  | removeHandler (msgId : UInt32)
  | addSubscriber (msgId : UInt32) (msgNum : Option UInt16)
  | disconnect

/-- The subscriptions of an id: those of a number, and the one that takes the number
    of the next message. -/
abbrev Channels := KeyMap (Option UInt16) ℕ

/-- Who gets a message. -/
inductive Recipient where
  | handler (h : ℕ)
  | subscription (k : ℕ)
  deriving DecidableEq, Repr

/-- The poller, with the subscriptions that were requested and dropped, and all that
    was passed on. -/
structure Poller (ρ : Type) where
  /-- The subscriptions, first by their id and then by their number. -/
  num : KeyMap UInt32 Channels
  /-- The handlers, by their id. -/
  id : KeyMap UInt32 ℕ
  closed : Finset ℕ
  requests : List (UInt32 × Option UInt16)
  delivered : List (Recipient × Except PollError (Bc ρ))
  ended : Option PollError

namespace Poller

variable {ρ : Type}

/-- A poller that nobody has asked anything. -/
def new : Poller ρ := ⟨∅, ∅, ∅, [], [], none⟩

/-- A subscription is dropped. -/
def drop (s : Poller ρ) (k : ℕ) : Poller ρ := { s with closed := insert k s.closed }

/-- Send to a subscription, unless it was dropped. -/
def send (s : Poller ρ) (k : ℕ) (x : Except PollError (Bc ρ)) : Poller ρ :=
  if k ∈ s.closed then s else { s with delivered := s.delivered ++ [(.subscription k, x)] }

/-- Clean up the subscriptions that were dropped. -/
def cleanUp (s : Poller ρ) : Poller ρ :=
  let num := s.num.map fun _ channels => channels.filter fun _ k => k ∉ s.closed
  -- An id that is left without subscriptions goes as well.
  { s with num := num.filter fun _ channels => !channels.isEmpty }

/-- Which of the subscriptions of its id gets a message, and the subscriptions after
    it. One without a number is upgraded to that of the message. -/
def pickSender (closed : Finset ℕ) (occ : Channels) (msgNum : UInt16) : Channels × Option ℕ :=
  match occ[some msgNum]?.filter (· ∉ closed) with
  | some sender => (occ, some sender)
  | none =>
    -- The one that waits for a number takes this one, even if it was dropped meanwhile.
    match occ[(none : Option UInt16)]? with
    | some sender => ((occ.erase none).insert (some msgNum) sender, some sender)
    | none =>
      -- Only here the entry of a subscription that was dropped is removed.
      if (occ[some msgNum]?.map fun k => decide (k ∈ closed)).getD false then
        (occ.erase (some msgNum), none)
      else (occ, none)

/-- Pass a message on: to the handler of its id, or else to a subscription. -/
def route (s : Poller ρ) (response : Bc ρ) : Poller ρ :=
  let msgId := response.bcMeta.msgId
  let msgNum := response.bcMeta.msgNum
  match s.id[msgId]?, s.num[msgId]? with
  -- While there is a handler, the subscriptions of the id get nothing.
  | some handler, _ => { s with delivered := s.delivered ++ [(.handler handler, .ok response)] }
  | none, some occ =>
    let (occ, sender) := pickSender s.closed occ msgNum
    let s := { s with num := s.num.insert msgId occ }
    match sender with
    | some sender => s.send sender (.ok response)
    | none => s
  | none, none => s

/-- The source of the messages failed: everyone is told, and that is the end. -/
def fail (s : Poller ρ) (e : PollError) : Poller ρ :=
  let senders := s.num.values.flatMap fun channels => channels.values
  let s := senders.foldl (fun s sender => s.send sender (.error e)) s
  { s with num := ∅, id := ∅, ended := some e }

/-- Register a subscription, unless there is one already. -/
def addSubscriber (s : Poller ρ) (msgId : UInt32) (msgNum : Option UInt16) : Poller ρ :=
  let tx := s.requests.length
  let s := { s with requests := s.requests ++ [(msgId, msgNum)] }
  let occ := s.num[msgId]?.getD ∅
  match occ[msgNum]? with
  | none => { s with num := s.num.insert msgId (occ.insert msgNum tx) }
  | some k =>
    -- It may have been dropped after the poller has cleaned up.
    if k ∈ s.closed then { s with num := s.num.insert msgId (occ.insert msgNum tx) }
    else s.send tx (.error (.simultaneousSubscription msgNum))

/-- A turn of the loop. -/
def handle (s : Poller ρ) : PollCommand ρ → Poller ρ
  | .bc (.ok response) => s.route response
  | .bc (.error e) => s.fail e
  | .addHandler msgId handler =>
    -- A second handler of an id ends the whole connection.
    if s.id.contains msgId then { s with ended := some (.simultaneousSubscriptionId msgId) }
    else { s with id := s.id.insert msgId handler }
  | .removeHandler msgId => { s with id := s.id.erase msgId }
  | .addSubscriber msgId msgNum => s.addSubscriber msgId msgNum
  | .disconnect => { s with ended := some .connectionShutdown }

/-- What happens: a subscription is dropped, or the poller takes a command, with some
    subscriptions dropped after it has cleaned up. -/
inductive Event (ρ : Type) where
  | drop (k : ℕ)
  | turn (command : PollCommand ρ) (dropped : List ℕ)

/-- The poller when it looks at a command. -/
def ready (s : Poller ρ) (dropped : List ℕ) : Poller ρ := dropped.foldl drop s.cleanUp

/-- A step: a receiver goes away, or a command is taken, with receivers that went away while it was
    waited for. -/
def step (s : Poller ρ) : Event ρ → Poller ρ
  | .drop k => s.drop k
  | .turn command dropped =>
    -- Nothing is taken off the queue any more once the poller has ended.
    if s.ended.isSome then dropped.foldl drop s else (s.ready dropped).handle command

/-- The poller after some events. -/
def run (events : List (Event ρ)) : Poller ρ := events.foldl step new

/-! ## What was passed on -/

/-- The messages a subscription got of what was passed on. -/
def messagesOf (delivered : List (Recipient × Except PollError (Bc ρ))) (k : ℕ) : List (Bc ρ) :=
  delivered.filterMap fun d =>
    match d with
    | (.subscription k', .ok bc) => if k' = k then some bc else none
    | _ => none

/-- The messages a subscription got. -/
def messages (s : Poller ρ) (k : ℕ) : List (Bc ρ) := messagesOf s.delivered k

/-- All that was sent to a subscription. -/
def inbox (s : Poller ρ) (k : ℕ) : List (Except PollError (Bc ρ)) :=
  s.delivered.filterMap fun d => if d.1 = .subscription k then some d.2 else none

/-- The subscription registered under an id and a number, or none. -/
def registered (s : Poller ρ) (msgId : UInt32) (msgNum : Option UInt16) : Option ℕ :=
  s.num[msgId]?.bind fun channels => channels[msgNum]?

/-! ## What each operation does to the registrations -/

theorem registered_insert (s : Poller ρ) (occ : Channels) (msgId id : UInt32)
    (n : Option UInt16) : registered { s with num := s.num.insert msgId occ } id n =
      if msgId = id then occ[n]? else s.registered id n := by
  rw [registered, KeyMap.lookup_insert]
  split <;> rfl

/-- Cleaning up forgets the subscribers that have gone away. -/
theorem registered_cleanUp (s : Poller ρ) (id : UInt32) (n : Option UInt16) :
    s.cleanUp.registered id n = (s.registered id n).filter (· ∉ s.closed) := by
  rw [registered, registered, cleanUp]
  dsimp only
  rw [KeyMap.lookup_filter_values, Std.ExtTreeMap.getElem?_map]
  cases s.num[id]? with
  | none => rfl
  | some channels =>
    have hlookup := KeyMap.lookup_filter_values channels (fun k => decide (k ∉ s.closed)) n
    rw [Option.map_some, Option.bind_some, ← hlookup]
    generalize channels.filter (fun _ k => decide (k ∉ s.closed)) = kept
    -- An inner map that is dropped has no entries.
    match hempty : kept.isEmpty with
    | true =>
      rw [Option.filter_some, hempty, Std.ExtTreeMap.isEmpty_iff.1 hempty]
      simp
    | false =>
      rw [Option.filter_some, hempty]
      rfl

/-- What becomes of a message. -/
inductive Routes (s : Poller ρ) (bc : Bc ρ) (s' : Poller ρ) : Prop
  /-- It goes to the handler of its id. -/
  | handler {h : ℕ} (hid : s.id[bc.bcMeta.msgId]? = some h)
    (hreg : s'.registered = s.registered)
    (hdel : s'.delivered = s.delivered ++ [(.handler h, .ok bc)])
  /-- It goes to the subscription of its id and number. -/
  | direct {k : ℕ} (hid : s.id[bc.bcMeta.msgId]? = none)
    (hk : s.registered bc.bcMeta.msgId (some bc.bcMeta.msgNum) = some k) (hopen : k ∉ s.closed)
    (hreg : s'.registered = s.registered)
    (hdel : s'.delivered = s.delivered ++ [(.subscription k, .ok bc)])
  /-- It goes to the subscription of its id, which gets its number. -/
  | upgrade {k : ℕ} (hid : s.id[bc.bcMeta.msgId]? = none)
    (hclosed : ∀ k', s.registered bc.bcMeta.msgId (some bc.bcMeta.msgNum) = some k' →
      k' ∈ s.closed)
    (hk : s.registered bc.bcMeta.msgId none = some k)
    (hreg : ∀ id n, s'.registered id n =
      if bc.bcMeta.msgId = id ∧ n = some bc.bcMeta.msgNum then some k
      else if bc.bcMeta.msgId = id ∧ n = none then none
      else s.registered id n)
    (hdel : s'.delivered = s.delivered ++
      if k ∈ s.closed then [] else [(.subscription k, .ok bc)])
  /-- It goes to nobody. -/
  | nobody (hid : s.id[bc.bcMeta.msgId]? = none)
    (hclosed : ∀ k', s.registered bc.bcMeta.msgId (some bc.bcMeta.msgNum) = some k' →
      k' ∈ s.closed)
    (hk : s.registered bc.bcMeta.msgId none = none)
    (hreg : ∀ id n, s'.registered id n = s.registered id n ∨
      s'.registered id n = none ∧ ∃ k, s.registered id n = some k ∧ k ∈ s.closed)
    (hdel : s'.delivered = s.delivered)

/-- Who gets a message of a number: its subscriber if he is there, or else the one without a number,
    who is then tied to it. -/
theorem pickSender_cases (closed : Finset ℕ) (occ : Channels) (msgNum : UInt16) :
    (∃ k, occ[some msgNum]? = some k ∧ k ∉ closed ∧
        pickSender closed occ msgNum = (occ, some k)) ∨
      (∀ k, occ[some msgNum]? = some k → k ∈ closed) ∧
        ((∃ k, occ[(none : Option UInt16)]? = some k ∧ pickSender closed occ msgNum =
            ((occ.erase none).insert (some msgNum) k, some k)) ∨
          occ[(none : Option UInt16)]? = none ∧
            (pickSender closed occ msgNum = (occ, none) ∨
              ∃ k, occ[some msgNum]? = some k ∧ k ∈ closed ∧
                pickSender closed occ msgNum = (occ.erase (some msgNum), none))) := by
  rw [pickSender]
  cases hnum : occ[some msgNum]? with
  | none =>
    refine .inr ⟨fun k h => (nomatch h), ?_⟩
    cases hnone : occ[(none : Option UInt16)]? with
    | none => exact .inr ⟨rfl, .inl rfl⟩
    | some k => exact .inl ⟨k, rfl, rfl⟩
  | some k =>
    by_cases hk : k ∈ closed
    · refine .inr ⟨fun k' h => Option.some.inj h ▸ hk, ?_⟩
      rw [Option.filter_some, if_neg (by simpa using hk)]
      cases hnone : occ[(none : Option UInt16)]? with
      | none => exact .inr ⟨rfl, .inr ⟨k, rfl, hk, by simp [hk]⟩⟩
      | some k' => exact .inl ⟨k', rfl, rfl⟩
    · refine .inl ⟨k, rfl, hk, ?_⟩
      rw [Option.filter_some, if_pos (by simpa using hk)]

/-- Passing on a message touches neither the handlers nor the requests. -/
theorem route_frame (s : Poller ρ) (bc : Bc ρ) : (s.route bc).id = s.id ∧
    (s.route bc).closed = s.closed ∧ (s.route bc).requests = s.requests ∧
    (s.route bc).ended = s.ended := by
  rw [route]
  dsimp only
  split
  · exact ⟨rfl, rfl, rfl, rfl⟩
  · split
    · rw [send]
      split <;> exact ⟨rfl, rfl, rfl, rfl⟩
    · exact ⟨rfl, rfl, rfl, rfl⟩
  · exact ⟨rfl, rfl, rfl, rfl⟩

@[simp]
theorem send_closed (s : Poller ρ) (k : ℕ) (x : Except PollError (Bc ρ)) :
    (s.send k x).closed = s.closed := by
  rw [send]
  split <;> rfl

@[simp]
theorem send_id (s : Poller ρ) (k : ℕ) (x : Except PollError (Bc ρ)) :
    (s.send k x).id = s.id := by
  rw [send]
  split <;> rfl

@[simp]
theorem send_ended (s : Poller ρ) (k : ℕ) (x : Except PollError (Bc ρ)) :
    (s.send k x).ended = s.ended := by
  rw [send]
  split <;> rfl

@[simp]
theorem send_requests (s : Poller ρ) (k : ℕ) (x : Except PollError (Bc ρ)) :
    (s.send k x).requests = s.requests := by
  rw [send]
  split <;> rfl

theorem registered_send (s : Poller ρ) (k : ℕ) (x : Except PollError (Bc ρ)) :
    (s.send k x).registered = s.registered := by
  rw [send]
  split <;> rfl

/-- A subscriber that is there gets what is sent. -/
theorem delivered_send (s : Poller ρ) (k : ℕ) (x : Except PollError (Bc ρ)) :
    (s.send k x).delivered =
      s.delivered ++ if k ∈ s.closed then [] else [(.subscription k, x)] := by
  rw [send]
  split
  · rw [List.append_nil]
  · rfl

/-- Putting back the subscriptions of an id changes nothing. -/
theorem registered_insert_self {s : Poller ρ} {occ : Channels} {msgId : UInt32}
    (h : s.num[msgId]? = some occ) :
    registered { s with num := s.num.insert msgId occ } = s.registered := by
  funext id n
  rw [registered_insert]
  split
  next hid => rw [registered, ← hid, h, Option.bind_some]
  next hid => rfl

/-- A message goes one of four ways. -/
theorem routes_route (s : Poller ρ) (bc : Bc ρ) : Routes s bc (s.route bc) := by
  rw [route]
  dsimp only
  cases hid : s.id[bc.bcMeta.msgId]? with
  | some h => exact .handler hid rfl rfl
  | none =>
    cases hocc : s.num[bc.bcMeta.msgId]? with
    | none =>
      have hreg (n) : s.registered bc.bcMeta.msgId n = none := by rw [registered, hocc]; rfl
      refine .nobody hid (fun k' hk' => ?_) (hreg none) (fun _ _ => .inl rfl) rfl
      rw [hreg] at hk'
      exact nomatch hk'
    | some occ =>
      have hreg (n) : s.registered bc.bcMeta.msgId n = occ[n]? := by
        rw [registered, hocc, Option.bind_some]
      dsimp only
      rcases pickSender_cases s.closed occ bc.bcMeta.msgNum with
        ⟨k, hk, hopen, hpick⟩ | ⟨hclosed, ⟨k, hk, hpick⟩ | ⟨hnone, hpick | ⟨k, hk, hin, hpick⟩⟩⟩
      · rw [hpick]
        refine .direct hid ((hreg _).trans hk) hopen ?_ ?_
        · rw [registered_send, registered_insert_self hocc]
        · rw [delivered_send, if_neg hopen]
      · rw [hpick]
        refine .upgrade hid (fun k' hk' => hclosed k' ((hreg _).symm.trans hk'))
          ((hreg none).trans hk) (fun id n => ?_) (delivered_send _ _ _)
        rw [registered_send, registered_insert]
        by_cases hsame : bc.bcMeta.msgId = id
        · rw [if_pos hsame, ← hsame, hreg, KeyMap.lookup_insert, KeyMap.lookup_erase]
          grind
        · rw [if_neg hsame, if_neg (fun h => hsame h.1), if_neg (fun h => hsame h.1)]
      · rw [hpick]
        refine .nobody hid (fun k' hk' => hclosed k' ((hreg _).symm.trans hk'))
          ((hreg none).trans hnone) (fun id n => .inl ?_) rfl
        rw [registered_insert_self hocc]
      · rw [hpick]
        refine .nobody hid (fun k' hk' => hclosed k' ((hreg _).symm.trans hk'))
          ((hreg none).trans hnone) (fun id n => ?_) rfl
        -- The entry of a subscription that was dropped meanwhile goes.
        rw [registered_insert]
        by_cases hsame : bc.bcMeta.msgId = id
        · rw [if_pos hsame, ← hsame, hreg, KeyMap.lookup_erase]
          split
          next hn => exact .inr ⟨rfl, k, hn ▸ hk, hin⟩
          next hn => exact .inl rfl
        · exact .inl (if_neg hsame)

/-- No message is passed on, and no registration is lost or displaced but those of
    subscriptions that were dropped. -/
structure Trims (s s' : Poller ρ) : Prop where
  requests : s.requests <+: s'.requests
  delivered : ∃ ds, s'.delivered = s.delivered ++ ds ∧ ∀ d ∈ ds, ∃ e, d.2 = .error e
  closed : s.closed ⊆ s'.closed
  ended : s'.ended = none → s.ended = none
  only {id : UInt32} {n : Option UInt16} {k : ℕ} :
    s'.registered id n = some k → s.registered id n = some k
  kept {id : UInt32} {n : Option UInt16} {k : ℕ} : s'.ended = none →
    s.registered id n = some k → k ∉ s'.closed → s'.registered id n = some k

/-- A subscription is registered where there was none, or one that was dropped. -/
structure Admits (s s' : Poller ρ) (msgId : UInt32) (msgNum : Option UInt16) : Prop where
  requests : s'.requests = s.requests ++ [(msgId, msgNum)]
  delivered : s'.delivered = s.delivered
  closed : s'.closed = s.closed
  ended : s'.ended = s.ended
  handlers : s'.id = s.id
  vacant {k : ℕ} : s.registered msgId msgNum = some k → k ∈ s.closed
  registered (id : UInt32) (n : Option UInt16) : s'.registered id n =
    if msgId = id ∧ msgNum = n then some s.requests.length else s.registered id n

/-- A subscription is refused since there is one already. -/
structure Refuses (s s' : Poller ρ) (msgId : UInt32) (msgNum : Option UInt16) : Prop where
  requests : s'.requests = s.requests ++ [(msgId, msgNum)]
  delivered : s'.delivered = s.delivered ++ if s.requests.length ∈ s.closed then [] else
    [(.subscription s.requests.length, .error (.simultaneousSubscription msgNum))]
  closed : s'.closed = s.closed
  ended : s'.ended = s.ended
  handlers : s'.id = s.id
  taken : ∃ k, s.registered msgId msgNum = some k ∧ k ∉ s.closed
  registered : s'.registered = s.registered

/-- Where the registrations stay, some subscriptions may be dropped. -/
theorem Trims.of_registered_eq {s s' : Poller ρ} (hreq : s'.requests = s.requests)
    (hdel : s'.delivered = s.delivered) (hclosed : s.closed ⊆ s'.closed)
    (hend : s'.ended = none → s.ended = none) (hreg : s'.registered = s.registered) :
    Trims s s' where
  requests := hreq ▸ List.prefix_refl _
  delivered := ⟨[], by rw [hdel, List.append_nil], fun _ h => (nomatch h)⟩
  closed := hclosed
  ended := hend
  only := by rw [hreg]; exact fun hk => hk
  kept := by rw [hreg]; exact fun _ hk _ => hk

theorem Trims.trans {s r s' : Poller ρ} (h : Trims s r) (h' : Trims r s') : Trims s s' where
  requests := h.requests.trans h'.requests
  delivered := by
    obtain ⟨ds, hds, herr⟩ := h.delivered
    obtain ⟨ds', hds', herr'⟩ := h'.delivered
    refine ⟨ds ++ ds', by rw [hds', hds, List.append_assoc], fun d hd => ?_⟩
    exact (List.mem_append.1 hd).elim (herr d) (herr' d)
  closed := h.closed.trans h'.closed
  ended := fun he => h.ended (h'.ended he)
  only := fun hk => h.only (h'.only hk)
  kept := fun he hk hopen =>
    h'.kept he (h.kept (h'.ended he) hk fun hc => hopen (h'.closed hc)) hopen

/-- A request that is refused only tells the one who asked. -/
theorem Refuses.trims {s s' : Poller ρ} {msgId : UInt32} {msgNum : Option UInt16}
    (h : Refuses s s' msgId msgNum) : Trims s s' where
  requests := h.requests ▸ List.prefix_append _ _
  delivered := by
    refine ⟨_, h.delivered, fun d hd => ?_⟩
    split at hd
    · exact nomatch hd
    · exact ⟨_, congrArg Prod.snd (List.mem_singleton.1 hd)⟩
  closed := h.closed ▸ Finset.Subset.refl _
  ended := by rw [h.ended]; exact fun he => he
  only := by rw [h.registered]; exact fun hk => hk
  kept := by rw [h.registered]; exact fun _ hk _ => hk

theorem addSubscriber_cases (s : Poller ρ) (msgId : UInt32) (msgNum : Option UInt16) :
    Admits s (s.addSubscriber msgId msgNum) msgId msgNum ∨
      Refuses s (s.addSubscriber msgId msgNum) msgId msgNum := by
  have hreg : (s.num[msgId]?.getD ∅)[msgNum]? = s.registered msgId msgNum := by
    rw [registered]
    cases s.num[msgId]? with
    | none => simp
    | some occ => rfl
  have hadmit (id : UInt32) (n : Option UInt16) : registered { s with
      requests := s.requests ++ [(msgId, msgNum)]
      num := s.num.insert msgId ((s.num[msgId]?.getD ∅).insert msgNum s.requests.length) } id n =
        if msgId = id ∧ msgNum = n then some s.requests.length else s.registered id n := by
    rw [registered, KeyMap.lookup_insert]
    by_cases hid : msgId = id
    · rw [if_pos hid, Option.bind_some, KeyMap.lookup_insert, ← hid, registered]
      cases s.num[msgId]? with
      | none => simp
      | some occ => simp
    · rw [if_neg hid, if_neg (fun h => hid h.1), registered]
  rw [addSubscriber]
  dsimp only
  rw [hreg]
  cases hk : s.registered msgId msgNum with
  | none => exact .inl ⟨rfl, rfl, rfl, rfl, rfl, fun h => (nomatch hk.symm.trans h), hadmit⟩
  | some k =>
    dsimp only
    by_cases hclosed : k ∈ s.closed
    · rw [if_pos hclosed]
      exact .inl ⟨rfl, rfl, rfl, rfl, rfl, fun h => Option.some.inj (hk.symm.trans h) ▸ hclosed,
        hadmit⟩
    · rw [if_neg hclosed]
      exact .inr ⟨send_requests _ _ _, delivered_send _ _ _, send_closed _ _ _,
        send_ended _ _ _, send_id _ _ _, ⟨k, hk, hclosed⟩, registered_send _ _ _⟩

/-- Telling everyone about a failure passes on no message. -/
theorem foldl_send_error (e : PollError) (senders : List ℕ) (s : Poller ρ) :
    (∃ ds, (senders.foldl (fun s k => s.send k (.error e)) s).delivered = s.delivered ++ ds ∧
      ∀ d ∈ ds, ∃ e, d.2 = .error e) ∧
    (senders.foldl (fun s k => s.send k (.error e)) s).closed = s.closed ∧
    (senders.foldl (fun s k => s.send k (.error e)) s).requests = s.requests := by
  induction senders generalizing s with
  | nil => exact ⟨⟨[], (List.append_nil _).symm, fun _ h => (nomatch h)⟩, rfl, rfl⟩
  | cons k senders ih =>
    rw [List.foldl_cons]
    obtain ⟨⟨ds, hds, herr⟩, hclosed, hreq⟩ := ih (s.send k (.error e))
    refine ⟨⟨(if k ∈ s.closed then [] else [(.subscription k, .error e)]) ++ ds, ?_, ?_⟩,
      hclosed.trans (send_closed _ _ _), hreq.trans (send_requests _ _ _)⟩
    · rw [hds, delivered_send, List.append_assoc]
    · intro d hd
      rcases List.mem_append.1 hd with hd | hd
      · split at hd
        · exact nomatch hd
        · exact ⟨e, congrArg Prod.snd (List.mem_singleton.1 hd)⟩
      · exact herr d hd

/-- An error is told to all subscribers, and ends the poller. -/
theorem trims_fail (s : Poller ρ) (e : PollError) : Trims s (s.fail e) := by
  rw [fail]
  obtain ⟨hds, hclosed, hreq⟩ :=
    foldl_send_error e (s.num.values.flatMap fun channels => channels.values) s
  refine ⟨hreq ▸ List.prefix_refl _, hds, hclosed ▸ Finset.Subset.refl _,
    fun h => (nomatch h), fun h => ?_, fun h => (nomatch h)⟩
  rw [registered, Std.ExtTreeMap.getElem?_empty] at h
  exact nomatch h

/-- Receivers that go away change nothing but who is there. -/
theorem foldl_drop_frame (dropped : List ℕ) (s : Poller ρ) :
    (dropped.foldl drop s).requests = s.requests ∧
    (dropped.foldl drop s).delivered = s.delivered ∧
    s.closed ⊆ (dropped.foldl drop s).closed ∧
    (dropped.foldl drop s).registered = s.registered ∧
    (dropped.foldl drop s).id = s.id ∧ (dropped.foldl drop s).ended = s.ended := by
  induction dropped generalizing s with
  | nil => exact ⟨rfl, rfl, Finset.Subset.refl _, rfl, rfl, rfl⟩
  | cons k dropped ih =>
    obtain ⟨hreq, hdel, hclosed, hrest⟩ := ih (s.drop k)
    exact ⟨hreq, hdel, (Finset.subset_insert _ _).trans hclosed, hrest⟩

theorem trims_foldl_drop (s : Poller ρ) (dropped : List ℕ) :
    Trims s (dropped.foldl drop s) := by
  obtain ⟨hreq, hdel, hclosed, hreg, -, hend⟩ := foldl_drop_frame dropped s
  exact .of_registered_eq hreq hdel hclosed hend.symm.trans hreg

theorem trims_ready (s : Poller ρ) (dropped : List ℕ) : Trims s (s.ready dropped) := by
  obtain ⟨hreq, hdel, hclosed, hreg, -, hend⟩ := foldl_drop_frame dropped s.cleanUp
  refine ⟨hreq ▸ List.prefix_refl _, ⟨[], ?_, fun _ h => (nomatch h)⟩, hclosed,
    hend.symm.trans, ?_, ?_⟩
  · rw [ready, hdel, List.append_nil]
    rfl
  · intro id n k hk
    rw [ready, hreg, registered_cleanUp, Option.filter_eq_some_iff] at hk
    exact hk.1
  · intro id n k _ hk hopen
    rw [ready, hreg, registered_cleanUp, Option.filter_eq_some_iff]
    exact ⟨hk, decide_eq_true fun h => hopen (hclosed h)⟩

theorem ready_id (s : Poller ρ) (dropped : List ℕ) : (s.ready dropped).id = s.id :=
  (foldl_drop_frame dropped s.cleanUp).2.2.2.2.1

theorem ready_ended (s : Poller ρ) (dropped : List ℕ) : (s.ready dropped).ended = s.ended :=
  (foldl_drop_frame dropped s.cleanUp).2.2.2.2.2

theorem ready_requests (s : Poller ρ) (dropped : List ℕ) :
    (s.ready dropped).requests = s.requests :=
  (foldl_drop_frame dropped s.cleanUp).1

theorem ready_delivered (s : Poller ρ) (dropped : List ℕ) :
    (s.ready dropped).delivered = s.delivered :=
  (foldl_drop_frame dropped s.cleanUp).2.1

/-- What a command does. -/
theorem handle_cases (s : Poller ρ) (command : PollCommand ρ) :
    (∃ bc, command = .bc (.ok bc) ∧ Routes s bc (s.handle command)) ∨
    (∃ msgId msgNum, command = .addSubscriber msgId msgNum ∧
      Admits s (s.handle command) msgId msgNum) ∨
    (∀ bc, command ≠ .bc (.ok bc)) ∧ Trims s (s.handle command) := by
  have unchanged (s' : Poller ρ) (hnum : s'.num = s.num) (hreq : s'.requests = s.requests)
      (hdel : s'.delivered = s.delivered) (hclosed : s'.closed = s.closed)
      (hend : s'.ended = none → s.ended = none) : Trims s s' := by
    refine .of_registered_eq hreq hdel (hclosed ▸ Finset.Subset.refl _) hend ?_
    funext id n
    rw [registered, registered, hnum]
  match command with
  | .bc (.ok bc) => exact .inl ⟨bc, rfl, routes_route s bc⟩
  | .bc (.error e) => exact .inr (.inr ⟨fun _ h => (nomatch h), trims_fail s e⟩)
  | .addHandler msgId handler =>
    refine .inr (.inr ⟨fun _ h => (nomatch h), ?_⟩)
    rw [handle]
    split
    · exact unchanged _ rfl rfl rfl rfl fun h => (nomatch h)
    · exact unchanged _ rfl rfl rfl rfl fun h => h
  | .removeHandler msgId =>
    exact .inr (.inr ⟨fun _ h => (nomatch h), unchanged _ rfl rfl rfl rfl fun h => h⟩)
  | .addSubscriber msgId msgNum =>
    rcases addSubscriber_cases s msgId msgNum with h | h
    · exact .inr (.inl ⟨msgId, msgNum, rfl, h⟩)
    · exact .inr (.inr ⟨fun _ h => (nomatch h), h.trims⟩)
  | .disconnect =>
    exact .inr (.inr ⟨fun _ h => (nomatch h), unchanged _ rfl rfl rfl rfl fun h => (nomatch h)⟩)

/-! ## What the messages of a subscription have in common -/

theorem messagesOf_append (ds ds' : List (Recipient × Except PollError (Bc ρ))) (k : ℕ) :
    messagesOf (ds ++ ds') k = messagesOf ds k ++ messagesOf ds' k :=
  List.filterMap_append

/-- A subscriber gets what is delivered to him. -/
theorem messages_eq_append {s s' : Poller ρ} {ds : List (Recipient × Except PollError (Bc ρ))}
    (h : s'.delivered = s.delivered ++ ds) (k : ℕ) :
    s'.messages k = s.messages k ++ messagesOf ds k := by
  rw [messages, h, messagesOf_append, messages]

theorem messagesOf_error {ds : List (Recipient × Except PollError (Bc ρ))}
    (h : ∀ d ∈ ds, ∃ e, d.2 = .error e) (k : ℕ) : messagesOf ds k = [] := by
  refine List.filterMap_eq_nil_iff.2 fun d hd => ?_
  obtain ⟨r, x⟩ := d
  obtain ⟨e, rfl⟩ := h _ hd
  cases r <;> rfl

theorem messagesOf_subscription (k k' : ℕ) (bc : Bc ρ) :
    messagesOf [(.subscription k, .ok bc)] k' = if k = k' then [bc] else [] := by
  by_cases h : k = k' <;> simp [messagesOf, h]

/-- No message is delivered where something is only trimmed. -/
theorem Trims.messages_eq {s s' : Poller ρ} (h : Trims s s') (k : ℕ) :
    s'.messages k = s.messages k := by
  obtain ⟨ds, hds, herr⟩ := h.delivered
  rw [messages_eq_append hds, messagesOf_error herr, List.append_nil]

/-- The registrations fit the requests, and the messages fit the registrations. -/
structure Consistent (s : Poller ρ) : Prop where
  /-- A subscription is registered as it was requested, or upgraded. -/
  request {id : UInt32} {n : Option UInt16} {k : ℕ} : s.registered id n = some k →
    s.requests[k]? = some (id, n) ∨ s.requests[k]? = some (id, none)
  /-- A subscription is registered once. -/
  unique {id : UInt32} {n n' : Option UInt16} {k : ℕ} :
    s.registered id n = some k → s.registered id n' = some k → n = n'
  /-- A subscription gets what it asked for. -/
  asked {k : ℕ} {bc : Bc ρ} : bc ∈ s.messages k →
    s.requests[k]? = some (bc.bcMeta.msgId, some bc.bcMeta.msgNum) ∨
      s.requests[k]? = some (bc.bcMeta.msgId, none)
  /-- A subscription that has no number yet got nothing. -/
  waiting {id : UInt32} {k : ℕ} : s.registered id none = some k → s.messages k = []
  /-- A subscription with a number got messages of that number. -/
  numbered {id : UInt32} {num : UInt16} {k : ℕ} {bc : Bc ρ} :
    s.registered id (some num) = some k → bc ∈ s.messages k → bc.bcMeta.msgNum = num
  /-- A subscription gets messages of one number. -/
  single {k : ℕ} {bc bc' : Bc ρ} : bc ∈ s.messages k → bc' ∈ s.messages k →
    bc.bcMeta.msgNum = bc'.bcMeta.msgNum

namespace Consistent

variable {s s' : Poller ρ}

theorem new : Consistent (Poller.new : Poller ρ) := by
  have hreg (id : UInt32) (n : Option UInt16) : (Poller.new : Poller ρ).registered id n = none := by
    rw [registered, Poller.new, Std.ExtTreeMap.getElem?_empty]
    rfl
  have hgot (k : ℕ) : (Poller.new : Poller ρ).messages k = [] := rfl
  refine ⟨fun h => ?_, fun h => ?_, fun h => ?_, fun h => ?_, fun h => ?_, fun h => ?_⟩
  · exact nomatch (hreg _ _).symm.trans h
  · exact nomatch (hreg _ _).symm.trans h
  · exact nomatch h
  · exact hgot _
  · exact nomatch (hreg _ _).symm.trans h
  · exact nomatch h

/-- The subscription requested next is not registered yet. -/
theorem registered_ne_length (h : Consistent s) (id : UInt32) (n : Option UInt16) :
    s.registered id n ≠ some s.requests.length := by
  intro hk
  rcases h.request hk with hreq | hreq
  · exact absurd (List.getElem?_eq_some_iff.1 hreq).1 (lt_irrefl _)
  · exact absurd (List.getElem?_eq_some_iff.1 hreq).1 (lt_irrefl _)

/-- The subscription requested next got nothing yet. -/
theorem messages_length (h : Consistent s) : s.messages s.requests.length = [] := by
  refine List.eq_nil_iff_forall_not_mem.2 fun bc hbc => ?_
  rcases h.asked hbc with hreq | hreq
  · exact absurd (List.getElem?_eq_some_iff.1 hreq).1 (lt_irrefl _)
  · exact absurd (List.getElem?_eq_some_iff.1 hreq).1 (lt_irrefl _)

/-- Registrations may go, and nothing is said of messages to handlers. -/
theorem mono (h : Consistent s) (hreq : s.requests <+: s'.requests)
    (hmsg : ∀ k, s'.messages k = s.messages k)
    (honly : ∀ id n k, s'.registered id n = some k → s.registered id n = some k) :
    Consistent s' := by
  have hreq {k : ℕ} {r : UInt32 × Option UInt16} (hr : s.requests[k]? = some r) :
      s'.requests[k]? = some r := by
    obtain ⟨rest, hrest⟩ := hreq
    rw [← hrest, List.getElem?_append_left (List.getElem?_eq_some_iff.1 hr).1, hr]
  refine ⟨fun hk => ?_, fun hk hk' => h.unique (honly _ _ _ hk) (honly _ _ _ hk'),
    fun hbc => ?_, fun hk => ?_, fun hk hbc => ?_, fun hbc hbc' => ?_⟩
  · exact (h.request (honly _ _ _ hk)).imp hreq hreq
  · rw [hmsg] at hbc
    exact (h.asked hbc).imp hreq hreq
  · rw [hmsg]
    exact h.waiting (honly _ _ _ hk)
  · rw [hmsg] at hbc
    exact h.numbered (honly _ _ _ hk) hbc
  · rw [hmsg] at hbc hbc'
    exact h.single hbc hbc'

/-- Trimming keeps the table in step with the requests. -/
theorem trims (h : Consistent s) (ht : Trims s s') : Consistent s' :=
  h.mono ht.requests ht.messages_eq fun _ _ _ => ht.only

/-- A new subscription has a place of its own. -/
theorem admits {msgId : UInt32} {msgNum : Option UInt16} (h : Consistent s)
    (ha : Admits s s' msgId msgNum) : Consistent s' := by
  have hreq {k : ℕ} {r : UInt32 × Option UInt16} (hr : s.requests[k]? = some r) :
      s'.requests[k]? = some r := by
    rw [ha.requests, List.getElem?_append_left (List.getElem?_eq_some_iff.1 hr).1, hr]
  have hmsg (k : ℕ) : s'.messages k = s.messages k := by rw [messages, ha.delivered, messages]
  -- A registration is the new one, or was there before.
  have hreg {id : UInt32} {n : Option UInt16} {k : ℕ} (hk : s'.registered id n = some k) :
      (msgId = id ∧ msgNum = n) ∧ k = s.requests.length ∨ s.registered id n = some k := by
    rw [ha.registered] at hk
    split at hk
    next hsame => exact .inl ⟨hsame, (Option.some.inj hk).symm⟩
    next => exact .inr hk
  refine ⟨fun hk => ?_, fun hk hk' => ?_, fun hbc => ?_, fun hk => ?_, fun hk hbc => ?_,
    fun hbc hbc' => ?_⟩
  · rcases hreg hk with ⟨⟨rfl, rfl⟩, rfl⟩ | hk
    · exact .inl (by rw [ha.requests, List.getElem?_concat_length])
    · exact (h.request hk).imp hreq hreq
  · rcases hreg hk with ⟨⟨rfl, rfl⟩, rfl⟩ | hk <;>
      rcases hreg hk' with ⟨⟨-, rfl⟩, hlen⟩ | hk'
    · rfl
    · exact absurd hk' (h.registered_ne_length _ _)
    · exact absurd (hlen ▸ hk) (h.registered_ne_length _ _)
    · exact h.unique hk hk'
  · rw [hmsg] at hbc
    exact (h.asked hbc).imp hreq hreq
  · rw [hmsg]
    rcases hreg hk with ⟨-, rfl⟩ | hk
    · exact h.messages_length
    · exact h.waiting hk
  · rw [hmsg] at hbc
    rcases hreg hk with ⟨-, rfl⟩ | hk
    · rw [h.messages_length] at hbc
      exact nomatch hbc
    · exact h.numbered hk hbc
  · rw [hmsg] at hbc hbc'
    exact h.single hbc hbc'

/-- A subscription that had no number, or that of the message, may get it. -/
theorem gets {bc : Bc ρ} {k : ℕ} {num : Option UInt16} (h : Consistent s)
    (hreq : s'.requests = s.requests) (hk : s.registered bc.bcMeta.msgId num = some k)
    (hnum : num = some bc.bcMeta.msgNum ∨ num = none)
    (hreg : ∀ id n j, s'.registered id n = some j →
      (id = bc.bcMeta.msgId ∧ n = some bc.bcMeta.msgNum ∧ j = k) ∨
        s.registered id n = some j ∧ j ≠ k)
    (hmsg : ∀ j, s'.messages j = s.messages j ∨ j = k ∧ s'.messages j = s.messages j ++ [bc]) :
    Consistent s' := by
  have hold {b : Bc ρ} (hb : b ∈ s.messages k) : b.bcMeta.msgNum = bc.bcMeta.msgNum := by
    rcases hnum with rfl | rfl
    · exact h.numbered hk hb
    · rw [h.waiting hk] at hb
      exact nomatch hb
  have hasked : s.requests[k]? = some (bc.bcMeta.msgId, some bc.bcMeta.msgNum) ∨
      s.requests[k]? = some (bc.bcMeta.msgId, none) := by
    rcases hnum with rfl | rfl
    · exact h.request hk
    · exact .inr ((h.request hk).elim (fun h => h) (fun h => h))
  -- A message is an old one, or the new one of the subscription.
  have hmem {j : ℕ} {b : Bc ρ} (hb : b ∈ s'.messages j) : b ∈ s.messages j ∨ j = k ∧ b = bc := by
    rcases hmsg j with heq | ⟨rfl, heq⟩
    · exact .inl (heq ▸ hb)
    · rw [heq, List.mem_append, List.mem_singleton] at hb
      exact hb.imp (fun h => h) (fun h => ⟨rfl, h⟩)
  refine ⟨fun hj => ?_, fun hj hj' => ?_, fun hb => ?_, fun hj => ?_, fun hj hb => ?_,
    fun hb hb' => ?_⟩
  · rw [hreq]
    rcases hreg _ _ _ hj with ⟨rfl, rfl, rfl⟩ | ⟨hj, -⟩
    · exact hasked
    · exact h.request hj
  · rcases hreg _ _ _ hj with ⟨rfl, rfl, rfl⟩ | ⟨hj, hne⟩ <;>
      rcases hreg _ _ _ hj' with ⟨-, rfl, hjk⟩ | ⟨hj', hne'⟩
    · rfl
    · exact absurd rfl hne'
    · exact absurd hjk hne
    · exact h.unique hj hj'
  · rw [hreq]
    rcases hmem hb with hb | ⟨rfl, rfl⟩
    · exact h.asked hb
    · exact hasked
  · rcases hreg _ _ _ hj with ⟨-, hn, -⟩ | ⟨hj, hne⟩
    · exact nomatch hn
    · rcases hmsg _ with heq | ⟨hjk, -⟩
      · exact heq.trans (h.waiting hj)
      · exact absurd hjk hne
  · rcases hreg _ _ _ hj with ⟨rfl, hn, rfl⟩ | ⟨hj, hne⟩
    · rw [Option.some.inj hn]
      rcases hmem hb with hb | ⟨-, rfl⟩
      · exact hold hb
      · rfl
    · rcases hmem hb with hb | ⟨hjk, -⟩
      · exact h.numbered hj hb
      · exact absurd hjk hne
  · rcases hmem hb with hb | ⟨rfl, rfl⟩ <;> rcases hmem hb' with hb' | ⟨hjk, rfl⟩
    · exact h.single hb hb'
    · exact hold (hjk ▸ hb)
    · exact (hold hb').symm
    · rfl

/-- Routing may tie a subscriber to a number, and does not register anybody. -/
theorem routes {bc : Bc ρ} (h : Consistent s) (hreq : s'.requests = s.requests)
    (hr : Routes s bc s') : Consistent s' := by
  -- A subscription is registered nowhere else.
  have hother {id : UInt32} {n num : Option UInt16} {k : ℕ}
      (hk : s.registered bc.bcMeta.msgId num = some k) (hj : s.registered id n = some k) :
      id = bc.bcMeta.msgId ∧ n = num := by
    have hid : id = bc.bcMeta.msgId := by
      rcases h.request hk with hr | hr <;> rcases h.request hj with hr' | hr' <;>
        exact congrArg Prod.fst (Option.some.inj (hr'.symm.trans hr))
    subst hid
    exact ⟨rfl, h.unique hj hk⟩
  cases hr with
  | handler hid hreg hdel =>
    refine h.mono (hreq ▸ List.prefix_refl _) (fun k => ?_) fun id n k hk => hreg ▸ hk
    rw [messages_eq_append hdel]
    exact List.append_nil _
  | @direct k hid hk hopen hreg hdel =>
    refine h.gets hreq hk (.inl rfl) (fun id n j hj => ?_) (fun j => ?_)
    · rw [hreg] at hj
      by_cases hjk : j = k
      · subst hjk
        obtain ⟨hid, hn⟩ := hother hk hj
        exact .inl ⟨hid, hn, rfl⟩
      · exact .inr ⟨hj, hjk⟩
    · rw [messages_eq_append hdel, messagesOf_subscription]
      split
      next hkj => exact .inr ⟨hkj.symm, rfl⟩
      next => exact .inl (List.append_nil _)
  | upgrade hid hclosed hk hreg hdel =>
    refine h.gets hreq hk (.inr rfl) (fun id n j hj => ?_) (fun j => ?_)
    · rw [hreg] at hj
      split at hj
      next hsame => exact .inl ⟨hsame.1.symm, hsame.2, (Option.some.inj hj).symm⟩
      next =>
        split at hj
        next => exact nomatch hj
        next hne =>
          refine .inr ⟨hj, fun hjk => hne ?_⟩
          obtain ⟨hid, hn⟩ := hother hk (hjk ▸ hj)
          exact ⟨hid.symm, hn⟩
    · rw [messages_eq_append hdel]
      split
      · exact .inl (List.append_nil _)
      · rw [messagesOf_subscription]
        split
        next hkj => exact .inr ⟨hkj.symm, rfl⟩
        next => exact .inl (List.append_nil _)
  | nobody hid hclosed hk hreg hdel =>
    refine h.mono (hreq ▸ List.prefix_refl _) (fun k => ?_) (fun id n k hk' => ?_)
    · rw [messages, hdel, messages]
    · rcases hreg id n with heq | ⟨hnone, -⟩
      · exact heq ▸ hk'
      · exact nomatch hnone.symm.trans hk'

/-- One step keeps the table in step with the requests. -/
theorem step (h : Consistent s) (event : Event ρ) : Consistent (s.step event) := by
  match event with
  | .drop k => exact h.trims (trims_foldl_drop s [k])
  | .turn command dropped =>
    rw [Poller.step]
    split
    · exact h.trims (trims_foldl_drop s dropped)
    · have hready := h.trims (trims_ready s dropped)
      rcases handle_cases (s.ready dropped) command with
        ⟨bc, rfl, hr⟩ | ⟨msgId, msgNum, rfl, ha⟩ | ⟨-, ht⟩
      · exact hready.routes (route_frame _ bc).2.2.1 hr
      · exact hready.admits ha
      · exact hready.trims ht

theorem run (events : List (Event ρ)) : Consistent (Poller.run events) := by
  induction events using List.reverseRecOn with
  | nil => exact new
  | append_singleton events event ih =>
    rw [Poller.run, List.foldl_append]
    exact ih.step event

end Consistent

/-! ## Routing -/

/-- The message that comes in with an event. -/
def Event.bc? : Event ρ → Option (Bc ρ)
  | .turn (.bc (.ok bc)) _ => some bc
  | _ => none

/-- The message a subscription to an id and a number is due from an event: it is
    registered there, and no handler holds the id. -/
def due (s : Poller ρ) (k : ℕ) (msgId : UInt32) (msgNum : UInt16) (event : Event ρ) :
    List (Bc ρ) :=
  if s.ended = none ∧ s.registered msgId (some msgNum) = some k ∧ s.id[msgId]? = none then
    event.bc?.toList.filter fun bc => bc.bcMeta.msgId = msgId ∧ bc.bcMeta.msgNum = msgNum
  else []

/-- The messages a subscription to an id and a number is due from a run on. -/
def allDue (s : Poller ρ) (k : ℕ) (msgId : UInt32) (msgNum : UInt16) :
    List (Event ρ) → List (Bc ρ)
  | [] => []
  | event :: events => s.due k msgId msgNum event ++ (s.step event).allDue k msgId msgNum events

/-- What is due at the last event is due last. -/
theorem allDue_concat (s : Poller ρ) (k : ℕ) (msgId : UInt32) (msgNum : UInt16)
    (events : List (Event ρ)) (event : Event ρ) :
    s.allDue k msgId msgNum (events ++ [event]) =
      s.allDue k msgId msgNum events ++ (events.foldl step s).due k msgId msgNum event := by
  induction events generalizing s with
  | nil => simp [allDue]
  | cons e events ih =>
    rw [List.cons_append, allDue, ih, allDue, List.append_assoc, List.foldl_cons]

theorem due_eq_nil_of_bc? {s : Poller ρ} {event : Event ρ} (h : event.bc? = none) (k : ℕ)
    (msgId : UInt32) (msgNum : UInt16) : s.due k msgId msgNum event = [] := by
  rw [due, h]
  exact ite_self _

/-- A message is due to the subscriber of its number, if no handler takes it. -/
theorem due_turn (s : Poller ρ) (k : ℕ) (msgId : UInt32) (msgNum : UInt16) (bc : Bc ρ)
    (dropped : List ℕ) : s.due k msgId msgNum (.turn (.bc (.ok bc)) dropped) =
      if (s.ended = none ∧ s.registered msgId (some msgNum) = some k ∧ s.id[msgId]? = none) ∧
        bc.bcMeta.msgId = msgId ∧ bc.bcMeta.msgNum = msgNum then [bc] else [] := by
  rw [due, Event.bc?, Option.toList_some, List.filter_singleton]
  by_cases h : bc.bcMeta.msgId = msgId ∧ bc.bcMeta.msgNum = msgNum <;> simp [h]

/-- What an event does, in two steps: some subscriptions go, and a command is handled. -/
theorem step_cases (s : Poller ρ) (event : Event ρ) :
    (event.bc? = none ∨ s.ended ≠ none) ∧ Trims s (s.step event) ∨
      ∃ r, Trims s r ∧ r.id = s.id ∧ r.requests = s.requests ∧ r.delivered = s.delivered ∧
        s.ended = none ∧ r.ended = none ∧
        ((∃ bc dropped, event = .turn (.bc (.ok bc)) dropped ∧ s.step event = r.route bc) ∨
          ∃ msgId msgNum dropped, event = .turn (.addSubscriber msgId msgNum) dropped ∧
            Admits r (s.step event) msgId msgNum) := by
  match event with
  | .drop k => exact .inl ⟨.inl rfl, trims_foldl_drop s [k]⟩
  | .turn command dropped =>
    rw [step]
    split
    next hend => exact .inl ⟨.inr (Option.isSome_iff_ne_none.1 hend), trims_foldl_drop s dropped⟩
    next hend =>
      have hrun : s.ended = none := by simpa using hend
      have hr := trims_ready s dropped
      rcases handle_cases (s.ready dropped) command with
        ⟨bc, rfl, -⟩ | ⟨msgId, msgNum, rfl, ha⟩ | ⟨hbc, ht⟩
      · exact .inr ⟨_, hr, ready_id s dropped, ready_requests s dropped, ready_delivered s dropped,
          hrun, (ready_ended s dropped).trans hrun, .inl ⟨bc, dropped, rfl, rfl⟩⟩
      · exact .inr ⟨_, hr, ready_id s dropped, ready_requests s dropped, ready_delivered s dropped,
          hrun, (ready_ended s dropped).trans hrun, .inr ⟨msgId, msgNum, dropped, rfl, ha⟩⟩
      · refine .inl ⟨.inl ?_, ?_⟩
        · match command, hbc with
          | .bc (.ok bc), hbc => exact absurd rfl (hbc bc)
          | .bc (.error e), _ | .addHandler .., _ | .removeHandler .., _ | .addSubscriber .., _
          | .disconnect, _ => rfl
        · exact hr.trans ht

/-- A subscription to an id and a number that is still open gets what it is due. -/
theorem messages_step {s : Poller ρ} (hs : Consistent s) (event : Event ρ) {k : ℕ}
    {msgId : UInt32} {msgNum : UInt16}
    (hk : ∀ r, (s.step event).requests[k]? = some r → r = (msgId, some msgNum))
    (hopen : k ∉ (s.step event).closed) :
    (s.step event).messages k = s.messages k ++ s.due k msgId msgNum event := by
  -- A command that is no message, or one after the end, is not due.
  rcases step_cases s event with ⟨hnone, ht⟩ | ⟨r, hr, hrid, hrreq, hrdel, hrun, hrrun, hstep⟩
  · have hdue : s.due k msgId msgNum event = [] := by
      rcases hnone with hbc | hend
      · exact due_eq_nil_of_bc? hbc k msgId msgNum
      · exact if_neg fun h => hend h.1
    rw [ht.messages_eq, hdue, List.append_nil]
  rcases hstep with ⟨bc, dropped, rfl, heq⟩ | ⟨id, n, dropped, rfl, ha⟩
  · obtain ⟨-, hclosed, hreq, -⟩ := route_frame r bc
    rw [heq] at hk hopen ⊢
    rw [hreq] at hk
    rw [hclosed] at hopen
    -- The message itself keeps the subscription, as the receiver is open.
    have hkept (h : s.registered msgId (some msgNum) = some k) :
        r.registered msgId (some msgNum) = some k := hr.kept hrrun h hopen
    rw [due_turn, ← hr.messages_eq]
    -- Four ways to route a message: a handler, the number itself, an upgrade, or nobody.
    cases routes_route r bc with
    | handler hid hreg hdel =>
      rw [messages_eq_append hdel, if_neg]
      · rfl
      · rintro ⟨⟨-, -, hnone⟩, rfl, -⟩
        rw [hrid, hnone] at hid
        exact nomatch hid
    | @direct j hid hj hopen hreg hdel =>
      rw [messages_eq_append hdel, messagesOf_subscription]
      -- It goes to this subscription exactly if the id and the number are its own.
      by_cases hjk : j = k
      · subst hjk
        have hreq : (msgId, some msgNum) = (bc.bcMeta.msgId, some bc.bcMeta.msgNum) := by
          rcases (hs.trims hr).request hj with hr | hr
          · exact (hk _ hr).symm
          · exact nomatch (Prod.mk.inj (hk _ hr)).2
        obtain ⟨rfl, hnum⟩ := Prod.mk.inj hreq
        obtain rfl := Option.some.inj hnum
        rw [if_pos rfl, if_pos ⟨⟨hrun, hr.only hj, hrid ▸ hid⟩, rfl, rfl⟩]
      · rw [if_neg hjk, if_neg]
        rintro ⟨⟨-, hreg, -⟩, rfl, rfl⟩
        exact hjk (Option.some.inj (hj.symm.trans (hkept hreg)))
    | @upgrade j hid hall hj hreg hdel =>
      -- The message goes to a subscription to the id only.
      have hjk : j ≠ k := by
        rintro rfl
        rcases (hs.trims hr).request hj with hr | hr <;>
          exact nomatch (Prod.mk.inj (hk _ hr)).2
      have hgot : messagesOf (if j ∈ r.closed then [] else [(.subscription j, .ok bc)]) k =
          ([] : List (Bc ρ)) := by
        split
        · rfl
        · rw [messagesOf_subscription, if_neg hjk]
      rw [messages_eq_append hdel, hgot, if_neg]
      rintro ⟨⟨-, hreg, -⟩, rfl, rfl⟩
      exact hopen (hall k (hkept hreg))
    -- Nobody gets it, so it is not due to this subscription.
    | nobody hid hall hnone hreg hdel =>
      rw [messages, hdel, if_neg, List.append_nil, messages]
      rintro ⟨⟨-, hreg, -⟩, rfl, rfl⟩
      exact hopen (hall k (hkept hreg))
  · rw [messages, ha.delivered, hrdel, due_eq_nil_of_bc? rfl, List.append_nil, messages]

/-- A subscription stays registered until it is dropped, where it is or, if it has no
    number yet, under that of a message. -/
theorem registered_step (s : Poller ρ) (event : Event ρ) {id : UInt32} {n : Option UInt16} {k : ℕ}
    (hk : s.registered id n = some k) (hopen : k ∉ (s.step event).closed)
    (hend : (s.step event).ended = none) : (s.step event).registered id n = some k ∨
      n = none ∧ ∃ bc, event.bc? = some bc ∧ bc.bcMeta.msgId = id ∧
        (s.step event).registered id (some bc.bcMeta.msgNum) = some k := by
  rcases step_cases s event with ⟨-, ht⟩ | ⟨r, hr, -, -, -, -, hrrun, hstep⟩
  · exact .inl (ht.kept hend hk hopen)
  rcases hstep with ⟨bc, dropped, rfl, heq⟩ | ⟨msgId, msgNum, dropped, rfl, ha⟩
  · obtain ⟨-, hclosed, -, -⟩ := route_frame r bc
    rw [heq] at hopen ⊢
    rw [hclosed] at hopen
    have hrk : r.registered id n = some k := hr.kept hrrun hk hopen
    cases routes_route r bc with
    | handler hid hreg hdel => exact .inl (hreg ▸ hrk)
    | direct hid hj _ hreg hdel => exact .inl (hreg ▸ hrk)
    | @upgrade j hid hall hj hreg hdel =>
      simp only [hreg]
      by_cases hnum : bc.bcMeta.msgId = id ∧ n = some bc.bcMeta.msgNum
      · -- A subscription to the number would have got the message.
        obtain ⟨rfl, rfl⟩ := hnum
        exact absurd (hall k hrk) hopen
      · rw [if_neg hnum]
        by_cases hnone : bc.bcMeta.msgId = id ∧ n = none
        · obtain ⟨rfl, rfl⟩ := hnone
          refine .inr ⟨rfl, bc, rfl, rfl, ?_⟩
          rw [if_pos ⟨rfl, rfl⟩, ← hj, hrk]
        · rw [if_neg hnone]
          exact .inl hrk
    | nobody hid hall hnone hreg hdel =>
      rcases hreg id n with heq | ⟨-, j, hj, hjc⟩
      · exact .inl (heq.trans hrk)
      · exact absurd (Option.some.inj (hj.symm.trans hrk) ▸ hjc) hopen
  · rw [ha.closed] at hopen
    have hrk : r.registered id n = some k := hr.kept hrrun hk hopen
    rw [ha.registered]
    split
    next hsame =>
      obtain ⟨rfl, rfl⟩ := hsame
      exact absurd (ha.vacant hrk) hopen
    next => exact .inl hrk

/-- A message goes to one recipient at most, and no other event passes on a message. -/
theorem delivered_step (s : Poller ρ) (event : Event ρ) :
    ∃ ds, (s.step event).delivered = s.delivered ++ ds ∧
      (ds.filterMap fun d => d.2.toOption).Sublist event.bc?.toList := by
  rcases step_cases s event with ⟨-, ht⟩ | ⟨r, hr, -, -, hrdel, -, -, hstep⟩
  · obtain ⟨ds, hds, herr⟩ := ht.delivered
    refine ⟨ds, hds, ?_⟩
    rw [List.filterMap_eq_nil_iff.2 fun d hd => ?_]
    · exact List.nil_sublist _
    · obtain ⟨e, he⟩ := herr d hd
      rw [he]
      rfl
  rcases hstep with ⟨bc, dropped, rfl, heq⟩ | ⟨msgId, msgNum, dropped, rfl, ha⟩
  · rw [heq, ← hrdel]
    cases routes_route r bc with
    | handler hid hreg hdel => exact ⟨_, hdel, List.Sublist.refl _⟩
    | direct hid hj _ hreg hdel => exact ⟨_, hdel, List.Sublist.refl _⟩
    | upgrade hid hall hj hreg hdel =>
      refine ⟨_, hdel, ?_⟩
      split
      · exact List.nil_sublist _
      · exact List.Sublist.refl _
    | nobody hid hall hnone hreg hdel =>
      exact ⟨[], by rw [hdel, List.append_nil], List.nil_sublist _⟩
  · exact ⟨[], by rw [ha.delivered, hrdel, List.append_nil], List.nil_sublist _⟩

/-- A subscription is registered, unless another one is; that one and all others stay,
    and the refused one is told. -/
theorem addSubscriber_step {s : Poller ρ} (hend : s.ended = none) (msgId : UInt32)
    (msgNum : Option UInt16) (dropped : List ℕ) {s' : Poller ρ}
    (hs' : s' = s.step (.turn (.addSubscriber msgId msgNum) dropped)) :
    ((∀ k, s.registered msgId msgNum = some k → k ∈ s'.closed) ∧
      (s'.registered msgId msgNum = some s.requests.length) ∧
      ∀ id n k, (msgId ≠ id ∨ msgNum ≠ n) → k ∉ s'.closed →
        (s'.registered id n = some k ↔ s.registered id n = some k)) ∨
    (∃ k, s.registered msgId msgNum = some k ∧ k ∉ s'.closed) ∧
      (s.requests.length ∉ s'.closed → s'.delivered = s.delivered ++
        [(.subscription s.requests.length, .error (.simultaneousSubscription msgNum))]) ∧
      s'.id = s.id ∧
      ∀ id n k, k ∉ s'.closed → (s'.registered id n = some k ↔ s.registered id n = some k) := by
  have hr := trims_ready s dropped
  have hrrun := (ready_ended s dropped).trans hend
  have hstep : s' = (s.ready dropped).addSubscriber msgId msgNum := by
    rw [hs', step, hend]
    rfl
  rw [← ready_requests s dropped, ← ready_delivered s dropped]
  rcases addSubscriber_cases (s.ready dropped) msgId msgNum with ha | hno
  · rw [← hstep] at ha
    refine .inl ⟨fun k hk => ?_, ?_, fun id n k hne hopen => ?_⟩
    · by_contra hopen
      rw [ha.closed] at hopen
      exact hopen (ha.vacant (hr.kept hrrun hk hopen))
    · rw [ha.registered, if_pos ⟨rfl, rfl⟩]
    · rw [ha.registered, if_neg (fun h => hne.elim (· h.1) (· h.2))]
      rw [ha.closed] at hopen
      exact ⟨hr.only, fun hk => hr.kept hrrun hk hopen⟩
  · rw [← hstep] at hno
    obtain ⟨k, hk, hopen⟩ := hno.taken
    refine .inr ⟨⟨k, hr.only hk, hno.closed ▸ hopen⟩, fun hnew => ?_,
      hno.handlers.trans (ready_id s dropped), fun id n k hopen => ?_⟩
    · rw [hno.delivered, if_neg (hno.closed ▸ hnew)]
    · rw [hno.registered]
      rw [hno.closed] at hopen
      exact ⟨hr.only, fun hk => hr.kept hrrun hk hopen⟩

theorem run_concat (events : List (Event ρ)) (event : Event ρ) :
    run (events ++ [event]) = (run events).step event := by
  rw [run, List.foldl_append]
  rfl

/-- A step keeps the subscriptions that were dropped. -/
theorem closed_step (s : Poller ρ) (event : Event ρ) : s.closed ⊆ (s.step event).closed := by
  rcases step_cases s event with ⟨-, ht⟩ | ⟨r, hr, -, -, -, -, -, hstep⟩
  · exact ht.closed
  rcases hstep with ⟨bc, dropped, rfl, heq⟩ | ⟨msgId, msgNum, dropped, rfl, ha⟩
  · rw [heq, (route_frame r bc).2.1]
    exact hr.closed
  · rw [ha.closed]
    exact hr.closed

/-- An event adds one request at most. -/
theorem requests_step (s : Poller ρ) (event : Event ρ) :
    s.requests <+: (s.step event).requests := by
  rcases step_cases s event with ⟨-, ht⟩ | ⟨r, hr, -, hrreq, -, -, -, hstep⟩
  · exact ht.requests
  rcases hstep with ⟨bc, dropped, rfl, heq⟩ | ⟨msgId, msgNum, dropped, rfl, ha⟩
  · rw [heq, (route_frame r bc).2.2.1]
    exact hr.requests
  · rw [ha.requests]
    exact hr.requests.trans (List.prefix_append _ _)

/-- A subscription to an id and a number that is still open got all it was due. -/
theorem messages_run (events : List (Event ρ)) {k : ℕ} {msgId : UInt32} {msgNum : UInt16}
    (hk : ∀ r, (run events).requests[k]? = some r → r = (msgId, some msgNum))
    (hopen : k ∉ (run events).closed) :
    (run events).messages k = new.allDue k msgId msgNum events := by
  induction events using List.reverseRecOn with
  | nil => rfl
  | append_singleton events event ih =>
    rw [run_concat] at hk hopen ⊢
    rw [allDue_concat, messages_step (.run events) event hk hopen, ← run, ih]
    · intro r hr
      obtain ⟨rest, hrest⟩ := requests_step (run events) event
      refine hk r ?_
      rw [← hrest, List.getElem?_append_left (List.getElem?_eq_some_iff.1 hr).1, hr]
    · exact fun h => hopen (closed_step (run events) event h)

/-- Over any run: a message goes to one recipient at most; an open subscription to an
    id and a number gets the messages it is due, in order; a subscription to an id
    gets messages of one number; an open subscription stays registered, or takes the
    number of a message; and one that is refused is told, with no other affected. -/
theorem routing (events : List (Event ρ)) :
    (∀ event, ∃ ds, ((run events).step event).delivered = (run events).delivered ++ ds ∧
      (ds.filterMap fun d => d.2.toOption).Sublist event.bc?.toList) ∧
    (∀ k msgId msgNum, (run events).requests[k]? = some (msgId, some msgNum) →
      k ∉ (run events).closed → (run events).messages k = new.allDue k msgId msgNum events) ∧
    (∀ k msgId, (run events).requests[k]? = some (msgId, none) → ∃ msgNum,
      ∀ bc ∈ (run events).messages k, bc.bcMeta.msgId = msgId ∧ bc.bcMeta.msgNum = msgNum) ∧
    (∀ event id n k, (run events).registered id n = some k →
      k ∉ ((run events).step event).closed → ((run events).step event).ended = none →
        ((run events).step event).registered id n = some k ∨
          n = none ∧ ∃ bc, event.bc? = some bc ∧ bc.bcMeta.msgId = id ∧
            ((run events).step event).registered id (some bc.bcMeta.msgNum) = some k) ∧
    (∀ msgId msgNum dropped s', (run events).ended = none →
      s' = (run events).step (.turn (.addSubscriber msgId msgNum) dropped) →
        ((∀ k, (run events).registered msgId msgNum = some k → k ∈ s'.closed) ∧
          s'.registered msgId msgNum = some (run events).requests.length ∧
          ∀ id n k, (msgId ≠ id ∨ msgNum ≠ n) → k ∉ s'.closed →
            (s'.registered id n = some k ↔ (run events).registered id n = some k)) ∨
        (∃ k, (run events).registered msgId msgNum = some k ∧ k ∉ s'.closed) ∧
          ((run events).requests.length ∉ s'.closed →
            s'.delivered = (run events).delivered ++ [(.subscription (run events).requests.length,
              .error (.simultaneousSubscription msgNum))]) ∧
          s'.id = (run events).id ∧
          ∀ id n k, k ∉ s'.closed →
            (s'.registered id n = some k ↔ (run events).registered id n = some k)) := by
  have hs : Consistent (run events) := .run events
  refine ⟨delivered_step _, fun k msgId msgNum hk => messages_run events fun r hr =>
    Option.some.inj (hr.symm.trans hk), fun k msgId hk => ?_, fun event id n k =>
      registered_step _ event, fun msgId msgNum dropped s' hend => addSubscriber_step hend _ _ _⟩
  -- All messages have the number of the first one.
  rcases hmsg : (run events).messages k with _ | ⟨first, rest⟩
  · exact ⟨0, fun _ h => (nomatch h)⟩
  · refine ⟨first.bcMeta.msgNum, fun bc hbc => ⟨?_, ?_⟩⟩
    · rcases hs.asked (hmsg ▸ hbc) with hr | hr <;>
        exact (congrArg Prod.fst (Option.some.inj (hk.symm.trans hr))).symm
    · exact hs.single (hmsg ▸ hbc) (hmsg ▸ List.mem_cons_self)

/-! ## What was sent to a subscription -/

theorem inbox_eq_append {s s' : Poller ρ} {ds : List (Recipient × Except PollError (Bc ρ))}
    (h : s'.delivered = s.delivered ++ ds) (k : ℕ) : s'.inbox k = s.inbox k ++
      ds.filterMap fun d => if d.1 = .subscription k then some d.2 else none := by
  rw [inbox, h, List.filterMap_append, inbox]

/-- While the poller runs, nothing was sent to a subscription before it was requested. -/
theorem inbox_of_length_le (events : List (Event ρ)) {k : ℕ}
    (hend : (run events).ended = none) (hk : (run events).requests.length ≤ k) :
    (run events).inbox k = [] := by
  induction events using List.reverseRecOn with
  | nil => rfl
  | append_singleton events event ih =>
    rw [run_concat] at hend hk ⊢
    have hlen := (requests_step (run events) event).length_le
    have hold : (run events).ended = none → (run events).inbox k = [] := fun h =>
      ih h (hlen.trans hk)
    match event with
    | .drop j => exact hold hend
    | .turn command dropped =>
      rw [step] at hend hk ⊢
      split at hend
      next hended =>
        rw [(foldl_drop_frame dropped _).2.2.2.2.2] at hend
        rw [hend] at hended
        exact nomatch hended
      next hended =>
        rw [if_neg hended] at hk ⊢
        have hold : ((run events).ready dropped).inbox k = [] := by
          rw [inbox, ready_delivered]
          exact hold (by simpa using hended)
        have hs := (Consistent.run events).trims (trims_ready _ dropped)
        generalize (run events).ready dropped = r at hend hk hold hs
        -- Nothing is sent but to those registered, and to those refused.
        have hregistered {id : UInt32} {n : Option UInt16} {j : ℕ} (hlen : r.requests.length ≤ k)
            (hj : r.registered id n = some j) : j ≠ k := by
          rcases hs.request hj with hr | hr <;>
            exact (lt_of_lt_of_le (List.getElem?_eq_some_iff.1 hr).1 hlen).ne
        match command with
        | .bc (.error e) => exact nomatch hend
        | .bc (.ok bc) =>
          rw [handle] at hk ⊢
          rw [(route_frame r bc).2.2.1] at hk
          cases routes_route r bc with
          | handler hid hreg hdel => rw [inbox_eq_append hdel, hold]; rfl
          | direct hid hj hopen hreg hdel =>
            rw [inbox_eq_append hdel, hold]
            simp [hregistered hk hj]
          | upgrade hid hall hj hreg hdel =>
            rw [inbox_eq_append hdel, hold]
            split <;> simp [hregistered hk hj]
          | nobody hid hall hnone hreg hdel => rwa [inbox, hdel]
        | .addHandler msgId handler =>
          rw [handle]
          split <;> exact hold
        | .removeHandler msgId => exact hold
        | .addSubscriber msgId msgNum =>
          rw [handle] at hk ⊢
          rcases addSubscriber_cases r msgId msgNum with ha | hno
          · rwa [inbox, ha.delivered]
          · rw [hno.requests, List.length_append] at hk
            have hne : r.requests.length ≠ k := ne_of_lt hk
            rw [inbox_eq_append hno.delivered, hold]
            split <;> simp [hne]
        | .disconnect => exact nomatch hend

end Poller

end Bairelay
