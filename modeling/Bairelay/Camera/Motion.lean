import Bairelay.Lib.Past

/-!
# Motion events

The alarms of a camera become motion statuses (`listen_on_motion` in `motion.rs`), which wait in a
channel until `next_motion` is called. A call takes all that waits, one by one, and gives back the
last; if nothing waits, it gives back the next status that comes. The listener of the session
(`motion_listener` in `camera_tasks.rs`) reports motion by what it gets.

* `coalesced_of_faithful`: what the listener reports in the end is the motion that was sent, in
  every run in which no call drops a change, i.e., ends with an error or with a status that changes
  nothing, having taken a status that changes what is reported;
* `coalesced_iff`: where only statuses are sent, exactly in those.
-/

namespace Bairelay

/-- What an alarm says about motion, with the time it came. -/
inductive MotionStatus where
  | start (instant : ℕ)
  | stop (instant : ℕ)
  /-- An alarm about something else. -/
  | noChange (instant : ℕ)
  deriving DecidableEq, Repr

/-- What a call fails with. -/
inductive MotionError where
  /-- What the connection of the camera fails with. -/
  | connection (text : String)
  | droppedConnectionTry
  | motionDropped
  deriving DecidableEq, Repr

/-- An alarm of the camera, as far as it is read. -/
structure AlarmEvent where
  channelId : UInt8
  status : String
  aiType : Option String
  deriving DecidableEq, Repr

/-- The status of the alarms of a message: of the first one of the channel. -/
def motionStatus (channelId : UInt8) (now : ℕ) (alarmEventList : Option (List AlarmEvent)) :
    MotionStatus :=
  match (alarmEventList.getD []).find? fun alarmEvent => alarmEvent.channelId = channelId with
  | none => .noChange now
  | some alarmEvent =>
    if alarmEvent.status ≠ "none" ∨ (alarmEvent.aiType.map (· != "none")).getD false then .start now
    else .stop now

/-! ## What is reported -/

/-- What the listener reports of a status, if anything. -/
def MotionStatus.change : MotionStatus → Option Bool
  | .start _ => some true
  | .stop _ => some false
  | .noChange _ => none

/-- Whether there is motion after these statuses. -/
def motionAfter (on : Bool) (statuses : List MotionStatus) : Bool :=
  statuses.foldl (fun on status => status.change.getD on) on

/-- The last status that changes anything. -/
def lastChange (statuses : List MotionStatus) : Option Bool :=
  (statuses.filterMap MotionStatus.change).getLast?

/-- The last status decides, if it changes anything. -/
theorem lastChange_concat (statuses : List MotionStatus) (status : MotionStatus) :
    lastChange (statuses ++ [status]) = status.change.or (lastChange statuses) := by
  rw [lastChange, List.filterMap_append]
  cases h : status.change with
  | none => simp [h, lastChange]
  | some on => simp [h]

/-- Only the last change matters for what is reported. -/
theorem motionAfter_eq (on : Bool) (statuses : List MotionStatus) :
    motionAfter on statuses = (lastChange statuses).getD on := by
  induction statuses using List.reverseRecOn with
  | nil => rfl
  | append_singleton statuses status ih =>
    rw [motionAfter, List.foldl_concat, ← motionAfter, ih, lastChange_concat]
    cases status.change <;> rfl

theorem motionAfter_append (on : Bool) (xs ys : List MotionStatus) :
    motionAfter on (xs ++ ys) = motionAfter (motionAfter on xs) ys :=
  List.foldl_append

/-! ## The channel -/

/-- What is sent through the channel, and what a call gives back. -/
abbrev MotionResult := Except MotionError MotionStatus

/-- The statuses among some results. -/
def statuses (results : List MotionResult) : List MotionStatus :=
  results.filterMap Except.toOption

/-- How far a call of `next_motion` is. -/
inductive NextMotion where
  /-- None is under way. -/
  | idle
  /-- It takes what waits, and has got these. -/
  | draining (results : List MotionStatus)
  /-- Nothing waited. -/
  | waiting
  deriving DecidableEq, Repr

/-- What a call under way has got. -/
def NextMotion.results : NextMotion → List MotionStatus
  | .draining results => results
  | _ => []

/-- The channel of alarms, the call of the listener, and what went through so far. -/
structure MotionData where
  queue : List MotionResult := []
  /-- The task that sends has ended. -/
  closed : Bool := false
  call : NextMotion := .idle
  lastUpdate : MotionStatus := .noChange 0
  /-- The statuses that were sent so far. -/
  sent : List MotionStatus := []
  /-- What the calls gave back so far. -/
  returned : List MotionResult := []

namespace MotionData

/-- The room in the channel. -/
def capacity : ℕ := 20

/-- Alarms that are sent, and the steps of a call. -/
inductive Event where
  | send (result : MotionResult)
  | close
  | nextMotion
  | tryRecv
  | recv
  /-- The listener has something else to do, and drops the call. -/
  | cancel
  deriving DecidableEq, Repr

/-- A call ends. -/
def giveBack (s : MotionData) (result : MotionResult) : MotionData :=
  { s with call := .idle, returned := s.returned ++ [result] }

/-- One turn of the loop of `consume_motion_events`, and what comes of its end. -/
def tryRecv (s : MotionData) (results : List MotionStatus) : MotionData :=
  match s.queue with
  | .ok motion :: queue => { s with queue, call := .draining (results ++ [motion]) }
  -- What was taken before is lost.
  | .error e :: queue => { s with queue }.giveBack (.error e)
  | [] =>
    -- A closed channel is an error even if something was taken from it before.
    if s.closed then s.giveBack (.error .droppedConnectionTry)
    else
      -- The last status counts; without one the call waits.
      match results.getLast? with
      | some last => { s with lastUpdate := last }.giveBack (.ok last)
      | none => { s with call := .waiting }

/-- A call that waits gets something. -/
def recv (s : MotionData) : MotionData :=
  match s.queue with
  | .ok motion :: queue => { s with queue, lastUpdate := motion }.giveBack (.ok motion)
  | .error e :: queue => { s with queue }.giveBack (.error e)
  | [] => if s.closed then s.giveBack (.error .motionDropped) else s

/-- A step. The task that sends waits for room; only one call is under way. -/
def step (s : MotionData) : Event → MotionData
  | .send result =>
    if s.closed ∨ capacity ≤ s.queue.length then s
    -- The sender waits while the channel is full.
    else { s with queue := s.queue ++ [result], sent := s.sent ++ result.toOption.toList }
  | .close => { s with closed := true }
  | .nextMotion =>
    match s.call with
    | .idle => { s with call := .draining [] }
    | _ => s
  | .tryRecv =>
    match s.call with
    | .draining results => s.tryRecv results
    | _ => s
  | .recv =>
    match s.call with
    | .waiting => s.recv
    | _ => s
  | .cancel =>
    match s.call with
    -- A call is dropped only where it waits, so nothing is lost with it.
    | .waiting => { s with call := .idle }
    | _ => s

/-- The channel after some events. -/
def run (events : List Event) : MotionData := events.foldl step {}

theorem run_concat (events : List Event) (e : Event) :
    run (events ++ [e]) = (run events).step e := by
  rw [run, List.foldl_concat, ← run]

/-- What is reported after what the calls gave back. -/
def reported (on : Bool) (s : MotionData) : Bool := motionAfter on (statuses s.returned)

/-- Everything sent has been consumed. -/
def Consumed (s : MotionData) : Prop := s.queue = [] ∧ ∀ results, s.call ≠ .draining results

/-- Whenever everything sent has been consumed, what is reported is the motion after all that was
    sent. -/
def Coalesced (on : Bool) (events : List Event) : Prop :=
  ∀ before, before <+: events → (run before).Consumed →
    (run before).reported on = motionAfter on (run before).sent

/-- A call that has got these ends without a change. -/
def EndsUnchanged (s : MotionData) (results : List MotionStatus) : Prop :=
  match s.queue with
  | .ok _ :: _ => False
  | .error _ :: _ => True
  | [] => s.closed ∨ ∃ last, results.getLast? = some last ∧ last.change = none

/-- A call ends without a change, but has got one. -/
def Loses (on : Bool) (s : MotionData) : Event → Prop
  | .tryRecv => ∃ results, s.call = .draining results ∧
      lastChange results = some (!on) ∧ s.EndsUnchanged results
  | _ => False

instance (s : MotionData) (results : List MotionStatus) : Decidable (s.EndsUnchanged results) :=
  match h : s.queue with
  | .ok _ :: _ => .isFalse (by rw [EndsUnchanged, h]; exact id)
  | .error _ :: _ => .isTrue (by rw [EndsUnchanged, h]; exact trivial)
  | [] => decidable_of_iff (s.closed ∨ results.getLast?.map MotionStatus.change = some none)
      (by rw [EndsUnchanged, h, Option.map_eq_some_iff])

instance (on : Bool) (s : MotionData) : (e : Event) → Decidable (Loses on s e)
  | .tryRecv =>
    match h : s.call with
    | .draining results =>
      decidable_of_iff (lastChange results = some (!on) ∧ s.EndsUnchanged results)
        (by simp [Loses, h])
    | .idle => .isFalse (by simp [Loses, h])
    | .waiting => .isFalse (by simp [Loses, h])
  | .send _ | .close | .nextMotion | .recv | .cancel => .isFalse id

/-- No call drops a change of what is reported. -/
def Faithful (on : Bool) : List Event → Prop :=
  Past.Always fun before e => ¬ Loses ((run before).reported on) (run before) e

instance (on : Bool) : DecidablePred (Faithful on) := fun _ =>
  inferInstanceAs (Decidable (Past.Always _ _))

/-! ## Runs -/

/-- What was consumed before is reported as it should be; the rest is with the call or waits. -/
def Accounted (on : Bool) (s : MotionData) : Prop :=
  ∃ consumed, s.sent = consumed ++ s.call.results ++ statuses s.queue ∧
    motionAfter on consumed = s.reported on

variable {on : Bool} {s : MotionData} {results : List MotionStatus}

/-- Errors are no statuses, wherever they stand. -/
theorem statuses_append (xs ys : List MotionResult) :
    statuses (xs ++ ys) = statuses xs ++ statuses ys :=
  List.filterMap_append

/-- A call ends with this result, having got a change only if that is it. -/
theorem Accounted.giveBack (consumed : List MotionStatus) {result : MotionResult}
    (hsent : s.sent = consumed ++ statuses s.queue)
    (hconsumed : motionAfter on consumed = motionAfter (s.reported on) (statuses [result])) :
    (s.giveBack result).Accounted on := by
  refine ⟨consumed, ?_, ?_⟩
  · change s.sent = consumed ++ [] ++ statuses s.queue
    rw [List.append_nil]
    exact hsent
  · rw [hconsumed, reported, MotionData.giveBack, reported, statuses_append, motionAfter_append]

theorem Accounted.send (h : s.Accounted on) (result : MotionResult) :
    Accounted on { s with
      queue := s.queue ++ [result], sent := s.sent ++ result.toOption.toList } := by
  obtain ⟨consumed, hsent, hconsumed⟩ := h
  refine ⟨consumed, ?_, hconsumed⟩
  have hresult : statuses [result] = result.toOption.toList := by
    cases result <;> rfl
  dsimp only
  rw [hsent, statuses_append, hresult, List.append_assoc]

/-- A call goes on with what it has got. -/
theorem Accounted.withCall (h : s.Accounted on) {call : NextMotion}
    (hcall : call.results = s.call.results) : Accounted on { s with call } := by
  obtain ⟨consumed, hsent, hconsumed⟩ := h
  refine ⟨consumed, ?_, hconsumed⟩
  dsimp only
  rw [hcall]
  exact hsent

/-- Statuses without a change of what is reported. -/
theorem motionAfter_of_ne (h : lastChange results ≠ some (!on)) : motionAfter on results = on := by
  rw [motionAfter_eq]
  cases hlast : lastChange results with
  | none => rfl
  | some b =>
    have hb : b ≠ !on := fun hb => h (hb ▸ hlast)
    cases b <;> cases on <;> first | rfl | exact absurd rfl hb

/-- A call takes one status more, or ends with the last one if no change is lost with the others. -/
theorem Accounted.tryRecv (h : s.Accounted on) (hcall : s.call = .draining results)
    (hloses : ¬ Loses (s.reported on) s .tryRecv) : (s.tryRecv results).Accounted on := by
  have haccounted := h
  obtain ⟨consumed, hsent, hconsumed⟩ := h
  rw [hcall, NextMotion.results] at hsent
  -- A call that ends without a change has not got one.
  have hunchanged : s.EndsUnchanged results → motionAfter (s.reported on) results = s.reported on :=
    fun hends => motionAfter_of_ne fun hlast => hloses ⟨results, hcall, hlast, hends⟩
  rw [MotionData.tryRecv]
  split
  · next motion queue hqueue =>
    rw [hqueue] at hsent
    refine ⟨consumed, ?_, hconsumed⟩
    dsimp only [NextMotion.results]
    rw [hsent]
    simp [statuses, Except.toOption]
  · next e queue hqueue =>
    rw [EndsUnchanged, hqueue] at hunchanged
    rw [hqueue] at hsent
    refine Accounted.giveBack (consumed ++ results) hsent ?_
    rw [motionAfter_append, hconsumed, hunchanged trivial]
    rfl
  · next hqueue =>
    rw [EndsUnchanged, hqueue] at hunchanged
    split
    · next hclosed =>
      refine Accounted.giveBack (consumed ++ results) hsent ?_
      rw [motionAfter_append, hconsumed, hunchanged (.inl hclosed)]
      rfl
    · split
      · next last hlast =>
        refine Accounted.giveBack (consumed ++ results) hsent ?_
        rw [motionAfter_append, hconsumed]
        change _ = last.change.getD (s.reported on)
        cases hchange : last.change with
        | none => exact hunchanged (.inr ⟨last, hlast, hchange⟩)
        | some b =>
          obtain ⟨init, rfl⟩ := List.getLast?_eq_some_iff.1 hlast
          rw [motionAfter_eq, lastChange_concat, hchange]
          rfl
      · next hlast =>
        refine haccounted.withCall ?_
        rw [hcall, List.getLast?_eq_none_iff.1 hlast]
        rfl

theorem Accounted.recv (h : s.Accounted on) (hcall : s.call = .waiting) :
    s.recv.Accounted on := by
  have haccounted := h
  obtain ⟨consumed, hsent, hconsumed⟩ := h
  rw [hcall, NextMotion.results, List.append_nil] at hsent
  · rw [MotionData.recv]
    split
    · next motion queue hqueue =>
      rw [hqueue] at hsent
      refine Accounted.giveBack (consumed ++ [motion]) ?_ ?_
      · rw [List.append_assoc]
        exact hsent
      · rw [motionAfter_append, hconsumed]
        rfl
    · next e queue hqueue =>
      rw [hqueue] at hsent
      exact Accounted.giveBack consumed hsent hconsumed
    · split
      · exact Accounted.giveBack consumed hsent hconsumed
      · exact haccounted
  · rintro results ⟨⟩

/-- What a step keeps, if it drops no change. -/
theorem Accounted.step (h : s.Accounted on) {e : Event} (hloses : ¬ Loses (s.reported on) s e) :
    (s.step e).Accounted on := by
  cases e with
  | send result =>
    rw [MotionData.step]
    split
    · exact h
    · exact h.send result
  | close => exact h
  | nextMotion =>
    rw [MotionData.step]
    split
    · next hcall => exact h.withCall (by rw [hcall]; rfl)
    · exact h
  | tryRecv =>
    rw [MotionData.step]
    split
    · next results hcall => exact h.tryRecv hcall hloses
    · exact h
  | recv =>
    rw [MotionData.step]
    split
    · next hcall => exact h.recv hcall
    · exact h
  | cancel =>
    rw [MotionData.step]
    split
    · next hcall => exact h.withCall (by rw [hcall]; rfl)
    · exact h

/-- If no call drops a change, all is accounted for in every run. -/
theorem accounted_run {events : List Event} (h : Faithful on events) :
    (run events).Accounted on := by
  induction events using List.reverseRecOn with
  | nil => exact ⟨[], rfl, rfl⟩
  | append_singleton events e ih =>
    obtain ⟨hevents, he⟩ := Past.always_concat.1 h
    rw [run_concat]
    exact (ih hevents).step he

/-- When nothing waits, everything sent has been reported. -/
theorem Accounted.reported_eq (h : s.Accounted on) (hs : s.Consumed) :
    s.reported on = motionAfter on s.sent := by
  obtain ⟨consumed, hsent, hconsumed⟩ := h
  have hresults : s.call.results = [] := by
    cases hcall : s.call with
    | draining results => exact absurd hcall (hs.2 results)
    | idle => rfl
    | waiting => rfl
  rw [hresults, hs.1, List.append_nil] at hsent
  rw [hsent, ← hconsumed]
  exact congrArg (motionAfter on) (List.append_nil consumed).symm

/-- A run that drops no change dropped none before. -/
theorem faithful_front {before events : List Event} (h : Faithful on events)
    (hbefore : before <+: events) : Faithful on before := by
  obtain ⟨after, rfl⟩ := hbefore
  exact (Past.always_append.1 h).1

/-- Where no call drops a change, what is reported is what was sent. -/
theorem coalesced_of_faithful {events : List Event} (h : Faithful on events) :
    Coalesced on events :=
  fun _ hbefore => (accounted_run (faithful_front h hbefore)).reported_eq

/-! ## Statuses only -/

/-- The channel stays open, and only statuses are sent. -/
def Event.OfStatus : Event → Prop
  | .send result => ∃ status, result = .ok status
  | .close => False
  | _ => True

/-- Nothing but statuses waits. -/
def OfStatuses (s : MotionData) : Prop :=
  s.closed = false ∧ ∀ result ∈ s.queue, ∃ status, result = .ok status

/-- What is taken is a status, and so is what is left. -/
theorem OfStatuses.tail (h : s.OfStatuses) {result : MotionResult} {queue : List MotionResult}
    (hqueue : s.queue = result :: queue) :
    (∃ status, result = .ok status) ∧ ∀ result ∈ queue, ∃ status, result = .ok status := by
  have hall := h.2
  rw [hqueue] at hall
  exact List.forall_mem_cons.1 hall

theorem OfStatuses.step (h : s.OfStatuses) {e : Event} (he : e.OfStatus) :
    (s.step e).OfStatuses := by
  cases e with
  | send result =>
    rw [MotionData.step]
    split
    · exact h
    · refine ⟨h.1, fun other hother => ?_⟩
      rcases List.mem_append.1 hother with hother | hother
      · exact h.2 other hother
      · rw [List.mem_singleton.1 hother]
        exact he
  | close => exact absurd he id
  | nextMotion =>
    rw [MotionData.step]
    split <;> exact h
  | tryRecv =>
    rw [MotionData.step]
    split
    · rw [MotionData.tryRecv]
      split
      · next hqueue => exact ⟨h.1, (h.tail hqueue).2⟩
      · next hqueue => exact ⟨h.1, (h.tail hqueue).2⟩
      · split
        · exact h
        · split <;> exact h
    · exact h
  | recv =>
    rw [MotionData.step]
    split
    · rw [MotionData.recv]
      split
      · next hqueue => exact ⟨h.1, (h.tail hqueue).2⟩
      · next hqueue => exact ⟨h.1, (h.tail hqueue).2⟩
      · split <;> exact h
    · exact h
  | cancel =>
    rw [MotionData.step]
    split <;> exact h

/-- Where only statuses are sent, only statuses wait. -/
theorem ofStatuses_run {events : List Event} (h : ∀ e ∈ events, e.OfStatus) :
    (run events).OfStatuses := by
  induction events using List.reverseRecOn with
  | nil => exact ⟨rfl, fun _ hmem => absurd hmem List.not_mem_nil⟩
  | append_singleton events e ih =>
    rw [run_concat]
    exact (ih fun e' he' => h e' (List.mem_append_left _ he')).step (h e (by simp))

/-- A call that drops a change leaves nothing to consume, and the change unreported. -/
theorem Loses.not_reported {e : Event} (hloses : Loses (s.reported on) s e)
    (h : s.Accounted on) (hstatuses : s.OfStatuses) :
    (s.step e).Consumed ∧ (s.step e).reported on ≠ motionAfter on (s.step e).sent := by
  cases e with
  | tryRecv =>
    obtain ⟨results, hcall, hlast, hends⟩ := hloses
    obtain ⟨consumed, hsent, hconsumed⟩ := h
    have hstep : s.step .tryRecv = s.tryRecv results := by
      rw [MotionData.step, hcall]
    rw [EndsUnchanged] at hends
    rw [hstep, MotionData.tryRecv]
    split at hends
    · exact absurd hends id
    · next hqueue =>
      obtain ⟨⟨status, hstatus⟩, -⟩ := hstatuses.tail hqueue
      exact nomatch hstatus
    · next hqueue =>
      rw [hstatuses.1, Bool.false_eq_true, false_or] at hends
      obtain ⟨last, hlast', hchange⟩ := hends
      rw [hqueue, hstatuses.1, if_neg Bool.false_ne_true, hlast']
      refine ⟨⟨rfl, fun _ => NextMotion.noConfusion⟩, ?_⟩
      rw [hqueue, hcall] at hsent
      change motionAfter on (statuses (s.returned ++ [.ok last])) ≠ motionAfter on s.sent
      rw [hsent, statuses_append, motionAfter_append, motionAfter_append, motionAfter_append,
        hconsumed, NextMotion.results, motionAfter_eq (s.reported on) results, hlast]
      change last.change.getD (s.reported on) ≠ !(s.reported on)
      rw [hchange]
      exact (Bool.not_ne_self _).symm
  | send _ => exact absurd hloses id
  | close => exact absurd hloses id
  | nextMotion => exact absurd hloses id
  | recv => exact absurd hloses id
  | cancel => exact absurd hloses id

/-- Where only statuses are sent, what is reported is what was sent exactly if no call drops a
    change. -/
theorem coalesced_iff {events : List Event} (h : ∀ e ∈ events, e.OfStatus) :
    Coalesced on events ↔ Faithful on events := by
  refine ⟨fun hcoalesced => ?_, coalesced_of_faithful⟩
  induction events using List.reverseRecOn with
  | nil => exact Past.always_nil
  | append_singleton events e ih =>
    have hevents := fun e' he' => h e' (List.mem_append_left [e] he')
    have hfaithful : Faithful on events := ih hevents fun before hbefore =>
      hcoalesced before (hbefore.trans (List.prefix_append _ _))
    refine Past.always_concat.2 ⟨hfaithful, fun hloses => ?_⟩
    obtain ⟨hconsumed, hne⟩ :=
      hloses.not_reported (accounted_run hfaithful) (ofStatuses_run hevents)
    rw [← run_concat] at hconsumed hne
    exact hne (hcoalesced _ List.prefix_rfl hconsumed)

/-- While the listener is busy the camera sends a burst, of which one call takes all: motion that
    starts, an alarm about another channel, the end of the motion, and motion again. A second call
    waits for the end of that. -/
def drainedBurst : List Event :=
  [.send (.ok (.start 1)), .send (.ok (.noChange 2)), .send (.ok (.stop 3)), .send (.ok (.start 4)),
   .nextMotion, .tryRecv, .tryRecv, .tryRecv, .tryRecv, .tryRecv,
   .nextMotion, .tryRecv, .send (.ok (.stop 5)), .recv]

/-- The burst is reported as its last status, and the end of the motion as such. -/
theorem drainedBurst_coalesced :
    Coalesced false drainedBurst ∧
      (run drainedBurst).returned = [.ok (.start 4), .ok (.stop 5)] := by
  have hstatus : ∀ e ∈ drainedBurst, e.OfStatus := by
    simp [drainedBurst, Event.OfStatus]
  have hfaithful : Faithful false drainedBurst := by
    decide +kernel
  exact ⟨(coalesced_iff hstatus).2 hfaithful, rfl⟩

/-- While the listener is busy, the camera sends an alarm about motion, and then one about another
    channel. -/
def lostStart : List Event :=
  [.send (.ok (motionStatus 0 1 (some [⟨0, "MD", none⟩]))),
   .send (.ok (motionStatus 0 2 (some [⟨1, "MD", none⟩]))),
   .nextMotion, .tryRecv, .tryRecv, .tryRecv]

/-- The motion is not reported. -/
theorem lostStart_not_coalesced : ¬ Coalesced false lostStart := by
  intro h
  have hconsumed : (run lostStart).Consumed := ⟨rfl, fun _ => NextMotion.noConfusion⟩
  have heq := h lostStart List.prefix_rfl hconsumed
  exact absurd heq (by decide)

end MotionData

end Bairelay
