import Bairelay.Lib.Past
import Bairelay.Lib.Slots

/-!
# Status reports and their republication

The status of a camera at the broker (`mqtt_status.rs`, `status_cache.rs`,
`republish_cached_status` in `camera.rs`). A report publishes an event, retained, and then
caches it. When the broker is back, the cache is read and each of its events reported once more.
In between other reports come in, which an event that was read before undoes.

* `upToDate_of_inOrder`: in a run where no event is overtaken on its way to the broker or to the
  cache, both hold the last events reported, once all calls are through;
* `overtaken_not_upToDate`: motion starts while the cache is republished.
-/

namespace Bairelay

/-- The events that are cached. The level of a battery is at most 100 here. -/
inductive CameraEvent where
  | motion (detected : Bool)
  | batteryLevel (percent : UInt8)
  | floodlight (on : Bool)
  | floodlightTasks (enabled : Bool)
  | pir (enabled : Bool)
  deriving DecidableEq, Repr

/-- The kinds of events, each with a topic and a place in the cache of its own. -/
inductive StatusKind where
  | batteryLevel
  | motion
  | floodlight
  | floodlightTasks
  | pir
  deriving DecidableEq, Repr

/-- The slot of an event in the cache. -/
def CameraEvent.kind : CameraEvent → StatusKind
  | .motion _ => .motion
  | .batteryLevel _ => .batteryLevel
  | .floodlight _ => .floodlight
  | .floodlightTasks _ => .floodlightTasks
  | .pir _ => .pir

/-- The order in which the cache is read. -/
def StatusKind.all : List StatusKind :=
  [.batteryLevel, .motion, .floodlight, .floodlightTasks, .pir]

/-- One slot for each kind, with the event put into its own. -/
def CameraEvent.put (event : CameraEvent) (slots : StatusKind → Option CameraEvent) :
    StatusKind → Option CameraEvent :=
  fun kind => if kind = event.kind then some event else slots kind

theorem CameraEvent.put_self (event : CameraEvent) (slots : StatusKind → Option CameraEvent) :
    event.put slots event.kind = some event := if_pos rfl

theorem CameraEvent.put_of_ne {event : CameraEvent} {kind : StatusKind} (h : kind ≠ event.kind)
    (slots : StatusKind → Option CameraEvent) : event.put slots kind = slots kind := if_neg h

/-- A call of `report` or of `republish_cached_status`. -/
inductive StatusCall where
  | publishing (event : CameraEvent)
  | caching (event : CameraEvent)
  /-- The cache is read, kind by kind. -/
  | reading (left : List StatusKind) (cached : List CameraEvent)
  | republishing (events : List CameraEvent)
  | recaching (event : CameraEvent) (events : List CameraEvent)
  | finished
  deriving DecidableEq, Repr

/-- The status of a camera, at the broker and here. -/
structure CameraStatus where
  retained : StatusKind → Option CameraEvent := fun _ => none
  cache : StatusKind → Option CameraEvent := fun _ => none
  calls : List StatusCall := []
  /-- The last event of each kind that was published by a call of `report`. -/
  reported : StatusKind → Option CameraEvent := fun _ => none

namespace CameraStatus

/-- One call goes on. -/
def setCall (s : CameraStatus) (i : ℕ) (call : StatusCall) : CameraStatus :=
  { s with calls := s.calls.set i call }

/-- The value comes to the broker. -/
def retain (s : CameraStatus) (event : CameraEvent) : CameraStatus :=
  { s with retained := event.put s.retained }

/-- The cache has the newest report of each kind. -/
def setCache (s : CameraStatus) (event : CameraEvent) : CameraStatus :=
  { s with cache := event.put s.cache }

/-- A step of a call; `ok` says whether the broker takes what is published. -/
def stepCall (s : CameraStatus) (i : ℕ) (ok : Bool) : CameraStatus :=
  match s.calls[i]? with
  | some (.publishing event) =>
    if ok then
      { (s.retain event).setCall i (.caching event) with
        reported := event.put s.reported }
    else s.setCall i .finished
  | some (.caching event) => (s.setCache event).setCall i .finished
  | some (.reading (kind :: left) cached) =>
    s.setCall i (.reading left (cached ++ (s.cache kind).toList))
  | some (.reading [] cached) => s.setCall i (.republishing cached)
  | some (.republishing []) => s.setCall i .finished
  | some (.republishing (event :: events)) =>
    if ok then (s.retain event).setCall i (.recaching event events)
    else s.setCall i .finished
  | some (.recaching event events) => (s.setCache event).setCall i (.republishing events)
  | some .finished | none => s

/-- Reports and republications begin, and their calls go on in any order. -/
inductive Event where
  | report (event : CameraEvent)
  | republish
  | call (i : ℕ) (ok : Bool)

/-- A step. Calls begin while others are under way. -/
def step (s : CameraStatus) : Event → CameraStatus
  | .report event => { s with calls := s.calls ++ [.publishing event] }
  | .republish => { s with calls := s.calls ++ [.reading StatusKind.all []] }
  | .call i ok => s.stepCall i ok

/-- The status after some steps. -/
def run (events : List Event) : CameraStatus := events.foldl step {}

theorem run_concat (events : List Event) (e : Event) :
    run (events ++ [e]) = (run events).step e := by
  rw [run, List.foldl_concat, ← run]

/-! ## Overtaking -/

end CameraStatus

/-- The events that a call has read and not published yet. -/
def StatusCall.held : StatusCall → List CameraEvent
  | .reading _ events | .republishing events | .recaching _ events => events
  | .publishing _ | .caching _ | .finished => []

/-- The event that a call has published and not cached yet. -/
def StatusCall.toCache : StatusCall → Option CameraEvent
  | .caching event | .recaching event _ => some event
  | .publishing _ | .reading .. | .republishing _ | .finished => none

namespace CameraStatus

/-- Both the broker and the cache hold the last events reported. -/
def UpToDate (s : CameraStatus) : Prop := s.retained = s.reported ∧ s.cache = s.reported

/-- Some other call is still to cache what the broker holds of the kind. -/
def CachedLater (s : CameraStatus) (i : ℕ) (kind : StatusKind) : Prop :=
  ∃ (j : ℕ) (call : StatusCall) (event : CameraEvent), s.calls[j]? = some call ∧
    call.toCache = some event ∧ j ≠ i ∧ event.kind = kind ∧ s.retained kind = some event

/-- A step overtakes no event: an event is not published by a report while another one of its kind
    has been read and is still to be republished; the cache is not read while it is behind the
    broker; and the event that is at the broker is cached last. -/
def InOrder (s : CameraStatus) : Event → Prop
  | .call i ok =>
    match s.calls[i]? with
    | some (.publishing event) =>
      ok → ∀ call ∈ s.calls, ∀ event' ∈ call.held, event'.kind = event.kind → event' = event
    | some (.reading (kind :: _) _) => s.cache kind = none ∨ s.cache kind = s.retained kind
    | some (.caching event) | some (.recaching event _) =>
      s.retained event.kind = some event ∨ s.CachedLater i event.kind
    | _ => True
  | _ => True

instance decidableCachedLater (s : CameraStatus) (i : ℕ) (kind : StatusKind) :
    Decidable (s.CachedLater i kind) :=
  decidable_of_iff
    (∃ j ∈ List.range s.calls.length, ∃ call ∈ s.calls[j]?, ∃ event ∈ call.toCache,
      j ≠ i ∧ event.kind = kind ∧ s.retained kind = some event) <| by
    constructor
    · rintro ⟨j, -, call, hcall, event, hevent, h⟩
      exact ⟨j, call, event, hcall, hevent, h⟩
    · rintro ⟨j, call, event, hcall, hevent, h⟩
      exact ⟨j, List.mem_range.2 (List.getElem?_eq_some_iff.1 hcall).1, call, hcall, event, hevent,
        h⟩

instance decidableInOrder (s : CameraStatus) : DecidablePred s.InOrder := by
  intro e
  unfold InOrder
  split
  · split <;> infer_instance
  · infer_instance

/-- What is kept along a run in which no event is overtaken. -/
structure Consistent (s : CameraStatus) : Prop where
  retained : s.retained = s.reported
  held : ∀ call ∈ s.calls, ∀ event ∈ call.held, s.reported event.kind = some event
  /-- The cache is as new as the broker, or will be. -/
  cached : ∀ kind, s.cache kind = s.reported kind ∨
    ∃ (j : ℕ) (call : StatusCall) (event : CameraEvent), s.calls[j]? = some call ∧
      call.toCache = some event ∧ event.kind = kind ∧ s.reported kind = some event
  kinds : ∀ kind event, s.cache kind = some event → event.kind = kind

variable {s : CameraStatus}

/-- At the start nothing is cached and nothing published. -/
theorem consistent_new : Consistent {} where
  retained := rfl
  held := by simp
  cached _ := .inl rfl
  kinds _ _ h := by cases h

/-- A call comes in, without an event of its own to republish. -/
theorem Consistent.concat (hcons : s.Consistent) {call : StatusCall} (hheld : call.held = []) :
    Consistent { s with calls := s.calls ++ [call] } where
  retained := hcons.retained
  held := by
    refine List.forall_mem_append.2 ⟨hcons.held, List.forall_mem_singleton.2 ?_⟩
    rw [hheld]
    exact fun _ h => absurd h List.not_mem_nil
  cached kind := by
    refine (hcons.cached kind).imp_right ?_
    rintro ⟨j, call', event, hcall', hevent⟩
    exact ⟨j, call', event, Slots.concat_of_some hcall', hevent⟩
  kinds := hcons.kinds

/-- A call that has nothing to cache goes on, with events that are up to date. -/
theorem Consistent.setCall (hcons : s.Consistent) {i : ℕ} {old call : StatusCall}
    (hold : s.calls[i]? = some old) (hcache : old.toCache = none)
    (hheld : ∀ event ∈ call.held, s.reported event.kind = some event) :
    (s.setCall i call).Consistent where
  retained := hcons.retained
  held call' hmem := by
    rcases List.mem_or_eq_of_mem_set hmem with hmem | rfl
    · exact hcons.held call' hmem
    · exact hheld
  cached kind := by
    refine (hcons.cached kind).imp_right ?_
    rintro ⟨j, call', event, hcall', hevent, hkind⟩
    have hne : call' ≠ old := by
      rintro rfl
      rw [hcache] at hevent
      cases hevent
    exact ⟨j, call', event, Slots.set_of_ne hold hcall' hne, hevent, hkind⟩
  kinds := hcons.kinds

/-- An event is published by a report, and no other event of the kind is held. -/
theorem Consistent.publish (hcons : s.Consistent) {i : ℕ} {event : CameraEvent}
    (hold : s.calls[i]? = some (.publishing event))
    (horder : ∀ call ∈ s.calls, ∀ event' ∈ call.held, event'.kind = event.kind → event' = event) :
    Consistent { (s.retain event).setCall i (.caching event) with
      reported := event.put s.reported } where
  retained := congrArg event.put hcons.retained
  held call hmem event' hevent' := by
    rcases List.mem_or_eq_of_mem_set hmem with hmem | rfl
    · by_cases hkind : event'.kind = event.kind
      · obtain rfl := horder call hmem event' hevent' hkind
        exact CameraEvent.put_self ..
      · exact (CameraEvent.put_of_ne hkind _).trans (hcons.held call hmem event' hevent')
    · cases hevent'
  cached kind := by
    by_cases hkind : kind = event.kind
    · subst hkind
      refine .inr ⟨i, .caching event, event, ?_, rfl, rfl, CameraEvent.put_self ..⟩
      exact List.getElem?_set_self (List.getElem?_eq_some_iff.1 hold).1
    · have hsame : event.put s.reported kind = s.reported kind :=
        CameraEvent.put_of_ne hkind _
      refine (hcons.cached kind).imp (·.trans hsame.symm) ?_
      rintro ⟨j, call', event', hcall', hevent', hkind', hreported⟩
      have hne : call' ≠ .publishing event := by
        rintro rfl
        cases hevent'
      exact ⟨j, call', event', Slots.set_of_ne hold hcall' hne, hevent', hkind',
        hsame.trans hreported⟩
  kinds := hcons.kinds

/-- An event that is up to date is republished. -/
theorem Consistent.retain (hcons : s.Consistent) {event : CameraEvent}
    (hreported : s.reported event.kind = some event) : (s.retain event).Consistent where
  retained := by
    funext kind
    by_cases hkind : kind = event.kind
    · subst hkind
      exact (CameraEvent.put_self ..).trans hreported.symm
    · exact (CameraEvent.put_of_ne hkind _).trans (congrFun hcons.retained kind)
  held := hcons.held
  cached := hcons.cached
  kinds := hcons.kinds

/-- A call caches its event: the one that is at the broker, or that one is still to come. -/
theorem Consistent.setCache (hcons : s.Consistent) {i : ℕ} {old call : StatusCall}
    {event : CameraEvent} (hold : s.calls[i]? = some old) (hcache : old.toCache = some event)
    (hheld : call.held ⊆ old.held)
    (horder : s.retained event.kind = some event ∨ s.CachedLater i event.kind) :
    ((s.setCache event).setCall i call).Consistent where
  retained := hcons.retained
  held call' hmem := by
    rcases List.mem_or_eq_of_mem_set hmem with hmem | rfl
    · exact hcons.held call' hmem
    · exact fun event' hevent' => hcons.held old (List.mem_of_getElem? hold) event' (hheld hevent')
  cached kind := by
    by_cases hkind : kind = event.kind
    · subst hkind
      rcases horder with hnewest | ⟨j, call', event', hcall', hevent', hne, hkind', hretained⟩
      · refine .inl ((CameraEvent.put_self ..).trans ?_)
        rw [← hnewest, hcons.retained]
        rfl
      · refine .inr ⟨j, call', event', (List.getElem?_set_ne hne.symm).trans hcall', hevent',
          hkind', ?_⟩
        rw [← hretained, hcons.retained]
        rfl
    · refine (hcons.cached kind).imp (CameraEvent.put_of_ne hkind _).trans ?_
      rintro ⟨j, call', event', hcall', hevent', hkind', hreported⟩
      have hne : call' ≠ old := by
        rintro rfl
        rw [hcache] at hevent'
        cases hevent'
        exact hkind hkind'.symm
      exact ⟨j, call', event', Slots.set_of_ne hold hcall' hne, hevent', hkind', hreported⟩
  kinds kind event' hcached := by
    by_cases hkind : kind = event.kind
    · subst hkind
      have hself : some event = some event' := (CameraEvent.put_self ..).symm.trans hcached
      rw [Option.some.inj hself]
    · exact hcons.kinds kind event' ((CameraEvent.put_of_ne hkind _).symm.trans hcached)

/-- A step of a call, if no newer report is published before an older one. -/
theorem Consistent.stepCall (hcons : s.Consistent) {i : ℕ} {ok : Bool}
    (horder : s.InOrder (.call i ok)) : (s.stepCall i ok).Consistent := by
  unfold CameraStatus.stepCall
  unfold InOrder at horder
  split
  · next event hold =>
    simp only [hold] at horder
    split
    · next hok => exact hcons.publish hold (horder hok)
    · exact hcons.setCall hold rfl fun _ h => absurd h List.not_mem_nil
  · next event hold =>
    simp only [hold] at horder
    exact hcons.setCache hold rfl (List.Subset.refl _) horder
  · next kind left cached hold =>
    simp only [hold] at horder
    refine hcons.setCall hold rfl fun event hevent => ?_
    rcases List.mem_append.1 hevent with hevent | hevent
    · exact hcons.held _ (List.mem_of_getElem? hold) event hevent
    · have hcached := Option.mem_toList.1 hevent
      obtain rfl := hcons.kinds kind event hcached
      rcases horder with hnone | hnew
      · rw [hnone] at hcached
        cases hcached
      · rw [← hcons.retained, ← hnew]
        exact hcached
  · next cached hold =>
    exact hcons.setCall hold rfl (hcons.held (.reading [] cached) (List.mem_of_getElem? hold))
  · next hold => exact hcons.setCall hold rfl fun _ h => absurd h List.not_mem_nil
  · next event events hold =>
    split
    · have hheld := hcons.held _ (List.mem_of_getElem? hold)
      have hretain := hcons.retain (hheld event List.mem_cons_self)
      exact hretain.setCall hold rfl fun event' h => hheld event' (List.mem_cons_of_mem _ h)
    · exact hcons.setCall hold rfl fun _ h => absurd h List.not_mem_nil
  · next event events hold =>
    simp only [hold] at horder
    exact hcons.setCache hold rfl (List.Subset.refl _) horder
  · exact hcons
  · exact hcons

/-! ## Runs -/

/-- One step in order keeps what is shown and what is cached in step. -/
theorem Consistent.step (hcons : s.Consistent) {e : Event} (horder : s.InOrder e) :
    (s.step e).Consistent := by
  cases e with
  | report event => exact hcons.concat rfl
  | republish => exact hcons.concat rfl
  | call i ok => exact hcons.stepCall horder

/-- A run in which no event is overtaken. -/
def AllInOrder (events : List Event) : Prop :=
  Past.Always (fun before e => (run before).InOrder e) events

instance decidableAllInOrder : DecidablePred AllInOrder := fun events =>
  Past.decidableAlways events

/-- If all steps are in order, it is so in every run. -/
theorem consistent_run {events : List Event} (horder : AllInOrder events) :
    (run events).Consistent := by
  induction events using List.reverseRecOn with
  | nil => exact consistent_new
  | append_singleton events e ih =>
    obtain ⟨hbefore, he⟩ := Past.always_concat.1 horder
    rw [run_concat]
    exact (ih hbefore).step he

/-- When all calls are through, the broker and the cache hold the last events reported, unless
    some event was overtaken. -/
theorem upToDate_of_inOrder {events : List Event} (horder : AllInOrder events)
    (hfinished : ∀ call ∈ (run events).calls, call = .finished) : (run events).UpToDate := by
  have hcons := consistent_run horder
  refine ⟨hcons.retained, funext fun kind => ?_⟩
  rcases hcons.cached kind with hcached | ⟨j, call, event, hcall, hevent, -⟩
  · exact hcached
  · rw [hfinished call (List.mem_of_getElem? hcall)] at hevent
    cases hevent

/-- No motion is reported, and then the cache is read to be republished. -/
def republishRead : List Event :=
  [.report (.motion false), .call 0 true, .call 0 true, .republish] ++
    List.replicate 6 (.call 1 true)

/-- What was read is published and cached once more. -/
def republishWritten : List Event := List.replicate 3 (.call 1 true)

/-- Motion is reported. -/
def motionStarts : List Event := [.report (.motion true), .call 2 true, .call 2 true]

theorem upToDate_of_inOrder_motionStarts :
    (run (republishRead ++ republishWritten ++ motionStarts)).reported .motion =
        some (.motion true) ∧
      (run (republishRead ++ republishWritten ++ motionStarts)).UpToDate :=
  ⟨by decide +kernel, upToDate_of_inOrder (by decide +kernel) (by decide +kernel)⟩

/-- All calls are through, and the last report was that there is motion, but neither the broker
    nor the cache says so. -/
theorem overtaken_not_upToDate :
    (∀ call ∈ (run (republishRead ++ motionStarts ++ republishWritten)).calls, call = .finished) ∧
      (run (republishRead ++ motionStarts ++ republishWritten)).reported .motion =
        some (.motion true) ∧
      (run (republishRead ++ motionStarts ++ republishWritten)).retained .motion =
        some (.motion false) ∧
      (run (republishRead ++ motionStarts ++ republishWritten)).cache .motion =
        some (.motion false) ∧
      ¬(run (republishRead ++ motionStarts ++ republishWritten)).UpToDate := by
  refine ⟨by decide +kernel, by decide +kernel, by decide +kernel, by decide +kernel, fun h => ?_⟩
  exact absurd (congrFun h.1 .motion) (by decide +kernel)

end CameraStatus

end Bairelay
