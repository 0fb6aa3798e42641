import Bairelay.Camera.Handle
import Bairelay.Lib.Past
import Bairelay.Lib.Slots

/-!
# The end of a session

When a session is torn down, its sources are to be gone: none is left in the registry, and
none is still read (`Separated`), so that the next session has sources of its own.

The teardown empties the registry and waits for the readers. But the state of the camera is
`Connected` until its very end, and the lock under which sources are made is not taken. So a
caller that finds the registry empty makes a new source on the old connection, and nobody
stops it.

* `separated_of_timely`: in a run where each source is registered before the registry of its
  session is emptied, and the readers that are not waited for end in time, the sessions are
  separated;
* `lateSource_not_separated`: a source made while the camera logs out stays, and the next
  session hands it out.
-/

namespace Bairelay

/-- Whether a caller is about to put a source it has started into the registry. -/
def Caller.isInserting : Caller → Bool
  | .inserting .. => true
  | _ => false

/-- Whether a caller holds the lock. -/
def Caller.holdsLock : Caller → Bool
  | .locked _ | .missing _ | .admitted _ | .starting .. | .inserting .. => true
  | _ => false

/-- The stream that a caller makes a source for, where it was not in the registry. -/
def Caller.makes? : Caller → Option StreamKind
  | .missing kind | .admitted kind | .starting kind _ | .inserting kind _ => some kind
  | _ => none

theorem Caller.holdsLock_of_makes {caller : Caller} {kind : StreamKind}
    (h : caller.makes? = some kind) : caller.holdsLock = true := by
  cases caller <;> first | rfl | cases h

/-- Whether a session goes on. -/
def CameraTask.inSession : CameraTask → Bool
  | .connected | .serving | .draining false | .stopping false _ _ | .loggingOut | .loggedOut => true
  | .idle | .connecting | .draining true | .stopping true _ _ | .exited => false

/-- The sources that are still to be stopped. -/
def CameraTask.left : CameraTask → List ℕ
  | .stopping _ left _ => left
  | _ => []

/-- Whether the registry of the session was emptied. -/
def CameraTask.emptied : CameraTask → Bool
  | .stopping false _ _ | .loggingOut | .loggedOut => true
  | _ => false

namespace CameraHandle

/-- The sessions before this one are over, or their registry is emptied. -/
def drained (h : CameraHandle) : ℕ := h.tornDown + if h.task.emptied then 1 else 0

/-- What is to hold of the sessions that were torn down. -/
structure Separated (h : CameraHandle) : Prop where
  registered : ∀ entry ∈ h.streamSources, ∀ s ∈ h.sources[entry.2]?, h.tornDown ≤ s.session
  reading : ∀ s ∈ h.sources, s.reading → h.tornDown ≤ s.session
  handedOut : ∀ handed ∈ h.handedOut, ∀ s ∈ h.sources[handed.1]?, handed.2 ≤ s.session

/-- A step that is made in time: a source is started before the registry of its session is
    emptied, and put into it as well; and when the session is over, so are the readers of its
    sources that nobody has waited for. -/
def Timely (h : CameraHandle) : Event → Prop
  | .caller i _ =>
    match h.callers[i]? with
    | some (.starting _ session) => h.drained ≤ session
    | _ => True
  | .task .drain => ∀ caller ∈ h.callers, caller.isInserting = false
  | .task .disconnect => ∀ s ∈ h.sources, s.session = h.tornDown → s.released → s.reading = false
  | _ => True

instance decidableTimely (h : CameraHandle) : DecidablePred h.Timely := by
  intro e
  unfold Timely
  split
  · split <;> infer_instance
  all_goals infer_instance

/-- What is kept along a run of such steps. -/
structure Kept (h : CameraHandle) : Prop where
  sessions : h.sessions = h.tornDown + if h.task.inSession then 1 else 0
  slot : ∀ session ∈ h.camera, session < h.sessions
  started : ∀ s ∈ h.sources, s.session < h.sessions
  starting : ∀ (i : ℕ) (kind : StreamKind) (session : ℕ),
    h.callers[i]? = some (.starting kind session) → session < h.sessions
  inserting : ∀ (i : ℕ) (kind : StreamKind) (j : ℕ), h.callers[i]? = some (.inserting kind j) →
    ∃ s : SourceTask, h.sources[j]? = some s ∧ h.drained ≤ s.session
  lock : ∀ (i : ℕ) (caller : Caller), h.callers[i]? = some caller → caller.holdsLock →
    h.streamSourceCreateLock = some i
  missing : ∀ (i : ℕ) (caller : Caller) (kind : StreamKind), h.callers[i]? = some caller →
    caller.makes? = some kind → ∀ j, (kind, j) ∉ h.streamSources
  registered : ∀ entry ∈ h.streamSources,
    ∃ s : SourceTask, h.sources[entry.2]? = some s ∧ h.drained ≤ s.session
  /-- A source that is read can be found by the teardown, unless it was let go. -/
  reading : ∀ (j : ℕ) (s : SourceTask), h.sources[j]? = some s → s.reading →
    s.released ∨ j ∈ h.task.left ∨ (∃ entry ∈ h.streamSources, entry.2 = j) ∨
      ∃ (i : ℕ) (kind : StreamKind), h.callers[i]? = some (.inserting kind j)
  tornDown : ∀ s ∈ h.sources, s.session < h.tornDown → s.reading = false
  handedOut : ∀ handed ∈ h.handedOut,
    ∃ s : SourceTask, h.sources[handed.1]? = some s ∧ handed.2 ≤ s.session

variable {h : CameraHandle}

theorem tornDown_le_drained (h : CameraHandle) : h.tornDown ≤ h.drained := Nat.le_add_right _ _

/-- At the start there is no session and no source. -/
theorem kept_new : Kept {} where
  sessions := rfl
  slot := by simp
  started := by simp
  starting := by simp
  inserting := by simp
  lock := by simp
  missing := by simp
  registered := by simp
  reading := by simp
  tornDown := by simp
  handedOut := by simp

/-- Sources of one session are never read while the next one is connected. -/
theorem Kept.separated (hkept : h.Kept) : h.Separated where
  registered entry hentry s hs := by
    obtain ⟨s', hs', hle⟩ := hkept.registered entry hentry
    obtain rfl := Option.some.inj (hs.symm.trans hs')
    exact h.tornDown_le_drained.trans hle
  reading s hs hreading := by
    by_contra hlt
    rw [hkept.tornDown s hs (not_le.1 hlt)] at hreading
    cases hreading
  handedOut handed hhanded s hs := by
    obtain ⟨s', hs', hle⟩ := hkept.handedOut handed hhanded
    obtain rfl := Option.some.inj (hs.symm.trans hs')
    exact hle

/-! ## Sources that change -/

/-- Sources keep their session; a reader does not start again, and what was let go is let go. -/
theorem Kept.sources (hkept : h.Kept) {sources : List SourceTask} {f : ℕ → SourceTask → SourceTask}
    (hget : ∀ j, sources[j]? = h.sources[j]?.map (f j))
    (hf : ∀ j s, (f j s).session = s.session ∧ ((f j s).reading → s.reading) ∧
      (s.released → (f j s).released)) : Kept { h with sources } := by
  have hsome : ∀ {j : ℕ} {s : SourceTask}, h.sources[j]? = some s → sources[j]? = some (f j s) := by
    intro j s hs
    rw [hget, hs, Option.map_some]
  have hmem : ∀ s' ∈ sources, ∃ j, ∃ s ∈ h.sources, h.sources[j]? = some s ∧ s' = f j s := by
    intro s' hs'
    obtain ⟨j, hj⟩ := List.mem_iff_getElem?.1 hs'
    rw [hget, Option.map_eq_some_iff] at hj
    obtain ⟨s, hs, rfl⟩ := hj
    exact ⟨j, s, List.mem_of_getElem? hs, hs, rfl⟩
  have hle : ∀ {j n : ℕ}, (∃ s : SourceTask, h.sources[j]? = some s ∧ n ≤ s.session) →
      ∃ s : SourceTask, sources[j]? = some s ∧ n ≤ s.session := by
    rintro j n ⟨s, hs, hle⟩
    exact ⟨f j s, hsome hs, (hf j s).1 ▸ hle⟩
  constructor
  case sessions => exact hkept.sessions
  case slot => exact hkept.slot
  case started =>
    intro s' hs'
    obtain ⟨j, s, hs, -, rfl⟩ := hmem s' hs'
    rw [(hf j s).1]
    exact hkept.started s hs
  case starting => exact hkept.starting
  case inserting => exact fun i kind j hi => hle (hkept.inserting i kind j hi)
  case lock => exact hkept.lock
  case missing => exact hkept.missing
  case registered => exact fun entry hentry => hle (hkept.registered entry hentry)
  case reading =>
    intro j s' hs' hreading
    rw [hget, Option.map_eq_some_iff] at hs'
    obtain ⟨s, hs, rfl⟩ := hs'
    exact (hkept.reading j s hs ((hf j s).2.1 hreading)).imp_left (hf j s).2.2
  case tornDown =>
    intro s' hs' hlt
    obtain ⟨j, s, hs, -, rfl⟩ := hmem s' hs'
    rw [(hf j s).1] at hlt
    have hold := hkept.tornDown s hs hlt
    cases hreading : (f j s).reading with
    | false => rfl
    | true =>
      rw [(hf j s).2.1 hreading] at hold
      cases hold
  case handedOut => exact fun handed hhanded => hle (hkept.handedOut handed hhanded)

/-- A source may end, and let go of its camera, at any time. -/
theorem Kept.modifySource (hkept : h.Kept) (source : ℕ) {f : SourceTask → SourceTask}
    (hf : ∀ s, (f s).session = s.session ∧ ((f s).reading → s.reading) ∧
      (s.released → (f s).released)) : (h.modifySource source f).Kept := by
  refine @Kept.sources h hkept _ (fun j s => if source = j then f s else s)
    (fun j => List.getElem?_modify ..) fun j s => ?_
  split
  · exact hf s
  · exact ⟨rfl, id, id⟩

/-- Sources are taken out of the registry, and let go. -/
theorem Kept.unregister (hkept : h.Kept) {streamSources : List (StreamKind × ℕ)}
    (hsub : streamSources ⊆ h.streamSources)
    (hreleased : ∀ entry ∈ h.streamSources, entry ∉ streamSources →
      ∀ s ∈ h.sources[entry.2]?, s.released) : Kept { h with streamSources } where
  sessions := hkept.sessions
  slot := hkept.slot
  started := hkept.started
  starting := hkept.starting
  inserting := hkept.inserting
  lock := hkept.lock
  missing i caller kind hi hmakes j hj := hkept.missing i caller kind hi hmakes j (hsub hj)
  registered entry hentry := hkept.registered entry (hsub hentry)
  reading j s hs hreading := by
    rcases hkept.reading j s hs hreading with hrel | hleft | ⟨entry, hentry, rfl⟩ | hinserting
    · exact .inl hrel
    · exact .inr (.inl hleft)
    · by_cases hstays : entry ∈ streamSources
      · exact .inr (.inr (.inl ⟨entry, hstays, rfl⟩))
      · exact .inl (hreleased entry hentry hstays s hs)
    · exact .inr (.inr (.inr hinserting))
  tornDown := hkept.tornDown
  handedOut := hkept.handedOut

/-! ## Callers that go on -/

/-- A caller goes on, with the lock taken or given back, and perhaps with a source, but it makes
    none. -/
theorem Kept.caller (hkept : h.Kept) {i : ℕ} {caller : Caller} {lock : Option ℕ}
    {handedOut : List (ℕ × ℕ)}
    (hold : ∀ (kind : StreamKind) (j : ℕ), h.callers[i]? ≠ some (.inserting kind j))
    (hinserting : caller.isInserting = false)
    (hstarting : ∀ kind session, caller = .starting kind session → session < h.sessions)
    (hlock : caller.holdsLock → lock = some i)
    (hothers : ∀ k ≠ i, h.streamSourceCreateLock = some k → lock = some k)
    (hmakes : ∀ kind, caller.makes? = some kind → ∀ j, (kind, j) ∉ h.streamSources)
    (hhandedOut : ∀ handed ∈ handedOut,
      ∃ s : SourceTask, h.sources[handed.1]? = some s ∧ handed.2 ≤ s.session) :
    Kept { h.setCaller i caller with streamSourceCreateLock := lock, handedOut } where
  sessions := hkept.sessions
  slot := hkept.slot
  started := hkept.started
  starting k kind session hk := by
    rcases Slots.set_cases hk with ⟨-, heq⟩ | ⟨-, hk⟩
    · exact hstarting kind session heq.symm
    · exact hkept.starting k kind session hk
  inserting k kind j hk := by
    rcases Slots.set_cases hk with ⟨-, rfl⟩ | ⟨-, hk⟩
    · cases hinserting
    · exact hkept.inserting k kind j hk
  lock k caller' hk hholds := by
    rcases Slots.set_cases hk with ⟨rfl, rfl⟩ | ⟨hne, hk⟩
    · exact hlock hholds
    · exact hothers k hne (hkept.lock k caller' hk hholds)
  missing k caller' kind hk hkind := by
    rcases Slots.set_cases hk with ⟨-, rfl⟩ | ⟨-, hk⟩
    · exact hmakes kind hkind
    · exact hkept.missing k caller' kind hk hkind
  registered := hkept.registered
  reading j s hs hreading := by
    refine (hkept.reading j s hs hreading).imp_right (Or.imp_right (Or.imp_right ?_))
    rintro ⟨k, kind, hk⟩
    have hne : i ≠ k := by
      rintro rfl
      exact hold kind j hk
    exact ⟨k, kind, (List.getElem?_set_ne hne).trans hk⟩
  tornDown := hkept.tornDown
  handedOut := hhandedOut

/-- The source of a stream that is in the registry is handed out. -/
theorem Kept.handedOut_concat (hkept : h.Kept) {kind : StreamKind} {source : ℕ}
    (hsource : h.source? kind = some source) :
    ∀ handed ∈ h.handedOut ++ [(source, h.tornDown)],
      ∃ s : SourceTask, h.sources[handed.1]? = some s ∧ handed.2 ≤ s.session := by
  refine List.forall_mem_append.2 ⟨hkept.handedOut, List.forall_mem_singleton.2 ?_⟩
  rw [source?, Option.map_eq_some_iff] at hsource
  obtain ⟨entry, hfind, rfl⟩ := hsource
  obtain ⟨s, hs, hle⟩ := hkept.registered entry (List.mem_of_find?_eq_some hfind)
  exact ⟨s, hs, h.tornDown_le_drained.trans hle⟩

/-- A stream without a source is not in the map. -/
theorem not_mem_of_source? {kind : StreamKind} (hnone : h.source? kind = none) (j : ℕ) :
    (kind, j) ∉ h.streamSources := by
  rw [source?, Option.map_eq_none_iff, List.find?_eq_none] at hnone
  intro hmem
  exact hnone (kind, j) hmem (decide_eq_true rfl)

/-- A caller starts a source, on a connection whose registry is not emptied yet. -/
theorem Kept.start (hkept : h.Kept) {i : ℕ} {kind : StreamKind} {session : ℕ}
    (hcaller : h.callers[i]? = some (.starting kind session)) (hdrained : h.drained ≤ session) :
    Kept { h.setCaller i (.inserting kind h.sources.length) with
      sources := h.sources ++ [{ kind, session }] } := by
  have hsession := hkept.starting i kind session hcaller
  have hkeep : ∀ {j n : ℕ}, (∃ s : SourceTask, h.sources[j]? = some s ∧ n ≤ s.session) →
      ∃ s : SourceTask, (h.sources ++ [{ kind := kind, session := session }])[j]? = some s ∧
        n ≤ s.session := by
    rintro j n ⟨s, hs, hle⟩
    exact ⟨s, Slots.concat_of_some hs, hle⟩
  constructor
  case sessions => exact hkept.sessions
  case slot => exact hkept.slot
  case started =>
    exact List.forall_mem_append.2 ⟨hkept.started, List.forall_mem_singleton.2 hsession⟩
  case starting =>
    intro k kind' session' hk
    rcases Slots.set_cases hk with ⟨-, heq⟩ | ⟨-, hk⟩
    · cases heq
    · exact hkept.starting k kind' session' hk
  case inserting =>
    intro k kind' j hk
    rcases Slots.set_cases hk with ⟨-, heq⟩ | ⟨-, hk⟩
    · cases heq
      exact ⟨_, List.getElem?_concat_length, hdrained⟩
    · exact hkeep (hkept.inserting k kind' j hk)
  case lock =>
    intro k caller hk hholds
    rcases Slots.set_cases hk with ⟨rfl, -⟩ | ⟨-, hk⟩
    · exact hkept.lock k _ hcaller rfl
    · exact hkept.lock k caller hk hholds
  case missing =>
    intro k caller kind' hk hmakes
    rcases Slots.set_cases hk with ⟨rfl, rfl⟩ | ⟨-, hk⟩
    · exact hkept.missing k _ kind' hcaller hmakes
    · exact hkept.missing k caller kind' hk hmakes
  case registered => exact fun entry hentry => hkeep (hkept.registered entry hentry)
  case reading =>
    intro j s hs hreading
    have hlt := (List.getElem?_eq_some_iff.1 hs).1
    rw [List.length_append, List.length_singleton] at hlt
    rcases Nat.lt_succ_iff_lt_or_eq.1 hlt with hlt | rfl
    · rw [List.getElem?_append_left hlt] at hs
      refine (hkept.reading j s hs hreading).imp_right (Or.imp_right (Or.imp_right ?_))
      rintro ⟨k, kind', hk⟩
      exact ⟨k, kind', Slots.set_of_ne hcaller hk (by rintro ⟨⟩)⟩
    · -- The new source is the one that the caller is about to insert.
      refine .inr (.inr (.inr ⟨i, kind, ?_⟩))
      exact List.getElem?_set_self (List.getElem?_eq_some_iff.1 hcaller).1
  case tornDown =>
    refine List.forall_mem_append.2 ⟨hkept.tornDown, List.forall_mem_singleton.2 fun hlt => ?_⟩
    exact absurd (h.tornDown_le_drained.trans hdrained) (not_le.2 hlt)
  case handedOut => exact fun handed hhanded => hkeep (hkept.handedOut handed hhanded)

/-- A caller puts its source into the registry. There is none of the stream, as it has held
    the lock since it looked. -/
theorem Kept.insert (hkept : h.Kept) {i : ℕ} {kind : StreamKind} {source : ℕ}
    (hcaller : h.callers[i]? = some (.inserting kind source)) :
    Kept ({ h with
      streamSources := (kind, source) :: h.streamSources.filter (·.1 ≠ kind) }.handOut i
        source).unlock := by
  have hheld := hkept.lock i _ hcaller rfl
  obtain ⟨s₀, hs₀, hle₀⟩ := hkept.inserting i kind source hcaller
  -- While the lock is held nobody else has inserted a source of this kind.
  have hall : h.streamSources.filter (·.1 ≠ kind) = h.streamSources := by
    refine List.filter_eq_self.2 fun entry hentry => decide_eq_true ?_
    rintro rfl
    exact hkept.missing i _ entry.1 hcaller rfl entry.2 hentry
  rw [hall]
  -- Nobody else holds the lock.
  have hother : ∀ {k : ℕ} {caller : Caller}, k ≠ i → h.callers[k]? = some caller →
      caller.holdsLock = false := by
    intro k caller hne hk
    cases hholds : caller.holdsLock with
    | false => rfl
    | true =>
      rw [hkept.lock k caller hk hholds] at hheld
      exact absurd (Option.some.inj hheld) hne
  constructor
  case sessions => exact hkept.sessions
  case slot => exact hkept.slot
  case started => exact hkept.started
  case starting =>
    intro k kind' session hk
    rcases Slots.set_cases hk with ⟨-, heq⟩ | ⟨-, hk⟩
    · cases heq
    · exact hkept.starting k kind' session hk
  case inserting =>
    intro k kind' j hk
    rcases Slots.set_cases hk with ⟨-, heq⟩ | ⟨-, hk⟩
    · cases heq
    · exact hkept.inserting k kind' j hk
  case lock =>
    intro k caller hk hholds
    rcases Slots.set_cases hk with ⟨-, rfl⟩ | ⟨hne, hk⟩
    · cases hholds
    · rw [hother hne hk] at hholds
      cases hholds
  case missing =>
    intro k caller kind' hk hmakes
    rcases Slots.set_cases hk with ⟨-, rfl⟩ | ⟨hne, hk⟩
    · cases hmakes
    · have hholds := hother hne hk
      rw [Caller.holdsLock_of_makes hmakes] at hholds
      cases hholds
  case registered =>
    exact List.forall_mem_cons.2 ⟨⟨s₀, hs₀, hle₀⟩, hkept.registered⟩
  case reading =>
    intro j s hs hreading
    -- A task that reads is in the map, is on its way out, or is about to be inserted.
    rcases hkept.reading j s hs hreading with hrel | hleft | ⟨entry, hentry, rfl⟩ | ⟨k, kind', hk⟩
    · exact .inl hrel
    · exact .inr (.inl hleft)
    · exact .inr (.inr (.inl ⟨entry, List.mem_cons_of_mem _ hentry, rfl⟩))
    · by_cases hki : k = i
      · subst hki
        rw [hcaller] at hk
        cases hk
        exact .inr (.inr (.inl ⟨_, List.mem_cons_self, rfl⟩))
      · exact .inr (.inr (.inr ⟨k, kind', (List.getElem?_set_ne (Ne.symm hki)).trans hk⟩))
  case tornDown => exact hkept.tornDown
  case handedOut =>
    refine List.forall_mem_append.2 ⟨hkept.handedOut, List.forall_mem_singleton.2 ?_⟩
    exact ⟨s₀, hs₀, h.tornDown_le_drained.trans hle₀⟩

/-- Subscribers come and go without a word to the session. -/
theorem Kept.subscribers (hkept : h.Kept) (source : ℕ) (f : ℕ → ℕ) :
    (h.modifySource source fun s => { s with subscribers := f s.subscribers }).Kept :=
  hkept.modifySource source fun _ => ⟨rfl, id, id⟩

/-- A caller that makes no source fails, goes away, or waits, and nobody else loses the lock. -/
theorem Kept.setCaller_free (hkept : h.Kept) {i : ℕ} {old caller : Caller} {lock : Option ℕ}
    {handedOut : List (ℕ × ℕ)} (hold : h.callers[i]? = some old)
    (hinserting : old.isInserting = false) (hholds : caller.holdsLock = false)
    (hlock : ∀ k, k ≠ i → h.streamSourceCreateLock = some k → lock = some k)
    (hhandedOut : ∀ handed ∈ handedOut,
      ∃ s : SourceTask, h.sources[handed.1]? = some s ∧ handed.2 ≤ s.session) :
    Kept { h.setCaller i caller with streamSourceCreateLock := lock, handedOut } := by
  refine @Kept.caller h hkept i caller lock handedOut ?_ ?_ ?_ ?_ hlock ?_ hhandedOut
  · intro kind j hi
    rw [hold] at hi
    cases hi
    cases hinserting
  · cases caller <;> first | rfl | cases hholds
  · rintro kind session rfl
    cases hholds
  · intro hlock
    rw [hholds] at hlock
    cases hlock
  · intro kind hmakes
    rw [Caller.holdsLock_of_makes hmakes] at hholds
    cases hholds

theorem Kept.setCaller (hkept : h.Kept) {i : ℕ} {old caller : Caller}
    (hold : h.callers[i]? = some old) (hinserting : old.isInserting = false)
    (hholds : caller.holdsLock = false) : (h.setCaller i caller).Kept :=
  hkept.setCaller_free hold hinserting hholds (fun _ _ => id) hkept.handedOut

/-- A caller with the lock gives it back. -/
theorem Kept.setCaller_unlock (hkept : h.Kept) {i : ℕ} {old caller : Caller}
    {handedOut : List (ℕ × ℕ)} (hold : h.callers[i]? = some old)
    (hinserting : old.isInserting = false) (hlocked : old.holdsLock)
    (hholds : caller.holdsLock = false)
    (hhandedOut : ∀ handed ∈ handedOut,
      ∃ s : SourceTask, h.sources[handed.1]? = some s ∧ handed.2 ≤ s.session) :
    Kept { h.setCaller i caller with streamSourceCreateLock := none, handedOut } := by
  refine hkept.setCaller_free hold hinserting hholds (fun k hne hk => ?_) hhandedOut
  rw [hkept.lock i old hold hlocked] at hk
  exact absurd (Option.some.inj hk).symm hne

/-- A caller with the lock goes on to make a source, for which the registry has no place taken. -/
theorem Kept.setCaller_locked (hkept : h.Kept) {i : ℕ} {old caller : Caller}
    (hold : h.callers[i]? = some old) (hinserting : old.isInserting = false)
    (hlocked : old.holdsLock) (hinserting' : caller.isInserting = false)
    (hstarting : ∀ kind session, caller = .starting kind session → session < h.sessions)
    (hmakes : ∀ kind, caller.makes? = some kind → ∀ j, (kind, j) ∉ h.streamSources) :
    (h.setCaller i caller).Kept := by
  refine @Kept.caller h hkept i caller h.streamSourceCreateLock h.handedOut ?_ hinserting'
    hstarting (fun _ => hkept.lock i old hold hlocked) (fun _ _ => id) hmakes hkept.handedOut
  intro kind j hi
  rw [hold] at hi
  cases hi
  cases hinserting

/-- A step of a caller, if a source is not put into the map after the sources were taken down. -/
theorem Kept.stepCaller (hkept : h.Kept) (i : ℕ) (late : Bool)
    (htimely : h.Timely (.caller i late)) : (h.stepCaller i late).Kept := by
  -- The caller goes through `stream_source`, one await after another.
  unfold CameraHandle.stepCaller
  split
  · next kind hold =>
    split
    · exact hkept.setCaller hold rfl rfl
    · split
      · exact hkept.setCaller hold rfl rfl
      · split
        · exact hkept.setCaller hold rfl rfl
        · exact hkept
  -- The fast path reads the map without the lock.
  · next kind hold =>
    split
    · next source hsource =>
      refine @Kept.caller h hkept i _ h.streamSourceCreateLock _ ?_ rfl (fun _ _ hc => by cases hc)
        (fun hc => by cases hc) (fun _ _ => id) (fun _ hc => by cases hc)
        (hkept.handedOut_concat hsource)
      intro kind' j hi
      rw [hold] at hi
      cases hi
    · exact hkept.setCaller hold rfl rfl
  -- The lock is taken by one caller at a time.
  · next kind hold =>
    split
    · next hfree =>
      refine @Kept.caller h hkept i _ (some i) h.handedOut ?_ rfl
        (fun _ _ hc => by cases hc) (fun _ => rfl) ?_ (fun _ hc => by cases hc) hkept.handedOut
      · intro kind' j hi
        rw [hold] at hi
        cases hi
      · intro k _ hk
        rw [hfree] at hk
        cases hk
    · exact hkept
  -- With the lock the map is read once more.
  · next kind hold =>
    split
    · next source hsource =>
      exact hkept.setCaller_unlock hold rfl rfl rfl (hkept.handedOut_concat hsource)
    · next hnone =>
      refine hkept.setCaller_locked hold rfl rfl rfl (fun _ _ hc => by cases hc)
        fun kind' hkind => ?_
      cases hkind
      exact not_mem_of_source? hnone
  -- Under the lock the session slot is read before anything is made.
  · next kind hold =>
    split
    · exact hkept.setCaller_unlock hold rfl rfl rfl hkept.handedOut
    · exact hkept.setCaller_locked hold rfl rfl rfl (fun _ _ hc => by cases hc)
        fun kind' => hkept.missing i (.missing kind) kind' hold
  · next kind hold =>
    split
    · exact hkept.setCaller_unlock hold rfl rfl rfl hkept.handedOut
    · next session hslot =>
      refine hkept.setCaller_locked hold rfl rfl rfl ?_ fun kind' =>
        hkept.missing i (.admitted kind) kind' hold
      rintro kind' session' heq
      cases heq
      exact hkept.slot session hslot
  -- Only here can a source be started for a session that is about to end.
  · next kind session hold =>
    rw [Timely, hold] at htimely
    exact hkept.start hold htimely
  · next kind source hold => exact hkept.insert hold
  -- The source is handed out, and the receiver subscribes to it.
  · next source hold =>
    split
    · exact hkept.setCaller hold rfl rfl
    · exact (hkept.subscribers source (· + 1)).setCaller hold rfl rfl
  all_goals exact hkept

theorem Kept.leave (hkept : h.Kept) (i : ℕ) : (h.leave i).Kept := by
  unfold CameraHandle.leave
  split
  · next kind hold => exact hkept.setCaller hold rfl rfl
  · next kind hold => exact hkept.setCaller hold rfl rfl
  · next source hold => exact hkept.setCaller hold rfl rfl
  · next source hold => exact (hkept.subscribers source (· - 1)).setCaller hold rfl rfl
  · exact hkept

theorem Kept.call (hkept : h.Kept) (kind : StreamKind) :
    Kept { h with callers := h.callers ++ [.polling kind] } := by
  constructor
  case sessions => exact hkept.sessions
  case slot => exact hkept.slot
  case started => exact hkept.started
  case starting =>
    intro k kind' session hk
    rcases Slots.concat_cases hk with hk | hk
    · exact hkept.starting k kind' session hk
    · cases hk
  case inserting =>
    intro k kind' j hk
    rcases Slots.concat_cases hk with hk | hk
    · exact hkept.inserting k kind' j hk
    · cases hk
  case lock =>
    intro k caller hk hholds
    rcases Slots.concat_cases hk with hk | rfl
    · exact hkept.lock k caller hk hholds
    · cases hholds
  case missing =>
    intro k caller kind' hk hmakes
    rcases Slots.concat_cases hk with hk | rfl
    · exact hkept.missing k caller kind' hk hmakes
    · cases hmakes
  case registered => exact hkept.registered
  case reading =>
    intro j s hs hreading
    refine (hkept.reading j s hs hreading).imp_right (Or.imp_right (Or.imp_right ?_))
    rintro ⟨k, kind', hk⟩
    exact ⟨k, kind', Slots.concat_of_some hk⟩
  case tornDown => exact hkept.tornDown
  case handedOut => exact hkept.handedOut

/-! ## The watchdog and the readers -/

/-- The sweep only takes sources out of the map. -/
theorem Kept.prune (hkept : h.Kept) (now : Instant) (grace : Duration) :
    (h.pruneIdleStreamSourcesAt now grace).Kept := by
  have hswept : ∀ s : SourceTask, (s.swept now grace).session = s.session ∧
      ((s.swept now grace).reading → s.reading) ∧ (s.released → (s.swept now grace).released) := by
    intro s
    rw [SourceTask.swept]
    split
    · exact ⟨rfl, id, id⟩
    · dsimp only
      split
      · exact ⟨rfl, id, fun _ => rfl⟩
      · exact ⟨rfl, id, id⟩
  have hsources := @Kept.sources h hkept _
    (fun j s => if j ∈ h.streamSources.map (·.2) then s.swept now grace else s)
    (fun j => List.getElem?_mapIdx) fun j s => by
      split
      · exact hswept s
      · exact ⟨rfl, id, id⟩
  refine hsources.unregister (List.filter_subset_self _) fun entry hentry hgone s hs => ?_
  -- It is gone as it has expired, and was let go by the same sweep.
  dsimp only at hentry hs
  rw [List.getElem?_mapIdx, Option.mem_map] at hs
  obtain ⟨s, hs, rfl⟩ := hs
  rw [if_pos (List.mem_map_of_mem hentry)]
  have hexpired : s.expired now grace = true := by
    by_contra hnot
    refine hgone (List.mem_filter.2 ⟨hentry, ?_⟩)
    rw [Option.mem_def.1 hs]
    simpa using hnot
  have hidle : ¬0 < s.subscribers := by
    rw [SourceTask.expired, Bool.and_eq_true, decide_eq_true_eq] at hexpired
    omega
  rw [SourceTask.swept, if_neg hidle, if_pos hexpired]

/-! ## The connection loop -/

/-- The loop goes on, and neither empties the registry nor ends a session. What it is done with is
    not read, unless it was let go. -/
theorem Kept.doneWith (hkept : h.Kept) {task : CameraTask} {state : CameraState} {camera : Option ℕ}
    {sessions : ℕ} (hsessions : sessions = h.tornDown + if task.inSession then 1 else 0)
    (hle : h.sessions ≤ sessions) (hslot : ∀ session ∈ camera, session < sessions)
    (hemptied : task.emptied = h.task.emptied)
    (hleft : ∀ j ∈ h.task.left, j ∈ task.left ∨
      ∀ s : SourceTask, h.sources[j]? = some s → s.reading → s.released) :
    Kept { h with task, state, camera, sessions } := by
  have hdrained : drained { h with task, state, camera, sessions } = h.drained := by
    rw [drained, drained, hemptied]
  constructor
  case sessions => exact hsessions
  case slot => exact hslot
  case started => exact fun s hs => (hkept.started s hs).trans_le hle
  case starting => exact fun i kind session hi => (hkept.starting i kind session hi).trans_le hle
  case inserting =>
    rw [hdrained]
    exact hkept.inserting
  case lock => exact hkept.lock
  case missing => exact hkept.missing
  case registered =>
    rw [hdrained]
    exact hkept.registered
  case reading =>
    intro j s hs hreading
    rcases hkept.reading j s hs hreading with hrel | hj | hfound
    · exact .inl hrel
    · rcases hleft j hj with hj' | hgone
      · exact .inr (.inl hj')
      · exact .inl (hgone s hs hreading)
    · exact .inr (.inr hfound)
  case tornDown => exact hkept.tornDown
  case handedOut => exact hkept.handedOut

/-- The loop goes on with what it has to do with sources. -/
theorem Kept.moves (hkept : h.Kept) {task : CameraTask} {state : CameraState} {camera : Option ℕ}
    {sessions : ℕ} (hsessions : sessions = h.tornDown + if task.inSession then 1 else 0)
    (hle : h.sessions ≤ sessions) (hslot : ∀ session ∈ camera, session < sessions)
    (hemptied : task.emptied = h.task.emptied) (hleft : h.task.left ⊆ task.left) :
    Kept { h with task, state, camera, sessions } :=
  hkept.doneWith hsessions hle hslot hemptied fun _ hj => .inl (hleft hj)

/-- The loop goes on within a session, or outside of one. -/
theorem Kept.goesOn (hkept : h.Kept) {before task : CameraTask} {state : CameraState}
    (htask : h.task = before) (hphase : task.inSession = before.inSession)
    (hemptied : task.emptied = before.emptied) (hleft : before.left = []) :
    Kept { h with task, state } := by
  refine hkept.moves ?_ le_rfl hkept.slot (htask ▸ hemptied) ?_
  · rw [hphase, ← htask]
    exact hkept.sessions
  · rw [htask, hleft]
    exact List.nil_subset _

/-- The registry is emptied while no source is about to be put into it. -/
theorem Kept.drain (hkept : h.Kept) {quitting : Bool} (htask : h.task = .draining quitting)
    (htimely : ∀ caller ∈ h.callers, caller.isInserting = false) :
    Kept { h with
      task := .stopping quitting (h.streamSources.map (·.2)) false
      streamSources := [] } := by
  have hnone : ∀ {i : ℕ} {kind : StreamKind} {j : ℕ}, h.callers[i]? ≠ some (.inserting kind j) := by
    intro i kind j hi
    cases htimely _ (List.mem_of_getElem? hi)
  constructor
  case sessions =>
    rw [hkept.sessions, htask]
    cases quitting <;> rfl
  case slot => exact hkept.slot
  case started => exact hkept.started
  case starting => exact hkept.starting
  case inserting => exact fun i kind j hi => absurd hi hnone
  case lock => exact hkept.lock
  case missing => exact fun _ _ _ _ _ _ => List.not_mem_nil
  case registered => exact fun _ hentry => absurd hentry List.not_mem_nil
  case reading =>
    intro j s hs hreading
    rcases hkept.reading j s hs hreading with hrel | hleft | ⟨entry, hentry, rfl⟩ | ⟨i, kind, hi⟩
    · exact .inl hrel
    · rw [htask] at hleft
      cases hleft
    · exact .inr (.inl (List.mem_map_of_mem hentry))
    · exact absurd hi hnone
  case tornDown => exact hkept.tornDown
  case handedOut => exact hkept.handedOut

/-- The loop is done with a source, whose reader has ended unless it was let go. -/
theorem Kept.pop (hkept : h.Kept) {quitting cancelled : Bool} {source : ℕ} {left : List ℕ}
    (htask : h.task = .stopping quitting (source :: left) cancelled)
    (hgone : ∀ s : SourceTask, h.sources[source]? = some s → s.reading → s.released) :
    Kept { h with task := .stopping quitting left false } := by
  refine hkept.doneWith (hkept.sessions.trans ?_) le_rfl hkept.slot ?_ fun j hj => ?_
  · rw [htask]
    cases quitting <;> rfl
  · rw [htask]
    cases quitting <;> rfl
  · rw [htask] at hj
    rcases List.mem_cons.1 hj with rfl | hj
    · exact .inr hgone
    · exact .inl hj

/-- The session is over. What the teardown could find has come to its end by then. -/
theorem Kept.disconnect (hkept : h.Kept) (htask : h.task = .loggedOut)
    (htimely : ∀ s ∈ h.sources, s.session = h.tornDown → s.released → s.reading = false) :
    Kept { h with task := .idle, state := .disconnected, tornDown := h.sessions } := by
  have hsessions : h.sessions = h.tornDown + 1 := by
    rw [hkept.sessions, htask]
    rfl
  have hdrained : h.drained = h.sessions := by
    rw [hsessions, drained, htask]
    rfl
  constructor
  case sessions => rfl
  case slot => exact hkept.slot
  case started => exact hkept.started
  case starting => exact hkept.starting
  case inserting =>
    have hinserting := hkept.inserting
    rw [hdrained] at hinserting
    exact hinserting
  case lock => exact hkept.lock
  case missing => exact hkept.missing
  case registered =>
    have hregistered := hkept.registered
    rw [hdrained] at hregistered
    exact hregistered
  case reading =>
    intro j s hs hreading
    rcases hkept.reading j s hs hreading with hrel | hleft | hfound
    · exact .inl hrel
    · rw [htask] at hleft
      cases hleft
    · exact .inr (.inr hfound)
  case tornDown =>
    intro s hs hlt
    dsimp only at hs hlt
    by_cases hold : s.session < h.tornDown
    · exact hkept.tornDown s hs hold
    have hsession : s.session = h.tornDown := by omega
    -- A source that is registered or about to be is of a later session.
    have hlater : ∀ {j : ℕ}, h.sources[j]? = some s →
        ¬∃ s' : SourceTask, h.sources[j]? = some s' ∧ h.drained ≤ s'.session := by
      rintro j hj ⟨s', hs', hle⟩
      obtain rfl := Option.some.inj (hj.symm.trans hs')
      omega
    obtain ⟨j, hj⟩ := List.mem_iff_getElem?.1 hs
    cases hreading : s.reading with
    | false => rfl
    | true =>
      rcases hkept.reading j s hj hreading with hrel | hleft | ⟨entry, hentry, rfl⟩ | ⟨i, kind, hi⟩
      · rw [htimely s hs hsession hrel] at hreading
        cases hreading
      · rw [htask] at hleft
        cases hleft
      · exact absurd (hkept.registered entry hentry) (hlater hj)
      · exact absurd (hkept.inserting i kind j hi) (hlater hj)
  case handedOut => exact hkept.handedOut

theorem Kept.stepTask (hkept : h.Kept) (step : TaskStep) (htimely : h.Timely (.task step)) :
    (h.stepTask step).Kept := by
  have hsessions := hkept.sessions
  unfold CameraHandle.stepTask
  split
  · next htask =>
    split
    · exact hkept
    · exact hkept.goesOn htask rfl rfl rfl
  · next htask =>
    rw [htask] at hsessions
    have hslot : ∀ session ∈ h.camera, session < h.sessions + 1 :=
      fun session hs => Nat.lt_succ_of_lt (hkept.slot session hs)
    exact hkept.moves (congrArg (· + 1) hsessions) (Nat.le_succ _) hslot (htask ▸ rfl)
      (htask ▸ List.nil_subset _)
  · next htask => exact hkept.goesOn htask rfl rfl rfl
  · next htask =>
    rw [htask] at hsessions
    refine hkept.moves hsessions le_rfl ?_ (htask ▸ rfl) (htask ▸ List.nil_subset _)
    rintro session hs
    cases hs
    rw [hsessions]
    exact Nat.lt_succ_self _
  · next htask => exact hkept.goesOn htask rfl rfl rfl
  · next quitting htask => exact hkept.drain htask htimely
  · next quitting source left htask =>
    have hstopped := hkept.modifySource source
      (f := fun s => { s with cancelled := true }) fun _ => ⟨rfl, id, id⟩
    rw [htask] at hsessions
    refine hstopped.moves (hsessions.trans ?_) le_rfl hkept.slot ?_ ?_
    · cases quitting <;> rfl
    · rw [modifySource_task, htask]
      cases quitting <;> rfl
    · rw [modifySource_task, htask]
      exact List.Subset.refl _
  · next quitting source left htask =>
    split
    · exact hkept
    · next hended =>
      refine hkept.pop htask fun s hs hreading => absurd ?_ hended
      rw [hs]
      exact hreading
  · next quitting source left htask =>
    have hreleased := hkept.modifySource source
      (f := fun s => { s with released := true }) fun _ => ⟨rfl, id, fun _ => rfl⟩
    refine hreleased.pop htask fun s hs _ => ?_
    rw [CameraHandle.modifySource, List.getElem?_modify_eq, Option.map_eq_map,
      Option.map_eq_some_iff] at hs
    obtain ⟨s, -, rfl⟩ := hs
    rfl
  · next htask => exact hkept.goesOn htask rfl rfl rfl
  · next htask => exact hkept.goesOn htask rfl rfl rfl
  · next htask =>
    rw [htask] at hsessions
    exact hkept.moves hsessions le_rfl (fun _ hs => by cases hs) (htask ▸ rfl)
      (htask ▸ List.nil_subset _)
  · next htask => exact hkept.disconnect htask htimely
  · next htask => exact hkept.goesOn htask rfl rfl rfl
  · next htask => exact hkept.goesOn htask rfl rfl rfl
  · exact hkept

/-! ## Runs -/

/-- One step in time keeps the sessions apart. -/
theorem Kept.step (hkept : h.Kept) {e : Event} (htimely : h.Timely e) : (h.step e).Kept := by
  cases e with
  | call kind => exact hkept.call kind
  | caller i late => exact hkept.stepCaller i late htimely
  | leave i => exact hkept.leave i
  | prune now grace => exact hkept.prune now grace
  | readerEnds source => exact hkept.modifySource source fun _ => ⟨rfl, (fun hc => by cases hc), id⟩
  | cancel => exact ⟨hkept.sessions, hkept.slot, hkept.started, hkept.starting, hkept.inserting,
      hkept.lock, hkept.missing, hkept.registered, hkept.reading, hkept.tornDown, hkept.handedOut⟩
  | task step => exact hkept.stepTask step htimely

/-- A run whose steps are all made in time. -/
def AllTimely (events : List Event) : Prop :=
  Past.Always (fun before e => (run before).Timely e) events

instance decidableAllTimely : DecidablePred AllTimely := fun events =>
  Past.decidableAlways events

/-- If all steps are in time, the sessions are kept apart in every run. -/
theorem kept_run {events : List Event} (htimely : AllTimely events) : (run events).Kept := by
  induction events using List.reverseRecOn with
  | nil => exact kept_new
  | append_singleton events e ih =>
    obtain ⟨hbefore, he⟩ := Past.always_concat.1 htimely
    rw [run_concat]
    exact (ih hbefore).step he

/-- Sources do not outlive their session, where each is registered before the registry of the
    session is emptied. -/
theorem separated_of_timely {events : List Event} (htimely : AllTimely events) :
    (run events).Separated :=
  (kept_run htimely).separated

/-- A caller goes on until it has a source. -/
def getsSource (i : ℕ) : List Event := List.replicate 8 (.caller i false)

/-- A session with a source that is watched, then stopped in the teardown, and the next one. -/
def twoSessions : List Event :=
  [.task .connect, .task .connected, .task .fill, .call .main] ++ getsSource 0 ++
    [.caller 0 false, .task .keepaliveFails, .task .drain, .task .stop, .readerEnds 0,
      .task .joined, .task .stopped, .task .logout, .task .disconnect, .task .connect,
      .task .connected, .task .fill, .call .main] ++ getsSource 1

/-- Two sessions hand out one source each, and do not overlap. -/
theorem separated_of_timely_twoSessions :
    (run twoSessions).handedOut = [(0, 0), (1, 1)] ∧ (run twoSessions).Separated :=
  ⟨by decide +kernel, separated_of_timely (by decide +kernel)⟩

/-- A source that is made while the teardown waits for the camera. -/
def lateSource : List Event :=
  [.task .connect, .task .connected, .task .fill, .task .keepaliveFails, .task .drain,
    .call .main] ++ getsSource 0 ++ [.task .stopped, .task .logout, .task .disconnect,
    .task .connect, .task .connected, .call .main, .caller 1 false, .caller 1 false]

/-- The source is still registered and read in the next session, which hands it out. -/
theorem lateSource_not_separated :
    (run lateSource).handedOut = [(0, 0), (0, 1)] ∧ (run lateSource).tornDown = 1 ∧
      (run lateSource).sources.map (fun s => (s.session, s.reading)) = [(0, true)] ∧
      ¬(run lateSource).Separated := by
  refine ⟨by decide +kernel, by decide +kernel, by decide +kernel, fun hseparated => ?_⟩
  have hle := hseparated.handedOut (0, 1) (by decide +kernel) { kind := .main, session := 0 }
    (by decide +kernel)
  exact absurd hle (by decide)

end CameraHandle

end Bairelay
