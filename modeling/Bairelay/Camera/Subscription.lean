import Bairelay.Camera.Handle
import Bairelay.Lib.Past
import Bairelay.Lib.Slots

/-!
# Subscriptions and idle sources

A subscriber gets its source from `stream_source`, and attaches to it only when the parameters
of the stream are there. The watchdog counts who is attached, and stops a source without
subscribers that was marked as idle long enough ago. So it may stop the source that a subscriber
is about to attach to.

* `live_of_spared`: in a run whose sweeps spare the sources that a caller holds, nobody is
  subscribed to a source that was pruned;
* `sweptWhileHeld_not_live`: a sweep between the two halves of a subscription, after which the
  client is attached to a source that is stopped.
-/

namespace Bairelay

/-- The source that a caller is to insert, holds or is subscribed to. -/
def Caller.source? : Caller → Option ℕ
  | .inserting _ source | .holding source | .subscribed source => some source
  | _ => none

/-- The caller has been handed a source. -/
def Caller.isSubscribed : Caller → Bool
  | .subscribed _ => true
  | _ => false

namespace CameraHandle

/-- A step is a sweep that stops the source and takes it out of the registry. -/
def Prunes (h : CameraHandle) (source : ℕ) : Event → Prop
  | .prune now grace =>
    source ∈ h.streamSources.map (·.2) ∧ ∃ s ∈ h.sources[source]?, s.expired now grace
  | _ => False

/-- The sweep prunes the sources of the map that were idle for longer than the grace. -/
theorem prunes_prune {h : CameraHandle} {source : ℕ} {now : Instant} {grace : Duration} :
    h.Prunes source (.prune now grace) ↔
      source ∈ h.streamSources.map (·.2) ∧ ∃ s ∈ h.sources[source]?, s.expired now grace :=
  Iff.rfl

/-- No sweep of the run has pruned the source. -/
def Live (events : List Event) (source : ℕ) : Prop :=
  Past.Always (fun before e => ¬(run before).Prunes source e) events

/-- A step prunes no source that a caller has got and is not attached to yet. -/
def Spares (h : CameraHandle) (e : Event) : Prop :=
  ∀ source, .holding source ∈ h.callers → ¬h.Prunes source e

instance decidablePrunes (h : CameraHandle) (source : ℕ) : DecidablePred (h.Prunes source) := by
  intro e
  unfold Prunes
  split <;> infer_instance

instance decidableSpares (h : CameraHandle) (e : Event) : Decidable (h.Spares e) :=
  decidable_of_iff
    (∀ caller ∈ h.callers, ∀ source ∈ caller.source?, caller = .holding source →
      ¬h.Prunes source e)
    ⟨fun hall source hmem => hall _ hmem source rfl rfl,
      fun hall _ hmem source _ heq => hall source (heq ▸ hmem)⟩

/-- A run whose steps all spare what is held. -/
def AllSpared (events : List Event) : Prop :=
  Past.Always (fun before e => (run before).Spares e) events

instance decidableAllSpared : DecidablePred AllSpared := fun events => Past.decidableAlways events

instance decidableLive (events : List Event) : DecidablePred (Live events) := fun _ =>
  Past.decidableAlways events

/-- What is kept along such a run, of the sources that are `live`. -/
structure Attached (live : ℕ → Prop) (h : CameraHandle) : Prop where
  fresh : ∀ j, h.sources.length ≤ j → live j
  registered : ∀ entry ∈ h.streamSources, entry.2 < h.sources.length ∧ live entry.2
  source : ∀ caller ∈ h.callers, ∀ j ∈ caller.source?, j < h.sources.length ∧ live j
  /-- A source that is to be inserted is not in the registry, so that no sweep finds it. -/
  inserting : ∀ (i : ℕ) (kind : StreamKind) (j : ℕ), h.callers[i]? = some (.inserting kind j) →
    ∀ entry ∈ h.streamSources, entry.2 ≠ j
  inserting_unique : ∀ (i k : ℕ) (kind kind' : StreamKind) (j : ℕ),
    h.callers[i]? = some (.inserting kind j) → h.callers[k]? = some (.inserting kind' j) → i = k
  /-- The receivers of a source are those who are subscribed to it. -/
  subscribers : ∀ (j : ℕ) (s : SourceTask), h.sources[j]? = some s →
    s.subscribers = h.callers.count (.subscribed j)

variable {live : ℕ → Prop} {h : CameraHandle}

theorem attached_new : Attached (fun _ => True) {} where
  fresh := by simp
  registered := by simp
  source := by simp
  inserting := by simp
  inserting_unique := by simp
  subscribers := by simp

/-! ## Callers -/

/-- How many callers are in a state, after one of them has gone on. -/
theorem count_set {callers : List Caller} {i : ℕ} {old caller : Caller}
    (hold : callers[i]? = some old) (x : Caller) : (callers.set i caller).count x =
      callers.count x - (if old = x then 1 else 0) + if caller = x then 1 else 0 := by
  obtain ⟨hlt, rfl⟩ := List.getElem?_eq_some_iff.1 hold
  rw [List.count_set hlt]
  simp only [beq_iff_eq]

/-- Where neither the old nor the new caller is subscribed, the subscriptions are the same. -/
theorem count_set_of_not_subscribed {callers : List Caller} {i : ℕ} {old caller : Caller}
    (hold : callers[i]? = some old) (hsub : old.isSubscribed = false)
    (hsub' : caller.isSubscribed = false) (j : ℕ) :
    (callers.set i caller).count (.subscribed j) = callers.count (.subscribed j) := by
  rw [count_set hold, if_neg, if_neg, Nat.sub_zero, Nat.add_zero]
  · rintro rfl
    cases hsub'
  · rintro rfl
    cases hsub

/-- A caller goes on with a source that is live, or with none. -/
theorem Attached.caller (hatt : Attached live h) {i : ℕ} {old caller : Caller}
    {lock : Option ℕ} {handedOut : List (ℕ × ℕ)} (hold : h.callers[i]? = some old)
    (hsub : old.isSubscribed = false) (hsub' : caller.isSubscribed = false)
    (hinserting : ∀ kind j, caller ≠ .inserting kind j)
    (hsource : ∀ j ∈ caller.source?, j < h.sources.length ∧ live j) :
    Attached live { h.setCaller i caller with streamSourceCreateLock := lock, handedOut } where
  fresh := hatt.fresh
  registered := hatt.registered
  source caller' hmem := by
    rcases List.mem_or_eq_of_mem_set hmem with hmem | rfl
    · exact hatt.source caller' hmem
    · exact hsource
  inserting k kind j hk :=
    hatt.inserting k kind j (Slots.of_set hk (hinserting kind j).symm).2
  inserting_unique k k' kind kind' j hk hk' :=
    hatt.inserting_unique k k' kind kind' j (Slots.of_set hk (hinserting kind j).symm).2
      (Slots.of_set hk' (hinserting kind' j).symm).2
  subscribers j s hs := by
    rw [hatt.subscribers j s hs]
    exact (count_set_of_not_subscribed hold hsub hsub' j).symm

/-- A caller that has no source yet goes on without one. -/
theorem Attached.setCaller (hatt : Attached live h) {i : ℕ} {old caller : Caller}
    {lock : Option ℕ} (hold : h.callers[i]? = some old) (hsub : old.isSubscribed = false)
    (hnone : caller.source? = none) :
    Attached live { h.setCaller i caller with streamSourceCreateLock := lock } := by
  refine hatt.caller hold hsub ?_ ?_ ?_
  · cases caller <;> first | rfl | cases hnone
  · rintro kind j rfl
    cases hnone
  · rw [hnone]
    rintro j ⟨⟩

/-- A caller is handed a live source, which counts it as a subscriber. -/
theorem Attached.handOut (hatt : Attached live h) {i source : ℕ} {old : Caller}
    {lock : Option ℕ} (hold : h.callers[i]? = some old) (hsub : old.isSubscribed = false)
    (hsource : source < h.sources.length ∧ live source) :
    Attached live { h.handOut i source with streamSourceCreateLock := lock } := by
  refine hatt.caller hold hsub rfl ?_ ?_
  · rintro kind j ⟨⟩
  · rintro j ⟨⟩
    exact hsource

theorem Attached.of_source? (hatt : Attached live h) {kind : StreamKind} {source : ℕ}
    (hsource : h.source? kind = some source) : source < h.sources.length ∧ live source := by
  rw [source?, Option.map_eq_some_iff] at hsource
  obtain ⟨entry, hfind, rfl⟩ := hsource
  exact hatt.registered entry (List.mem_of_find?_eq_some hfind)

/-- A caller starts a source, which nobody knows yet. -/
theorem Attached.start (hatt : Attached live h) {i : ℕ} {kind : StreamKind} {session : ℕ}
    (hold : h.callers[i]? = some (.starting kind session)) :
    Attached live { h.setCaller i (.inserting kind h.sources.length) with
      sources := h.sources ++ [{ kind, session }] } := by
  have hlength : (h.sources ++ [({ kind, session } : SourceTask)]).length = h.sources.length + 1 :=
    List.length_append
  have hknown : ∀ {caller : Caller}, caller ∈ h.callers → ∀ j ∈ caller.source?,
      j ≠ h.sources.length :=
    fun hmem j hj => (hatt.source _ hmem j hj).1.ne
  constructor
  case fresh => exact fun j hj => hatt.fresh j (by rw [hlength] at hj; omega)
  case registered =>
    intro entry hentry
    obtain ⟨hlt, hlive⟩ := hatt.registered entry hentry
    exact ⟨by rw [hlength]; omega, hlive⟩
  case source =>
    intro caller hmem j hj
    rcases List.mem_or_eq_of_mem_set hmem with hmem | rfl
    · obtain ⟨hlt, hlive⟩ := hatt.source caller hmem j hj
      exact ⟨by rw [hlength]; omega, hlive⟩
    · cases hj
      exact ⟨by rw [hlength]; omega, hatt.fresh _ le_rfl⟩
  case inserting =>
    intro k kind' j hk entry hentry
    by_cases hj : j = h.sources.length
    · rw [hj]
      exact (hatt.registered entry hentry).1.ne
    · refine hatt.inserting k kind' j (Slots.of_set hk ?_).2 entry hentry
      intro heq
      cases heq
      exact hj rfl
  case inserting_unique =>
    intro k k' kind' kind'' j hk hk'
    -- Only the caller itself has the number of the new source.
    have hself : ∀ {k : ℕ} {kind' : StreamKind} {caller : Caller},
        (h.callers.set i caller)[k]? = some (.inserting kind' h.sources.length) → k = i := by
      intro k kind' caller hk
      by_contra hne
      rw [List.getElem?_set_ne (Ne.symm hne)] at hk
      exact hknown (List.mem_of_getElem? hk) _ rfl rfl
    by_cases hj : j = h.sources.length
    · subst hj
      rw [hself hk, hself hk']
    · have hne : ∀ kind', Caller.inserting kind' j ≠ .inserting kind h.sources.length := by
        intro kind' heq
        cases heq
        exact hj rfl
      exact hatt.inserting_unique k k' kind' kind'' j (Slots.of_set hk (hne _)).2
        (Slots.of_set hk' (hne _)).2
  case subscribers =>
    intro j s hs
    have hlt := (List.getElem?_eq_some_iff.1 hs).1
    rw [hlength] at hlt
    refine Eq.trans ?_ (count_set_of_not_subscribed hold rfl rfl j).symm
    rcases Nat.lt_succ_iff_lt_or_eq.1 hlt with hlt | rfl
    · rw [List.getElem?_append_left hlt] at hs
      exact hatt.subscribers j s hs
    · rw [List.getElem?_concat_length] at hs
      obtain rfl := Option.some.inj hs
      exact (List.count_eq_zero.2 fun hmem => hknown hmem _ rfl rfl).symm

/-- A source comes into the registry that nobody else is to put there. -/
theorem Attached.register (hatt : Attached live h) {kind : StreamKind} {source : ℕ}
    (hsource : source < h.sources.length ∧ live source)
    (hinserting : ∀ (i : ℕ) (kind : StreamKind), h.callers[i]? ≠ some (.inserting kind source)) :
    Attached live { h with
      streamSources := (kind, source) :: h.streamSources.filter (·.1 ≠ kind) } where
  fresh := hatt.fresh
  registered := List.forall_mem_cons.2
    ⟨hsource, fun entry hentry => hatt.registered entry (List.mem_of_mem_filter hentry)⟩
  source := hatt.source
  inserting i kind' j hi := by
    refine List.forall_mem_cons.2 ⟨?_, fun entry hentry =>
      hatt.inserting i kind' j hi entry (List.mem_of_mem_filter hentry)⟩
    rintro rfl
    exact hinserting i kind' hi
  inserting_unique := hatt.inserting_unique
  subscribers := hatt.subscribers

/-- A caller that is no longer inserting leaves its place to nobody. -/
theorem Attached.insert (hatt : Attached live h) {i : ℕ} {kind : StreamKind} {source : ℕ}
    (hold : h.callers[i]? = some (.inserting kind source)) :
    Attached live ({ h with
      streamSources := (kind, source) :: h.streamSources.filter (·.1 ≠ kind) }.handOut i
        source).unlock := by
  have hsource := hatt.source _ (List.mem_of_getElem? hold) source rfl
  have hset : Attached live ((h.handOut i source).unlock) :=
    hatt.handOut hold rfl hsource
  refine hset.register hsource fun k kind' hk => ?_
  obtain ⟨hne, hk⟩ := Slots.of_set hk (by rintro ⟨⟩)
  exact hne (hatt.inserting_unique k i kind' kind source hk hold)

/-- A caller attaches to its source, or drops its receiver. -/
theorem Attached.modifySource (hatt : Attached live h) {i source : ℕ} {old caller : Caller}
    {f : SourceTask → SourceTask} (hold : h.callers[i]? = some old)
    (hcaller : caller = .gone ∨ caller = .subscribed source) (hsource : old.source? = some source)
    (hf : ∀ s, (f s).subscribers = s.subscribers - (if old = .subscribed source then 1 else 0) +
      if caller = .subscribed source then 1 else 0) :
    Attached live ((h.modifySource source f).setCaller i caller) := by
  have hmem := List.mem_of_getElem? hold
  have hinserting : ∀ kind j, Caller.inserting kind j ≠ caller := by
    rintro kind j rfl
    rcases hcaller with hc | hc <;> cases hc
  have hlength : (h.sources.modify source f).length = h.sources.length := List.length_modify ..
  constructor
  case fresh => exact fun j hj => hatt.fresh j (hj.trans' hlength.ge)
  case registered =>
    intro entry hentry
    obtain ⟨hlt, hlive⟩ := hatt.registered entry hentry
    exact ⟨hlt.trans_eq hlength.symm, hlive⟩
  case source =>
    intro caller' hmem' j hj
    suffices hlt : j < h.sources.length ∧ live j from ⟨hlt.1.trans_eq hlength.symm, hlt.2⟩
    rcases List.mem_or_eq_of_mem_set hmem' with hmem' | rfl
    · exact hatt.source caller' hmem' j hj
    · rcases hcaller with rfl | rfl
      · cases hj
      · cases hj
        exact hatt.source old hmem source hsource
  case inserting =>
    exact fun k kind j hk => hatt.inserting k kind j (Slots.of_set hk (hinserting kind j)).2
  case inserting_unique =>
    exact fun k k' kind kind' j hk hk' => hatt.inserting_unique k k' kind kind' j
      (Slots.of_set hk (hinserting kind j)).2 (Slots.of_set hk' (hinserting kind' j)).2
  case subscribers =>
    intro j s hs
    rw [CameraHandle.setCaller, CameraHandle.modifySource, count_set hold]
    rw [CameraHandle.setCaller, CameraHandle.modifySource, List.getElem?_modify,
      Option.map_eq_map, Option.map_eq_some_iff] at hs
    obtain ⟨s, hs, rfl⟩ := hs
    split
    · next heq =>
      subst heq
      rw [hf, hatt.subscribers source s hs]
    · next hne =>
      -- A caller has one source, so the others keep their receivers.
      rw [hatt.subscribers j s hs, if_neg, if_neg, Nat.sub_zero, Nat.add_zero]
      · rintro rfl
        rcases hcaller with hc | hc
        · cases hc
        · cases hc
          exact hne rfl
      · rintro rfl
        cases hsource
        exact hne rfl

/-- A step of a caller keeps the counts of subscribers right. -/
theorem Attached.stepCaller (hatt : Attached live h) (i : ℕ) (late : Bool) :
    Attached live (h.stepCaller i late) := by
  unfold CameraHandle.stepCaller
  split
  · next kind hold =>
    split
    · exact hatt.setCaller hold rfl rfl
    · split
      · exact hatt.setCaller hold rfl rfl
      · split
        · exact hatt.setCaller hold rfl rfl
        · exact hatt
  · next kind hold =>
    split
    · next source hsource =>
      exact hatt.handOut hold rfl (hatt.of_source? hsource)
    · exact hatt.setCaller hold rfl rfl
  · next kind hold =>
    split
    · exact hatt.setCaller hold rfl rfl
    · exact hatt
  · next kind hold =>
    split
    · next source hsource =>
      exact hatt.handOut hold rfl (hatt.of_source? hsource)
    · exact hatt.setCaller hold rfl rfl
  · next kind hold =>
    split
    · exact hatt.setCaller hold rfl rfl
    · exact hatt.setCaller hold rfl rfl
  · next kind hold =>
    split
    · exact hatt.setCaller hold rfl rfl
    · exact hatt.setCaller hold rfl rfl
  · next kind session hold => exact hatt.start hold
  · next kind source hold => exact hatt.insert hold
  · next source hold =>
    split
    · exact hatt.setCaller hold rfl rfl
    · exact hatt.modifySource hold (.inr rfl) rfl fun s => by simp
  all_goals exact hatt

theorem Attached.leave (hatt : Attached live h) (i : ℕ) : Attached live (h.leave i) := by
  unfold CameraHandle.leave
  split
  · next kind hold => exact hatt.setCaller hold rfl rfl
  · next kind hold => exact hatt.setCaller hold rfl rfl
  · next source hold => exact hatt.setCaller hold rfl rfl
  · next source hold => exact hatt.modifySource hold (.inl rfl) rfl fun s => by simp
  · exact hatt

theorem Attached.call (hatt : Attached live h) (kind : StreamKind) :
    Attached live { h with callers := h.callers ++ [.polling kind] } := by
  have hold {k : ℕ} {kind' : StreamKind} {j : ℕ}
      (hk : (h.callers ++ [.polling kind])[k]? = some (.inserting kind' j)) :
      h.callers[k]? = some (.inserting kind' j) := Slots.of_concat hk (by rintro ⟨⟩)
  constructor
  case fresh => exact hatt.fresh
  case registered => exact hatt.registered
  case source =>
    refine List.forall_mem_append.2 ⟨hatt.source, List.forall_mem_singleton.2 ?_⟩
    rintro j ⟨⟩
  case inserting => exact fun k kind' j hk => hatt.inserting k kind' j (hold hk)
  case inserting_unique =>
    exact fun k k' kind' kind'' j hk hk' =>
      hatt.inserting_unique k k' kind' kind'' j (hold hk) (hold hk')
  case subscribers =>
    intro j s hs
    rw [hatt.subscribers j s hs, List.count_append]
    rfl

/-! ## The watchdog and the connection loop -/

/-- A sweep passes over the sources with a subscriber, and is to spare those that are held. -/
theorem Attached.prune (hatt : Attached live h) {now : Instant} {grace : Duration}
    (hspares : h.Spares (.prune now grace)) :
    Attached (fun j => live j ∧ ¬h.Prunes j (.prune now grace))
      (h.pruneIdleStreamSourcesAt now grace) := by
  -- A sweep changes the idle marks, never the number of tasks or of their subscribers.
  have hlength : (h.pruneIdleStreamSourcesAt now grace).sources.length = h.sources.length :=
    List.length_mapIdx
  have hswept : ∀ s : SourceTask, (s.swept now grace).subscribers = s.subscribers := by
    intro s
    rw [SourceTask.swept]
    split
    · rfl
    · dsimp only
      split <;> rfl
  constructor
  case fresh =>
    intro j hj
    rw [hlength] at hj
    refine ⟨hatt.fresh j hj, ?_⟩
    rintro ⟨-, s, hs, -⟩
    rw [List.getElem?_eq_none hj] at hs
    cases hs
  -- The entries that are left are not expired.
  case registered =>
    intro entry hentry
    obtain ⟨hentry, hstays⟩ := List.mem_filter.1 hentry
    obtain ⟨hlt, hlive⟩ := hatt.registered entry hentry
    refine ⟨hlt.trans_eq hlength.symm, hlive, ?_⟩
    rintro ⟨-, s, hs, hexpired⟩
    rw [Option.mem_def.1 hs, Option.map_some, Option.getD_some, hexpired] at hstays
    cases hstays
  case source =>
    intro caller (hmem : caller ∈ h.callers) j hj
    obtain ⟨hlt, hlive⟩ := hatt.source caller hmem j hj
    -- A caller that is about to insert its source has it in no entry yet.
    refine ⟨hlt.trans_eq hlength.symm, hlive, fun hprunes => ?_⟩
    obtain ⟨hregistered, s, hs, hexpired⟩ := prunes_prune.1 hprunes
    obtain ⟨entry, hentry, rfl⟩ := List.mem_map.1 hregistered
    cases caller with
    | inserting kind source =>
      cases hj
      obtain ⟨i, hi⟩ := List.mem_iff_getElem?.1 hmem
      exact hatt.inserting i kind _ hi entry hentry rfl
    | holding source =>
      cases hj
      exact hspares _ hmem hprunes
    | subscribed source =>
      -- A subscriber keeps the count positive, and such a task does not expire.
      cases hj
      have hpos := List.count_pos_iff.2 hmem
      rw [← hatt.subscribers _ s hs] at hpos
      rw [SourceTask.expired, Bool.and_eq_true, decide_eq_true_eq] at hexpired
      omega
    | _ => cases hj
  case inserting =>
    exact fun i kind j hi entry hentry =>
      hatt.inserting i kind j hi entry (List.mem_of_mem_filter hentry)
  case inserting_unique => exact hatt.inserting_unique
  -- The count of subscribers is no matter of the sweep.
  case subscribers =>
    intro j s hs
    rw [pruneIdleStreamSourcesAt, List.getElem?_mapIdx, Option.map_eq_some_iff] at hs
    obtain ⟨s, hs, rfl⟩ := hs
    refine Eq.trans ?_ (hatt.subscribers j s hs)
    split
    · exact hswept s
    · rfl

/-- A source changes otherwise than in its subscribers. -/
theorem Attached.changeSource (hatt : Attached live h) (source : ℕ) {f : SourceTask → SourceTask}
    (hf : ∀ s, (f s).subscribers = s.subscribers) : Attached live (h.modifySource source f) := by
  have hlength : (h.sources.modify source f).length = h.sources.length := List.length_modify ..
  constructor
  case fresh => exact fun j hj => hatt.fresh j (hj.trans' hlength.ge)
  case registered =>
    exact fun entry hentry => (hatt.registered entry hentry).imp_left (·.trans_eq hlength.symm)
  case source =>
    exact fun caller hmem j hj => (hatt.source caller hmem j hj).imp_left (·.trans_eq hlength.symm)
  case inserting => exact hatt.inserting
  case inserting_unique => exact hatt.inserting_unique
  case subscribers =>
    intro j s hs
    rw [CameraHandle.modifySource, List.getElem?_modify, Option.map_eq_map,
      Option.map_eq_some_iff] at hs
    obtain ⟨s, hs, rfl⟩ := hs
    split
    · exact (hf s).trans (hatt.subscribers j s hs)
    · exact hatt.subscribers j s hs

/-- The connection loop goes on, or empties the registry. -/
theorem Attached.moves (hatt : Attached live h) {task : CameraTask} {state : CameraState}
    {camera : Option ℕ} {sessions tornDown : ℕ} {streamSources : List (StreamKind × ℕ)}
    (hsub : streamSources ⊆ h.streamSources) :
    Attached live { h with task, state, camera, sessions, tornDown, streamSources } where
  fresh := hatt.fresh
  registered entry hentry := hatt.registered entry (hsub hentry)
  source := hatt.source
  inserting i kind j hi entry hentry := hatt.inserting i kind j hi entry (hsub hentry)
  inserting_unique := hatt.inserting_unique
  subscribers := hatt.subscribers

/-- Taking down a session cancels sources that were taken out of the map before. -/
theorem Attached.stepTask (hatt : Attached live h) (step : TaskStep) :
    Attached live (h.stepTask step) := by
  unfold CameraHandle.stepTask
  split
  case h_1 =>
    split
    · exact hatt
    · exact hatt.moves (List.Subset.refl _)
  case h_6 => exact hatt.moves (List.nil_subset _)
  case h_7 quitting source left htask =>
    have hstopped :=
      @changeSource _ _ hatt source (fun s => { s with cancelled := true }) fun _ => rfl
    exact hstopped.moves (List.Subset.refl _)
  case h_8 =>
    split
    · exact hatt
    · exact hatt.moves (List.Subset.refl _)
  case h_9 quitting source left htask =>
    have hreleased :=
      @changeSource _ _ hatt source (fun s => { s with released := true }) fun _ => rfl
    exact hreleased.moves (List.Subset.refl _)
  case h_16 => exact hatt
  all_goals exact hatt.moves (List.Subset.refl _)

/-! ## Runs -/

/-- One step, if no source is pruned that somebody is about to use. -/
theorem Attached.step (hatt : Attached live h) {e : Event} (hspares : h.Spares e) :
    Attached (fun j => live j ∧ ¬h.Prunes j e) (h.step e) := by
  cases e with
  | prune now grace => exact hatt.prune hspares
  | _ =>
    -- No other step prunes a source.
    simp only [Prunes, not_false_eq_true, and_true]
    first
    | exact hatt.call _
    | exact hatt.stepCaller _ _
    | exact hatt.leave _
    | exact hatt.changeSource _ fun _ => rfl
    | exact hatt.stepTask _
    | exact ⟨hatt.fresh, hatt.registered, hatt.source, hatt.inserting, hatt.inserting_unique,
        hatt.subscribers⟩

/-- If the sweep spares the sources in use, what a caller was handed stays live. -/
theorem attached_run {events : List Event} (hspared : AllSpared events) :
    Attached (Live events) (run events) := by
  induction events using List.reverseRecOn with
  | nil =>
    have hlive : Live [] = fun _ => True := funext fun _ => eq_true Past.always_nil
    rw [hlive]
    exact attached_new
  | append_singleton events e ih =>
    obtain ⟨hbefore, he⟩ := Past.always_concat.1 hspared
    have hlive : Live (events ++ [e]) = fun j => Live events j ∧ ¬(run events).Prunes j e :=
      funext fun _ => propext Past.always_concat
    rw [hlive, run_concat]
    exact (ih hbefore).step he

/-- A subscription is to a live source, where the sweeps spare the sources that are held. -/
theorem live_of_spared {events : List Event} (hspared : AllSpared events) :
    ∀ source, .subscribed source ∈ (run events).callers → Live events source :=
  fun source hmem => ((attached_run hspared).source _ hmem source rfl).2

/-- A camera that is connected, with a client that has got its source. -/
def sourceHeld : List Event :=
  [.task .connect, .task .connected, .task .fill, .call .main] ++ List.replicate 8 (.caller 0 false)

/-- A sweep in between does not stop the source that was just made: it is marked. -/
theorem live_of_spared_sweep :
    Live (sourceHeld ++ [.prune 0 (.ofSecs 30), .caller 0 false,
      .prune (Duration.ofSecs 40) (.ofSecs 30)]) 0 :=
  live_of_spared (by decide +kernel) 0 (by decide +kernel)

/-- The client leaves, a sweep marks its source, and the next client holds it when the sweep
    after that comes, 30 seconds later. -/
def sweptWhileHeld : List Event :=
  sourceHeld ++ [.caller 0 false, .leave 0, .prune 0 (.ofSecs 30), .call .main, .caller 1 false,
    .caller 1 false, .prune (Duration.ofSecs 30) (.ofSecs 30), .caller 1 false]

/-- The sweep cancels the source that a caller has just been handed. -/
theorem sweptWhileHeld_not_live :
    .subscribed 0 ∈ (run sweptWhileHeld).callers ∧ (run sweptWhileHeld).streamSources = [] ∧
      (run sweptWhileHeld).sources.map (·.cancelled) = [true] ∧
      ¬∀ source, .subscribed source ∈ (run sweptWhileHeld).callers →
        Live sweptWhileHeld source := by
  have hsubscribed : .subscribed 0 ∈ (run sweptWhileHeld).callers := by decide +kernel
  refine ⟨hsubscribed, by decide +kernel, by decide +kernel, fun hall => ?_⟩
  exact absurd (hall 0 hsubscribed) (by decide +kernel)

end CameraHandle

end Bairelay
