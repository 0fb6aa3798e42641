import Bairelay.Camera.WakeLock

/-!
# Since when the lock is idle

The watchdog asks a wake lock since when nobody has a guard (`WakeLockCounter::idle_since`). A
call looks at the count first and then at the time of the last release, and a drop writes that
time some steps after it has counted.

* `notOlder_iff`: what the calls return is as new as the last release, however a run goes on,
  just if every drop of the run writes its time before an acquire behind it clears the time;
* `slowDrop_stale`: a drop that is slower.
-/

namespace Bairelay

namespace WakeLock

/-- Each count is a guard or an acquire under way, and one acquire at most has found the lock
    idle. -/
structure Counted (w : WakeLock) : Prop where
  count_eq : w.count = w.guards + w.acquiring.length
  single : w.acquiring.length ≤ 1

theorem Counted.step {w : WakeLock} (h : w.Counted) (e : Event) : (w.step e).Counted := by
  obtain ⟨hcount, hsingle⟩ := h
  cases e with
  | acquire =>
    rw [WakeLock.step]
    split
    · constructor <;> simp only [List.length_append, List.length_singleton] <;> omega
    · exact ⟨by dsimp only; omega, hsingle⟩
  | acquiring i =>
    rw [WakeLock.step]
    split
    · exact ⟨by simpa using hcount, by simpa using hsingle⟩
    · next hi =>
      have hlt := (List.getElem?_eq_some_iff.1 hi).1
      constructor <;> simp only [List.length_eraseIdx_of_lt hlt] <;> omega
    · exact ⟨hcount, hsingle⟩
  | drop =>
    rw [WakeLock.step]
    split
    · exact ⟨hcount, hsingle⟩
    · split <;> exact ⟨by dsimp only; omega, hsingle⟩
  | dropping i now =>
    rw [WakeLock.step]
    split <;> exact ⟨hcount, hsingle⟩

variable {w : WakeLock}

/-- The lock is idle, or the acquire that took it is still to clear the time. -/
def Clearing (w : WakeLock) : Prop := w.count = 0 ∨ .clear ∈ w.acquiring

/-- While nobody holds the lock, nobody is about to. -/
theorem Counted.acquiring_eq_nil (h : w.Counted) (hidle : w.count = 0) : w.acquiring = [] := by
  have := h.count_eq
  exact List.length_eq_zero_iff.1 (by omega)

/-- With a clear to come, there is no other acquire under way, and the lock is not idle. -/
theorem Counted.acquiring_eq_clear (h : w.Counted) (hclear : .clear ∈ w.acquiring) :
    w.acquiring = [.clear] ∧ w.count = w.guards + 1 := by
  have hlen : w.acquiring.length = 1 :=
    le_antisymm h.single (List.length_pos_of_mem hclear)
  obtain ⟨a, ha⟩ := List.length_eq_one_iff.1 hlen
  rw [ha, List.mem_singleton] at hclear
  exact ⟨by rw [ha, hclear], by rw [h.count_eq, hlen]⟩

/-- A step writes the time, clears it, or leaves it. -/
theorem step_lastReleaseAt (w : WakeLock) (e : Event) :
    (∃ i now, e = .dropping i now ∧ w.releasing[i]? = some .stamp ∧
      (w.step e).lastReleaseAt = some now) ∨
    (w.step e).lastReleaseAt = none ∨ (w.step e).lastReleaseAt = w.lastReleaseAt := by
  cases e with
  | acquire =>
    rw [step]
    split <;> exact .inr (.inr rfl)
  | acquiring i =>
    rw [step]
    split
    · exact .inr (.inl rfl)
    · exact .inr (.inr rfl)
    · exact .inr (.inr rfl)
  | drop =>
    rw [step]
    split
    · exact .inr (.inr rfl)
    · split <;> exact .inr (.inr rfl)
  | dropping i now =>
    rw [step]
    split
    · next hi => exact .inl ⟨i, now, rfl, hi, rfl⟩
    · exact .inr (.inr rfl)
    · exact .inr (.inr rfl)

/-- Up to the clear, the lock is not released. -/
theorem Counted.clearing_step (h : w.Counted) (hclearing : w.Clearing) (e : Event) :
    (w.step e).lastReleaseAt = none ∨
      (w.step e).Clearing ∧ ((w.step e).count = 0 → w.count = 0) := by
  cases e with
  | acquire =>
    right
    rw [WakeLock.step]
    split
    · exact ⟨.inr (List.mem_append_right _ List.mem_cons_self), fun hidle => by cases hidle⟩
    · next hheld => exact ⟨.inr (hclearing.resolve_left hheld), fun hidle => by cases hidle⟩
  | acquiring i =>
    rw [WakeLock.step]
    split
    · exact .inl rfl
    · next hi =>
      -- A notification to come is behind the clear.
      rcases hclearing with hidle | hclear
      · simp [h.acquiring_eq_nil hidle] at hi
      · have hmem := List.mem_of_getElem? hi
        rw [(h.acquiring_eq_clear hclear).1] at hmem
        simp at hmem
    · exact .inr ⟨hclearing, id⟩
  | drop =>
    right
    rw [WakeLock.step]
    split
    · exact ⟨hclearing, id⟩
    · next hguards =>
      rcases hclearing with hidle | hclear
      · have := h.count_eq
        omega
      · have hcount := (h.acquiring_eq_clear hclear).2
        rw [if_neg (by omega)]
        exact ⟨.inr hclear, fun hidle => by dsimp only at hidle; omega⟩
  | dropping i now =>
    right
    rw [WakeLock.step]
    split <;> exact ⟨hclearing, id⟩

end WakeLock

/-- A wake lock and the calls of `idle_since` that have seen it idle. -/
structure WatchedLock where
  lock : WakeLock := {}
  calls : ℕ := 0
  deriving DecidableEq, Repr

namespace WatchedLock

/-- The steps of a guard, and those of a question. -/
inductive Kind where
  | acquire
  | acquiring (i : ℕ)
  | drop
  | dropping (i : ℕ)
  /-- `idle_since`, up to the count. -/
  | idleSince
  /-- The time is read, and returned. -/
  | lastReleaseAt
  deriving DecidableEq, Repr

/-- A step of some task, and when it is done. -/
structure Event where
  now : Instant
  kind : Kind
  deriving DecidableEq, Repr

/-- A step. A question reads the count first and the time of the release later. -/
def step (w : WatchedLock) (e : Event) : WatchedLock :=
  match e.kind with
  | .acquire => { w with lock := w.lock.step .acquire }
  | .acquiring i => { w with lock := w.lock.step (.acquiring i) }
  | .drop => { w with lock := w.lock.step .drop }
  | .dropping i => { w with lock := w.lock.step (.dropping i e.now) }
  | .idleSince => if w.lock.count = 0 then { w with calls := w.calls + 1 } else w
  | .lastReleaseAt => { w with calls := w.calls - 1 }

/-- What a call returns by this event. One that finds the lock held returns nothing. -/
def idleSince? (w : WatchedLock) (e : Event) : Option Instant :=
  if e.kind = .lastReleaseAt ∧ w.calls ≠ 0 then w.lock.lastReleaseAt else none

/-- The lock after some steps. -/
def run (events : List Event) : WatchedLock := events.foldl step {}

/-- The steps of a run, each with the lock that it finds. -/
abbrev moments (events : List Event) : List (WatchedLock × Event) := Past.moments step {} events

/-- The times of a run do not decrease. -/
def InOrder (events : List Event) : Prop := events.Pairwise (·.now ≤ ·.now)

/-- The count goes to zero. -/
def Releases (moment : WatchedLock × Event) : Prop :=
  moment.1.lock.count ≠ 0 ∧ (moment.1.step moment.2).lock.count = 0

/-- What is returned is no older than any release before. -/
def NotOlder (before : List (WatchedLock × Event)) (moment : WatchedLock × Event) : Prop :=
  ∀ t ∈ moment.1.idleSince? moment.2, ∀ r ∈ before, Releases r → r.2.now ≤ t

/-- The lock was idle from the time that is returned up to now. -/
def IdleSince (before : List (WatchedLock × Event)) (moment : WatchedLock × Event) : Prop :=
  ∀ t ∈ moment.1.idleSince? moment.2,
    ∀ r ∈ before ++ [moment], t < r.2.now → r.1.lock.count = 0

/-- A drop writes its time by this event. -/
def Stamps (moment : WatchedLock × Event) : Prop :=
  ∃ i, moment.2.kind = .dropping i ∧ moment.1.lock.releasing[i]? = some .stamp

/-- When a drop writes its time, the lock is not taken again, or the acquire is still to clear
    the time. -/
def StampsInTime (events : List Event) : Prop :=
  ∀ m ∈ moments events, Stamps m → m.1.lock.count = 0 ∨ .clear ∈ m.1.lock.acquiring

instance (events : List Event) : Decidable (InOrder events) :=
  inferInstanceAs (Decidable (List.Pairwise _ _))
instance (m : WatchedLock × Event) : Decidable (Releases m) :=
  inferInstanceAs (Decidable (_ ∧ _))
instance (before : List (WatchedLock × Event)) (m : WatchedLock × Event) :
    Decidable (NotOlder before m) :=
  inferInstanceAs (Decidable (∀ t ∈ m.1.idleSince? m.2, ∀ r ∈ before, Releases r → r.2.now ≤ t))

variable {w : WatchedLock} {e : Event} {before : List (WatchedLock × Event)}
  {events : List Event}

theorem moments_concat (events : List Event) (e : Event) :
    moments (events ++ [e]) = moments events ++ [(run events, e)] :=
  Past.moments_concat step {} events e

theorem run_concat (events : List Event) (e : Event) :
    run (events ++ [e]) = (run events).step e := by
  rw [run, List.foldl_concat, ← run]

/-- The calls leave the lock as it is. -/
theorem step_lock (w : WatchedLock) (e : Event) :
    (w.step e).lock = w.lock ∨ ∃ f, (w.step e).lock = w.lock.step f ∧
      ∀ i now, f = .dropping i now → e.kind = .dropping i ∧ now = e.now := by
  rw [step]
  split
  · exact .inr ⟨.acquire, rfl, by simp⟩
  · next i _ => exact .inr ⟨.acquiring i, rfl, by simp⟩
  · exact .inr ⟨.drop, rfl, by simp⟩
  · next i hkind =>
    refine .inr ⟨.dropping i e.now, rfl, fun _ _ h => ?_⟩
    cases h
    exact ⟨hkind, rfl⟩
  · split <;> exact .inl rfl
  · exact .inl rfl

/-- In every run the count is that of the guards. -/
theorem counted_run (events : List Event) : (run events).lock.Counted := by
  induction events using List.reverseRecOn with
  | nil => exact ⟨rfl, Nat.zero_le 1⟩
  | append_singleton events e ih =>
    rw [run_concat]
    rcases step_lock (run events) e with hsame | ⟨f, hlock, -⟩
    · rwa [hsame]
    · rw [hlock]
      exact ih.step f

/-- What the lock says of its last release. -/
structure Settled (before : List (WatchedLock × Event)) (lock : WakeLock) : Prop where
  clearing : ∀ t ∈ lock.lastReleaseAt, lock.Clearing
  notOlder : ∀ t ∈ lock.lastReleaseAt, ∀ r ∈ before, Releases r → r.2.now ≤ t
  idle : ∀ t ∈ lock.lastReleaseAt, lock.count = 0 → ∀ r ∈ before, t < r.2.now → r.1.lock.count = 0

theorem settled_none {lock : WakeLock} (h : lock.lastReleaseAt = none) : Settled before lock := by
  constructor <;> intro t ht <;> rw [h] at ht <;> cases ht

/-- Nothing is newer than the time that is written now. -/
theorem settled_stamp {lock : WakeLock} (hbefore : ∀ r ∈ before, r.2.now ≤ e.now)
    (htime : lock.lastReleaseAt = some e.now) (hclearing : lock.Clearing) :
    Settled before lock := by
  constructor <;> intro t ht <;> rw [htime, Option.mem_some] at ht <;> subst ht
  · exact hclearing
  · exact fun r hr _ => hbefore r hr
  · exact fun _ r hr hlt => absurd (hbefore r hr) (not_le.2 hlt)

/-- As long as no time is written and the lock is not released. -/
theorem Settled.keep (h : Settled before w.lock)
    (htime : (w.step e).lock.lastReleaseAt = w.lock.lastReleaseAt)
    (hclearing : ∀ t ∈ w.lock.lastReleaseAt,
      (w.step e).lock.Clearing ∧ ((w.step e).lock.count = 0 → w.lock.count = 0)) :
    Settled (before ++ [(w, e)]) (w.step e).lock := by
  constructor <;> intro t ht <;> rw [htime] at ht
  · exact (hclearing t ht).1
  · intro r hr hreleases
    rcases List.mem_append.1 hr with hr | hr
    · exact h.notOlder t ht r hr hreleases
    · rw [List.mem_singleton.1 hr] at hreleases
      exact absurd ((hclearing t ht).2 hreleases.2) hreleases.1
  · intro hidle r hr hlt
    have hwas := (hclearing t ht).2 hidle
    rcases List.mem_append.1 hr with hr | hr
    · exact h.idle t ht hwas r hr hlt
    · rw [List.mem_singleton.1 hr]
      exact hwas

/-- A release that keeps its time in time leaves a time that is not older than any release
    before. -/
theorem Settled.step (h : Settled before w.lock) (hcounted : w.lock.Counted)
    (hbefore : ∀ r ∈ before ++ [(w, e)], r.2.now ≤ e.now)
    (hstamp : Stamps (w, e) → w.lock.Clearing) :
    Settled (before ++ [(w, e)]) (w.step e).lock := by
  rcases step_lock w e with hsame | ⟨f, hlock, hdropping⟩
  · refine h.keep (by rw [hsame]) fun t ht => ?_
    rw [hsame]
    exact ⟨h.clearing t ht, id⟩
  · have hnone : (w.lock.step f).lastReleaseAt = none →
        Settled (before ++ [(w, e)]) (w.step e).lock := by
      intro hnone
      exact settled_none (by rw [hlock, hnone])
    rcases w.lock.step_lastReleaseAt f with ⟨i, now, rfl, hi, htime⟩ | hclear | hkeep
    · obtain ⟨hkind, rfl⟩ := hdropping i now rfl
      rcases hcounted.clearing_step (hstamp ⟨i, hkind, hi⟩) (.dropping i e.now) with hclear | hstill
      · exact hnone hclear
      · exact settled_stamp hbefore (by rw [hlock, htime]) (by rw [hlock]; exact hstill.1)
    · exact hnone hclear
    · by_cases hclear : (w.lock.step f).lastReleaseAt = none
      · exact hnone hclear
      · refine h.keep (by rw [hlock, hkeep]) fun t ht => ?_
        rw [hlock]
        exact (hcounted.clearing_step (h.clearing t ht) f).resolve_left hclear

/-- The steps before a step of a run are done no later. -/
theorem le_now_of_inOrder (h : InOrder (events ++ [e])) :
    ∀ m ∈ moments (events ++ [e]), m.2.now ≤ e.now := by
  intro m hm
  rcases List.mem_append.1 (Past.mem_of_mem_moments step hm) with hmem | hmem
  · exact (List.pairwise_append.1 h).2.2 _ hmem e List.mem_cons_self
  · rw [List.mem_singleton.1 hmem]

/-- As long as drops write their times soon enough, the time kept is that of the last release. -/
theorem settled_run (hclock : InOrder events) (hstamps : StampsInTime events) :
    Settled (moments events) (run events).lock := by
  induction events using List.reverseRecOn with
  | nil => exact settled_none rfl
  | append_singleton events e ih =>
    rw [StampsInTime, moments_concat] at hstamps
    have hle := le_now_of_inOrder hclock
    rw [moments_concat] at hle ⊢
    rw [run_concat]
    refine (ih (List.pairwise_append.1 hclock).1 fun m hm => ?_).step (counted_run events) hle ?_
    · exact hstamps m (List.mem_append_left _ hm)
    · exact hstamps _ (List.mem_append_right _ List.mem_cons_self)

/-- What the calls return is as new as the last release, and when the lock is idle as they return,
    it was idle since. -/
theorem always_of_stampsInTime (hclock : InOrder events) (hstamps : StampsInTime events) :
    Past.Always NotOlder (moments events) ∧
      Past.Always (fun before m => m.1.lock.count = 0 → IdleSince before m) (moments events) := by
  induction events using List.reverseRecOn with
  | nil => exact ⟨Past.always_nil, Past.always_nil⟩
  | append_singleton events e ih =>
    have hclock' : InOrder events := (List.pairwise_append.1 hclock).1
    rw [StampsInTime, moments_concat] at hstamps
    have hstamps' : StampsInTime events := fun m hm => hstamps m (List.mem_append_left _ hm)
    obtain ⟨holder, hidle⟩ := ih hclock' hstamps'
    have hsettled := settled_run hclock' hstamps'
    have hread : ∀ t ∈ (run events).idleSince? e, t ∈ (run events).lock.lastReleaseAt := by
      intro t ht
      rw [idleSince?] at ht
      split at ht
      · exact ht
      · cases ht
    rw [moments_concat, Past.always_concat, Past.always_concat]
    refine ⟨⟨holder, fun t ht => hsettled.notOlder t (hread t ht)⟩, hidle, ?_⟩
    intro hcount t ht r hr hlt
    rcases List.mem_append.1 hr with hr | hr
    · exact hsettled.idle t (hread t ht) hcount r hr hlt
    · rw [List.mem_singleton.1 hr]
      exact hcount

/-! ## A drop that is too slow -/

/-- All guards are dropped at one time. -/
theorem exists_release (now : Instant) {n : ℕ} (hcount : w.lock.count = n + 1)
    (hguards : w.lock.guards = n + 1) :
    (∃ r ∈ Past.moments step w (List.replicate (n + 1) ⟨now, .drop⟩),
      Releases r ∧ r.2.now = now) ∧
    ((List.replicate (n + 1) ⟨now, .drop⟩).foldl step w).lock.count = 0 ∧
    ((List.replicate (n + 1) ⟨now, .drop⟩).foldl step w).lock.lastReleaseAt =
      w.lock.lastReleaseAt := by
  induction n generalizing w with
  | zero =>
    have hstep : (w.step ⟨now, .drop⟩).lock.count = 0 ∧
        (w.step ⟨now, .drop⟩).lock.lastReleaseAt = w.lock.lastReleaseAt := by
      simp [step, WakeLock.step, hcount, hguards]
    refine ⟨⟨(w, ⟨now, .drop⟩), List.mem_cons_self, ⟨by rw [hcount]; simp, hstep.1⟩, rfl⟩, hstep⟩
  | succ n ih =>
    have hstep : (w.step ⟨now, .drop⟩).lock.count = n + 1 ∧
        (w.step ⟨now, .drop⟩).lock.guards = n + 1 ∧
        (w.step ⟨now, .drop⟩).lock.lastReleaseAt = w.lock.lastReleaseAt := by
      simp [step, WakeLock.step, hcount, hguards]
    obtain ⟨⟨r, hr, hreleases⟩, hidle, htime⟩ := ih hstep.1 hstep.2.1
    rw [List.replicate_succ, List.foldl_cons]
    exact ⟨⟨r, List.mem_cons_of_mem _ hr, hreleases⟩, hidle, htime.trans hstep.2.2⟩

/-- The acquire that is under way is finished, all guards are dropped, and a call is made. -/
def releaseAndAsk (now : Instant) (n : ℕ) : List Event :=
  ⟨now, .acquiring 0⟩ :: (List.replicate (n + 1) ⟨now, .drop⟩ ++
    [⟨now, .idleSince⟩, ⟨now, .lastReleaseAt⟩])

/-- A time that stands in a lock that is held and will not be cleared is returned in the end. -/
theorem not_always_of_held (before : List (WatchedLock × Event)) {t now : Instant} {n : ℕ}
    (hcounted : w.lock.Counted)
    (htime : w.lock.lastReleaseAt = some t) (hclear : .clear ∉ w.lock.acquiring)
    (hcount : w.lock.count = n + 1) (hlt : t < now) :
    ¬Past.Always NotOlder (before ++ Past.moments step w (releaseAndAsk now n)) := by
  have hfinished : (w.step ⟨now, .acquiring 0⟩).lock.count = n + 1 ∧
      (w.step ⟨now, .acquiring 0⟩).lock.guards = n + 1 ∧
      (w.step ⟨now, .acquiring 0⟩).lock.lastReleaseAt = some t := by
    obtain ⟨hsum, hsingle⟩ := hcounted
    cases hacquiring : w.lock.acquiring with
    | nil =>
      rw [hacquiring, List.length_nil] at hsum
      simp only [step, WakeLock.step, hacquiring, List.getElem?_nil]
      exact ⟨hcount, by omega, htime⟩
    | cons a rest =>
      rw [hacquiring, List.length_cons] at hsum hsingle
      cases a with
      | clear => exact absurd (by rw [hacquiring]; exact List.mem_cons_self) hclear
      | notify =>
        simp only [step, WakeLock.step, hacquiring, List.getElem?_cons_zero]
        exact ⟨hcount, by omega, htime⟩
  obtain ⟨⟨r, hr, hreleases, hnow⟩, hidle, hkept⟩ := exists_release now hfinished.1 hfinished.2.1
  set w' := (List.replicate (n + 1) ⟨now, .drop⟩).foldl step (w.step ⟨now, .acquiring 0⟩)
  have hmoments : Past.moments step w (releaseAndAsk now n) =
      ((w, ⟨now, .acquiring 0⟩) ::
        (Past.moments step (w.step ⟨now, .acquiring 0⟩) (List.replicate (n + 1) ⟨now, .drop⟩) ++
          [(w', ⟨now, .idleSince⟩)])) ++ [(w'.step ⟨now, .idleSince⟩, ⟨now, .lastReleaseAt⟩)] := by
    rw [releaseAndAsk, Past.moments, Past.moments_append, List.cons_append, List.append_assoc]
    rfl
  have hcalls : w'.step ⟨now, .idleSince⟩ = { w' with calls := w'.calls + 1 } := if_pos hidle
  have hreturned : t ∈ (w'.step ⟨now, .idleSince⟩).idleSince? ⟨now, .lastReleaseAt⟩ := by
    rw [hcalls, idleSince?, if_pos ⟨rfl, Nat.succ_ne_zero _⟩]
    exact hkept.trans hfinished.2.2
  intro halways
  rw [hmoments, ← List.append_assoc] at halways
  have hle := (Past.always_concat.1 halways).2 t hreturned r
    (List.mem_append_right _ (List.mem_cons_of_mem _ (List.mem_append_left _ hr))) hreleases
  rw [hnow] at hle
  exact absurd hle (not_le.2 hlt)

/-- No drop goes on by these steps. -/
def NoDropping (events : List Event) : Prop := ∀ e ∈ events, ∀ i, e.kind ≠ .dropping i

theorem stampsInTime_append {rest : List Event} (h : StampsInTime events)
    (hrest : NoDropping rest) : StampsInTime (events ++ rest) := by
  intro m hm hstamps
  rw [moments, Past.moments_append] at hm
  rcases List.mem_append.1 hm with hm | hm
  · exact h m hm hstamps
  · obtain ⟨i, hkind, -⟩ := hstamps
    exact absurd hkind (hrest _ (Past.mem_of_mem_moments step hm) i)

theorem noDropping_releaseAndAsk (now : Instant) (n : ℕ) :
    NoDropping (releaseAndAsk now n) := by
  intro e he i
  rcases List.mem_cons.1 he with rfl | he
  · simp
  · rcases List.mem_append.1 he with he | he
    · rw [List.eq_of_mem_replicate he]
      simp
    · rcases List.mem_pair.1 he with rfl | rfl <;> simp

theorem now_releaseAndAsk {now : Instant} {n : ℕ} :
    ∀ e ∈ releaseAndAsk now n, e.now = now := by
  intro e he
  rcases List.mem_cons.1 he with rfl | he
  · rfl
  · rcases List.mem_append.1 he with he | he
    · rw [List.eq_of_mem_replicate he]
    · rcases List.mem_pair.1 he with rfl | rfl <;> rfl

/-- After a drop that is too slow, the lock is held under the time of the drop. -/
theorem stamped_of_stamps (hstamps : Stamps (w, e)) (hslow : ¬w.lock.Clearing) :
    (w.step e).lock.lastReleaseAt = some e.now ∧ .clear ∉ (w.step e).lock.acquiring ∧
      (w.step e).lock.count ≠ 0 := by
  obtain ⟨i, hkind, hi⟩ := hstamps
  dsimp only at hkind hi
  obtain ⟨hheld, hclear⟩ := not_or.1 hslow
  rw [step, hkind]
  dsimp only
  rw [WakeLock.step, hi]
  exact ⟨rfl, hclear, hheld⟩

/-- What the calls return, in a run and however it goes on from each of its states without a
    further drop that is under way, is as new as the last release, just if every drop of the run
    writes its time before an acquire behind it clears the time. Then a call that returns a time
    while the lock is idle measures no time in which it was held. -/
theorem notOlder_iff (hclock : InOrder events) :
    ((∀ before rest, before <+: events → NoDropping rest → InOrder (before ++ rest) →
      Past.Always NotOlder (moments (before ++ rest))) ↔ StampsInTime events) ∧
    (StampsInTime events → Past.Always NotOlder (moments events) ∧
      Past.Always (fun before m => m.1.lock.count = 0 → IdleSince before m) (moments events)) := by
  refine ⟨⟨fun h => ?_, fun hstamps before rest hprefix hrest hclock' => ?_⟩,
    always_of_stampsInTime hclock⟩
  · intro m hm hstamps
    by_contra hslow
    obtain ⟨before, after, hevents, hfound⟩ := Past.exists_of_mem_moments step hm
    obtain ⟨w, e⟩ := m
    dsimp only at hevents hfound hslow
    obtain ⟨htime, hclear, hheld⟩ := stamped_of_stamps hstamps hslow
    obtain ⟨n, hn⟩ := Nat.exists_eq_succ_of_ne_zero hheld
    have hrun : run (before ++ [e]) = w.step e := by rw [run_concat, hfound, run]
    rw [← hrun] at htime hclear hn
    have hprefix : before ++ [e] <+: events :=
      ⟨after, by rw [hevents, List.append_assoc, List.singleton_append]⟩
    have hclock' : InOrder (before ++ [e]) := hclock.sublist hprefix.sublist
    have hbefore : ∀ a ∈ before ++ [e], a.now ≤ e.now := by
      intro a ha
      rcases List.mem_append.1 ha with ha | ha
      · exact (List.pairwise_append.1 hclock').2.2 a ha e List.mem_cons_self
      · rw [List.mem_singleton.1 ha]
    have hcontinued : InOrder (before ++ [e] ++ releaseAndAsk (e.now + 1) n) := by
      refine List.pairwise_append.2 ⟨hclock', ?_, fun a ha b hb => ?_⟩
      · refine List.pairwise_of_forall_mem_list fun a ha b hb => ?_
        rw [now_releaseAndAsk a ha, now_releaseAndAsk b hb]
      · rw [now_releaseAndAsk b hb]
        exact (hbefore a ha).trans (Nat.le_succ _)
    have halways := h _ _ hprefix (noDropping_releaseAndAsk _ _) hcontinued
    rw [moments, Past.moments_append] at halways
    exact not_always_of_held _ (counted_run _) htime hclear hn (Nat.lt_succ_self _) halways
  · refine (always_of_stampsInTime hclock' (stampsInTime_append ?_ hrest)).1
    obtain ⟨after, rfl⟩ := hprefix
    intro m hm
    refine hstamps m ?_
    rw [moments, Past.moments_append]
    exact List.mem_append_left _ hm

/-- A guard is dropped, and the time is written only when the lock was taken again. -/
def slowDrop : List Event :=
  [⟨0, .acquire⟩, ⟨0, .acquiring 0⟩, ⟨0, .acquiring 0⟩,
    ⟨1, .drop⟩, ⟨2, .acquire⟩, ⟨3, .acquiring 0⟩, ⟨3, .acquiring 0⟩, ⟨4, .dropping 0⟩,
    ⟨9, .drop⟩, ⟨9, .idleSince⟩, ⟨9, .lastReleaseAt⟩]

/-- A drop that writes late leaves an older time. -/
theorem slowDrop_stale :
    ¬∀ events, InOrder events → Past.Always NotOlder (moments events) := by
  intro h
  exact absurd (h slowDrop (by decide)) (by decide +kernel)

theorem slowDrop_late : ¬StampsInTime slowDrop := by
  intro h
  exact absurd ((notOlder_iff (by decide)).2 h).1 (by decide +kernel)

end WatchedLock

end Bairelay
