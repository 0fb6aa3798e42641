import Bairelay.Camera.WakeLock

/-!
# The grace period

While a camera on a battery is connected, a task waits for the last guard of its wake lock to be
dropped and then counts down (`grace_period.rs`). The notification that ends the wait may be one
of an earlier release, kept as a permit while the task slept.

* `armedByRelease_iff`: however the waits of a run go on, each countdown starts behind a release,
  just if no notification was left over when the lock was found held;
* `leftover_not_armed`: the lock is released and taken again during a countdown.
-/

namespace Bairelay

/-- Where the task is that runs the grace period. -/
inductive GracePeriod where
  /-- It does not run, or it was aborted. -/
  | outside
  /-- The future is created, the count is still to be looked at. -/
  | created
  | awaiting
  | sleeping
  /-- Behind the countdown, the count is still to be looked at. -/
  | elapsed
  | expired
  deriving DecidableEq, Repr

/-- A wake lock and the task that watches over it, one session after the other. -/
structure GraceWatch where
  lock : WakeLock := {}
  period : GracePeriod := .outside
  deriving DecidableEq, Repr

namespace WakeLock

/-- A notification of an earlier release is there, or one is still to come. -/
def Leftover (w : WakeLock) : Prop := w.notifyRelease.Ready ∨ w.releasing ≠ []

/-- The count goes from one to zero. -/
def Frees (w : WakeLock) (e : Event) : Prop := w.count = 1 ∧ (w.step e).count = 0

instance : DecidablePred Leftover := fun _ => inferInstanceAs (Decidable (_ ∨ _))
instance (w : WakeLock) (e : Event) : Decidable (w.Frees e) := inferInstanceAs (Decidable (_ ∧ _))

/-- Only a release leaves a notification over. -/
theorem leftover_step {w : WakeLock} {e : Event} (h : (w.step e).Leftover) :
    w.Leftover ∨ w.Frees e := by
  cases e with
  | acquire =>
    rw [step] at h
    split at h <;> exact .inl h
  | acquiring i =>
    rw [step] at h
    split at h <;> exact .inl h
  | drop =>
    by_cases hguards : w.guards = 0
    · rw [step, if_pos hguards] at h
      exact .inl h
    · by_cases hcount : w.count = 1
      · refine .inr ⟨hcount, ?_⟩
        rw [step, if_neg hguards, if_pos hcount, hcount]
      · rw [step, if_neg hguards, if_neg hcount] at h
        exact .inl h
  | dropping i now =>
    -- The release that goes on here was left over before.
    refine .inl ?_
    rw [step] at h
    split at h
    · next hi => exact .inr (List.ne_nil_of_mem (List.mem_of_getElem? hi))
    · next hi => exact .inr (List.ne_nil_of_mem (List.mem_of_getElem? hi))
    · exact h

end WakeLock

namespace GraceWatch

/-- The steps of guards, of the task that waits for the grace period, and of its session. -/
inductive Event where
  | lock (e : WakeLock.Event)
  /-- A session starts the task. -/
  | run
  /-- The count is looked at. -/
  | check
  | poll
  /-- The countdown is over. -/
  | elapse
  /-- The count is looked at behind the countdown. -/
  | recheck
  /-- The session aborts the task. -/
  | abort
  deriving DecidableEq, Repr

/-- The permit is taken, or a waiter put down, together with the task's next phase. -/
def setNotifyRelease (g : GraceWatch) (n : Notify) (period : GracePeriod) : GraceWatch where
  lock := { g.lock with notifyRelease := n }
  period := period

/-- A step. The wait for a release is created before the count is looked at, so that no release in
    between is missed. -/
def step (g : GraceWatch) : Event → GraceWatch
  | .lock e => { g with lock := g.lock.step e }
  | .run =>
    match g.period with
    -- Once the period is over, the session runs the watch anew.
    | .outside | .expired => { g with period := .created }
    | .created | .awaiting | .sleeping | .elapsed => g
  | .check =>
    match g.period with
    -- With no guard out, the period begins at once.
    | .created => { g with period := if g.lock.count = 0 then .sleeping else .awaiting }
    | .outside | .awaiting | .sleeping | .elapsed | .expired => g
  | .poll =>
    match g.period with
    | .awaiting =>
      let (n, isOver) := g.lock.notifyRelease.poll
      -- The count is not looked at again.
      g.setNotifyRelease n (if isOver then .sleeping else .awaiting)
    | .outside | .created | .sleeping | .elapsed | .expired => g
  | .elapse =>
    match g.period with
    | .sleeping => { g with period := .elapsed }
    | .outside | .created | .awaiting | .elapsed | .expired => g
  | .recheck =>
    match g.period with
    -- A guard taken meanwhile begins the watch again.
    | .elapsed => { g with period := if g.lock.count = 0 then .expired else .created }
    | .outside | .created | .awaiting | .sleeping | .expired => g
  | .abort => g.setNotifyRelease g.lock.notifyRelease.cancel .outside

/-- The watch after some steps. -/
def after (events : List Event) : GraceWatch := events.foldl step {}

theorem after_concat (events : List Event) (e : Event) :
    after (events ++ [e]) = (after events).step e := by
  rw [after, List.foldl_concat, ← after]

/-- The count is looked at before a wait. -/
def Checks (moment : GraceWatch × Event) : Prop :=
  moment.2 = .check ∧ moment.1.period = .created

/-- The lock is released: its count goes from one to zero. -/
def Releases (moment : GraceWatch × Event) : Prop :=
  ∃ e, moment.2 = .lock e ∧ moment.1.lock.Frees e

/-- The task begins to wait for the end of the grace period. -/
def StartsCountdown (g : GraceWatch) (e : Event) : Prop :=
  g.period ≠ .sleeping ∧ (g.step e).period = .sleeping

instance (g : GraceWatch) (e : Event) : Decidable (g.StartsCountdown e) :=
  inferInstanceAs (Decidable (_ ∧ _))

/-- Each countdown starts when the lock was seen idle, or behind a release after it was looked
    at. -/
def ArmedByRelease (events : List Event) : Prop :=
  Past.Always (fun before e => (after before).StartsCountdown e →
    e = .check ∧ (after before).lock.count = 0 ∨
      Past.Since Releases Checks (Past.moments step {} before)) events

/-- Nothing is left over of an earlier release when the lock is found held. -/
def Fresh (g : GraceWatch) (e : Event) : Prop :=
  Checks (g, e) → g.lock.count ≠ 0 → ¬g.lock.Leftover

variable {g : GraceWatch} {e : Event}

/-- The task waits because it found the lock held just now, or it waited before. -/
theorem step_awaiting (h : (g.step e).period = .awaiting) :
    (Checks (g, e) ∧ g.lock.count ≠ 0 ∧ (g.step e).lock = g.lock) ∨
      g.period = .awaiting ∧ ((g.step e).lock.Leftover → g.lock.Leftover ∨ Releases (g, e)) := by
  cases e with
  | lock e =>
    refine .inr ⟨h, fun hleft => ?_⟩
    rcases WakeLock.leftover_step hleft with hbefore | hfrees
    · exact .inl hbefore
    · exact .inr ⟨e, rfl, hfrees⟩
  | check =>
    cases hg : g.period with
    | created =>
      rw [step, hg] at h ⊢
      refine .inl ⟨⟨rfl, hg⟩, fun hidle => ?_, rfl⟩
      simp [hidle] at h
    | awaiting =>
      refine .inr ⟨rfl, fun hleft => .inl ?_⟩
      rwa [step, hg] at hleft
    | _ => simp [step, hg] at h
  | poll =>
    cases hg : g.period with
    | awaiting =>
      refine .inr ⟨rfl, fun hleft => .inl ?_⟩
      rw [step, hg] at hleft
      refine hleft.imp (fun hready => ?_) id
      by_contra hnot
      exact Notify.not_ready_poll hnot hready
    | _ => simp [step, hg] at h
  | abort => cases h
  | run | elapse =>
    cases hg : g.period with
    | awaiting =>
      refine .inr ⟨rfl, fun hleft => .inl ?_⟩
      rwa [step, hg] at hleft
    | _ => simp [step, hg] at h
  | recheck =>
    cases hg : g.period with
    | awaiting =>
      refine .inr ⟨rfl, fun hleft => .inl ?_⟩
      rwa [step, hg] at hleft
    | elapsed =>
      rw [step, hg] at h
      dsimp only at h
      split at h <;> cases h
    | _ => simp [step, hg] at h

/-- While a guard is held, the task waits for its release. -/
theorem step_of_held (hcreated : g.period = .created) (hheld : g.lock.count ≠ 0) :
    g.step .check = { g with period := .awaiting } := by
  simp only [step, hcreated, if_neg hheld]

/-- A countdown starts on an idle lock, or at the end of a wait. -/
theorem StartsCountdown.cases (h : g.StartsCountdown e) :
    (e = .check ∧ g.lock.count = 0) ∨ (g.period = .awaiting ∧ g.lock.notifyRelease.Ready) := by
  obtain ⟨hbefore, hafter⟩ := h
  cases e with
  | lock e => exact absurd hafter hbefore
  | abort => cases hafter
  | check =>
    cases hg : g.period with
    | created =>
      refine .inl ⟨rfl, ?_⟩
      by_contra hheld
      simp [step, hg, hheld] at hafter
    | _ => simp [step, hg] at hafter hbefore
  | poll =>
    cases hg : g.period with
    | awaiting =>
      refine .inr ⟨rfl, Notify.poll_snd_iff.1 ?_⟩
      by_contra hnot
      simp [step, hg, setNotifyRelease, hnot] at hafter
    | _ => simp [step, hg] at hafter hbefore
  | run | elapse =>
    cases hg : g.period with
    | sleeping => exact absurd hg hbefore
    | _ => simp [step, hg] at hafter
  | recheck =>
    cases hg : g.period with
    | sleeping => exact absurd hg hbefore
    | elapsed =>
      rw [step, hg] at hafter
      dsimp only at hafter
      split at hafter <;> cases hafter
    | _ => simp [step, hg] at hafter

/-- What is left over in a wait comes from a release behind the look at the count. -/
theorem since_of_leftover {events : List Event}
    (hfresh : Past.Always (fun before e => (after before).Fresh e) events)
    (hawaiting : (after events).period = .awaiting) (hleft : (after events).lock.Leftover) :
    Past.Since Releases Checks (Past.moments step {} events) := by
  induction events using List.reverseRecOn with
  | nil => cases hawaiting
  | append_singleton events e ih =>
    obtain ⟨hfresh, he⟩ := Past.always_concat.1 hfresh
    rw [after_concat] at hawaiting hleft
    rw [Past.moments_concat, Past.since_concat]
    rcases step_awaiting hawaiting with ⟨hchecks, hheld, hlock⟩ | ⟨hbefore, hleft'⟩
    · rw [hlock] at hleft
      exact absurd hleft (he hchecks hheld)
    · rcases hleft' hleft with hleft | hreleases
      · refine .inr ⟨ih hfresh hbefore hleft, fun hchecks => ?_⟩
        cases hbefore.symm.trans hchecks.2
      · exact .inl hreleases

/-- If no permit is left over, each countdown was begun by a release since the look at the count. -/
theorem armedByRelease_of_fresh {events : List Event}
    (hfresh : Past.Always (fun before e => (after before).Fresh e) events) :
    ArmedByRelease events := by
  intro before e rest hevents hstarts
  rw [hevents] at hfresh
  obtain ⟨hbefore, -⟩ := Past.always_append.1 hfresh
  rcases hstarts.cases with hidle | ⟨hawaiting, hready⟩
  · exact .inl hidle
  · exact .inr (since_of_leftover hbefore hawaiting (.inl hready))

/-! ## What is left over ends the wait -/

/-- A waiter that is notified begins the countdown. -/
theorem startsCountdown_poll (hawaiting : g.period = .awaiting)
    (hready : g.lock.notifyRelease.Ready) : g.StartsCountdown .poll := by
  refine ⟨by rw [hawaiting]; decide, ?_⟩
  simp [step, hawaiting, setNotifyRelease, Notify.poll_snd_iff.2 hready]

/-- Telling of a release is not the release: that was the count. -/
theorem not_releases_dropping (g : GraceWatch) (i : ℕ) (now : Instant) :
    ¬Releases (g, .lock (.dropping i now)) := by
  rintro ⟨e, he, hone, hzero⟩
  cases he
  rw [WakeLock.step] at hzero
  split at hzero <;> exact absurd (hone.symm.trans hzero) one_ne_zero

/-- The steps by which the first drop that is under way gives its notification. -/
def finish (g : GraceWatch) : List Event :=
  match g.lock.releasing with
  | .stamp :: _ => [.lock (.dropping 0 0), .lock (.dropping 0 0)]
  | .notify :: _ => [.lock (.dropping 0 0)]
  | [] => []

/-- A drop that is under way gives its notification without another release. -/
theorem ready_finish (hreleasing : g.lock.releasing ≠ []) :
    (g.finish.foldl step g).period = g.period ∧
      (g.finish.foldl step g).lock.notifyRelease.Ready ∧ .check ∉ g.finish ∧
        ∀ moment ∈ Past.moments step g g.finish, ¬Releases moment := by
  obtain ⟨r, rest, hr⟩ := List.exists_cons_of_ne_nil hreleasing
  rw [finish, hr]
  cases r with
  | notify =>
    refine ⟨rfl, ?_, by simp, ?_⟩
    · simp only [List.foldl_cons, List.foldl_nil, step, WakeLock.step, hr, List.getElem?_cons_zero]
      exact Notify.ready_notifyOne _
    · simp only [Past.moments, List.forall_mem_singleton]
      exact not_releases_dropping g 0 0
  | stamp =>
    refine ⟨rfl, ?_, by simp, ?_⟩
    · simp only [List.foldl_cons, List.foldl_nil, step, WakeLock.step, hr,
        List.getElem?_cons_zero, List.set_cons_zero]
      exact Notify.ready_notifyOne _
    · simp only [Past.moments, List.forall_mem_cons]
      exact ⟨not_releases_dropping g 0 0, not_releases_dropping _ 0 0, by simp⟩

/-- What is left over starts a countdown without another release. -/
theorem exists_startsCountdown (hawaiting : g.period = .awaiting) (hleft : g.lock.Leftover) :
    ∃ wait, .check ∉ wait ∧ (∀ moment ∈ Past.moments step g wait, ¬Releases moment) ∧
      (wait.foldl step g).StartsCountdown .poll := by
  rcases hleft with hready | hreleasing
  · exact ⟨[], by simp, by simp [Past.moments], startsCountdown_poll hawaiting hready⟩
  · obtain ⟨hperiod, hready, hcheck, hmoments⟩ := ready_finish hreleasing
    exact ⟨g.finish, hcheck, hmoments, startsCountdown_poll (hperiod.trans hawaiting) hready⟩

/-- Whatever happens in the waits of a run, each countdown starts behind a release, just if
    nothing was left over of an earlier one when the lock was found held. -/
theorem armedByRelease_iff (events : List Event) :
    (∀ before wait, before <+: events → .check ∉ wait → ArmedByRelease (before ++ wait)) ↔
      Past.Always (fun before e => (after before).Fresh e) events := by
  constructor
  · intro harmed before e rest hevents hchecks hheld hleft
    obtain ⟨rfl, hcreated⟩ := hchecks
    have hwaits := step_of_held hcreated hheld
    -- Behind the look at the count, what is left over comes, and no release.
    obtain ⟨wait, hcheck, hmoments, hstarts⟩ :=
      exists_startsCountdown (g := (after before).step .check) (by rw [hwaits])
        (by rwa [hwaits])
    have hall := harmed (before ++ [.check]) (wait ++ [.poll]) ⟨rest, by rw [hevents]; simp⟩
      (by simpa using hcheck)
    rw [← after_concat] at hmoments hstarts
    have hsince := hall (before ++ [.check] ++ wait) .poll [] (by simp)
      (by rwa [after, List.foldl_append])
    rcases hsince with ⟨hpoll, -⟩ | hsince
    · cases hpoll
    · rw [Past.moments_append] at hsince
      have hsince := Past.since_of_append hsince hmoments
      rw [Past.moments_concat, Past.since_concat] at hsince
      rcases hsince with ⟨e, he, -⟩ | ⟨-, hnot⟩
      · cases he
      · exact hnot ⟨rfl, hcreated⟩
  · rintro hfresh before wait ⟨rest, rfl⟩ hwait
    refine armedByRelease_of_fresh (Past.always_append.2 ⟨(Past.always_append.1 hfresh).1, ?_⟩)
    rintro front e back rfl hchecks
    exact absurd hchecks.1 (ne_of_mem_of_not_mem (by simp) hwait)

/-- A guard is taken, or the last one dropped, by one task alone. -/
def takeGuard : List Event := [.lock .acquire, .lock (.acquiring 0), .lock (.acquiring 0)]

/-- A guard is dropped in all its steps. -/
def dropGuard : List Event := [.lock .drop, .lock (.dropping 0 0), .lock (.dropping 0 0)]

/-- A guard is dropped; in the countdown, another one is taken and dropped, and then one is
    taken for good. -/
def leftoverPermit : List Event :=
  takeGuard ++ [.run, .check, .poll] ++ dropGuard ++ [.poll] ++ takeGuard ++ dropGuard ++
    takeGuard ++ [.elapse, .recheck]

/-- The countdown begins although a guard is held. -/
theorem leftover_not_armed :
    (after (leftoverPermit ++ [.check])).lock.count = 1 ∧
      (after (leftoverPermit ++ [.check])).StartsCountdown .poll ∧
        ¬ArmedByRelease (leftoverPermit ++ [.check] ++ [.poll]) := by
  have hstarts : (after (leftoverPermit ++ [.check])).StartsCountdown .poll := by decide +kernel
  have hcreated : (after leftoverPermit).period = .created := by decide +kernel
  refine ⟨by decide +kernel, hstarts, fun harmed => ?_⟩
  rcases (Past.always_concat.1 harmed).2 hstarts with ⟨hpoll, -⟩ | hsince
  · cases hpoll
  · -- The last thing before was a look at the count.
    rw [Past.moments_concat, Past.since_concat] at hsince
    rcases hsince with ⟨e, he, -⟩ | ⟨-, hnot⟩
    · cases he
    · exact hnot ⟨rfl, hcreated⟩

end GraceWatch

end Bairelay
