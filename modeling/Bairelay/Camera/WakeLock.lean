import Bairelay.Basic
import Bairelay.Lib.Notify
import Bairelay.Lib.Past

/-!
# The wake lock

A camera on a battery is kept awake by guards that are counted (`wake_lock.rs`). The count, the
time of the last release and the two notifications are cells of their own, so the tasks that
take and drop guards go through them one step at a time, in between each other. A task that
waits for a guard to be taken sleeps on one of the notifications.

* `waitForAcquire_sound`: the wait is over only when the count was seen above zero, and it is
  not stuck in a time in which the count stays there.
-/

namespace Bairelay

/-- What a task that has taken the count from zero is to do next. -/
inductive Acquiring where
  | clear
  | notify
  deriving DecidableEq, Repr

/-- What a task that has taken the count to zero is to do next. -/
inductive Releasing where
  | stamp
  | notify
  deriving DecidableEq, Repr

/-- The counter of guards, the time of the last release, and the two notifications. -/
structure WakeLock where
  count : ℕ := 0
  lastReleaseAt : Option Instant := none
  notifyRelease : Notify := {}
  notifyAcquire : Notify := {}
  /-- The guards that callers have. -/
  guards : ℕ := 0
  acquiring : List Acquiring := []
  releasing : List Releasing := []
  deriving DecidableEq, Repr

namespace WakeLock

/-- A guard is taken and dropped in two steps each: the count, and what follows from it. -/
inductive Event where
  /-- `acquire`, up to the count. -/
  | acquire
  | acquiring (i : ℕ)
  /-- A guard is dropped, up to the count. -/
  | drop
  | dropping (i : ℕ) (now : Instant)
  deriving DecidableEq, Repr

/-- A step of a guard. The second half of each acts on what the first half counted, whatever has
    happened since. -/
def step (w : WakeLock) : Event → WakeLock
  | .acquire =>
    -- What was counted before decides; the rest is done later, whatever the count is then.
    if w.count = 0 then { w with count := w.count + 1, acquiring := w.acquiring ++ [.clear] }
    else { w with count := w.count + 1, guards := w.guards + 1 }
  | .acquiring i =>
    match w.acquiring[i]? with
    -- A drop that is still under way may set the time again.
    | some .clear => { w with lastReleaseAt := none, acquiring := w.acquiring.set i .notify }
    | some .notify =>
      { w with
        notifyAcquire := w.notifyAcquire.notifyOne
        acquiring := w.acquiring.eraseIdx i
        guards := w.guards + 1 }
    | none => w
  | .drop =>
    if w.guards = 0 then w
    else if w.count = 1 then
      { w with count := w.count - 1, guards := w.guards - 1, releasing := w.releasing ++ [.stamp] }
    else { w with count := w.count - 1, guards := w.guards - 1 }
  | .dropping i now =>
    match w.releasing[i]? with
    | some .stamp => { w with lastReleaseAt := some now, releasing := w.releasing.set i .notify }
    | some .notify =>
      { w with
        notifyRelease := w.notifyRelease.notifyOne
        releasing := w.releasing.eraseIdx i }
    | none => w

variable {w : WakeLock}

/-- The notification of an acquire is given by acquires only. -/
theorem ready_notifyAcquire_step (h : w.notifyAcquire.Ready) (e : Event) :
    (w.step e).notifyAcquire.Ready := by
  cases e with
  | acquire =>
    rw [step]
    split <;> exact h
  | acquiring i =>
    rw [step]
    split
    · exact h
    · exact Notify.ready_notifyOne _
    · exact h
  | drop =>
    rw [step]
    split
    · exact h
    · split <;> exact h
  | dropping i now =>
    rw [step]
    split <;> exact h

end WakeLock

/-! ## Waiting for an acquire -/

/-- Where the task is that calls `wait_for_acquire`. -/
inductive WaitForAcquire where
  /-- Not in a call, or one was given up. -/
  | outside
  /-- The future is created, the count is still to be looked at. -/
  | created
  | awaiting
  /-- Behind the wait, the count is still to be looked at. -/
  | notified
  | returned
  deriving DecidableEq, Repr

/-- A wake lock and the task of the camera, which sleeps while nobody has a guard. -/
structure ParkedCamera where
  lock : WakeLock := {}
  wait : WaitForAcquire := .outside
  deriving DecidableEq, Repr

namespace ParkedCamera

/-- The steps of guards and of a camera that is parked. -/
inductive Event where
  | lock (e : WakeLock.Event)
  | call
  /-- The count is looked at. -/
  | check
  | poll
  /-- The call is given up. -/
  | cancel
  deriving DecidableEq, Repr

/-- The permit is taken, or a waiter put down, together with the next phase of the wait. -/
def setNotifyAcquire (c : ParkedCamera) (n : Notify) (wait : WaitForAcquire) : ParkedCamera where
  lock := { c.lock with notifyAcquire := n }
  wait := wait

/-- A step. The wait is created before the count is looked at. -/
def step (c : ParkedCamera) : Event → ParkedCamera
  | .lock e => { c with lock := c.lock.step e }
  | .call =>
    match c.wait with
    | .outside | .returned => { c with wait := .created }
    | .created | .awaiting | .notified => c
  | .check =>
    match c.wait with
    | .created => { c with wait := if c.lock.count = 0 then .awaiting else .returned }
    -- A permit of an earlier session is dropped here.
    | .notified => { c with wait := if c.lock.count = 0 then .created else .returned }
    | .outside | .awaiting | .returned => c
  | .poll =>
    match c.wait with
    | .awaiting =>
      let (n, isOver) := c.lock.notifyAcquire.poll
      c.setNotifyAcquire n (if isOver then .notified else .awaiting)
    | .outside | .created | .notified | .returned => c
  | .cancel => c.setNotifyAcquire c.lock.notifyAcquire.cancel .outside

/-- The camera after some steps. -/
def run (events : List Event) : ParkedCamera := events.foldl step {}

theorem run_concat (events : List Event) (e : Event) :
    run (events ++ [e]) = (run events).step e := by
  rw [run, List.foldl_concat, ← run]

/-- The task is in the wait, and nothing is there to wake it. -/
def Stuck (c : ParkedCamera) : Prop := c.wait = .awaiting ∧ ¬c.lock.notifyAcquire.Ready

/-- A call returns by this event. -/
def Returns (c : ParkedCamera) (e : Event) : Prop :=
  c.wait ≠ .returned ∧ (c.step e).wait = .returned

/-- An acquire gives its notification. -/
def Notifies (moment : ParkedCamera × Event) : Prop :=
  ∃ i, moment.2 = .lock (.acquiring i) ∧ moment.1.lock.acquiring[i]? = some .notify

/-- Some acquire has given its notification, and the count was never zero since. -/
def HeldSinceNotify (events : List Event) : Prop :=
  Past.Since Notifies (·.1.lock.count = 0) (Past.moments step {} events) ∧
    (run events).lock.count ≠ 0

variable {c : ParkedCamera} {e : Event}

/-- Both ways out of a call are behind a look at the count. -/
theorem count_ne_zero_of_returns (h : c.Returns e) : c.lock.count ≠ 0 := by
  obtain ⟨hbefore, hafter⟩ := h
  intro hidle
  cases e with
  | lock e => exact hbefore hafter
  | cancel => cases hafter
  | call => cases hwait : c.wait <;> simp_all [step]
  | check => cases hwait : c.wait <;> simp_all [step]
  | poll =>
    cases hwait : c.wait with
    | awaiting =>
      simp only [step, hwait, setNotifyAcquire] at hafter
      split at hafter <;> cases hafter
    | _ => simp_all [step]

/-- Whoever notifies leaves nobody waiting for it. -/
theorem not_stuck_of_notifies (h : Notifies (c, e)) : ¬(c.step e).Stuck := by
  obtain ⟨i, he, hi⟩ := h
  dsimp only at he hi
  rintro ⟨-, hready⟩
  rw [he, step, WakeLock.step, hi] at hready
  exact hready (Notify.ready_notifyOne _)

/-- With the count above zero, no task goes into the wait, and one that is in it finds the
    notification. -/
theorem not_stuck_step (h : ¬c.Stuck) (hheld : c.lock.count ≠ 0) (e : Event) :
    ¬(c.step e).Stuck := by
  have hready : c.wait = .awaiting → c.lock.notifyAcquire.Ready := by
    intro hwait
    by_contra hnot
    exact h ⟨hwait, hnot⟩
  rintro ⟨hwait, hstuck⟩
  cases e with
  | lock e => exact hstuck (WakeLock.ready_notifyAcquire_step (hready hwait) e)
  | cancel => cases hwait
  | call =>
    cases hc : c.wait with
    | awaiting =>
      rw [step, hc] at hstuck
      exact hstuck (hready hc)
    | _ => simp [step, hc] at hwait
  | check =>
    cases hc : c.wait with
    | awaiting =>
      rw [step, hc] at hstuck
      exact hstuck (hready hc)
    | _ => simp [step, hc, hheld] at hwait
  | poll =>
    cases hc : c.wait with
    | awaiting =>
      have hover := Notify.poll_snd_iff.2 (hready hc)
      simp [step, hc, setNotifyAcquire, hover] at hwait
    | _ => simp [step, hc] at hwait

/-- From the notification on, as long as the count is above zero, the task is not stuck. -/
theorem not_stuck_of_held {events : List Event} (h : HeldSinceNotify events) :
    ¬(run events).Stuck := by
  obtain ⟨hsince, hheld⟩ := h
  induction events using List.reverseRecOn with
  | nil => exact absurd hsince Past.not_since_nil
  | append_singleton events e ih =>
    rw [Past.moments_concat, Past.since_concat] at hsince
    rw [run_concat]
    rcases hsince with hnotifies | ⟨hsince, hheld'⟩
    · exact not_stuck_of_notifies hnotifies
    · exact not_stuck_step (ih hsince hheld') hheld' e

/-- A call returns only when it has seen the count above zero, and it is never stuck when an
    acquire has given its notification and the count was above zero since. -/
theorem waitForAcquire_sound (events : List Event) :
    (∀ e, (run events).Returns e → (run events).lock.count ≠ 0) ∧
      (HeldSinceNotify events → ¬(run events).Stuck) :=
  ⟨fun _ => count_ne_zero_of_returns, not_stuck_of_held⟩

end ParkedCamera

end Bairelay
