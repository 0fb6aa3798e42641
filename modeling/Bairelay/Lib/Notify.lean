import Mathlib

/-!
# Notifications

A cell through which tasks wake another one, of which there is at most one at a time. A
notification goes to the task that is parked; if none is, it is kept as a permit for the next
wait, and any number of them are kept as one.

* `ready_notifyOne`: a notification is never lost on a task that waits;
* `poll_snd_iff`: a wait is over just if there is a notification for it.
-/

/-- The task that waits. -/
inductive Notify.Waiter where
  /-- There is none, or it has not been run yet. -/
  | absent
  | parked
  /-- It is notified, and has not been run since. -/
  | woken
  deriving DecidableEq, Repr

/-- A permit, and whoever waits for it. -/
structure Notify where
  permit : Bool := false
  waiter : Notify.Waiter := .absent
  deriving DecidableEq, Repr

namespace Notify

/-- Wake whoever waits, or leave the permit for the next one. -/
def notifyOne (n : Notify) : Notify :=
  match n.waiter with
  | .parked => { n with waiter := .woken }
  | .absent | .woken => { n with permit := true }

/-- The task that waits is run: the cell after that, and whether the wait is over. -/
def poll (n : Notify) : Notify × Bool :=
  match n.waiter with
  | .absent =>
    if n.permit then ({ n with permit := false }, true) else ({ n with waiter := .parked }, false)
  | .parked => (n, false)
  | .woken => ({ n with waiter := .absent }, true)

/-- The task gives up its wait. A notification that it has not taken is for the next one. -/
def cancel (n : Notify) : Notify :=
  match n.waiter with
  | .absent | .parked => { n with waiter := .absent }
  | .woken => { permit := true, waiter := .absent }

/-- There is a notification for the task that waits. -/
def Ready (n : Notify) : Prop := n.waiter = .woken ∨ n.waiter = .absent ∧ n.permit = true

instance : DecidablePred Ready := fun _ => inferInstanceAs (Decidable (_ ∨ _))

variable {n : Notify}

/-- A notification is never lost: somebody is woken, or finds the permit. -/
theorem ready_notifyOne (n : Notify) : n.notifyOne.Ready := by
  rw [notifyOne]
  split
  · exact .inl rfl
  · next h => exact .inr ⟨h, rfl⟩
  · next h => exact .inl h

/-- Polling is ready if the permit is there or the waiter was woken. -/
theorem poll_snd_iff : n.poll.2 ↔ n.Ready := by
  rw [poll]
  split
  · next h => split <;> simp_all [Ready]
  · next h => simp [Ready, h]
  · next h => simp [Ready, h]

/-- Without a notification, a wait goes on without one. -/
theorem not_ready_poll (h : ¬n.Ready) : ¬n.poll.1.Ready := by
  rw [poll]
  split
  · split <;> simp_all [Ready]
  · exact h
  · next hwoken => exact absurd (.inl hwoken) h

end Notify
