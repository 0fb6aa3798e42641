import Mathlib

/-!
# Progress under a schedule

A system that takes the events of a list leads from `P` to `Q` by a script (`Leads`), if it
gets from a state where `P` holds to one where `Q` does, in whatever schedule the events of
the script come in their order, with any others between them. For each event of the script
it is enough that the property is stable under all other events, and that the event brings
the next one about (`leads_cons`). So nothing is assumed of the schedule but that everyone
who has to act gets a turn.
-/

namespace Schedule

variable {σ ε : Type*} (step : σ → ε → σ)

/-- What holds before an event, holds after it. -/
def Stable (P : σ → Prop) : Prop := ∀ s e, P s → P (step s e)

/-- In any schedule of the script, `P` leads to `Q`. -/
def Leads (P : σ → Prop) (script : List ε) (Q : σ → Prop) : Prop :=
  ∀ s schedule, script.Sublist schedule → P s → Q (schedule.foldl step s)

variable {step} {P Q R : σ → Prop}

theorem Stable.foldl (h : Stable step P) {s : σ} (hs : P s) (events : List ε) :
    P (events.foldl step s) := by
  induction events generalizing s with
  | nil => exact hs
  | cons e events ih => exact ih (h s e hs)

/-- Two stable properties are stable together. -/
theorem Stable.and (hP : Stable step P) (hQ : Stable step Q) :
    Stable step fun s => P s ∧ Q s :=
  fun s e h => ⟨hP s e h.1, hQ s e h.2⟩

/-- Nothing has to happen for what holds already. -/
theorem leads_nil (h : Stable step P) : Leads step P [] P :=
  fun _ schedule _ hs => h.foldl hs schedule

/-- The first event of a script leads to where the rest of it starts. -/
theorem leads_cons {e : ε} {script : List ε} (hP : Stable step P)
    (he : ∀ s, P s → Q (step s e)) (h : Leads step Q script R) :
    Leads step P (e :: script) R := by
  intro s schedule hsub hs
  induction schedule generalizing s with
  | nil => cases hsub
  | cons e' schedule ih =>
    cases hsub with
    | cons _ hsub => exact ih _ hsub (hP s e' hs)
    | cons_cons _ hsub => exact h _ schedule hsub (he s hs)

end Schedule
