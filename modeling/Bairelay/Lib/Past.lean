import Mathlib

/-!
# The past of a run

Two ways to speak about the log of a run, the newest event last: an event of one
kind happened and none of another kind since (`Since`), and every event was as it
should be given those before it (`Always`). Each is followed along a run by one
equivalence for the next event.
-/

namespace Past

variable {ε : Type*}

/-- Some event is a `P`, and none after it is a `Q`. -/
def Since (P Q : ε → Prop) (log : List ε) : Prop :=
  ∃ before e after, log = before ++ e :: after ∧ P e ∧ ∀ e' ∈ after, ¬ Q e'

/-- Every event is an `R`, given the events before it. -/
def Always (R : List ε → ε → Prop) (log : List ε) : Prop :=
  ∀ before e after, log = before ++ e :: after → R before e

variable {P Q : ε → Prop} {R : List ε → ε → Prop} {log : List ε} {e : ε}

/-- Nothing has happened before the first event. -/
theorem not_since_nil : ¬ Since P Q [] := by
  rintro ⟨before, e, after, h, -⟩
  simp at h

/-- An event of a log with a new event is that one, or was there before. -/
theorem concat_eq_append_cons {before after : List ε} {x : ε}
    (h : log ++ [e] = before ++ x :: after) :
    (log = before ∧ e = x ∧ after = []) ∨
      ∃ rest, after = rest ++ [e] ∧ log = before ++ x :: rest := by
  rcases List.eq_nil_or_concat after with rfl | ⟨rest, y, rfl⟩
  · obtain ⟨rfl, rfl⟩ := List.append_singleton_inj.1 h
    exact .inl ⟨rfl, rfl, rfl⟩
  · rw [List.concat_eq_append, ← List.cons_append, ← List.append_assoc] at h
    obtain ⟨rfl, rfl⟩ := List.append_singleton_inj.1 h
    exact .inr ⟨rest, List.concat_eq_append, rfl⟩

/-- After one more event: it is the one, or the one was before and this does not end it. -/
theorem since_concat : Since P Q (log ++ [e]) ↔ P e ∨ Since P Q log ∧ ¬ Q e := by
  constructor
  · rintro ⟨before, x, after, h, hP, hQ⟩
    rcases concat_eq_append_cons h with ⟨-, rfl, -⟩ | ⟨rest, rfl, rfl⟩
    · exact .inl hP
    · refine .inr ⟨⟨before, x, rest, rfl, hP, fun z hz => hQ z ?_⟩, hQ _ ?_⟩
      · exact List.mem_append_left _ hz
      · exact List.mem_append_right _ List.mem_cons_self
  · rintro (hP | ⟨⟨before, x, after, rfl, hP, hQ⟩, he⟩)
    · exact ⟨log, e, [], rfl, hP, fun _ h => absurd h List.not_mem_nil⟩
    · refine ⟨before, x, after ++ [e], by simp, hP, fun y hy => ?_⟩
      rcases List.mem_append.1 hy with hy | hy
      · exact hQ y hy
      · rwa [List.mem_singleton.1 hy]

/-- Events that are no `P` do not bring one about. -/
theorem since_of_append {xs ys : List ε} (h : Since P Q (xs ++ ys)) (hys : ∀ y ∈ ys, ¬P y) :
    Since P Q xs := by
  induction ys using List.reverseRecOn with
  | nil => rwa [List.append_nil] at h
  | append_singleton ys y ih =>
    rw [← List.append_assoc, since_concat] at h
    rcases h with hy | ⟨h, -⟩
    · exact absurd hy (hys y (by simp))
    · exact ih h fun z hz => hys z (List.mem_append_left _ hz)

/-- Nothing has to hold before the first event. -/
theorem always_nil : Always R [] := by
  intro before e after h
  simp at h

/-- After one more event: it always held, and holds of the last event. -/
theorem always_concat : Always R (log ++ [e]) ↔ Always R log ∧ R log e := by
  constructor
  · intro h
    refine ⟨fun before x after hlog => h before x (after ++ [e]) ?_, h log e [] rfl⟩
    rw [hlog, List.append_assoc, List.cons_append]
  · rintro ⟨h, he⟩ before x after hlog
    rcases concat_eq_append_cons hlog with ⟨rfl, rfl, -⟩ | ⟨rest, -, rfl⟩
    · exact he
    · exact h before x rest rfl

theorem always_append {xs ys : List ε} : Always R (xs ++ ys) ↔
    Always R xs ∧ Always (fun before e => R (xs ++ before) e) ys := by
  induction ys using List.reverseRecOn with
  | nil => simp [always_nil]
  | append_singleton ys y ih =>
    rw [← List.append_assoc, always_concat, ih, always_concat, and_assoc]

/-- Position by position, where it can be decided. -/
theorem always_iff_getElem : Always R log ↔ ∀ i (hi : i < log.length), R (log.take i) log[i] := by
  constructor
  · intro h i hi
    refine h (log.take i) log[i] (log.drop (i + 1)) ?_
    rw [List.cons_getElem_drop_succ, List.take_append_drop]
  · rintro h before e after rfl
    have hi : before.length < (before ++ e :: after).length := by simp
    simpa using h before.length hi

/-- Of a run whose events are the images of others. -/
theorem always_map {κ : Type*} (f : κ → ε) {xs : List κ} :
    Always R (xs.map f) ↔ Always (fun before x => R (before.map f) (f x)) xs := by
  induction xs using List.reverseRecOn with
  | nil => exact iff_of_true always_nil always_nil
  | append_singleton xs x ih =>
    rw [List.map_append, List.map_singleton, always_concat, ih, always_concat]

instance decidableAlways [∀ before e, Decidable (R before e)] (log : List ε) :
    Decidable (Always R log) :=
  decidable_of_iff _ always_iff_getElem.symm

/-- What holds once holds ever after. -/
def Stable (P : List ε → Prop) (log : List ε) : Prop :=
  ∀ before after, before ++ after <+: log → P before → P (before ++ after)

/-- What is never lost in one step is never lost. -/
theorem stable_iff {P : List ε → Prop} :
    Stable P log ↔ Always (fun before e => P before → P (before ++ [e])) log := by
  constructor
  · intro h before e after hlog
    refine h before [e] ⟨after, ?_⟩
    rw [hlog, List.append_assoc, List.singleton_append]
  · intro h before after hprefix hbefore
    induction after using List.reverseRecOn with
    | nil => rwa [List.append_nil]
    | append_singleton after e ih =>
      rw [← List.append_assoc] at hprefix ⊢
      have hholds := ih ((List.prefix_append _ _).trans hprefix)
      obtain ⟨rest, hrest⟩ := hprefix
      have hlog : log = (before ++ after) ++ e :: rest := by
        rw [← hrest, List.append_assoc (before ++ after), List.singleton_append]
      exact h (before ++ after) e rest hlog hholds

/-- How many events are a `P`, since the last one that is a `Q`. -/
def countSince (P Q : ε → Prop) [DecidablePred P] [DecidablePred Q] (log : List ε) : ℕ :=
  (log.reverse.takeWhile (¬Q ·)).countP (P ·)

/-- One event more is counted, unless it starts the count again. -/
theorem countSince_concat [DecidablePred P] [DecidablePred Q] :
    countSince P Q (log ++ [e]) =
      if Q e then 0 else countSince P Q log + if P e then 1 else 0 := by
  rw [countSince, List.reverse_concat, List.takeWhile_cons]
  by_cases hQ : Q e
  · simp [hQ]
  · simp [hQ, List.countP_cons, countSince]

/-! ## Runs -/

section Moments

variable {σ : Type*} (step : σ → ε → σ)

/-- The events of a run, each with the state that it finds. -/
def moments : σ → List ε → List (σ × ε)
  | _, [] => []
  | s, e :: events => (s, e) :: moments (step s e) events

theorem moments_append (s : σ) (xs ys : List ε) :
    moments step s (xs ++ ys) = moments step s xs ++ moments step (xs.foldl step s) ys := by
  induction xs generalizing s with
  | nil => rfl
  | cons x xs ih => rw [List.cons_append, moments, moments, ih, List.cons_append, List.foldl_cons]

theorem moments_concat (s : σ) (xs : List ε) (e : ε) :
    moments step s (xs ++ [e]) = moments step s xs ++ [(xs.foldl step s, e)] :=
  moments_append step s xs [e]

/-- A moment is an event with the state that the events before it have led to. -/
theorem exists_of_mem_moments {s : σ} {xs : List ε} {m : σ × ε} (h : m ∈ moments step s xs) :
    ∃ before after, xs = before ++ m.2 :: after ∧ m.1 = before.foldl step s := by
  induction xs generalizing s with
  | nil => cases h
  | cons x xs ih =>
    rcases List.mem_cons.1 h with rfl | h
    · exact ⟨[], xs, rfl, rfl⟩
    · obtain ⟨before, after, hxs, hm⟩ := ih h
      exact ⟨x :: before, after, by rw [hxs, List.cons_append], hm⟩

theorem mem_of_mem_moments {s : σ} {xs : List ε} {m : σ × ε} (h : m ∈ moments step s xs) :
    m.2 ∈ xs := by
  obtain ⟨before, after, rfl, -⟩ := exists_of_mem_moments step h
  exact List.mem_append_right _ List.mem_cons_self

/-- What a cell holds after a run: what was last written to it, unless it was dropped since. -/
theorem cell_iff_since {α : Type*} (get : σ → Option α) {writes : σ → ε → Option α}
    {drops : σ → ε → α → Prop} {s₀ : σ} (hstart : get s₀ = none)
    (hstep : ∀ s e a, get (step s e) = some a ↔
      writes s e = some a ∨ writes s e = none ∧ get s = some a ∧ ¬drops s e a)
    (events : List ε) (a : α) :
    get (events.foldl step s₀) = some a ↔
      Since (fun m => writes m.1 m.2 = some a) (fun m => writes m.1 m.2 ≠ none ∨ drops m.1 m.2 a)
        (moments step s₀ events) := by
  induction events using List.reverseRecOn with
  | nil =>
    rw [List.foldl_nil, hstart]
    exact iff_of_false (Option.some_ne_none a).symm not_since_nil
  | append_singleton events e ih =>
    rw [List.foldl_concat, hstep, ih, moments_concat, since_concat, not_or, not_not]
    exact or_congr_right (by tauto)

end Moments

end Past
