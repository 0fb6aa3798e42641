import Mathlib

/-!
# Checked arithmetic

Operations of machine numbers that have a result only if it is exact, and the
slice of a list that has one only if its bounds are in order. A loop of such
operations does what it does unchecked (`foldl_of_foldlM`), and a running sum has
a result if the whole sum fits (`isSome_foldlM_fit`).
-/

universe u

namespace Checked

variable {α β : Type u}

/-- A number of `width` bits. -/
def fit (width n : ℕ) : Option ℕ := if n < 2 ^ width then some n else none

/-- The difference of unsigned numbers. -/
def sub (m n : ℕ) : Option ℕ := if n ≤ m then some (m - n) else none

/-- The quotient by a number that is not zero. -/
def div (m n : ℕ) : Option ℕ := if n = 0 then none else some (m / n)

/-- The members from `start` up to `stop`. -/
def slice (data : List α) (start stop : ℕ) : Option (List α) :=
  if start ≤ stop ∧ stop ≤ data.length then some ((data.take stop).drop start) else none

theorem fit_eq_some {width n m : ℕ} : fit width n = some m ↔ n < 2 ^ width ∧ n = m := by
  rw [fit]
  split <;> simp_all

/-- A difference exists if it is not negative. -/
theorem sub_eq_some {m n k : ℕ} : sub m n = some k ↔ n ≤ m ∧ m - n = k := by
  rw [sub]
  split <;> simp_all

/-- A quotient exists if the divisor is not zero. -/
theorem div_eq_some {m n k : ℕ} : div m n = some k ↔ n ≠ 0 ∧ m / n = k := by
  rw [div]
  split <;> simp_all

theorem fit_of_lt {width n : ℕ} (h : n < 2 ^ width) : fit width n = some n := if_pos h

theorem sub_of_le {m n : ℕ} (h : n ≤ m) : sub m n = some (m - n) := if_pos h

theorem div_of_ne_zero {m n : ℕ} (h : n ≠ 0) : div m n = some (m / n) := if_neg h

/-- A slice exists if its ends are in order and in range. -/
theorem slice_of_le {data : List α} {start stop : ℕ} (h : start ≤ stop)
    (hstop : stop ≤ data.length) : slice data start stop = some ((data.take stop).drop start) :=
  if_pos ⟨h, hstop⟩

@[simp]
theorem isSome_fit {width n : ℕ} : (fit width n).isSome ↔ n < 2 ^ width := by
  rw [fit]
  split <;> simp_all

@[simp]
theorem isSome_sub {m n : ℕ} : (sub m n).isSome ↔ n ≤ m := by
  rw [sub]
  split <;> simp_all

/-- What a computation comes to exists if all its operations have results. -/
theorem isSome_bind {x : Option α} {f : α → Option β} :
    (x >>= f).isSome ↔ ∃ a, x = some a ∧ (f a).isSome := by
  cases x <;> simp

/-! ## Loops -/

/-- Where checked steps have results, the loop without the checks has the same, in `φ` of it. -/
theorem foldl_of_foldlM {γ : Type*} (φ : β → γ) {step? : β → α → Option β} {step : γ → α → γ}
    (hstep : ∀ b a b', step? b a = some b' → step (φ b) a = φ b') {l : List α} {b b' : β}
    (h : l.foldlM step? b = some b') : l.foldl step (φ b) = φ b' := by
  induction l generalizing b with
  | nil =>
    obtain rfl := Option.some.inj h
    rfl
  | cons a l ih =>
    rw [List.foldlM_cons] at h
    obtain ⟨c, hc, hrest⟩ := Option.bind_eq_some_iff.1 h
    rw [List.foldl_cons, hstep b a c hc]
    exact ih hrest

/-- No running sum is greater than the whole sum. -/
theorem isSome_foldlM_fit {width : ℕ} {f : α → ℕ} {l : List α} {init : ℕ}
    (hinit : init < 2 ^ width) : (l.foldlM (fun sum a => fit width (sum + f a)) init).isSome ↔
      init + (l.map f).sum < 2 ^ width := by
  induction l generalizing init with
  | nil => exact iff_of_true rfl (by simpa using hinit)
  | cons a l ih =>
    rw [List.foldlM_cons, List.map_cons, List.sum_cons, ← Nat.add_assoc]
    by_cases hfit : init + f a < 2 ^ width
    · rw [fit_of_lt hfit]
      exact ih hfit
    · rw [fit, if_neg hfit]
      exact iff_of_false Bool.false_ne_true fun hlt => hfit (Nat.lt_of_le_of_lt (by omega) hlt)

/-- What is left over in each division is lost. -/
theorem sum_div_le {f : α → ℕ} {n : ℕ} {l : List α} :
    (l.map fun a => f a / n).sum ≤ (l.map f).sum / n := by
  induction l with
  | nil => exact Nat.zero_le _
  | cons a l ih =>
    rw [List.map_cons, List.map_cons, List.sum_cons, List.sum_cons]
    exact (Nat.add_le_add_left ih _).trans Nat.div_add_div_le_add_div

end Checked
