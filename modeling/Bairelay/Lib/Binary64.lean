import Mathlib.Algebra.Order.Field.Basic
import Mathlib.Algebra.Order.Field.Power
import Mathlib.Data.Rat.Floor
import Mathlib.Tactic.Linarith
import Mathlib.Tactic.Positivity

/-!
# Binary floating-point numbers

The values of a binary floating-point format as exact rationals: `p` bits for the significand, and
a range for the exponent.

* `IsBinary.le_sub_of_lt`: what is less than a power of two is less by at least one unit in the
  last place.
-/

/-- The finite values of a format with `p` bits and these exponents. -/
def IsBinary (p : ℕ) (emin emax : ℤ) (q : ℚ) : Prop :=
  ∃ m e : ℤ, |m| < 2 ^ p ∧ emin ≤ e ∧ e ≤ emax ∧ q = m * 2 ^ e

namespace IsBinary

variable {p : ℕ} {emin emax : ℤ} {q : ℚ}

theorem ofInt {n : ℤ} (hmin : emin ≤ 0) (hmax : 0 ≤ emax) (h : |n| < 2 ^ p) :
    IsBinary p emin emax n :=
  ⟨n, 0, h, hmin, hmax, by rw [zpow_zero, mul_one]⟩

/-- Below `2 ^ (p + k)` the significand and the exponent are those of a number that is smaller by
    `2 ^ k`, at least. -/
theorem le_sub_of_lt (h : IsBinary p emin emax q) {k : ℕ} (hlt : q < 2 ^ (p + k)) :
    q ≤ 2 ^ (p + k) - 2 ^ k := by
  obtain ⟨m, e, hm, -, -, rfl⟩ := h
  have hpos : (0 : ℚ) < 2 ^ k := by positivity
  rcases le_or_gt (k : ℤ) e with hke | hek
  · -- A multiple of `2 ^ k`.
    obtain ⟨j, rfl⟩ := Int.le.dest hke
    have hfactor : (m : ℚ) * 2 ^ ((k : ℤ) + j) = (m * 2 ^ j : ℤ) * 2 ^ k := by
      rw [zpow_add₀ two_ne_zero, zpow_natCast, zpow_natCast]
      push_cast
      ring
    rw [hfactor, pow_add] at hlt ⊢
    have hint : m * 2 ^ j < 2 ^ p := by
      have := lt_of_mul_lt_mul_right hlt hpos.le
      exact_mod_cast this
    have hle : ((m * 2 ^ j : ℤ) : ℚ) ≤ 2 ^ p - 1 := by
      have : m * 2 ^ j ≤ 2 ^ p - 1 := by omega
      exact_mod_cast this
    calc ((m * 2 ^ j : ℤ) : ℚ) * 2 ^ k ≤ (2 ^ p - 1) * 2 ^ k := by gcongr
      _ = 2 ^ p * 2 ^ k - 2 ^ k := by ring
  · -- At most half of that.
    have hsig : (m : ℚ) ≤ 2 ^ p - 1 := by
      have : m ≤ 2 ^ p - 1 := by have := (abs_lt.1 hm).2; omega
      exact_mod_cast this
    have hone : (1 : ℚ) ≤ 2 ^ p := one_le_pow₀ one_le_two
    have hexp : (2 : ℚ) ^ e ≤ 2 ^ k := by
      rw [← zpow_natCast]
      exact zpow_le_zpow_right₀ one_le_two hek.le
    calc (m : ℚ) * 2 ^ e ≤ (2 ^ p - 1) * 2 ^ e := by gcongr
      _ ≤ (2 ^ p - 1) * 2 ^ k := by gcongr
      _ = 2 ^ (p + k) - 2 ^ k := by ring

end IsBinary

/-- A number of `f64`. The sign of a zero is not kept. -/
inductive F64 where
  | finite (value : { q : ℚ // IsBinary 53 (-1074) 971 q })
  | infinite (negative : Bool)
  | nan
  deriving DecidableEq

namespace F64

/-- A whole number. -/
def ofNat (n : ℕ) (h : n < 2 ^ 53) : F64 :=
  .finite ⟨(n : ℤ), .ofInt (by decide) (by decide) (by rw [Nat.abs_cast]; exact_mod_cast h)⟩

/-- A number, neither infinite nor NaN. -/
def isFinite : F64 → Bool
  | finite _ => true
  | _ => false

/-- `x < q` -/
def lt (x : F64) (q : ℚ) : Bool :=
  match x with
  | finite value => value.1 < q
  | infinite negative => negative
  | nan => false

/-- `x <= q` -/
def le (x : F64) (q : ℚ) : Bool :=
  match x with
  | finite value => value.1 ≤ q
  | infinite negative => negative
  | nan => false

end F64
