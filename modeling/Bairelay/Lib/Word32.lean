import Mathlib

/-!
# 32-bit words

What wire protocols do with a 32-bit counter beyond wrapping addition:

* saturating addition (`saturatingAdd`), which stops at the largest word;
* the *serial order*: `a` is not after `b` if `b` is reached from `a` by going
  forward less than half the circle. It compares timestamps that wrap, and it
  is only an order on words less than half the circle apart.
-/

namespace Word32

/-- The largest word. -/
def maxValue : UInt32 := 0xffffffff

/-- Addition stopping at the largest word. -/
def saturatingAdd (a b : UInt32) : UInt32 :=
  if a.toNat + b.toNat < 2 ^ 32 then a + b else maxValue

theorem toNat_maxValue : maxValue.toNat = 2 ^ 32 - 1 := rfl

theorem toNat_saturatingAdd (a b : UInt32) :
    (saturatingAdd a b).toNat = min (a.toNat + b.toNat) (2 ^ 32 - 1) := by
  unfold saturatingAdd
  split
  · next h => rw [UInt32.toNat_add, Nat.mod_eq_of_lt h]; omega
  · next h => rw [toNat_maxValue]; omega

/-- A word other than the largest one is below it. -/
theorem lt_of_ne_maxValue {a : UInt32} (h : a ≠ maxValue) : a.toNat < 2 ^ 32 - 1 := by
  have hlt := a.toNat_lt
  have hne : a.toNat ≠ 2 ^ 32 - 1 := fun e => h (UInt32.toNat_inj.1 e)
  omega

/-- The words of a number below `2 ^ 32` and of the number itself. -/
theorem toNat_ofNat_of_lt {n : ℕ} (h : n < 2 ^ 32) : (UInt32.ofNat n).toNat = n := by
  rw [UInt32.toNat_ofNat', Nat.mod_eq_of_lt h]

instance lawfulOrderMax : Std.LawfulOrderMax UInt32 where
  max_le_iff a b c := by
    show (if a ≤ b then b else a) ≤ c ↔ _
    split <;> simp only [UInt32.le_iff_toNat_le] at * <;> omega
  max_eq_or a b := by
    show (if a ≤ b then b else a) = _ ∨ (if a ≤ b then b else a) = _
    split <;> simp

theorem toNat_min (a b : UInt32) : (min a b).toNat = min a.toNat b.toNat := by
  show (if a ≤ b then a else b).toNat = _
  split <;> simp only [UInt32.le_iff_toNat_le] at * <;> omega

/-! ## The serial order -/

/-- `a` is not after `b` in the serial order: `b` is less than half the circle
    ahead of `a`. -/
def SerialLe (a b : UInt32) : Prop := (b - a).toNat < 2 ^ 31

instance (a b : UInt32) : Decidable (SerialLe a b) :=
  inferInstanceAs (Decidable (_ < _))

instance serialLe_refl : Std.Refl SerialLe where
  refl a := by rw [SerialLe, UInt32.sub_self]; decide

/-- The distance ahead of a word advanced by `n`. -/
theorem toNat_add_ofNat_sub (a : UInt32) (n : ℕ) :
    (a + UInt32.ofNat n - a).toNat = n % 2 ^ 32 := by
  rw [UInt32.add_comm, UInt32.add_sub_cancel, UInt32.toNat_ofNat']

/-- A word is not after itself advanced by less than half the circle. -/
theorem serialLe_add_ofNat_iff (a : UInt32) (n : ℕ) :
    SerialLe a (a + UInt32.ofNat n) ↔ n % 2 ^ 32 < 2 ^ 31 := by
  rw [SerialLe, toNat_add_ofNat_sub]

/-- Advancing `a` by at most its distance to `b` does not overtake `b`. -/
theorem serialLe_of_advance_le {a b : UInt32} {n : ℕ} (hab : SerialLe a b)
    (hn : n ≤ (b - a).toNat) : SerialLe (a + UInt32.ofNat n) b := by
  have ha := a.toNat_lt
  have hb := b.toNat_lt
  simp only [SerialLe, UInt32.toNat_sub, UInt32.toNat_add, UInt32.toNat_ofNat'] at *
  omega

end Word32
