import Bairelay.Lib.Word32
import Bairelay.Lib.KeyMap

/-!
# Bytes and time

Byte buffers are lists. The program's clocks are monotonic: an instant is the
number of nanoseconds since some fixed origin, a duration a number of
nanoseconds, and the difference of two instants saturates at zero, as
`Instant::saturating_duration_since` and `Instant - Instant` do.
-/

namespace Bairelay

/-- A byte buffer. -/
abbrev Bytes := List UInt8

/-- What holds of all 256 bytes holds of every byte. -/
theorem forall_byte {P : UInt8 → Prop} (h : ∀ n < 256, P (UInt8.ofNat n)) (b : UInt8) : P b := by
  rw [← @UInt8.ofNat_toNat b]
  exact h b.toNat b.toNat_lt

/-- The chunks done so far, the one being filled and what is left make up the list. -/
theorem toChunks_go_flatten {α : Type*} (n : ℕ) (l : List α) (acc : Array α)
    (done : Array (List α)) : (List.toChunks.go n l acc done).flatten =
      done.toList.flatten ++ acc.toList ++ l := by
  induction l generalizing acc done with
  | nil => simp [List.toChunks.go]
  | cons a l ih =>
    rw [List.toChunks.go]
    split <;> simp [ih]

/-- Cutting a list into chunks, as `slice::chunks` does, loses nothing. -/
theorem flatten_toChunks {α : Type*} (n : ℕ) (l : List α) : (l.toChunks n).flatten = l := by
  cases l with
  | nil => rfl
  | cons a l => cases n <;> simp [List.toChunks, toChunks_go_flatten]

/-- A point in time, in nanoseconds since a fixed origin. -/
abbrev Instant := ℕ

/-- A span of time, in nanoseconds. -/
abbrev Duration := ℕ

/-- `Duration::MAX`. -/
def Duration.max : Duration := 2 ^ 64 * 1000000000 - 1

/-- `Duration::from_micros`. -/
def Duration.ofMicros (n : ℕ) : Duration := n * 1000

/-- `Duration::from_millis`. -/
def Duration.ofMillis (n : ℕ) : Duration := n * 1000000

/-- `Duration::from_secs`. -/
def Duration.ofSecs (n : ℕ) : Duration := n * 1000000000

end Bairelay
