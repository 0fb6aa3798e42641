import Mathlib

/-!
# Writes to a store

A store maps keys to values, or to nothing. Writes are made one after the other, and each sets a
key or clears it.
-/

namespace Writes

variable {κ α : Type*} [DecidableEq κ]

/-- The store after some writes, the last one at the end. -/
def apply (store : κ → Option α) (writes : List (κ × Option α)) : κ → Option α :=
  writes.foldl (fun store w => Function.update store w.1 w.2) store

variable {store : κ → Option α} {writes : List (κ × Option α)} {k : κ} {a : α}

theorem apply_concat (w : κ × Option α) : apply store (writes ++ [w]) k =
    if k = w.1 then w.2 else apply store writes k := by
  rw [apply, List.foldl_concat, ← apply, Function.update_apply]

/-- Cells that are not written keep what they have. -/
theorem apply_of_not_mem (h : ∀ w ∈ writes, w.1 ≠ k) : apply store writes k = store k := by
  induction writes using List.reverseRecOn with
  | nil => rfl
  | append_singleton writes w ih =>
    rw [apply_concat, if_neg (h w (List.mem_concat_self ..)).symm]
    exact ih fun w' hw' => h w' (List.mem_append_left _ hw')

/-- What a key holds was written, or was there and is not cleared. -/
theorem of_apply_eq_some (h : apply store writes k = some a) :
    (k, some a) ∈ writes ∨ store k = some a ∧ (k, none) ∉ writes := by
  induction writes using List.reverseRecOn with
  | nil => exact .inr ⟨h, List.not_mem_nil⟩
  | append_singleton writes w ih =>
    rw [apply_concat] at h
    split at h
    · next hk =>
      rw [hk, ← h]
      exact .inl (List.mem_append_right _ (List.mem_singleton_self _))
    · next hk =>
      rcases ih h with hset | ⟨hstore, hclear⟩
      · exact .inl (List.mem_append_left _ hset)
      · refine .inr ⟨hstore, fun hmem => ?_⟩
        rcases List.mem_append.1 hmem with hmem | hmem
        · exact hclear hmem
        · exact hk (congrArg Prod.fst (List.mem_singleton.1 hmem))

end Writes
