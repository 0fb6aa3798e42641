import Mathlib

/-!
# Stable partitions

A list is partitioned by a predicate if the elements with it come last; the partition is stable
if it keeps the order of the elements with it, and of those without (`IsStablePartition`).

* `isStablePartition_iff`: a list has one stable partition;
* `IsStablePartition.filter`: it stays one if elements are left out.
-/

variable {α : Type*} {p : α → Bool} {xs ys : List α}

/-- `ys` are the elements of `xs`, in order, but those with `p` last. -/
structure IsStablePartition (p : α → Bool) (xs ys : List α) : Prop where
  sorted : ys.Pairwise fun x y => p x → p y
  with_eq : ys.filter p = xs.filter p
  without_eq : ys.filter (!p ·) = xs.filter (!p ·)

/-- What is partitioned is first the elements without the predicate, then those with it. -/
theorem filter_append_filter_of_sorted (h : ys.Pairwise fun x y => p x → p y) :
    ys.filter (!p ·) ++ ys.filter p = ys := by
  induction ys with
  | nil => rfl
  | cons y ys ih =>
    obtain ⟨hy, hys⟩ := List.pairwise_cons.1 h
    cases hp : p y with
    | false => simpa [hp] using ih hys
    | true =>
      -- Once an element has the predicate, all behind it have.
      have hall : ∀ x ∈ ys, p x := fun x hx => hy x hx hp
      have hnone : ys.filter (!p ·) = [] := List.filter_eq_nil_iff.2 (by simpa using hall)
      simpa [hp, hnone] using hall

/-- The partition is unique: what the predicate refuses, in order, and then what it takes. -/
theorem isStablePartition_iff :
    IsStablePartition p xs ys ↔ ys = xs.filter (!p ·) ++ xs.filter p := by
  constructor
  · intro h
    rw [← h.with_eq, ← h.without_eq, filter_append_filter_of_sorted h.sorted]
  · rintro rfl
    refine ⟨List.pairwise_append.2 ⟨?_, ?_, ?_⟩, ?_, ?_⟩
    · rw [List.pairwise_filter]
      exact List.pairwise_of_forall fun x y hx _ hpx => by simp [hpx] at hx
    · rw [List.pairwise_filter]
      exact List.pairwise_of_forall fun x y _ hy _ => hy
    · exact fun x _ y hy _ => (List.mem_filter.1 hy).2
    · simp [List.filter_append, List.filter_filter]
    · simp [List.filter_append, List.filter_filter]

namespace IsStablePartition

theorem perm (h : IsStablePartition p xs ys) : ys.Perm xs := by
  rw [isStablePartition_iff.1 h]
  exact List.perm_append_comm.trans (List.filter_append_perm p xs)

theorem eq_nil_iff (h : IsStablePartition p xs ys) : ys = [] ↔ xs = [] := by
  rw [← List.length_eq_zero_iff, h.perm.length_eq, List.length_eq_zero_iff]

/-- Leaving out the same elements of both. -/
theorem filter (h : IsStablePartition p xs ys) (q : α → Bool) :
    IsStablePartition p (xs.filter q) (ys.filter q) where
  sorted := h.sorted.filter q
  with_eq := by rw [List.filter_comm, h.with_eq, List.filter_comm]
  without_eq := by rw [List.filter_comm, h.without_eq, List.filter_comm]

end IsStablePartition
