import Mathlib

/-!
# Gates

A gate in front of a sequence holds back what comes before the first element that opens it,
and lets that one pass and all after it (`held`, `passed`). Each is followed by one equation
for the next element, with the gate closed or open.

What passes may be cut into blocks, one for each element: a relation that holds along the
elements holds along the blocks, and conversely, as long as no block is empty
(`isChain_flatMap_iff`).
-/

namespace Gate

variable {α β τ : Type*}

/-- What a gate holds back. -/
def held (opens : α → Bool) (xs : List α) : List α := xs.takeWhile (!opens ·)

/-- What a gate lets pass. -/
def passed (opens : α → Bool) (xs : List α) : List α := xs.dropWhile (!opens ·)

variable {opens : α → Bool} {xs : List α} {x : α}

/-- What is held and what has passed are all there is. -/
theorem held_append_passed : held opens xs ++ passed opens xs = xs :=
  List.takeWhile_append_dropWhile

theorem passed_subset : passed opens xs ⊆ xs := (List.dropWhile_sublist _).subset

theorem passed_map (f : β → α) (ys : List β) :
    passed opens (ys.map f) = (passed (opens ∘ f) ys).map f := List.dropWhile_map

/-- Nothing passes while nothing opens the gate. -/
theorem passed_eq_nil_iff : passed opens xs = [] ↔ ∀ x ∈ xs, opens x = false := by
  simp [passed]

theorem held_eq_self (h : passed opens xs = []) : held opens xs = xs := by
  have hall := @held_append_passed _ opens xs
  rwa [h, List.append_nil] at hall

/-- The gate is closed, and stays so. -/
theorem held_concat_of_closed (h : passed opens xs = []) (hx : opens x = false) :
    held opens (xs ++ [x]) = held opens xs ++ [x] ∧ passed opens (xs ++ [x]) = [] := by
  have hclosed : passed opens (xs ++ [x]) = [] := by
    rw [passed_eq_nil_iff] at h ⊢
    exact List.forall_mem_append.2 ⟨h, List.forall_mem_singleton.2 hx⟩
  exact ⟨by rw [held_eq_self hclosed, held_eq_self h], hclosed⟩

/-- The gate is open, or is opened. -/
theorem passed_concat_of_open (h : passed opens xs ≠ [] ∨ opens x) :
    held opens (xs ++ [x]) = held opens xs ∧
      passed opens (xs ++ [x]) = passed opens xs ++ [x] := by
  have hpassed : passed opens (xs ++ [x]) = passed opens xs ++ [x] := by
    rw [passed, List.dropWhile_append]
    split
    · next hnil =>
      have hnil : passed opens xs = [] := List.isEmpty_iff.1 hnil
      have hx : opens x := h.resolve_left (not_not.2 hnil)
      rw [hnil]
      simp [hx]
    · rfl
  have hall := @held_append_passed _ opens (xs ++ [x])
  rw [hpassed, ← List.append_assoc, List.append_left_inj] at hall
  exact ⟨List.append_cancel_right (hall.trans held_append_passed.symm), hpassed⟩

/-! ## Blocks -/

section Blocks

variable {R : τ → τ → Prop} [Std.Refl R] {label : α → τ} {block : α → List τ}

/-- A block of one label. -/
theorem isChain_block {a : τ} {ts : List τ} (h : ∀ t ∈ ts, t = a) : ts.IsChain R := by
  rw [List.eq_replicate_of_mem h]
  exact List.isChain_replicate_of_rel _ (Std.Refl.refl a)

/-- A chain over blocks, each with one label, is a chain over their labels. -/
theorem isChain_flatMap_iff (hlabel : ∀ x ∈ xs, ∀ t ∈ block x, t = label x)
    (hne : ∀ x ∈ xs, block x ≠ []) :
    (xs.flatMap block).IsChain R ↔ (xs.map label).IsChain R := by
  induction xs with
  | nil => simp
  | cons x xs ih =>
    obtain ⟨hx, hxs⟩ := List.forall_mem_cons.1 hlabel
    obtain ⟨hne, hnes⟩ := List.forall_mem_cons.1 hne
    have hlast : ∀ t ∈ (block x).getLast?, t = label x :=
      fun t ht => hx t (List.mem_of_getLast? ht)
    obtain ⟨t, ht⟩ := Option.ne_none_iff_exists'.1 (mt List.getLast?_eq_none_iff.1 hne)
    rw [List.flatMap_cons, List.isChain_append, ih hxs hnes, List.map_cons, List.isChain_cons,
      and_iff_right (isChain_block hx), and_comm]
    refine and_congr_left' ?_
    -- The first label of the rest is that of the first block.
    have hhead : (xs.flatMap block).head? = (xs.map label).head? := by
      cases xs with
      | nil => rfl
      | cons y ys =>
        have hy := (List.forall_mem_cons.1 hxs).1
        obtain ⟨u, hu⟩ := Option.ne_none_iff_exists'.1
          (mt List.head?_eq_none_iff.1 (List.forall_mem_cons.1 hnes).1)
        rw [List.flatMap_cons, List.head?_append, hu, List.map_cons, List.head?_cons,
          hy u (List.mem_of_head? hu)]
        rfl
    rw [hhead]
    constructor
    · intro h y hy
      rw [← hlast t ht]
      exact h t ht y hy
    · intro h t' ht' y hy
      rw [hlast t' ht']
      exact h y hy

/-- The last block may be empty. -/
theorem isChain_flatMap (hlabel : ∀ x ∈ xs, ∀ t ∈ block x, t = label x)
    (hne : ∀ x ∈ xs.dropLast, block x ≠ []) (h : (xs.map label).IsChain R) :
    (xs.flatMap block).IsChain R := by
  rcases List.eq_nil_or_concat xs with rfl | ⟨ys, y, rfl⟩
  · exact .nil
  · rw [List.concat_eq_append, List.dropLast_concat] at hne
    rw [List.concat_eq_append] at hlabel h ⊢
    by_cases hy : block y = []
    · have hys : (ys.map label).IsChain R := by
        rw [List.map_append] at h
        exact h.left_of_append
      rw [List.flatMap_append, List.flatMap_singleton, hy, List.append_nil]
      exact (isChain_flatMap_iff (fun x hx => hlabel x (List.mem_append_left _ hx)) hne).2 hys
    · refine (isChain_flatMap_iff hlabel ?_).2 h
      exact List.forall_mem_append.2 ⟨hne, List.forall_mem_singleton.2 hy⟩

end Blocks

end Gate
