import Mathlib

/-!
# Slots

Tasks that are started one after the other, and kept in a list under their numbers: what is
under a number when one of them has gone on, or a new one was started.
-/

namespace Slots

variable {α : Type*} {l : List α} {i k : ℕ} {a b old : α}

/-- After a write: the entry that was written, or another as it was. -/
theorem set_cases (h : (l.set i a)[k]? = some b) : k = i ∧ b = a ∨ k ≠ i ∧ l[k]? = some b := by
  by_cases hki : k = i
  · subst hki
    rw [List.getElem?_set_self', Option.map_eq_map, Option.map_eq_some_iff] at h
    obtain ⟨_, -, rfl⟩ := h
    exact .inl ⟨rfl, rfl⟩
  · rw [List.getElem?_set_ne (Ne.symm hki)] at h
    exact .inr ⟨hki, h⟩

/-- What is not the new one was there before. -/
theorem of_set (h : (l.set i a)[k]? = some b) (hne : b ≠ a) : k ≠ i ∧ l[k]? = some b :=
  (set_cases h).resolve_left fun hnew => hne hnew.2

/-- What is not the one that goes on stays there. -/
theorem set_of_ne (hold : l[i]? = some old) (h : l[k]? = some b) (hne : b ≠ old) :
    (l.set i a)[k]? = some b := by
  rw [List.getElem?_set_ne, h]
  rintro rfl
  exact hne (Option.some.inj (h.symm.trans hold))

/-- After an addition: an entry that was there, or the new one. -/
theorem concat_cases (h : (l ++ [a])[k]? = some b) : l[k]? = some b ∨ b = a := by
  by_cases hlt : k < l.length
  · exact .inl ((List.getElem?_append_left hlt).symm.trans h)
  · rw [List.getElem?_append_right (not_lt.1 hlt)] at h
    exact .inr (List.mem_singleton.1 (List.mem_of_getElem? h))

/-- Other entries than the new one were there before. -/
theorem of_concat (h : (l ++ [a])[k]? = some b) (hne : b ≠ a) : l[k]? = some b :=
  (concat_cases h).resolve_right hne

theorem concat_of_some (h : l[k]? = some b) : (l ++ [a])[k]? = some b :=
  (List.getElem?_append_left (List.getElem?_eq_some_iff.1 h).1).trans h

end Slots
