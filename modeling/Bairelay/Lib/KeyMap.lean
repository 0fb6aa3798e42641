import Mathlib

/-!
# Ordered maps

Finite maps with ordered keys (`Std.ExtTreeMap`), equal when they hold the
same values: the lookups of the operations, stated with equality of keys
instead of comparison results.
-/

/-- A finite map whose keys are ordered by `compare`. -/
abbrev KeyMap (κ α : Type*) [Ord κ] := Std.ExtTreeMap κ α compare

namespace KeyMap

variable {κ α : Type*} [Ord κ] [Std.TransOrd κ]

theorem contains_iff_lookup {m : KeyMap κ α} {k : κ} :
    m.contains k = true ↔ ∃ v, m[k]? = some v := by
  rw [Std.ExtTreeMap.contains_eq_isSome_getElem?, Option.isSome_iff_exists]

/-- A map without keys holds nothing. -/
theorem lookup_of_size_eq_zero {m : KeyMap κ α} (h : m.size = 0) (k : κ) : m[k]? = none := by
  rw [Std.ExtTreeMap.eq_empty_iff_size_eq_zero.2 h, Std.ExtTreeMap.getElem?_empty]

/-- Removing a key the map holds makes the map smaller by one. -/
theorem size_erase_add_one {m : KeyMap κ α} {k : κ} {v : α} (h : m[k]? = some v) :
    (m.erase k).size + 1 = m.size := by
  have hk : m.contains k = true := contains_iff_lookup.2 ⟨v, h⟩
  have hpos : m.size ≠ 0 := fun h0 => by
    rw [lookup_of_size_eq_zero h0] at h
    exact absurd h (by simp)
  rw [Std.ExtTreeMap.size_erase, if_pos hk]
  omega

/-- The values are those of the entries. -/
theorem values_eq_map_toList (m : KeyMap κ α) : m.values = m.toList.map Prod.snd := by
  -- The library has this for the tree below the quotients only.
  rcases m with ⟨⟨m⟩⟩
  induction m using Quotient.inductionOn with
  | h m =>
    show m.inner.values = (Std.DTreeMap.Internal.Impl.Const.toList m.inner).map Prod.snd
    rw [Std.DTreeMap.Internal.Impl.values_eq_map_snd,
      Std.DTreeMap.Internal.Impl.Const.toList_eq_toListModel_map, List.map_map]
    rfl

variable [Std.LawfulEqOrd κ]

theorem mem_values {m : KeyMap κ α} {v : α} : v ∈ m.values ↔ ∃ k : κ, m[k]? = some v := by
  rw [values_eq_map_toList, List.mem_map]
  constructor
  · rintro ⟨⟨k, v⟩, hmem, rfl⟩
    exact ⟨k, Std.ExtTreeMap.mem_toList_iff_getElem?_eq_some.1 hmem⟩
  · rintro ⟨k, hk⟩
    exact ⟨(k, v), Std.ExtTreeMap.mem_toList_iff_getElem?_eq_some.2 hk, rfl⟩

/-- Retaining keys keeps their values and drops the others. -/
theorem lookup_filter (m : KeyMap κ α) (p : κ → Bool) (a : κ) :
    (m.filter fun k _ => p k)[a]? = if p a then m[a]? else none := by
  simp only [Std.ExtTreeMap.getElem?_filter, Std.ExtTreeMap.getKey_eq, Option.pfilter_eq_filter]
  cases m[a]? <;> by_cases hp : p a <;> simp [hp]

omit [Std.LawfulEqOrd κ] in
/-- Retaining values keeps them under their keys. -/
theorem lookup_filter_values (m : KeyMap κ α) (p : α → Bool) (a : κ) :
    (m.filter fun _ v => p v)[a]? = m[a]?.filter p := by
  simp only [Std.ExtTreeMap.getElem?_filter, Option.pfilter_eq_filter]

variable [DecidableEq κ]

theorem lookup_insert (m : KeyMap κ α) (k a : κ) (v : α) :
    (m.insert k v)[a]? = if k = a then some v else m[a]? := by
  simp only [Std.ExtTreeMap.getElem?_insert, Std.LawfulEqCmp.compare_eq_iff_eq]

theorem lookup_erase (m : KeyMap κ α) (k a : κ) :
    (m.erase k)[a]? = if k = a then none else m[a]? := by
  simp only [Std.ExtTreeMap.getElem?_erase, Std.LawfulEqCmp.compare_eq_iff_eq]

end KeyMap
