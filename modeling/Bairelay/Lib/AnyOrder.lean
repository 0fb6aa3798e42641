import Mathlib.Data.List.MinMax
import Mathlib.Data.List.Perm.Basic

/-!
# Any order

Searches through entries that have no order of their own, such as those of a hash map: the result
is the same for every order they are gone through in, or it is not.

* `find?_map_stable_iff`: the first hit is stable exactly if all hits are alike;
* `maxByKey_eq_some_iff`: the greatest entry, if no two have the same key, is the one that is
  greater than all others, whatever their order.
-/

namespace AnyOrder

variable {α β γ : Type*}

/-- The first hits of any two orders look the same. -/
theorem find?_map_stable_iff {p : α → Bool} {f : α → β} {l : List α} :
    (∀ l₁ l₂ : List α, l₁.Perm l → l₂.Perm l →
      (l₁.find? p).map f = (l₂.find? p).map f) ↔
      ∀ a ∈ l, ∀ b ∈ l, p a → p b → f a = f b := by
  constructor
  · intro hstable a ha b hb hpa hpb
    -- Either of the two may come first.
    have hfirst : ∀ c ∈ l, p c → ∃ l' : List α, l'.Perm l ∧ l'.find? p = some c := by
      intro c hc hpc
      obtain ⟨front, back, rfl⟩ := List.append_of_mem hc
      exact ⟨c :: (front ++ back), List.perm_middle.symm, List.find?_cons_of_pos hpc⟩
    obtain ⟨l₁, hperm₁, hfind₁⟩ := hfirst a ha hpa
    obtain ⟨l₂, hperm₂, hfind₂⟩ := hfirst b hb hpb
    have heq := hstable l₁ l₂ hperm₁ hperm₂
    rw [hfind₁, hfind₂] at heq
    exact Option.some.inj heq
  · intro halike l₁ l₂ hperm₁ hperm₂
    cases h₁ : l₁.find? p with
    | none =>
      have hnone : l₂.find? p = none := List.find?_eq_none.2 fun a ha =>
        List.find?_eq_none.1 h₁ a (hperm₁.mem_iff.2 (hperm₂.mem_iff.1 ha))
      rw [hnone]
    | some a =>
      have ha := hperm₁.mem_iff.1 (List.mem_of_find?_eq_some h₁)
      obtain ⟨b, h₂⟩ := Option.isSome_iff_exists.1
        (List.find?_isSome.2 ⟨a, hperm₂.mem_iff.2 ha, List.find?_some h₁⟩)
      have hb := hperm₂.mem_iff.1 (List.mem_of_find?_eq_some h₂)
      rw [h₂, Option.map_some, Option.map_some,
        halike a ha b hb (List.find?_some h₁) (List.find?_some h₂)]

variable [LinearOrder γ]

/-- The last of the entries with the greatest key. -/
def maxByKey (f : α → γ) (l : List α) : Option α := l.reverse.argmax f

/-- The greatest entry, where no two have one key, is the one that no other exceeds. -/
theorem maxByKey_eq_some_iff {f : α → γ} {l : List α} {m : α}
    (hinj : ∀ a ∈ l, ∀ b ∈ l, f a = f b → a = b) :
    maxByKey f l = some m ↔ m ∈ l ∧ ∀ a ∈ l, f a ≤ f m := by
  constructor
  · intro hmax
    exact ⟨List.mem_reverse.1 (List.argmax_mem hmax),
      fun a ha => List.le_of_mem_argmax (List.mem_reverse.2 ha) hmax⟩
  · rintro ⟨hmem, hle⟩
    cases hmax : maxByKey f l with
    | none =>
      rw [List.reverse_eq_nil_iff.1 (List.argmax_eq_none.1 hmax)] at hmem
      cases hmem
    | some m' =>
      have hmem' : m' ∈ l := List.mem_reverse.1 (List.argmax_mem hmax)
      have hge : f m ≤ f m' := List.le_of_mem_argmax (List.mem_reverse.2 hmem) hmax
      rw [hinj m' hmem' m hmem (le_antisymm (hle m' hmem') hge)]

end AnyOrder
