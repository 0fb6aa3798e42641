import Mathlib.Data.List.Basic
import Mathlib.Data.List.Nodup

/-!
# Overlays

Entries with a key are laid, one after the other, over a list: each is merged into the first entry
that has its key, or put behind the others if there is none (`Overlay.put`).

* `putAll_eq`: the entries of the list keep their places, each merged with those of its key; behind
  them comes what is made of the others;
* `putAll_nil_eq_self`: these stay as they are exactly if no two of them have the same key.
-/

namespace Overlay

variable {α κ : Type*} [DecidableEq κ] (key : α → κ) (merge : α → α → α)

/-- Merge an entry into the first of its key, or add it behind all. -/
def put (out : List α) (o : α) : List α :=
  match out.findIdx? fun a => key a = key o with
  | some i => out.modify i fun a => merge a o
  | none => out ++ [o]

/-- Put all entries, one after the other. -/
def putAll (out os : List α) : List α := os.foldl (put key merge) out

/-- The entries of a list, each merged with those that have its key. -/
def merged : List α → List α → List α
  | [], _ => []
  | a :: out, os =>
    (os.filter fun o => key o = key a).foldl merge a ::
      merged out (os.filter fun o => key o ≠ key a)

/-- A key that the merge keeps. -/
def Keeps : Prop := ∀ a o, key o = key a → key (merge a o) = key a

variable {key merge} {a o : α} {out os : List α}

theorem put_nil : put key merge [] o = [o] := rfl

/-- An entry is merged into the first of its key. -/
theorem put_cons_of_eq (h : key a = key o) :
    put key merge (a :: out) o = merge a o :: out := by
  rw [put, List.findIdx?_cons, if_pos (decide_eq_true h)]
  rfl

theorem put_cons_of_ne (h : key a ≠ key o) :
    put key merge (a :: out) o = a :: put key merge out o := by
  rw [put, put, List.findIdx?_cons, if_neg (by simpa using h)]
  cases out.findIdx? fun a => key a = key o <;> rfl

/-- The first entry takes those of its key, and the others pass it by. -/
theorem putAll_cons (hkeeps : Keeps key merge) :
    putAll key merge (a :: out) os = (os.filter fun o => key o = key a).foldl merge a ::
      putAll key merge out (os.filter fun o => key o ≠ key a) := by
  induction os generalizing a out with
  | nil => rfl
  | cons o os ih =>
    rw [putAll, List.foldl_cons, ← putAll]
    by_cases h : key o = key a
    · rw [put_cons_of_eq h.symm, ih, hkeeps a o h]
      simp only [List.filter_cons, h, decide_true, if_true, ne_eq, not_true_eq_false, decide_false,
        Bool.false_eq_true, if_false, List.foldl_cons]
    · rw [put_cons_of_ne (Ne.symm h), ih]
      simp only [List.filter_cons, h, decide_false, Bool.false_eq_true, if_false, ne_eq,
        not_false_eq_true, decide_true, if_true]
      rfl

theorem length_merged : (merged key merge out os).length = out.length := by
  induction out generalizing os with
  | nil => rfl
  | cons a out ih => rw [merged, List.length_cons, List.length_cons, ih]

/-- Putting entries merges those whose keys are there, and puts the others behind. -/
theorem putAll_eq (hkeeps : Keeps key merge) :
    putAll key merge out os = merged key merge out os ++
      putAll key merge [] (os.filter fun o => key o ∉ out.map key) := by
  induction out generalizing os with
  | nil => simp [merged]
  | cons a out ih =>
    rw [putAll_cons hkeeps, ih, merged, List.cons_append, List.filter_filter]
    congr 3
    refine List.filter_congr fun o _ => ?_
    simp only [List.map_cons, List.mem_cons, not_or, Bool.decide_and, Bool.and_comm, ne_eq]

/-- Among new entries, some may be merged with each other. -/
theorem length_putAll_nil_le (hkeeps : Keeps key merge) :
    (putAll key merge [] os).length ≤ os.length := by
  induction h : os.length using Nat.strongRecOn generalizing os with
  | ind n ih =>
    cases os with
    | nil => exact Nat.zero_le _
    | cons o os =>
      rw [List.length_cons] at h
      have hfilter := List.length_filter_le (fun o' => decide (key o' ≠ key o)) os
      have hle := ih _ (Nat.lt_of_le_of_lt hfilter (by omega)) rfl
      rw [putAll, List.foldl_cons, put_nil, ← putAll, putAll_cons hkeeps, List.length_cons]
      omega

/-- New entries stay as they are if no two have one key. -/
theorem putAll_nil_eq_self (hkeeps : Keeps key merge) :
    putAll key merge [] os = os ↔ (os.map key).Nodup := by
  induction os with
  | nil => exact iff_of_true rfl List.nodup_nil
  | cons o os ih =>
    rw [putAll, List.foldl_cons, put_nil, ← putAll, putAll_cons hkeeps, List.map_cons,
      List.nodup_cons, List.mem_map, ← ih]
    constructor
    · intro h
      obtain ⟨-, hrest⟩ := List.cons.inj h
      -- Nothing can have been left out.
      have hall : os.filter (fun o' => key o' ≠ key o) = os := by
        refine List.filter_sublist.eq_of_length_le ?_
        have hle : (putAll key merge [] (os.filter fun o' => key o' ≠ key o)).length ≤ _ :=
          length_putAll_nil_le hkeeps
        rwa [hrest] at hle
      rw [hall] at hrest
      refine ⟨?_, hrest⟩
      rintro ⟨o', hmem, hkey⟩
      exact of_decide_eq_true (List.filter_eq_self.1 hall o' hmem) hkey
    · rintro ⟨hnew, hrest⟩
      have hne : ∀ o' ∈ os, key o' ≠ key o := fun o' hmem hkey => hnew ⟨o', hmem, hkey⟩
      rw [List.filter_eq_nil_iff.2 fun o' hmem => by simpa using hne o' hmem,
        List.filter_eq_self.2 fun o' hmem => decide_eq_true (hne o' hmem)]
      exact congrArg _ hrest

end Overlay
