import Mathlib

/-!
# Capped tables

A finite map with at most `cap` keys. A key that is there may always be written, a new one only
while there is room (`upsert`), and entries are dropped by what they hold (`purge`).

* `admits_iff`: when a table takes in a new key as long as fewer than `cap` of its entries are
  of some kind.
-/

/-- A table of at most `cap` keys, each with its value. -/
structure Capped (κ α : Type*) (cap : ℕ) where
  entries : List (κ × α)
  nodup : (entries.map (·.1)).Nodup
  length_le : entries.length ≤ cap

namespace Capped

variable {κ α : Type*} {cap : ℕ}

instance instMembership : Membership κ (Capped κ α cap) where
  mem t k := k ∈ t.entries.map (·.1)

theorem mem_def {t : Capped κ α cap} {k : κ} : k ∈ t ↔ k ∈ t.entries.map (·.1) := Iff.rfl

/-- The table without keys. -/
def empty : Capped κ α cap := ⟨[], List.nodup_nil, Nat.zero_le _⟩

/-- Drop the entries whose values are `p`. -/
def purge (t : Capped κ α cap) (p : α → Bool) : Capped κ α cap where
  entries := t.entries.filter fun entry => !p entry.2
  nodup := t.nodup.sublist (List.filter_sublist.map _)
  length_le := (List.length_filter_le _ _).trans t.length_le

variable {t : Capped κ α cap} {k : κ} {a : α}

theorem mem_purge {p : α → Bool} (hmem : (k, a) ∈ t.entries) (hp : p a = false) :
    k ∈ t.purge p :=
  List.mem_map.2 ⟨(k, a), List.mem_filter.2 ⟨hmem, by rw [hp, Bool.not_false]⟩, rfl⟩

/-- Nothing is dropped where no value is `p`. -/
theorem entries_purge {p : α → Bool} (hp : ∀ entry ∈ t.entries, p entry.2 = false) :
    (t.purge p).entries = t.entries :=
  List.filter_eq_self.2 fun entry hentry => by rw [hp entry hentry, Bool.not_false]

variable [DecidableEq κ]

instance decidableMem (t : Capped κ α cap) (k : κ) : Decidable (k ∈ t) :=
  inferInstanceAs (Decidable (k ∈ t.entries.map (·.1)))

/-- What is under a key, if there is anything. -/
def get? (t : Capped κ α cap) (k : κ) : Option α := (t.entries.find? (·.1 = k)).map (·.2)

/-- Write a key that is there or for which there is room. -/
def put (t : Capped κ α cap) (k : κ) (a : α) (h : k ∈ t ∨ t.entries.length < cap) :
    Capped κ α cap where
  entries := (k, a) :: t.entries.filter (·.1 ≠ k)
  nodup := by
    rw [List.map_cons, List.nodup_cons]
    refine ⟨?_, t.nodup.sublist (List.filter_sublist.map _)⟩
    rw [List.mem_map]
    rintro ⟨entry, hentry, rfl⟩
    exact of_decide_eq_true (List.mem_filter.1 hentry).2 rfl
  length_le := by
    rw [List.length_cons, Nat.succ_le_iff]
    rcases h with hmem | hlt
    · refine lt_of_lt_of_le ?_ t.length_le
      obtain ⟨entry, hentry, rfl⟩ := List.mem_map.1 hmem
      refine List.length_filter_lt_length_iff_exists.2 ⟨entry, hentry, ?_⟩
      rw [decide_eq_true_eq]
      exact fun hne => hne rfl
    · exact (List.length_filter_le _ _).trans_lt hlt

/-- Write a key, or refuse it. -/
def upsert (t : Capped κ α cap) (k : κ) (a : α) : Option (Capped κ α cap) :=
  if h : k ∈ t ∨ t.entries.length < cap then some (t.put k a h) else none

theorem mem_entries_put (h : k ∈ t ∨ t.entries.length < cap) : (k, a) ∈ (t.put k a h).entries :=
  List.mem_cons_self

theorem mem_put (h : k ∈ t ∨ t.entries.length < cap) : k ∈ t.put k a h :=
  List.mem_map.2 ⟨(k, a), mem_entries_put h, rfl⟩

/-- An upsert succeeds if the key is there already, or there is room. -/
theorem upsert_eq_some (h : k ∈ t ∨ t.entries.length < cap) :
    t.upsert k a = some (t.put k a h) := dif_pos h

/-- A full table takes no new key, whatever its entries are. -/
theorem upsert_eq_none (hnew : k ∉ t) (hfull : t.entries.length = cap) : t.upsert k a = none :=
  dif_neg (not_or.2 ⟨hnew, hfull.not_lt⟩)

/-- With a new key, the others stay as they are. -/
theorem entries_put_of_not_mem (hnew : k ∉ t) {h : k ∈ t ∨ t.entries.length < cap} :
    (t.put k a h).entries = (k, a) :: t.entries := by
  refine congrArg _ (List.filter_eq_self.2 fun entry hentry => decide_eq_true ?_)
  rintro rfl
  exact hnew (List.mem_map_of_mem hentry)

/-- A key is taken in. -/
abbrev HasRoom (t : Capped κ α cap) (k : κ) : Prop := k ∈ t ∨ t.entries.length < cap

/-! ## Looking up -/

theorem get?_eq_some_iff : t.get? k = some a ↔ (k, a) ∈ t.entries := by
  rw [get?, Option.map_eq_some_iff]
  constructor
  · rintro ⟨entry, hfind, rfl⟩
    have hkey : entry.1 = k := by simpa using List.find?_some hfind
    rw [← hkey]
    exact List.mem_of_find?_eq_some hfind
  · intro hmem
    have hsome : (t.entries.find? (·.1 = k)).isSome :=
      List.find?_isSome.2 ⟨(k, a), hmem, decide_eq_true rfl⟩
    obtain ⟨entry, hfind⟩ := Option.isSome_iff_exists.1 hsome
    have hkey : entry.1 = k := by simpa using List.find?_some hfind
    have heq := List.inj_on_of_nodup_map t.nodup (List.mem_of_find?_eq_some hfind) hmem hkey
    exact ⟨entry, hfind, congrArg Prod.snd heq⟩

/-- After a purge, what is under a key was there before and is not stale. -/
theorem get?_purge (p : α → Bool) :
    (t.purge p).get? k = some a ↔ t.get? k = some a ∧ p a = false := by
  rw [get?_eq_some_iff, get?_eq_some_iff, purge, List.mem_filter, Bool.not_eq_true']

theorem get?_put {k' : κ} {a' : α} (h : k' ∈ t ∨ t.entries.length < cap) :
    (t.put k' a' h).get? k = some a ↔ k = k' ∧ a = a' ∨ k ≠ k' ∧ t.get? k = some a := by
  rw [get?_eq_some_iff, get?_eq_some_iff, put, List.mem_cons, Prod.mk.injEq, List.mem_filter,
    decide_eq_true_eq, and_comm (a := (k, a) ∈ t.entries)]

/-- Where a table is to take in a new key while fewer than `cap` of its entries are `p`, a full
    one has to have no other entries. -/
theorem admits_iff {p : α → Bool} (hnew : k ∉ t) :
    ((t.entries.countP fun entry => p entry.2) < cap → (t.upsert k a).isSome) ↔
      (t.entries.length = cap → ∀ entry ∈ t.entries, p entry.2) := by
  have hle := t.entries.countP_le_length (p := fun entry => p entry.2)
  constructor
  · intro hadmits hfull
    rw [upsert_eq_none hnew hfull] at hadmits
    have hall : (t.entries.countP fun entry => p entry.2) = t.entries.length := by
      by_contra hne
      cases hadmits ((lt_of_le_of_ne hle hne).trans_eq hfull)
    exact List.countP_eq_length.1 hall
  · intro hall hlt
    by_cases hfull : t.entries.length = cap
    · rw [List.countP_eq_length.2 (hall hfull), hfull] at hlt
      exact absurd hlt (lt_irrefl _)
    · rw [upsert_eq_some (.inr (lt_of_le_of_ne t.length_le hfull))]
      rfl

end Capped
