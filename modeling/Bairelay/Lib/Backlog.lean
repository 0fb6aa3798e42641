import Mathlib

/-!
# Backlogs

A log of which only the most recent part is kept, as much of it as fits a budget. Each
entry has a size; the *backlog* is the longest suffix of the log whose sizes sum up to at
most `cap` (`IsBacklog`).

Keeping a backlog takes no knowledge of the log: dropping the oldest entries of the
backlog and the new one until they fit (`fit`) gives the backlog of the longer log
(`IsBacklog.concat`), also if the new entry alone does not fit.
-/

namespace Backlog

variable {α : Type*} (size : α → ℕ) (cap : ℕ)

/-- The size of some entries. -/
def total (entries : List α) : ℕ := (entries.map size).sum

/-- The longest suffix of the log within the budget. -/
structure IsBacklog (log kept : List α) : Prop where
  suffix : kept <:+ log
  total_le : total size kept ≤ cap
  longest : ∀ entries, entries <:+ log → total size entries ≤ cap → entries <:+ kept

/-- Drop entries from the front until the rest fits. -/
def fit : List α → List α
  | [] => []
  | a :: entries => if cap < total size (a :: entries) then fit entries else a :: entries

variable {size cap}

theorem total_cons (a : α) (entries : List α) :
    total size (a :: entries) = size a + total size entries := by
  rw [total, List.map_cons, List.sum_cons, total]

theorem total_append (entries entries' : List α) :
    total size (entries ++ entries') = total size entries + total size entries' := by
  rw [total, List.map_append, List.sum_append, total, total]

theorem fit_of_le {entries : List α} (h : total size entries ≤ cap) :
    fit size cap entries = entries := by
  cases entries with
  | nil => rfl
  | cons a entries => exact if_neg (not_lt.2 h)

theorem isBacklog_nil : IsBacklog size cap [] [] :=
  ⟨List.suffix_rfl, Nat.zero_le cap, fun _ h _ => h⟩

/-- What is left is the backlog of what was there. -/
theorem fit_isBacklog (log : List α) : IsBacklog size cap log (fit size cap log) := by
  induction log with
  | nil => exact isBacklog_nil
  | cons a log ih =>
    rw [fit]
    split
    · next hlt =>
      refine ⟨ih.suffix.trans (List.suffix_cons a log), ih.total_le, fun entries hsuffix hle => ?_⟩
      rcases List.suffix_cons_iff.1 hsuffix with rfl | hsuffix
      · exact absurd hle (not_le.2 hlt)
      · exact ih.longest entries hsuffix hle
    · next hle => exact ⟨List.suffix_rfl, not_lt.1 hle, fun _ h _ => h⟩

/-- The backlog, kept as the log grows by an entry. -/
theorem IsBacklog.concat {log kept : List α} (h : IsBacklog size cap log kept) (a : α) :
    IsBacklog size cap (log ++ [a]) (fit size cap (kept ++ [a])) := by
  have hfit : IsBacklog size cap (kept ++ [a]) (fit size cap (kept ++ [a])) := fit_isBacklog _
  refine ⟨hfit.suffix.trans (List.suffix_append_self_iff.2 h.suffix), hfit.total_le,
    fun entries hsuffix hle => hfit.longest entries ?_ hle⟩
  -- Without the new entry they fit all the more, so they were kept.
  rcases List.suffix_concat_iff.1 hsuffix with rfl | ⟨entries', rfl, hsuffix'⟩
  · exact List.nil_suffix
  · rw [total_append] at hle
    exact List.suffix_append_self_iff.2 (h.longest entries' hsuffix' (le_of_add_le_left hle))

end Backlog
