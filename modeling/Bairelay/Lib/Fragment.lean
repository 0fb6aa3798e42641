import Mathlib

/-!
# Fragments

Messages that do not fit a packet are cut into slices (`slices`), flagged at both
ends and sent in packets of their own, each with the header of the message; those
that fit go whole. A receiver puts the messages together again (`assemble`), and is
strict: slices of a message have to follow each other, from the one that starts it to
the one that ends it, and no slice may do both.

* `assemble_slices`: a message that was cut in two at least is put together again;
* `marked_slices`: the slice that ends a message is the last one, and no other is.
-/

namespace Fragment

variable {α β : Type*}

/-! ## Cutting -/

/-- A part of a message, and whether the message starts and ends with it. -/
structure Slice (α : Type*) where
  first : Bool
  last : Bool
  data : List α
  deriving DecidableEq, Repr

/-- The slices of what is left of a message, of `n + 1` elements each but for the last
    one; `first` if nothing was cut off yet. -/
def slices (n : ℕ) (first : Bool) : List α → List (Slice α)
  | [] => []
  | a :: rest => ⟨first, rest.length ≤ n, a :: rest.take n⟩ :: slices n false (rest.drop n)
termination_by message => message.length
decreasing_by simp only [List.length_drop, List.length_cons]; omega

variable {n : ℕ} {first : Bool} {message : List α} {s : Slice α}

@[simp]
theorem slices_nil : slices n first ([] : List α) = [] := by
  rw [slices]

theorem slices_eq_nil : slices n first message = [] ↔ message = [] := by
  cases message with
  | nil => simp
  | cons a rest => simp [slices]

/-- The first slice from an offset on, and the offset it stops at. -/
theorem slices_drop {size offset : ℕ} (hsize : 0 < size) (hoffset : offset < message.length)
    (first : Bool) : slices (size - 1) first (message.drop offset) =
      ⟨first, min (offset + size) message.length = message.length,
        (message.drop offset).take (min (offset + size) message.length - offset)⟩ ::
      slices (size - 1) false (message.drop (min (offset + size) message.length)) := by
  obtain ⟨a, rest, hdrop⟩ : ∃ a rest, message.drop offset = a :: rest := by
    refine List.exists_cons_of_ne_nil ?_
    rwa [Ne, List.drop_eq_nil_iff, not_le]
  have hrest : message.length - offset = rest.length + 1 := by
    rw [← List.length_drop, hdrop, List.length_cons]
  generalize hstop : min (offset + size) message.length = stop
  obtain ⟨k, rfl⟩ : ∃ k, stop = offset + (k + 1) := ⟨stop - offset - 1, by omega⟩
  have hmin : min k rest.length = min (size - 1) rest.length := by omega
  have hlast : offset + (k + 1) = message.length ↔ rest.length ≤ size - 1 := by omega
  rw [Nat.add_sub_cancel_left, ← List.drop_drop, hdrop, slices, List.take_succ_cons,
    List.drop_succ_cons, List.take_eq_take_iff.2 hmin, List.drop_eq_drop_iff.2 hmin]
  simp only [hlast]

/-- No slice is empty. -/
theorem data_ne_nil (hs : s ∈ slices n first message) : s.data ≠ [] := by
  fun_induction slices n first message with
  | case1 => nomatch hs
  | case2 first a rest ih =>
    rcases List.mem_cons.1 hs with rfl | hs
    · exact List.cons_ne_nil _ _
    · exact ih hs

theorem length_data_le (hs : s ∈ slices n first message) : s.data.length ≤ n + 1 := by
  fun_induction slices n first message with
  | case1 => nomatch hs
  | case2 first a rest ih =>
    rcases List.mem_cons.1 hs with rfl | hs
    · rw [List.length_cons, List.length_take]
      omega
    · exact ih hs

/-- A slice is the first one only if the message begins with it. -/
theorem first_of_mem (hs : s ∈ slices n first message) (hfirst : s.first) : first := by
  fun_induction slices n first message with
  | case1 => nomatch hs
  | case2 first a rest ih =>
    rcases List.mem_cons.1 hs with rfl | hs
    · exact hfirst
    · exact nomatch ih hs

/-- A message that has to be cut does not start and end with the same slice. -/
theorem not_first_and_last (hlen : n + 1 < message.length) (hs : s ∈ slices n first message) :
    ¬(s.first ∧ s.last) := by
  cases message with
  | nil => exact absurd hlen (Nat.not_lt_zero _)
  | cons a rest =>
    rw [slices, List.mem_cons] at hs
    rintro ⟨hfirst, hlast⟩
    rcases hs with rfl | hs
    · rw [List.length_cons] at hlen
      have hle : rest.length ≤ n := by simpa using hlast
      omega
    · exact nomatch first_of_mem hs hfirst

/-! ## Marking -/

/-- Flag the last one, if `e`, and no other. -/
def mark (e : Bool) : List β → List (Bool × β)
  | [] => []
  | [b] => [(e, b)]
  | b :: b' :: rest => (false, b) :: mark e (b' :: rest)

/-- The flag goes to the second list unless it is empty. -/
theorem mark_append (e : Bool) (l l' : List β) :
    mark e (l ++ l') = mark (l'.isEmpty && e) l ++ mark e l' := by
  fun_induction mark e l with
  | case1 => rfl
  | case2 b => cases l' <;> rfl
  | case3 b b' rest ih =>
    rw [List.cons_append, List.cons_append, mark, mark, ← List.cons_append, ih, List.cons_append]

@[simp]
theorem map_snd_mark (e : Bool) (l : List β) : (mark e l).map Prod.snd = l := by
  fun_induction mark e l with
  | case1 => rfl
  | case2 b => rfl
  | case3 b b' rest ih => rw [List.map_cons, ih]

@[simp]
theorem length_mark (e : Bool) (l : List β) : (mark e l).length = l.length := by
  rw [← List.length_map Prod.snd, map_snd_mark]

theorem snd_mem_of_mem_mark {e : Bool} {l : List β} {p : Bool × β} (h : p ∈ mark e l) :
    p.2 ∈ l := by
  rw [← map_snd_mark e l]
  exact List.mem_map_of_mem h

/-- The flag is on the last one only. -/
theorem fst_getElem_mark {e : Bool} {l : List β} {i : ℕ} (hi : i < (mark e l).length) :
    (mark e l)[i].1 = true ↔ e = true ∧ i + 1 = l.length := by
  fun_induction mark e l generalizing i with
  | case1 => nomatch hi
  | case2 b =>
    have hzero : i = 0 := by simpa using hi
    subst hzero
    simp
  | case3 b b' rest ih =>
    cases i with
    | zero => simp
    | succ i => simpa using ih (by simpa using hi)

/-- The slice that ends a message is the last one, and no other is. -/
theorem marked_slices (e : Bool) (f : Slice α → β) :
    (slices n first message).map (fun s => (s.last && e, f s)) =
      mark e ((slices n first message).map f) := by
  fun_induction slices n first message with
  | case1 => rfl
  | case2 first a rest ih =>
    rw [List.map_cons, List.map_cons, ih]
    by_cases hlen : rest.length ≤ n
    · rw [List.drop_eq_nil_of_le hlen, slices_nil, List.map_nil, mark, mark]
      simp [hlen]
    · have hne : (slices n false (rest.drop n)).map f ≠ [] := by
        rw [Ne, List.map_eq_nil_iff, slices_eq_nil, List.drop_eq_nil_iff]
        exact hlen
      obtain ⟨b, bs, hbs⟩ := List.exists_cons_of_ne_nil hne
      rw [hbs, mark]
      simp [hlen]

/-! ## Putting together -/

/-- What a packet carries: a message, or a slice of one with its header. -/
inductive Piece (α : Type*) where
  | whole (message : List α)
  | part (header : List α) (slice : Slice α)
  deriving DecidableEq, Repr

variable [DecidableEq α]

/-- The messages the pieces make up, after the header and the slices of a message
    that has not ended yet. -/
def assembleFrom : Option (List α × List α) → List (Piece α) → Option (List (List α))
  | none, [] => some []
  | none, .whole message :: pieces => (assembleFrom none pieces).map (message :: ·)
  | none, .part header ⟨true, false, data⟩ :: pieces => assembleFrom (some (header, data)) pieces
  | some (header, data), .part header' ⟨false, last, data'⟩ :: pieces =>
    if header' ≠ header then none
    else if last then (assembleFrom none pieces).map ((header ++ data ++ data') :: ·)
    else assembleFrom (some (header, data ++ data')) pieces
  -- A message within another one, a slice out of turn, or nothing where more is due.
  | _, _ => none

/-- The messages the pieces make up. -/
def assemble (pieces : List (Piece α)) : Option (List (List α)) := assembleFrom none pieces

variable {header : List α} {pieces : List (Piece α)}

/-- The rest of a message completes it. -/
theorem assembleFrom_slices (data : List α) (hne : message ≠ []) :
    assembleFrom (some (header, data)) ((slices n false message).map (.part header) ++ pieces) =
      (assembleFrom none pieces).map ((header ++ data ++ message) :: ·) := by
  generalize hfirst : false = first
  fun_induction slices n first message generalizing data with
  | case1 => exact absurd rfl hne
  | case2 first a rest ih =>
    subst hfirst
    rw [List.map_cons, List.cons_append, assembleFrom, if_neg (not_not.2 rfl)]
    by_cases hlen : rest.length ≤ n
    · rw [if_pos (by simpa using hlen), List.drop_eq_nil_of_le hlen, List.take_of_length_le hlen,
        slices_nil]
      rfl
    · have hdrop : rest.drop n ≠ [] := by rwa [Ne, List.drop_eq_nil_iff]
      rw [if_neg (by simpa using hlen), ih _ hdrop rfl]
      simp only [List.append_assoc, List.cons_append, List.take_append_drop]

/-- A message that has to be cut is put together again. -/
theorem assemble_slices (hlen : n + 1 < message.length) :
    assemble ((slices n true message).map (.part header) ++ pieces) =
      (assemble pieces).map ((header ++ message) :: ·) := by
  cases message with
  | nil => nomatch hlen
  | cons a rest =>
    rw [List.length_cons] at hlen
    have hlen' : ¬rest.length ≤ n := by omega
    have hdrop : rest.drop n ≠ [] := by rwa [Ne, List.drop_eq_nil_iff]
    rw [slices, List.map_cons, List.cons_append, decide_eq_false hlen', assemble, assembleFrom,
      assembleFrom_slices _ hdrop]
    simp only [assemble, List.append_assoc, List.cons_append, List.take_append_drop]

theorem assemble_whole (message : List α) :
    assemble (.whole message :: pieces) = (assemble pieces).map (message :: ·) :=
  rfl

end Fragment
