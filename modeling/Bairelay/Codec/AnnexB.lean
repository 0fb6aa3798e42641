import Bairelay.Codec.Nal

/-!
# Annex-B framing

`split_annex_b` scans a stream by index and returns slices of it (`rtsp/codec/nal.rs`).
Here is that scan (`nalRanges`), with the slices as ranges of indices. Their contents are
the NAL units of `splitAnnexB`, which reads the stream front to back
(`map_slice_nalRanges`).

* The slices are not empty, they stand in the stream one after the other, and no start
  code is in them (`nalRanges_sound`).
* The splitting undoes the framing, whichever start codes were chosen
  (`nalRanges_frame`), for NAL units as the standard has them: escaped, so that three
  zero bytes or a start code are not in them, and not ending in a zero byte (`IsNal`).
-/

namespace Bairelay

/-! ## The scan -/

/-- The bytes of a stream from one index up to another. -/
def slice (stream : Bytes) (range : ℕ × ℕ) : Bytes := (stream.take range.2).drop range.1

/-- A start code of three bytes begins here. -/
def ThreeByte (stream : Bytes) (i : ℕ) : Prop :=
  stream[i]? = some 0 ∧ stream[i + 1]? = some 0 ∧ stream[i + 2]? = some 1

/-- A start code of four bytes begins here. The loop looks for it only where four bytes are left. -/
def FourByte (stream : Bytes) (i : ℕ) : Prop :=
  i + 3 < stream.length ∧ stream[i]? = some 0 ∧ stream[i + 1]? = some 0 ∧
    stream[i + 2]? = some 0 ∧ stream[i + 3]? = some 1

instance (stream : Bytes) (i : ℕ) : Decidable (ThreeByte stream i) :=
  inferInstanceAs (Decidable (_ ∧ _))

instance (stream : Bytes) (i : ℕ) : Decidable (FourByte stream i) :=
  inferInstanceAs (Decidable (_ ∧ _))

/-- The NAL unit that ends at an index, if there is one and it is not empty. -/
def endNal (nalStart : Option ℕ) (i : ℕ) : List (ℕ × ℕ) :=
  match nalStart with
  | some start => if start < i then [(start, i)] else []
  | none => []

/-- The scan from an index on; `nalStart` is where the current NAL unit starts. -/
def nalRangesLoop (stream : Bytes) (i : ℕ) (nalStart : Option ℕ) : List (ℕ × ℕ) :=
  if i + 2 < stream.length then
    if FourByte stream i then endNal nalStart i ++ nalRangesLoop stream (i + 4) (some (i + 4))
    else if ThreeByte stream i then
      endNal nalStart i ++ nalRangesLoop stream (i + 3) (some (i + 3))
    else nalRangesLoop stream (i + 1) nalStart
  else endNal nalStart stream.length
termination_by stream.length - i

/-- All ranges, from the beginning of the stream. -/
def nalRanges (stream : Bytes) : List (ℕ × ℕ) := nalRangesLoop stream 0 none

/-- A range ends before a start code, if it is not empty. -/
theorem mem_endNal {nalStart : Option ℕ} {i : ℕ} {range : ℕ × ℕ} :
    range ∈ endNal nalStart i ↔ nalStart = some range.1 ∧ range.1 < i ∧ range.2 = i := by
  obtain ⟨start, stop⟩ := range
  cases nalStart with
  | none => simp [endNal]
  | some s =>
    rw [endNal]
    split <;> simp only [List.mem_singleton, Prod.mk.injEq, Option.some.injEq, List.not_mem_nil,
      false_iff] <;> omega

theorem forall_mem_endNal {P : ℕ × ℕ → Prop} {nalStart : Option ℕ} {i : ℕ}
    (h : ∀ start ∈ nalStart, start < i → P (start, i)) : ∀ range ∈ endNal nalStart i, P range := by
  rintro ⟨start, stop⟩ hrange
  obtain ⟨hstart, hlt, rfl⟩ := mem_endNal.1 hrange
  exact h start hstart hlt

/-! ## The slices in the stream -/

/-- No range starts before the current NAL unit, or before the index. -/
theorem le_of_mem_nalRangesLoop {stream : Bytes} {i : ℕ} {nalStart : Option ℕ} {lo : ℕ}
    (hlo : lo ≤ i) (hstart : ∀ start ∈ nalStart, lo ≤ start) :
    ∀ range ∈ nalRangesLoop stream i nalStart, lo ≤ range.1 := by
  have hend (j : ℕ) {nalStart : Option ℕ} (h : ∀ start ∈ nalStart, lo ≤ start) :
      ∀ range ∈ endNal nalStart j, lo ≤ range.1 :=
    forall_mem_endNal fun start hmem _ => h start hmem
  fun_induction nalRangesLoop stream i nalStart with
  | case1 i nalStart _ _ ih =>
    exact List.forall_mem_append.2 ⟨hend i hstart, ih (by omega) (by simp; omega)⟩
  | case2 i nalStart _ _ _ ih =>
    exact List.forall_mem_append.2 ⟨hend i hstart, ih (by omega) (by simp; omega)⟩
  | case3 i nalStart _ _ _ ih => exact ih (by omega) hstart
  | case4 i nalStart _ => exact hend stream.length hstart

/-- The ranges are not empty, and within the stream. -/
theorem nalRangesLoop_bounds {stream : Bytes} {i : ℕ} {nalStart : Option ℕ} :
    ∀ range ∈ nalRangesLoop stream i nalStart, range.1 < range.2 ∧ range.2 ≤ stream.length := by
  have hend {i : ℕ} (hi : i ≤ stream.length) (nalStart : Option ℕ) :
      ∀ range ∈ endNal nalStart i, range.1 < range.2 ∧ range.2 ≤ stream.length :=
    forall_mem_endNal fun _ _ hlt => ⟨hlt, hi⟩
  fun_induction nalRangesLoop stream i nalStart with
  | case1 i nalStart _ _ ih => exact List.forall_mem_append.2 ⟨hend (by omega) nalStart, ih⟩
  | case2 i nalStart _ _ _ ih => exact List.forall_mem_append.2 ⟨hend (by omega) nalStart, ih⟩
  | case3 i nalStart _ _ _ ih => exact ih
  | case4 i nalStart _ => exact hend le_rfl nalStart

theorem endNal_pairwise (nalStart : Option ℕ) (i : ℕ) :
    (endNal nalStart i).Pairwise fun a b => a.2 ≤ b.1 := by
  cases nalStart with
  | none => exact .nil
  | some start =>
    rw [endNal]
    split
    · exact List.pairwise_singleton _ _
    · exact .nil

/-- A range and those behind a start code do not overlap. -/
theorem pairwise_endNal_append {stream : Bytes} {i j : ℕ} {nalStart : Option ℕ} (hij : i ≤ j)
    (h : (nalRangesLoop stream j (some j)).Pairwise fun a b => a.2 ≤ b.1) :
    (endNal nalStart i ++ nalRangesLoop stream j (some j)).Pairwise fun a b => a.2 ≤ b.1 := by
  refine List.pairwise_append.2 ⟨endNal_pairwise nalStart i, h, fun a ha b hb => ?_⟩
  rw [(mem_endNal.1 ha).2.2]
  exact hij.trans (le_of_mem_nalRangesLoop le_rfl (by simp) b hb)

/-- The ranges do not overlap, and stand in order. -/
theorem nalRangesLoop_pairwise (stream : Bytes) (i : ℕ) (nalStart : Option ℕ) :
    (nalRangesLoop stream i nalStart).Pairwise fun a b => a.2 ≤ b.1 := by
  fun_induction nalRangesLoop stream i nalStart with
  | case1 i nalStart _ _ ih => exact pairwise_endNal_append (by omega) ih
  | case2 i nalStart _ _ _ ih => exact pairwise_endNal_append (by omega) ih
  | case3 i nalStart _ _ _ ih => exact ih
  | case4 i nalStart _ => exact endNal_pairwise nalStart stream.length

/-! ## Their contents -/

theorem slice_self (stream : Bytes) (i : ℕ) : slice stream (i, i) = [] := by
  rw [slice, List.drop_take, Nat.sub_self, List.take_zero]

theorem slice_append (stream : Bytes) {start i : ℕ} (n : ℕ) (h : start ≤ i)
    (hi : i ≤ stream.length) :
    slice stream (start, i + n) = slice stream (start, i) ++ (stream.drop i).take n := by
  rw [slice, slice, List.take_add, List.drop_append_of_le_length]
  rw [List.length_take, min_eq_left hi]
  exact h

/-- The slice to the end of the stream. -/
theorem slice_length (stream : Bytes) {start i : ℕ} (h : start ≤ i) (hi : i ≤ stream.length) :
    slice stream (start, stream.length) = slice stream (start, i) ++ stream.drop i := by
  have hslice := slice_append stream (stream.length - i) h hi
  rwa [Nat.add_sub_cancel' hi, List.take_of_length_le (List.length_drop ..).le] at hslice

/-- The range that ends is the NAL unit that is flushed. -/
theorem map_slice_endNal (stream : Bytes) (nalStart : Option ℕ) {i : ℕ} (hi : i ≤ stream.length) :
    (endNal nalStart i).map (slice stream) =
      flushNal (nalStart.map fun start => slice stream (start, i)) := by
  cases nalStart with
  | none => rfl
  | some start =>
    have hlen : (slice stream (start, i)).length = i - start := by
      rw [slice, List.length_drop, List.length_take, min_eq_left hi]
    rw [endNal, Option.map_some]
    split
    · next hlt =>
      -- The slice is not empty.
      obtain ⟨b, nal, hslice⟩ := List.exists_cons_of_length_pos (hlen ▸ Nat.sub_pos_of_lt hlt)
      rw [List.map_singleton, hslice, flushNal]
    · next hle =>
      rw [List.length_eq_zero_iff.1 (hlen.trans (Nat.sub_eq_zero_of_le (not_lt.1 hle)))]
      rfl

/-- The stream from an index on starts with the byte there. -/
theorem drop_eq_cons {stream : Bytes} {i : ℕ} {b : UInt8} (h : stream[i]? = some b) :
    stream.drop i = b :: stream.drop (i + 1) := by
  obtain ⟨hi, rfl⟩ := List.getElem?_eq_some_iff.1 h
  exact List.drop_eq_getElem_cons hi

/-- What is known about a prefix of the rest is known about the stream. -/
theorem getElem?_of_drop_eq_append {stream bytes rest : Bytes} {i k : ℕ}
    (h : stream.drop i = bytes ++ rest) (hk : k < bytes.length) : stream[i + k]? = bytes[k]? := by
  rw [← List.getElem?_drop, h, List.getElem?_append_left hk]

/-- The contents of the ranges are what is read front to back. -/
theorem map_slice_nalRangesLoop {stream : Bytes} {i : ℕ} {nalStart : Option ℕ}
    (hi : i ≤ stream.length) (hstart : ∀ start ∈ nalStart, start ≤ i) :
    (nalRangesLoop stream i nalStart).map (slice stream) =
      splitAnnexBLoop (stream.drop i) (nalStart.map fun start => slice stream (start, i)) := by
  fun_induction nalRangesLoop stream i nalStart with
  | case1 i nalStart hin hfour ih =>
    obtain ⟨hlen, h0, h1, h2, h3⟩ := hfour
    rw [List.map_append, map_slice_endNal stream nalStart hi, ih (by omega) (by simp),
      drop_eq_cons h0, drop_eq_cons h1, drop_eq_cons h2, drop_eq_cons h3, splitAnnexBLoop.eq_1,
      Option.map_some, slice_self]
  | case2 i nalStart hin hnot hthree ih =>
    obtain ⟨h0, h1, h2⟩ := hthree
    rw [List.map_append, map_slice_endNal stream nalStart hi, ih (by omega) (by simp),
      drop_eq_cons h0, drop_eq_cons h1, drop_eq_cons h2, splitAnnexBLoop.eq_2, Option.map_some,
      slice_self]
  | case3 i nalStart hin hfour hthree ih =>
    have hlt : i < stream.length := by omega
    have hdrop := List.drop_eq_getElem_cons hlt
    have hnal : (nalStart.map fun start => slice stream (start, i + 1)) =
        (nalStart.map fun start => slice stream (start, i)).map (· ++ [stream[i]]) := by
      cases nalStart with
      | none => rfl
      | some start =>
        rw [Option.map_some, slice_append stream 1 (hstart start rfl) hi, hdrop]
        rfl
    rw [ih hlt fun start h => (hstart start h).trans (Nat.le_succ i), hnal, hdrop,
      splitAnnexBLoop.eq_3]
    · -- A start code of four bytes would have been found.
      intro rest hb hrest
      have hcode : stream.drop i = [0, 0, 0, 1] ++ rest := by rw [hdrop, hb, hrest]; rfl
      have hcodeLen : i + 3 < stream.length := by
        have := congrArg List.length hcode
        simp only [List.length_drop, List.length_append, List.length_cons, List.length_nil] at this
        omega
      exact hfour ⟨hcodeLen, getElem?_of_drop_eq_append (k := 0) hcode (by decide),
        getElem?_of_drop_eq_append hcode (by decide), getElem?_of_drop_eq_append hcode (by decide),
        getElem?_of_drop_eq_append hcode (by decide)⟩
    · intro rest hb hrest
      have hcode : stream.drop i = [0, 0, 1] ++ rest := by rw [hdrop, hb, hrest]; rfl
      exact hthree ⟨getElem?_of_drop_eq_append (k := 0) hcode (by decide),
        getElem?_of_drop_eq_append hcode (by decide), getElem?_of_drop_eq_append hcode (by decide)⟩
  | case4 i nalStart hout =>
    -- No start code fits into the last two bytes.
    have hbare (bytes : Bytes) (hlen : bytes.length ≤ 2) (nal : Option Bytes) :
        splitAnnexBLoop bytes nal = flushNal (nal.map (· ++ bytes)) := by
      rcases bytes with _ | ⟨b, _ | ⟨c, _ | ⟨d, bytes⟩⟩⟩
      · cases nal <;> simp [splitAnnexBLoop]
      · cases nal <;> simp [splitAnnexBLoop]
      · cases nal <;> simp [splitAnnexBLoop]
      · simp at hlen
    rw [map_slice_endNal stream nalStart le_rfl, hbare _ (by rw [List.length_drop]; omega),
      Option.map_map]
    cases nalStart with
    | none => rfl
    | some start =>
      rw [Option.map_some, Option.map_some, slice_length stream (hstart start rfl) hi]
      rfl

/-- The slices of the scan are the NAL units. -/
theorem map_slice_nalRanges (stream : Bytes) :
    (nalRanges stream).map (slice stream) = splitAnnexB stream :=
  map_slice_nalRangesLoop (Nat.zero_le _) (by simp)

/-- Whatever the stream is: the slices stand in it one after the other, they are not
    empty, and there is no start code in them. -/
theorem nalRanges_sound (stream : Bytes) :
    (nalRanges stream).Pairwise (fun a b => a.2 ≤ b.1) ∧ ∀ range ∈ nalRanges stream,
      range.1 < range.2 ∧ range.2 ≤ stream.length ∧ Bare (slice stream range) := by
  refine ⟨nalRangesLoop_pairwise stream 0 none, fun range hrange => ?_⟩
  obtain ⟨hlt, hle⟩ := nalRangesLoop_bounds range hrange
  refine ⟨hlt, hle, ?_⟩
  obtain ⟨before, units, hcuts, hbodies⟩ := splitAnnexB_isAnnexB stream
  have hmem : slice stream range ∈ bodies units := by
    rw [← hbodies, ← map_slice_nalRanges]
    exact List.mem_map_of_mem hrange
  obtain ⟨unit, hunit, hslice⟩ := List.mem_map.1 (List.mem_of_mem_filter hmem)
  exact hslice ▸ (hcuts.units unit hunit).2

/-! ## Framing -/

/-- A NAL unit that can stand behind a start code. -/
structure IsNal (nal : Bytes) : Prop where
  ne_nil : nal ≠ []
  bare : Bare nal
  zeros : ¬[0, 0, 0] <:+: nal
  getLast : nal.getLast ne_nil ≠ 0

/-- NAL units, each behind its start code. -/
def frame (units : List (Bytes × Bytes)) : Bytes := units.flatMap fun unit => unit.1 ++ unit.2

theorem IsNal.tail {b c : UInt8} {nal : Bytes} (h : IsNal (b :: c :: nal)) : IsNal (c :: nal) where
  ne_nil := List.cons_ne_nil c nal
  bare := fun hcode => h.bare (hcode.trans (List.suffix_cons b _).isInfix)
  zeros := fun hzeros => h.zeros (hzeros.trans (List.suffix_cons b _).isInfix)
  getLast := by
    have hlast := h.getLast
    rwa [List.getLast_cons (List.cons_ne_nil c nal)] at hlast

/-- A NAL unit that starts with two zero bytes goes on with a byte that is neither
    zero nor the end of a start code. -/
theorem IsNal.of_zero_zero {nal : Bytes} (h : IsNal (0 :: 0 :: nal)) (rest tail : Bytes) :
    nal ++ rest ≠ 0 :: tail ∧ nal ++ rest ≠ 1 :: tail := by
  cases nal with
  | nil => exact absurd rfl h.getLast
  | cons d nal =>
    constructor
    · intro heq
      obtain ⟨rfl, -⟩ := List.cons.inj heq
      exact h.zeros (List.prefix_append [0, 0, 0] nal).isInfix
    · intro heq
      obtain ⟨rfl, -⟩ := List.cons.inj heq
      exact h.bare (List.prefix_append [0, 0, 1] nal).isInfix

/-- A NAL unit is read to its end, whatever follows. -/
theorem splitAnnexBLoop_append {nal : Bytes} (h : IsNal nal) (rest read : Bytes) :
    splitAnnexBLoop (nal ++ rest) (some read) = splitAnnexBLoop rest (some (read ++ nal)) := by
  induction nal generalizing read with
  | nil => exact absurd rfl h.ne_nil
  | cons b nal ih =>
    cases nal with
    | nil =>
      -- The last byte is not zero, so no start code begins with it.
      have hb : b ≠ 0 := h.getLast
      exact splitAnnexBLoop.eq_3 _ b rest (fun _ hzero _ => hb hzero) fun _ hzero _ => hb hzero
    | cons c nal =>
      rw [List.cons_append, splitAnnexBLoop.eq_3, Option.map_some, ih h.tail, List.append_assoc]
      · rfl
      · intro tail hb htail
        obtain ⟨rfl, hrest⟩ := List.cons.inj htail
        subst hb
        exact (h.of_zero_zero rest (1 :: tail)).1 hrest
      · intro tail hb htail
        obtain ⟨rfl, hrest⟩ := List.cons.inj htail
        subst hb
        exact (h.of_zero_zero rest tail).2 hrest

/-- A start code ends the NAL unit before it and begins another. -/
theorem splitAnnexBLoop_startCode {code : Bytes} (h : IsStartCode code) (rest : Bytes)
    (nal : Option Bytes) :
    splitAnnexBLoop (code ++ rest) nal = flushNal nal ++ splitAnnexBLoop rest (some []) := by
  rcases h with rfl | rfl
  · exact splitAnnexBLoop.eq_2 nal rest
  · exact splitAnnexBLoop.eq_1 nal rest

/-- What was read before the units is a NAL unit of its own. -/
theorem splitAnnexBLoop_frame {units : List (Bytes × Bytes)}
    (h : ∀ unit ∈ units, IsStartCode unit.1 ∧ IsNal unit.2) (nal : Option Bytes) :
    splitAnnexBLoop (frame units) nal = flushNal nal ++ units.map Prod.snd := by
  induction units generalizing nal with
  | nil => simp [frame, splitAnnexBLoop]
  | cons unit units ih =>
    obtain ⟨⟨hcode, hnal⟩, hunits⟩ := List.forall_mem_cons.1 h
    have hflush : flushNal (some unit.2) = [unit.2] := by
      obtain ⟨b, rest, hcons⟩ := List.exists_cons_of_ne_nil hnal.ne_nil
      rw [hcons, flushNal]
    have hframe : frame (unit :: units) = unit.1 ++ (unit.2 ++ frame units) := by
      rw [frame, List.flatMap_cons, List.append_assoc, frame]
    rw [hframe, splitAnnexBLoop_startCode hcode, splitAnnexBLoop_append hnal, ih hunits,
      List.nil_append, hflush, List.map_cons, List.singleton_append]

/-- The splitting undoes the framing, and the slices of any other stream stand in it
    one after the other, not empty and without a start code. -/
theorem nalRanges_frame {units : List (Bytes × Bytes)}
    (h : ∀ unit ∈ units, IsStartCode unit.1 ∧ IsNal unit.2) (stream : Bytes) :
    (nalRanges (frame units)).map (slice (frame units)) = units.map Prod.snd ∧
      (nalRanges stream).Pairwise (fun a b => a.2 ≤ b.1) ∧ ∀ range ∈ nalRanges stream,
        range.1 < range.2 ∧ range.2 ≤ stream.length ∧ Bare (slice stream range) := by
  refine ⟨?_, nalRanges_sound stream⟩
  rw [map_slice_nalRanges, splitAnnexB, splitAnnexBLoop_frame h]
  rfl

/-- Two NAL units of one byte each, one of them behind either start code; and a stream
    with start codes back to back and at its end. -/
theorem nalRanges_frame_short :
    (nalRanges [0, 0, 1, 0x67, 0, 0, 0, 1, 0x68]).map
        (slice [0, 0, 1, 0x67, 0, 0, 0, 1, 0x68]) = [[0x67], [0x68]] ∧
      ∀ range ∈ nalRanges [0, 0, 1, 0, 0, 0, 1, 0x65, 0, 0, 1], range.1 < range.2 := by
  have h := @nalRanges_frame [([0, 0, 1], [0x67]), ([0, 0, 0, 1], [0x68])]
    (by
      simp only [List.mem_cons, List.not_mem_nil, or_false, forall_eq_or_imp, forall_eq]
      exact ⟨⟨.inl rfl, by decide, by decide, by decide, by decide⟩,
        ⟨.inr rfl, by decide, by decide, by decide, by decide⟩⟩)
    [0, 0, 1, 0, 0, 0, 1, 0x65, 0, 0, 1]
  exact ⟨h.1, fun range hrange => (h.2.2 range hrange).1⟩

end Bairelay
