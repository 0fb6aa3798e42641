import Bairelay.Basic

/-!
# NAL units

Splitting an Annex-B stream into NAL units, and what their headers say
(`rtsp/codec/nal.rs`). The NAL units are the stretches of the stream behind its start
codes, unchanged (`splitAnnexB_isAnnexB`). The codec is guessed from the header of one
NAL unit (`detectCodec`), whose bits mean different things in H.264 and H.265; which
headers are taken for which codec is `detectCodec_cons`, and from which it is guessed right
`detectCodec_of_identifies`.
-/

namespace Bairelay

/-- The codecs of video that cameras send. -/
inductive VideoCodec where
  | h264
  | h265
  deriving DecidableEq, Repr

/-- The codecs of audio that clients are sent. -/
inductive AudioCodec where
  | aac
  | g711Ulaw
  deriving DecidableEq, Repr

/-! ## Splitting -/

/-- The NAL unit that just ended, if it is not empty. -/
def flushNal : Option Bytes → List Bytes
  | some (b :: nal) => [b :: nal]
  | _ => []

/-- The NAL units of the rest of a stream; `nal` is what was read so far of the
    current one, `none` before the first start code. -/
def splitAnnexBLoop : Bytes → Option Bytes → List Bytes
  | 0 :: 0 :: 0 :: 1 :: rest, nal => flushNal nal ++ splitAnnexBLoop rest (some [])
  | 0 :: 0 :: 1 :: rest, nal => flushNal nal ++ splitAnnexBLoop rest (some [])
  | b :: rest, nal => splitAnnexBLoop rest (nal.map (· ++ [b]))
  | [], nal => flushNal nal

/-- The NAL units of a stream, without the start codes. -/
def splitAnnexB (stream : Bytes) : List Bytes := splitAnnexBLoop stream none

example : splitAnnexB [9, 0, 0, 0, 1, 0x67, 5, 0, 0, 1, 0, 0, 1, 0x65, 0, 0] =
    [[0x67, 5], [0x65, 0, 0]] := by decide

/-- A stretch of a stream in which no NAL unit begins. -/
def Bare (bytes : Bytes) : Prop := ¬[0, 0, 1] <:+: bytes

instance : DecidablePred Bare := fun _ => inferInstanceAs (Decidable (¬_))

/-- A start code has two zeros, or three. -/
def IsStartCode (code : Bytes) : Prop := code = [0, 0, 1] ∨ code = [0, 0, 0, 1]

/-- A stream is what comes before its first start code, then each start code and what stands
    behind it, up to the next one. -/
structure CutsInto (stream before : Bytes) (units : List (Bytes × Bytes)) : Prop where
  eq : stream = before ++ units.flatMap (fun unit => unit.1 ++ unit.2)
  before : Bare before
  units : ∀ unit ∈ units, IsStartCode unit.1 ∧ Bare unit.2

/-- What stands behind the start codes, where there is anything. -/
def bodies (units : List (Bytes × Bytes)) : List Bytes := (units.map Prod.snd).filter (· ≠ [])

/-- The NAL units of a stream, as they stand in it. -/
def IsAnnexB (stream : Bytes) (nals : List Bytes) : Prop :=
  ∃ before units, CutsInto stream before units ∧ nals = bodies units

namespace CutsInto

variable {stream before : Bytes} {units : List (Bytes × Bytes)}

/-- A stream that begins with a start code has another NAL unit in front. -/
theorem startCode (h : CutsInto stream before units) {code : Bytes} (hcode : IsStartCode code) :
    CutsInto (code ++ stream) [] ((code, before) :: units) where
  eq := by simp [h.eq]
  before := by decide
  units := List.forall_mem_cons.2 ⟨⟨hcode, h.before⟩, h.units⟩

/-- A byte that begins no start code belongs to the NAL unit it is in. -/
theorem cons (h : CutsInto stream before units) {b : UInt8} (hb : ¬[0, 0, 1] <+: b :: stream) :
    CutsInto (b :: stream) (b :: before) units where
  eq := by rw [h.eq, List.cons_append]
  before := by
    rw [Bare, List.infix_cons_iff, not_or]
    refine ⟨fun hprefix => hb ?_, h.before⟩
    rw [h.eq, ← List.cons_append]
    exact hprefix.trans (List.prefix_append _ _)
  units := h.units

/-- Without a start code there is no NAL unit. -/
theorem units_eq_nil (h : CutsInto stream before units) (hbare : Bare stream) : units = [] := by
  cases units with
  | nil => rfl
  | cons unit units =>
    -- Either start code ends in the short one.
    refine absurd ?_ hbare
    rw [h.eq, List.flatMap_cons]
    rcases (List.forall_mem_cons.1 h.units).1.1 with hcode | hcode
    · rw [hcode]
      exact ⟨before, unit.2 ++ units.flatMap (fun unit => unit.1 ++ unit.2), by simp⟩
    · rw [hcode]
      exact ⟨before ++ [0], unit.2 ++ units.flatMap (fun unit => unit.1 ++ unit.2), by simp⟩

end CutsInto

theorem bodies_cons (code body : Bytes) (units : List (Bytes × Bytes)) :
    bodies ((code, body) :: units) = flushNal (some body) ++ bodies units := by
  cases body <;> simp [bodies, flushNal]

/-- The rest of a stream belongs to the current NAL unit up to its first start code. -/
theorem splitAnnexBLoop_cutsInto (stream : Bytes) (nal : Option Bytes) :
    ∃ before units, CutsInto stream before units ∧
      splitAnnexBLoop stream nal = flushNal (nal.map (· ++ before)) ++ bodies units := by
  fun_induction splitAnnexBLoop stream nal with
  | case1 rest nal ih =>
    -- The NAL unit ends here, and the next one is what the rest begins with.
    obtain ⟨before, units, hcuts, hloop⟩ := ih
    refine ⟨[], _, hcuts.startCode (.inr rfl), ?_⟩
    rw [hloop, bodies_cons]
    cases nal <;> simp
  | case2 rest nal ih =>
    obtain ⟨before, units, hcuts, hloop⟩ := ih
    refine ⟨[], _, hcuts.startCode (.inl rfl), ?_⟩
    rw [hloop, bodies_cons]
    cases nal <;> simp
  | case3 b rest nal hlong hshort ih =>
    obtain ⟨before, units, hcuts, hloop⟩ := ih
    refine ⟨b :: before, units, hcuts.cons ?_, ?_⟩
    · -- A start code in front would have been taken for one.
      rintro ⟨tail, htail⟩
      simp only [List.cons_append, List.nil_append, List.cons.injEq] at htail
      exact hshort _ htail.1.symm htail.2.symm
    · rw [hloop]
      cases nal <;> simp
  | case4 nal =>
    refine ⟨[], [], ⟨rfl, by decide, by simp⟩, ?_⟩
    cases nal <;> simp [bodies]

/-- The stream is cut as the standard says, whatever is in it. -/
theorem splitAnnexB_isAnnexB (stream : Bytes) : IsAnnexB stream (splitAnnexB stream) := by
  obtain ⟨before, units, hcuts, hloop⟩ := splitAnnexBLoop_cutsInto stream none
  exact ⟨before, units, hcuts, hloop⟩

/-- There are no NAL units without a start code. -/
theorem splitAnnexB_eq_nil {stream : Bytes} (h : Bare stream) : splitAnnexB stream = [] := by
  obtain ⟨before, units, hcuts, heq⟩ := splitAnnexB_isAnnexB stream
  rw [heq, hcuts.units_eq_nil h]
  rfl

/-! ## Types -/

/-- The type in an H.264 header: the low five bits. -/
def h264NalType (b : UInt8) : UInt8 := b &&& 0x1f

/-- The type in an H.265 header: bits 1 to 6 of the first byte. -/
def h265NalType (b : UInt8) : UInt8 := (b >>> 1) &&& 0x3f

/-- Whether a NAL unit is a standard one of a single layer, which decoders
    downstream can handle. -/
def isDecodableNal : Bytes → VideoCodec → Bool
  | [], _ => false
  | b :: _, .h264 => 1 ≤ h264NalType b && h264NalType b ≤ 13
  | [_], .h265 => false
  | b :: b' :: _, .h265 =>
    let ty := h265NalType b
    (ty ≤ 9 || 16 ≤ ty && ty ≤ 21 || 32 ≤ ty && ty ≤ 40) &&
      ((b &&& 0x01) <<< 5) ||| (b' >>> 3) = 0

/-- Whether the second byte can be one of an H.265 header: it ends in the
    temporal id plus one. -/
def hasTemporalId : Bytes → Bool
  | b :: _ => 1 ≤ b &&& 0x07
  | [] => false

/-- Guess the codec from the header of a NAL unit. -/
def detectCodec : Bytes → Option VideoCodec
  | [] => none
  | b :: rest =>
    if b &&& 0x80 ≠ 0 then none
    else
      let h264Type := h264NalType b
      let h265Type := h265NalType b
      if (h264Type = 7 ∨ h264Type = 8) ∧ h265Type < 32 then some .h264
      else if (32 ≤ h265Type ∧ h265Type ≤ 40) ∧ hasTemporalId rest then some .h265
      else if h264Type = 5 ∧ ¬(19 ≤ h265Type ∧ h265Type ≤ 21) then some .h264
      else if (19 ≤ h265Type ∧ h265Type ≤ 21) ∧ hasTemporalId rest then some .h265
      else some .h264

/-- The first bytes that are taken for one of an H.265 header: those of parameter
    sets, delimiters and SEI, and of the key frame slices `0x26` (an IDR with
    leading pictures) and `0x2a` (a CRA). The IDR without leading pictures, `0x28`,
    is not among them; as an H.264 header it is one of a parameter set. -/
def looksLikeH265 (b : UInt8) : Prop :=
  (0x40 ≤ b ∧ b ≤ 0x51) ∨ b = 0x26 ∨ b = 0x29 ∨ b = 0x2a ∨ b = 0x2b

instance : DecidablePred looksLikeH265 := fun _ => inferInstanceAs (Decidable (_ ∨ _))

/-- A NAL unit that a key frame can open with, as the standards have its header: in H.264 a slice,
    an SEI, a parameter set or a delimiter, with a `nal_ref_idc` that goes with it; in H.265 a
    slice of a random access point or a unit without a slice, of the base layer and with a
    temporal id. -/
def Opens : VideoCodec → Bytes → Prop
  | _, [] => False
  | .h264, b :: _ => b < 0x80 ∧
      (h264NalType b = 1 ∨ (h264NalType b = 6 ∨ h264NalType b = 9) ∧ b < 0x20 ∨
        (h264NalType b = 5 ∨ h264NalType b = 7 ∨ h264NalType b = 8) ∧ 0x20 ≤ b)
  | .h265, b :: rest =>
      b < 0x80 ∧ 16 ≤ h265NalType b ∧ isDecodableNal (b :: rest) .h265 ∧ hasTemporalId rest

/-- A NAL unit that a key frame of the codec can open with, and whose header leaves no doubt. In
    H.264 it is not one of H.265 at the same time (a parameter set `0x28` can be), nor has it
    `nal_ref_idc` 2 in front of what could be a temporal id; in H.265 it is no slice but one of an
    IDR with leading pictures or of a CRA. -/
def Identifies : VideoCodec → Bytes → Prop
  | _, [] => False
  | .h264, b :: rest => Opens .h264 (b :: rest) ∧ ¬Opens .h265 (b :: rest) ∧
      ¬(0x40 ≤ b ∧ b < 0x60 ∧ hasTemporalId rest)
  | .h265, b :: rest => Opens .h265 (b :: rest) ∧
      (h265NalType b = 19 ∨ h265NalType b = 21 ∨ 32 ≤ h265NalType b)

instance : (codec : VideoCodec) → DecidablePred (Opens codec)
  | .h264, [] | .h265, [] => inferInstanceAs (Decidable False)
  | .h264, _ :: _ | .h265, _ :: _ => inferInstanceAs (Decidable (_ ∧ _))

instance : (codec : VideoCodec) → DecidablePred (Identifies codec)
  | .h264, [] | .h265, [] => inferInstanceAs (Decidable False)
  | .h264, _ :: _ | .h265, _ :: _ => inferInstanceAs (Decidable (_ ∧ _))

example : Identifies .h264 [0x67, 0x64] ∧ Identifies .h265 [0x26, 0x01] ∧
    ∀ codec, ¬Identifies codec [0x28, 0x01] ∧ ¬Identifies codec [0x47, 0x4d] := by
  refine ⟨by decide, by decide, fun codec => ?_⟩
  cases codec <;> decide

/-- Only the first byte and the temporal id matter. -/
theorem detectCodec_congr (b : UInt8) {rest rest' : Bytes}
    (h : hasTemporalId rest = hasTemporalId rest') :
    detectCodec (b :: rest) = detectCodec (b :: rest') := by
  simp only [detectCodec, h]

/-- What the codec is guessed to be, for every first byte. -/
theorem detectCodec_cons (b : UInt8) (rest : Bytes) :
    detectCodec (b :: rest) =
      if ¬b < 0x80 then none
      else if looksLikeH265 b ∧ hasTemporalId rest then some .h265
      else some .h264 := by
  -- All first bytes, with and without a temporal id.
  have hbytes : ∀ b : UInt8, ∀ rest ∈ [[], [(1 : UInt8)]], detectCodec (b :: rest) =
      if ¬b < 0x80 then none
      else if looksLikeH265 b ∧ hasTemporalId rest then some .h265
      else some .h264 :=
    forall_byte (by decide +kernel)
  cases ht : hasTemporalId rest with
  | false =>
    have hcongr : detectCodec (b :: rest) = detectCodec [b] := detectCodec_congr b ht
    rw [hcongr, hbytes b [] (by simp)]
    rfl
  | true =>
    have hcongr : detectCodec (b :: rest) = detectCodec [b, 1] := detectCodec_congr b ht
    rw [hcongr, hbytes b [1] (by simp)]
    rfl

/-- A header of H.264 without `nal_ref_idc` 2 is not taken for one of H.265. -/
theorem not_looksLikeH265_of_opens {b : UInt8} {rest : Bytes} (hopens : Opens .h264 (b :: rest))
    (hlow : ¬(0x40 ≤ b ∧ b < 0x60)) : ¬looksLikeH265 b := by
  rintro (⟨hle, hle'⟩ | rfl | rfl | rfl | rfl)
  · exact hlow ⟨hle, UInt8.lt_of_le_of_lt hle' (by decide)⟩
  all_goals exact absurd hopens.2 (by decide)

/-- The headers of H.265 that identify it are all taken for one. -/
theorem looksLikeH265_of_opens {b : UInt8} {rest : Bytes} (hopens : Opens .h265 (b :: rest))
    (htype : h265NalType b = 19 ∨ h265NalType b = 21 ∨ 32 ≤ h265NalType b) : looksLikeH265 b := by
  -- An odd byte would be of another layer.
  have hbytes : ∀ b : UInt8, b < 0x80 ∧ (b &&& 0x01) <<< 5 = 0 ∧
      (h265NalType b ≤ 9 || 16 ≤ h265NalType b && h265NalType b ≤ 21 ||
        32 ≤ h265NalType b && h265NalType b ≤ 40) ∧
      (h265NalType b = 19 ∨ h265NalType b = 21 ∨ 32 ≤ h265NalType b) → looksLikeH265 b :=
    forall_byte (by decide +kernel)
  obtain ⟨hlt, -, hdecodable, -⟩ := hopens
  cases rest with
  | nil => cases hdecodable
  | cons b' rest =>
    obtain ⟨hdecodable, hlayer⟩ := (Bool.and_eq_true _ _).mp hdecodable
    exact hbytes b ⟨hlt, (UInt8.or_eq_zero_iff.1 (of_decide_eq_true hlayer)).1, hdecodable, htype⟩

/-- The codec is guessed right from a NAL unit that identifies it. -/
theorem detectCodec_of_identifies {nal : Bytes} {codec : VideoCodec} (h : Identifies codec nal) :
    detectCodec nal = some codec := by
  cases nal with
  | nil => cases codec <;> exact absurd h id
  | cons b rest =>
    rw [detectCodec_cons]
    cases codec with
    | h264 =>
      obtain ⟨hopens, -, hlow⟩ := h
      have hnot : ¬(looksLikeH265 b ∧ hasTemporalId rest) := by
        rintro ⟨hlooks, htid⟩
        exact not_looksLikeH265_of_opens hopens (fun hb => hlow ⟨hb.1, hb.2, htid⟩) hlooks
      rw [if_neg (not_not.2 hopens.1), if_neg hnot]
    | h265 =>
      obtain ⟨hopens, htype⟩ := h
      rw [if_neg (not_not.2 hopens.1), if_pos ⟨looksLikeH265_of_opens hopens htype, hopens.2.2.2⟩]

end Bairelay
