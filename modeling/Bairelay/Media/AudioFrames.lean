import Bairelay.Media.Mute

/-!
# What an audio packet becomes

What the translator makes of a packet of audio (`stream_translate.rs`), measured
against what the packet holds.

An AAC packet holds an ADTS frame: a header of bit fields, with or without a
checksum behind it, and the raw data block. The access unit handed to the
packetizer is to be that block (`auData_translateAac_iff`): the translator strips
the header without the checksum, whatever the header says.

An ADPCM packet decodes to the sample in its header and two for each byte of
data, which is an odd number of them. They are halved packet by packet, and the
clock of G.711 counts what is left (`g711Clock_iff`): it loses a sample for every
second packet.
-/

namespace Bairelay

/-! ## ADTS -/

namespace Adts

/-- The first seven bytes as a number, the first bit the highest. -/
def headerBits (data : Bytes) : ℕ := (data.take 7).foldl (fun n b => 256 * n + b.toNat) 0

/-- The bit field of the given position and width. -/
def field (data : Bytes) (pos width : ℕ) : ℕ := headerBits data / 2 ^ (56 - pos - width) % 2 ^ width

/-- No checksum follows the header. -/
def protectionAbsent (data : Bytes) : Bool := field data 15 1 = 1

/-- Two bytes more where there is a checksum. -/
def headerLen (data : Bytes) : ℕ := if protectionAbsent data then 7 else 9

/-- The declared length of the frame, its header included. -/
def frameLength (data : Bytes) : ℕ := field data 30 13

/-- What is in the frame behind its header. -/
def rawDataBlock (data : Bytes) : Bytes := (data.take (frameLength data)).drop (headerLen data)

/-- The data start with a well-formed frame of AAC-LC, with one to seven channels;
    whatever may follow it. -/
structure WellFormed (data : Bytes) : Prop where
  syncword : field data 0 12 = 0xfff
  profile : field data 16 2 = 1
  samplingFrequencyIndex : field data 18 4 < 13
  channels : field data 23 3 ≠ 0
  header : headerLen data ≤ frameLength data
  length : frameLength data ≤ data.length

theorem seven_le_headerLen (data : Bytes) : 7 ≤ headerLen data := by
  unfold headerLen
  split <;> omega

/-- The bits of the header, as a number of seven bytes. -/
theorem headerBits_cons (b0 b1 b2 b3 b4 b5 b6 : UInt8) (rest : Bytes) :
    headerBits (b0 :: b1 :: b2 :: b3 :: b4 :: b5 :: b6 :: rest) =
      256 * (256 * (256 * (256 * (256 * (256 * b0.toNat + b1.toNat) + b2.toNat) + b3.toNat) +
        b4.toNat) + b5.toNat) + b6.toNat := by
  simp [headerBits]

/-- A field of a byte. -/
theorem toNat_shiftRight_and (b : UInt8) {k w : ℕ} (hk : k < 8) (hw : w ≤ 8) :
    ((b >>> UInt8.ofNat k) &&& UInt8.ofNat (2 ^ w - 1)).toNat = b.toNat / 2 ^ k % 2 ^ w := by
  have hmask : 2 ^ w - 1 < 256 :=
    lt_of_lt_of_le (Nat.sub_lt (by positivity) one_pos) (Nat.pow_le_pow_right two_pos hw)
  rw [UInt8.toNat_and, UInt8.toNat_shiftRight, UInt8.toNat_ofNat_of_lt' hmask,
    UInt8.toNat_ofNat_of_lt' (show k < 256 by omega), Nat.mod_eq_of_lt hk,
    Nat.shiftRight_eq_div_pow, Nat.and_two_pow_sub_one_eq_mod]

/-- The parts of the length do not overlap. -/
theorem length_bits {a b c : ℕ} (hb : b < 256) :
    ((a &&& 0x03) <<< 11) ||| (b <<< 3) ||| ((c >>> 5) &&& 0x07) =
      (a % 4 * 256 + b) * 8 + c / 32 % 8 := by
  have ha : a &&& 0x03 = a % 4 := Nat.and_two_pow_sub_one_eq_mod a 2
  have hc : (c >>> 5) &&& 0x07 = c / 32 % 8 := by
    rw [Nat.shiftRight_eq_div_pow]
    exact Nat.and_two_pow_sub_one_eq_mod _ 3
  have hhigh : ((a % 4) <<< 11) ||| (b <<< 3) = (a % 4 * 256 + b) <<< 3 := by
    rw [← Nat.shiftLeft_add_eq_or_of_lt (by rw [Nat.shiftLeft_eq]; omega)]
    simp only [Nat.shiftLeft_eq]
    omega
  rw [ha, hc, hhigh, ← Nat.shiftLeft_add_eq_or_of_lt (by omega), Nat.shiftLeft_eq]

/-- A well-formed frame is parsed, and its declared length read. -/
theorem WellFormed.parseAdts {data : Bytes} (h : WellFormed data) :
    ∃ header, Bairelay.parseAdts data = some header ∧ header.aot = 2 ∧ header.channels ≠ 0 ∧
      header.frameLength = frameLength data := by
  have hlen : 7 ≤ data.length := (seven_le_headerLen data).trans (h.header.trans h.length)
  have hframe : 7 ≤ frameLength data := (seven_le_headerLen data).trans h.header
  obtain ⟨hsync, hprofile, hindex, hchannels, -, -⟩ := h
  rcases data with _ | ⟨b0, _ | ⟨b1, _ | ⟨b2, _ | ⟨b3, _ | ⟨b4, _ | ⟨b5, _ | ⟨b6, rest⟩⟩⟩⟩⟩⟩⟩
  iterate 7 (simp at hlen)
  simp only [frameLength, field] at hframe hsync hprofile hindex hchannels ⊢
  rw [headerBits_cons] at hsync hprofile hindex hchannels
  have h0 := b0.toNat_lt
  have h1 := b1.toNat_lt
  have h2 := b2.toNat_lt
  have h3 := b3.toNat_lt
  have h4 := b4.toNat_lt
  have h5 := b5.toNat_lt
  have h6 := b6.toNat_lt
  have hb0 : b0 = 0xff := UInt8.toNat_inj.1 (show b0.toNat = 255 by omega)
  have hb1 : b1 &&& 0xf0 = 0xf0 := by
    have hmask : ∀ r < 16, (240 + r) &&& 240 = 240 := by decide
    refine UInt8.toNat_inj.1 ((UInt8.toNat_and _ _).trans ?_)
    rw [show b1.toNat = 240 + (b1.toNat - 240) by omega]
    exact hmask _ (by omega)
  have hp : (b2 >>> 6) &&& 0x03 = 1 := by
    have := toNat_shiftRight_and b2 (k := 6) (w := 2) (by decide) (by decide)
    exact UInt8.toNat_inj.1 (this.trans (show _ = 1 by omega))
  have hi : ((b2 >>> 2) &&& 0x0f).toNat < sampleRates.length := by
    have := toNat_shiftRight_and b2 (k := 2) (w := 4) (by decide) (by decide)
    exact lt_of_eq_of_lt this (show _ < 13 by omega)
  have hc : ((b2 &&& 0x01) <<< 2) ||| ((b3 >>> 6) &&& 0x03) ≠ 0 := by
    intro hzero
    have hb3 := toNat_shiftRight_and b3 (k := 6) (w := 2) (by decide) (by decide)
    have hor := congrArg UInt8.toNat hzero
    rw [UInt8.toNat_or, UInt8.toNat_shiftLeft, UInt8.toNat_and] at hor
    obtain ⟨hhigh, hlow⟩ := Nat.or_eq_zero_iff.1 hor
    replace hlow := hb3.symm.trans hlow
    replace hhigh : (b2.toNat &&& 1) <<< 2 % 2 ^ 8 = 0 := hhigh
    rw [Nat.and_one_is_mod, Nat.shiftLeft_eq] at hhigh
    omega
  have hl := length_bits (a := b3.toNat) (c := b5.toNat) h4
  have hfields : (b3.toNat % 4 * 256 + b4.toNat) * 8 + b5.toNat / 32 % 8 =
      headerBits (b0 :: b1 :: b2 :: b3 :: b4 :: b5 :: b6 :: rest) / 2 ^ (56 - 30 - 13) %
        2 ^ 13 := by
    rw [headerBits_cons]
    clear hframe hsync hprofile hindex hchannels
    omega
  rw [← hfields] at hframe
  rw [← hfields, Bairelay.parseAdts]
  simp only [hb0, hb1, hp, hl, ne_eq, not_true_eq_false, or_self, if_false,
    List.getElem?_eq_getElem hi, Option.bind_eq_bind, Option.bind_some]
  rw [if_neg (show ¬_ < adtsHeaderLen from not_lt.2 hframe)]
  exact ⟨_, rfl, rfl, hc, rfl⟩

end Adts

/-- The access units of AAC among the effects. -/
def auData (emits : List Emit) : List Bytes :=
  emits.filterMap fun
    | .audio (.audio (.aac auData _ _) _) _ => some auData
    | _ => none

theorem auData_append (emits emits' : List Emit) :
    auData (emits ++ emits') = auData emits ++ auData emits' :=
  List.filterMap_append

theorem auData_announceAac (header : AdtsHeader) (state : StreamTranslatorState) :
    auData (announceAac header state).2 = [] := by
  unfold announceAac
  split
  · rfl
  · split <;> rfl

/-- What a well-formed frame gives: what follows the first seven bytes, up to the
    declared length. -/
theorem auData_translateAac {aac : BcMediaAac} (h : Adts.WellFormed aac.data)
    (state : StreamTranslatorState) (bridging : Bool) :
    auData (translateAac aac state bridging).2 =
      if bridging ∨ Adts.frameLength aac.data = 7 then []
      else [(aac.data.take (Adts.frameLength aac.data)).drop 7] := by
  obtain ⟨header, hparse, haot, hchannels, hframe⟩ := h.parseAdts
  have hlen := h.length
  have hheader := (Adts.seven_le_headerLen aac.data).trans h.header
  have hmin : min (header.frameLength - adtsHeaderLen) (aac.data.drop adtsHeaderLen).length =
      Adts.frameLength aac.data - 7 := by
    rw [hframe, List.length_drop, adtsHeaderLen]
    omega
  have hsome : aacSamplesPerAu header.aot = some 1024 := by rw [haot]; rfl
  have htake : (aac.data.drop adtsHeaderLen).take (Adts.frameLength aac.data - 7) =
      (aac.data.take (Adts.frameLength aac.data)).drop 7 := List.drop_take.symm
  rw [translateAac, hparse]
  dsimp only
  rw [if_neg hchannels, if_neg (by rw [hframe, adtsHeaderLen]; omega), hmin, hsome]
  by_cases hempty : Adts.frameLength aac.data - 7 = 0
  · rw [if_pos hempty, if_pos (.inr (by omega)), auData_announceAac]
  · rw [if_neg hempty]
    cases bridging with
    | true => exact auData_announceAac header state
    | false =>
      dsimp only
      rw [if_neg Bool.false_ne_true, if_neg (by simp only [Bool.false_eq_true, false_or]; omega),
        auData_append, auData_announceAac, htake]
      rfl

/-- The access unit is the raw data block of the frame, unless a checksum follows
    the header. While a gap is bridged there is none. -/
theorem auData_translateAac_iff {aac : BcMediaAac} (h : Adts.WellFormed aac.data)
    (state : StreamTranslatorState) (bridging : Bool) :
    auData (translateAac aac state bridging).2 =
        (if bridging ∨ Adts.rawDataBlock aac.data = [] then [] else [Adts.rawDataBlock aac.data]) ↔
      bridging ∨ Adts.protectionAbsent aac.data := by
  have hlen := h.length
  have hheader := h.header
  have hraw : (Adts.rawDataBlock aac.data).length =
      Adts.frameLength aac.data - Adts.headerLen aac.data := by
    rw [Adts.rawDataBlock, List.length_drop, List.length_take, min_eq_left hlen]
  have hempty : Adts.rawDataBlock aac.data = [] ↔
      Adts.frameLength aac.data ≤ Adts.headerLen aac.data := by
    rw [← List.length_eq_zero_iff, hraw, Nat.sub_eq_zero_iff_le]
  rw [auData_translateAac h]
  cases bridging with
  | true => simp
  | false =>
    cases hprotected : Adts.protectionAbsent aac.data with
    | true =>
      -- The header is the one that is stripped.
      have hseven : Adts.headerLen aac.data = 7 := by rw [Adts.headerLen, hprotected]; rfl
      have hiff : Adts.frameLength aac.data = 7 ↔ Adts.rawDataBlock aac.data = [] := by
        rw [hempty, hseven]
        omega
      simp only [hiff, Adts.rawDataBlock, hseven, or_true]
    | false =>
      -- Two bytes of checksum are left in front of the raw data block.
      have hnine : Adts.headerLen aac.data = 9 := by rw [Adts.headerLen, hprotected]; rfl
      have hlong : Adts.frameLength aac.data ≠ 7 := by omega
      simp only [Bool.false_eq_true, false_or, hlong, if_false, iff_false]
      intro heq
      have hlast : Adts.rawDataBlock aac.data =
          (aac.data.take (Adts.frameLength aac.data)).drop 7 := by
        split at heq
        · cases heq
        · exact (List.singleton_inj.1 heq).symm
      have hlast := congrArg List.length hlast
      rw [hraw, List.length_drop, List.length_take, min_eq_left hlen] at hlast
      omega

/-- A frame with a checksum, and two bytes in its raw data block. -/
def checksummedFrame : Bytes :=
  [0xff, 0xf0, 0x50, 0x80, 0x01, 0x7f, 0xfc, 0xab, 0xcd, 0x21, 0x10]

/-- A frame with a checksum whose length is right. -/
theorem checksummedFrame_wellFormed : Adts.WellFormed checksummedFrame := by
  constructor <;> decide +kernel

/-- The checksum becomes part of the access unit. -/
theorem auData_checksummedFrame :
    Adts.WellFormed checksummedFrame ∧ Adts.rawDataBlock checksummedFrame = [0x21, 0x10] ∧
      auData (translateAac ⟨checksummedFrame⟩ {} false).2 = [[0xab, 0xcd, 0x21, 0x10]] :=
  ⟨checksummedFrame_wellFormed, by decide +kernel, by decide +kernel⟩

/-- The same frame without its checksum. -/
theorem auData_translateAac_iff_plain :
    auData (translateAac ⟨[0xff, 0xf1, 0x50, 0x80, 0x01, 0x3f, 0xfc, 0x21, 0x10, 0x00]⟩ {}
      false).2 = [[0x21, 0x10]] :=
  ((@auData_translateAac_iff ⟨[0xff, 0xf1, 0x50, 0x80, 0x01, 0x3f, 0xfc, 0x21, 0x10, 0x00]⟩
    (by constructor <;> decide +kernel) {} false).2 (by decide +kernel)).trans (by decide +kernel)

/-! ## The clock of G.711 -/

theorem length_decodeBytes {d d' : AdpcmDecoder} {data : Bytes} {samples : List Int16}
    (h : d.decodeBytes data = some (d', samples)) : samples.length = 2 * data.length := by
  induction data generalizing d d' samples with
  | nil =>
    cases h
    rfl
  | cons b data ih =>
    simp only [AdpcmDecoder.decodeBytes, Option.bind_eq_bind, Option.bind_eq_some_iff] at h
    obtain ⟨⟨d₁, low⟩, -, ⟨d₂, high⟩, -, ⟨d₃, rest⟩, hrest, heq⟩ := h
    cases heq
    rw [List.length_cons, List.length_cons, List.length_cons, ih hrest]
    omega

/-- A block has a sample in its header and two in each byte of its data. -/
theorem length_decodeBlock {d d' : AdpcmDecoder} {block : Bytes} {pcm : List Int16}
    (h : d.decodeBlock block = some (d', .ok pcm)) :
    pcm.length = 2 * (block.length - 4) + 1 ∧ 4 < block.length := by
  rw [AdpcmDecoder.decodeBlock.eq_def] at h
  split at h
  · next b0 b1 b2 b3 data =>
    split at h
    · cases h
    · next hdata =>
      have hpos := List.length_pos_iff.2 hdata
      dsimp only at h
      split at h
      · cases h
      · obtain ⟨⟨d'', samples⟩, hbytes, heq⟩ := Option.bind_eq_some_iff.1 h
        cases heq
        simp only [List.length_cons, length_decodeBytes hbytes]
        omega
  · cases h

theorem length_decimate16To8 (pcm : List Int16) :
    (decimate16To8 pcm).length = pcm.length / 2 := by
  fun_induction decimate16To8 pcm with
  | case1 a b rest ih =>
    simp only [List.length_cons, ih]
    omega
  | case2 pcm hshort =>
    rcases pcm with _ | ⟨a, _ | ⟨b, rest⟩⟩
    · rfl
    · exact (Nat.div_eq_of_lt one_lt_two).symm
    · exact absurd rfl (hshort a b rest)

/-- The samples at 16 kHz that a packet decodes to. -/
def pcm16k? : BcMedia → Option (List Int16)
  | .adpcm adpcm => match AdpcmDecoder.new.decodeBlock adpcm.data with
    | some (_, .ok pcm16k) => some pcm16k
    | _ => none
  | .infoV1 _ | .infoV2 _ | .iframe _ | .pframe _ | .aac _ => none

/-- They are odd in number, and at least three. -/
theorem length_pcm16k? {packet : BcMedia} {pcm : List Int16} (h : pcm16k? packet = some pcm) :
    pcm.length % 2 = 1 ∧ 3 ≤ pcm.length := by
  cases packet with
  | adpcm adpcm =>
    rw [pcm16k?] at h
    split at h
    · next d' pcm16k hblock =>
      cases h
      obtain ⟨hlen, hpos⟩ := length_decodeBlock hblock
      omega
    · cases h
  | infoV1 | infoV2 | iframe | pframe | aac => cases h

/-- An announcement does not move the clock of the sound. -/
theorem announceG711_g711PtsNext (state : StreamTranslatorState) :
    (announceG711 state).1.g711PtsNext = state.g711PtsNext := by
  unfold announceG711
  split <;> rfl

/-- The clock moves by the samples that are sent. -/
theorem translateAdpcm_g711PtsNext (adpcm : BcMediaAdpcm) (state : StreamTranslatorState)
    (bridging : Bool) :
    (translateAdpcm adpcm state bridging).1.g711PtsNext =
      state.g711PtsNext + UInt32.ofNat ((pcm16k? (.adpcm adpcm)).elim 0 (·.length / 2)) := by
  rcases hblock : AdpcmDecoder.new.decodeBlock adpcm.data with _ | ⟨d', e | pcm⟩
  · simp only [translateAdpcm, pcm16k?, hblock]
    exact (UInt32.add_zero _).symm
  · simp only [translateAdpcm, pcm16k?, hblock]
    exact (UInt32.add_zero _).symm
  · have hsome : pcm16k? (.adpcm adpcm) = some pcm := by rw [pcm16k?, hblock]
    obtain ⟨-, hlong⟩ := length_pcm16k? hsome
    have hpcm : pcm ≠ [] := List.ne_nil_of_length_pos (by omega)
    have hhalf : decimate16To8 pcm ≠ [] :=
      List.ne_nil_of_length_pos (by rw [length_decimate16To8]; omega)
    rw [hsome, Option.elim_some, translateAdpcm, hblock]
    dsimp only
    rw [if_neg (not_or.2 ⟨hpcm, hhalf⟩), g711Encode, List.length_map, length_decimate16To8,
      ← announceG711_g711PtsNext state]
    split <;> rfl

theorem translateAac_g711PtsNext (aac : BcMediaAac) (state : StreamTranslatorState)
    (bridging : Bool) : (translateAac aac state bridging).1.g711PtsNext = state.g711PtsNext := by
  have hannounce (header : AdtsHeader) :
      (announceAac header state).1.g711PtsNext = state.g711PtsNext := by
    unfold announceAac
    split
    · rfl
    · split <;> rfl
  rw [translateAac.eq_def]
  dsimp only
  repeat' split
  all_goals first | rfl | exact hannounce _

/-- A key frame does not touch the sound's clock. -/
theorem translateIframe_g711PtsNext (iframe : BcMediaIframe) (state : StreamTranslatorState)
    (now : Instant) : (translateIframe iframe state now).1.g711PtsNext = state.g711PtsNext := by
  rw [translateIframe]
  dsimp only
  repeat' split
  all_goals rfl

theorem translatePframe_g711PtsNext (pframe : BcMediaPframe) (state : StreamTranslatorState) :
    (translatePframe pframe state).1.g711PtsNext = state.g711PtsNext := by
  rw [translatePframe]
  dsimp only
  repeat' split
  all_goals rfl

/-- A packet advances the clock by half of the samples it decodes to, rounded down. -/
theorem translate_g711PtsNext (packet : BcMedia) (state : StreamTranslatorState) (now : Instant)
    (bridging : Bool) :
    (translate packet state now bridging).1.g711PtsNext =
      state.g711PtsNext + UInt32.ofNat ((pcm16k? packet).elim 0 (·.length / 2)) := by
  cases packet with
  | adpcm adpcm => exact translateAdpcm_g711PtsNext adpcm state bridging
  | infoV1 | infoV2 => exact (UInt32.add_zero _).symm
  | iframe frame =>
    exact (translateIframe_g711PtsNext frame state now).trans (UInt32.add_zero _).symm
  | pframe frame => exact (translatePframe_g711PtsNext frame state).trans (UInt32.add_zero _).symm
  | aac frame =>
    exact (translateAac_g711PtsNext frame state bridging).trans (UInt32.add_zero _).symm

/-- What the packets of a run decode to, one after the other. -/
def decoded (inputs : List Input) : List (List Int16) := inputs.filterMap (pcm16k? ·.packet)

/-- The samples of the first packet come first. -/
theorem decoded_cons (input : Input) (inputs : List Input) :
    decoded (input :: inputs) = (pcm16k? input.packet).toList ++ decoded inputs := by
  rw [decoded, List.filterMap_cons]
  cases pcm16k? input.packet <;> rfl

/-- A run advances the clock by half of the samples of each packet, rounded down each time. -/
theorem translatorState_g711PtsNext (state : StreamTranslatorState) (inputs : List Input) :
    (translatorState state inputs).g711PtsNext =
      state.g711PtsNext + UInt32.ofNat ((decoded inputs).map (·.length / 2)).sum := by
  induction inputs generalizing state with
  | nil => exact (UInt32.add_zero _).symm
  | cons input inputs ih =>
    refine (ih _).trans ?_
    rw [translate_g711PtsNext, decoded_cons, UInt32.add_assoc, ← UInt32.ofNat_add]
    cases pcm16k? input.packet with
    | none => rw [Option.elim_none, Nat.zero_add, Option.toList_none, List.nil_append]
    | some pcm => rfl

/-- Every packet with a sample to spare, rounding them one by one loses one for
    every two packets. -/
theorem sum_half_of_odd {pcms : List (List Int16)} (h : ∀ pcm ∈ pcms, pcm.length % 2 = 1) :
    (pcms.map List.length).sum / 2 = (pcms.map (·.length / 2)).sum + pcms.length / 2 := by
  have hsum : (pcms.map List.length).sum = 2 * (pcms.map (·.length / 2)).sum + pcms.length := by
    induction pcms with
    | nil => rfl
    | cons pcm pcms ih =>
      have hodd := h pcm List.mem_cons_self
      have ih := ih fun pcm hpcm => h pcm (List.mem_cons_of_mem _ hpcm)
      simp only [List.map_cons, List.sum_cons, List.length_cons]
      omega
  omega

/-- The clock has advanced by half of all the samples exactly if the packets, two by
    two, are a multiple of `2 ^ 32`: with one packet, but not with two. -/
theorem g711Clock_iff (state : StreamTranslatorState) (inputs : List Input) :
    (translatorState state inputs).g711PtsNext =
        state.g711PtsNext + UInt32.ofNat (((decoded inputs).map List.length).sum / 2) ↔
      (decoded inputs).length / 2 % 2 ^ 32 = 0 := by
  have hodd : ∀ pcm ∈ decoded inputs, pcm.length % 2 = 1 := by
    intro pcm hpcm
    obtain ⟨input, -, hinput⟩ := List.mem_filterMap.1 hpcm
    exact (length_pcm16k? hinput).1
  rw [translatorState_g711PtsNext, sum_half_of_odd hodd, UInt32.add_right_inj,
    ← UInt32.toNat_inj, UInt32.toNat_ofNat', UInt32.toNat_ofNat']
  omega

/-- Two packets with a byte of data each: three samples, and three again. -/
def adpcmPair : List Input :=
  [⟨.adpcm ⟨[0x00, 0x00, 0x00, 0x00, 0x00]⟩, 0, false⟩,
    ⟨.adpcm ⟨[0x00, 0x00, 0x00, 0x00, 0x00]⟩, 0, false⟩]

/-- They decode to six samples, and advance the clock by two. -/
theorem g711Clock_adpcmPair :
    (decoded adpcmPair).length = 2 ∧ ((decoded adpcmPair).map List.length).sum = 6 ∧
      (translatorState {} adpcmPair).g711PtsNext = 2 := by
  refine ⟨?_, ?_, ?_⟩ <;> decide +kernel

end Bairelay
