import Bairelay.BcMedia.Ser
import Bairelay.Lib.Checked

/-!
# What is done with media packets

The accessors of `bcmedia/model.rs` and their way of being printed, with the
arithmetic checked: `none` stands for a result that does not fit, or a slice out
of range. So for the serialiser.

`deserialize_safe_iff`: for which packets that the parser returns everything has
a result. Pictures of fewer than 20 bytes cannot be printed; sound without the
state of the predictor has no block, and is not serialised; more than 2147 bytes
of samples have no duration.
-/

namespace Bairelay

open Streaming Parser

/-! ## Printing -/

/-- A value that is printed. -/
inductive DebugValue where
  | videoType (videoType : VideoType)
  | number (n : ℕ)
  | time (time : Option UInt32)
  | bytes (bytes : Bytes)
  deriving DecidableEq, Repr

/-- The entries on the data of a picture, under these names. -/
def debugData (firstKey lastKey : String) (data : Bytes) : Option (List (String × DebugValue)) := do
  let first ← Checked.slice data 0 (min 20 data.length)
  let start ← Checked.sub data.length 20
  let last ← Checked.slice data (max 0 start) data.length
  pure [(firstKey, .bytes first), (lastKey, .bytes last), ("data.len()", .number data.length)]

/-- Shows ten bytes from each end of the payload. -/
def BcMediaIframe.debug (frame : BcMediaIframe) : Option (List (String × DebugValue)) := do
  let data ← debugData "data[0..10]" "data[-10..-1]" frame.data
  pure <|
    [("video_type", .videoType frame.videoType),
     ("microseconds", .number frame.microseconds.toNat),
     ("time", .time frame.time)] ++ data

/-- Shows twenty bytes from each end, unlike the key frame. -/
def BcMediaPframe.debug (frame : BcMediaPframe) : Option (List (String × DebugValue)) := do
  let data ← debugData "data[0..20]" "data[-20..-1]" frame.data
  pure <|
    [("video_type", .videoType frame.videoType),
     ("microseconds", .number frame.microseconds.toNat)] ++ data

/-- Has no payload, so nothing that could be out of range. -/
def BcMediaInfo.debug (info : BcMediaInfo) : List (String × DebugValue) :=
  [("video_width", .number info.videoWidth.toNat),
   ("video_height", .number info.videoHeight.toNat),
   ("fps", .number info.fps.toNat),
   ("start_year", .number info.startYear.toNat),
   ("start_month", .number info.startMonth.toNat),
   ("start_day", .number info.startDay.toNat),
   ("start_hour", .number info.startHour.toNat),
   ("start_min", .number info.startMin.toNat),
   ("start_seconds", .number info.startSeconds.toNat),
   ("end_year", .number info.endYear.toNat),
   ("end_month", .number info.endMonth.toNat),
   ("end_day", .number info.endDay.toNat),
   ("end_hour", .number info.endHour.toNat),
   ("end_min", .number info.endMin.toNat),
   ("end_seconds", .number info.endSeconds.toNat)]

/-- A packet as it is printed. Sound is printed whole. -/
def BcMedia.debug : BcMedia → Option (List (String × DebugValue))
  | .infoV1 info => some info.debug
  | .infoV2 info => some info.debug
  | .iframe frame => frame.debug
  | .pframe frame => frame.debug
  | .aac frame => some [("data", .bytes frame.data)]
  | .adpcm frame => some [("data", .bytes frame.data)]

/-! ## Durations -/

/-- The sample frequencies by their index in the header of a frame. -/
def aacSampleFrequency : UInt8 → Option ℕ
  | 0 => some 96000
  | 1 => some 88200
  | 2 => some 64000
  | 3 => some 48000
  | 4 => some 44100
  | 5 => some 32000
  | 6 => some 24000
  | 7 => some 22050
  | 8 => some 16000
  | 9 => some 12000
  | 10 => some 11025
  | 11 => some 8000
  | 12 => some 7350
  | _ => none

/-- The unit of every duration. -/
def microsecondsPerSecond : ℕ := 1000000

/-- The duration in microseconds, if there is a header: the outer `Option` is that
    of the arithmetic. -/
def BcMediaAac.duration (frame : BcMediaAac) : Option (Option ℕ) :=
  if frame.data.length < 8 then some none
  else do
    let b0 ← frame.data[0]?
    if b0 ≠ 0xFF then some none
    else
      let b1 ← frame.data[1]?
      if b1 &&& 0xF0 ≠ 0xF0 then some none
      else
        let b2 ← frame.data[2]?
        match aacSampleFrequency ((b2 &&& 0x3C) >>> 2) with
        | none => some none
        | some sampleFrequency =>
          let b6 ← frame.data[6]?
          let frames ← Checked.fit 8 ((b6 &&& 0x03).toNat + 1)
          let samples ← Checked.fit 32 (frames * 1024)
          let product ← Checked.fit 32 (samples * microsecondsPerSecond)
          some (some (product / sampleFrequency))

/-- The bytes of samples. The length is cut to 32 bits first. -/
def BcMediaAdpcm.blockSize (frame : BcMediaAdpcm) : Option ℕ :=
  Checked.sub (frame.data.length % 2 ^ 32) 4

/-- Sound of this kind always has 8000 samples a second. -/
def BcMediaAdpcm.duration (frame : BcMediaAdpcm) : Option (Option ℕ) := do
  let blockSize ← frame.blockSize
  let samples ← Checked.fit 32 (blockSize * 2)
  let product ← Checked.fit 32 (samples * microsecondsPerSecond)
  some (some (product / 8000))

/-! ## Serialising -/

/-- The padding with its difference checked. -/
def padSize? (payloadSize : UInt32) : Option ℕ :=
  if payloadSize % mediaPadSize = 0 then some 0
  else Checked.sub mediaPadSize.toNat (payloadSize % mediaPadSize).toNat

/-- A payload behind its header, with its padding. -/
def padded? (header data : Bytes) : Option Bytes := do
  let padding ← padSize? (UInt32.ofNat data.length)
  some (header ++ data ++ List.replicate padding 0)

/-- The length of the half block is that of the data without the sub-header. -/
def bcmediaAdpcmBytes? (payload : BcMediaAdpcm) : Option Bytes := do
  let payloadSize ← Checked.fit 64 (payload.data.length + 4)
  let block ← Checked.sub payload.data.length 4
  some (leBytes 4 magicHeaderBcmediaAdpcm.toNat ++
    leBytes 2 payloadSize ++
    leBytes 2 payloadSize ++
    leBytes 2 magicHeaderBcmediaAdpcmData.toNat ++
    leBytes 2 (block / 2))

/-- The serialiser with its arithmetic checked. -/
def BcMedia.serialize? : BcMedia → Option Bytes
  | .infoV1 payload => some (bcmediaInfoV1Bytes payload)
  | .infoV2 payload => some (bcmediaInfoV2Bytes payload)
  | .iframe payload => padded? (bcmediaIframeBytes payload) payload.data
  | .pframe payload => padded? (bcmediaPframeBytes payload) payload.data
  | .aac payload => padded? (bcmediaAacBytes payload) payload.data
  | .adpcm payload => bcmediaAdpcmBytes? payload >>= fun header => padded? header payload.data

theorem padSize?_eq (payloadSize : UInt32) :
    padSize? payloadSize = some (padSize payloadSize).toNat := by
  rw [padSize?, padSize]
  split
  · rfl
  · have hmod : (payloadSize % mediaPadSize).toNat < 8 := by
      rw [UInt32.toNat_mod]
      exact Nat.mod_lt _ (by decide)
    have hle : (payloadSize % mediaPadSize).toNat ≤ mediaPadSize.toNat := hmod.le
    rw [Checked.sub_of_le hle, UInt32.toNat_sub_of_le _ _ (UInt32.le_iff_toNat_le.2 hle)]

/-- A packet with its padding is built without an overflow. -/
theorem padded?_eq (header data : Bytes) :
    padded? header data = some (header ++ data ++ padding data) := by
  rw [padded?, padSize?_eq]
  rfl

/-- The serialiser is that of the model wherever the data has its sub-header and fits. -/
theorem bcmediaAdpcmBytes?_eq {payload : BcMediaAdpcm} (h : 4 ≤ payload.data.length)
    (hlt : payload.data.length + 4 < 2 ^ 16) :
    bcmediaAdpcmBytes? payload = some (bcmediaAdpcmBytes payload) := by
  have hsize : (UInt16.ofNat (payload.data.length + 4)).toNat = payload.data.length + 4 := by
    rw [UInt16.toNat_ofNat', Nat.mod_eq_of_lt hlt]
  have hlen : (UInt64.ofNat payload.data.length).toNat = payload.data.length := by
    rw [UInt64.toNat_ofNat', Nat.mod_eq_of_lt (by omega)]
  have hle : 4 ≤ UInt64.ofNat payload.data.length := by
    rw [UInt64.le_iff_toNat_le, hlen]
    exact h
  have hhalf : ((UInt64.ofNat payload.data.length - 4) / 2).toUInt16.toNat =
      (payload.data.length - 4) / 2 := by
    rw [UInt64.toNat_toUInt16, UInt64.toNat_div, UInt64.toNat_sub_of_le _ _ hle, hlen]
    change (payload.data.length - 4) / 2 % 2 ^ 16 = _
    omega
  rw [bcmediaAdpcmBytes?, Checked.fit_of_lt (by omega), Checked.sub_of_le h, bcmediaAdpcmBytes,
    hsize, hhalf]
  rfl

/-! ## The packets that are safe -/

/-- The durations and the size of a block. -/
def BcMedia.Measured : BcMedia → Prop
  | .infoV1 _ | .infoV2 _ | .iframe _ | .pframe _ => True
  | .aac frame => frame.duration.isSome
  | .adpcm frame => frame.blockSize.isSome ∧ frame.duration.isSome

/-- Everything has a result. -/
structure BcMedia.Safe (v : BcMedia) : Prop where
  printed : v.debug.isSome
  measured : v.Measured
  serialized : v.serialize?.isSome

/-- The data is neither too short nor too long. -/
def BcMedia.SizeInRange : BcMedia → Prop
  | .infoV1 _ | .infoV2 _ | .aac _ => True
  | .iframe frame => 20 ≤ frame.data.length
  | .pframe frame => 20 ≤ frame.data.length
  | .adpcm frame => 4 ≤ frame.data.length ∧ frame.data.length ≤ 2151

/-- A packet that was read is short enough to be written again. -/
theorem bcmediaAdpcm_length {buf rest : Bytes} {frame : BcMediaAdpcm}
    (h : bcmediaAdpcm buf = .done rest frame) : frame.data.length + 4 < 2 ^ 16 := by
  obtain ⟨_, payloadSize, hsize, hrest⟩ := bind_eq_done.1 h
  obtain ⟨_, _, -, hmagic⟩ := bind_eq_done.1 hrest
  obtain ⟨_, _, -, hhalf⟩ := bind_eq_done.1 hmagic
  obtain ⟨_, _, -, hpayload⟩ := bind_eq_done.1 hhalf
  obtain ⟨_, data, hdata, hpadded⟩ := bind_eq_done.1 hpayload
  obtain ⟨_, _, -, hpure⟩ := bind_eq_done.1 hpadded
  obtain ⟨-, rfl⟩ := Outcome.done.inj hpure
  have hlen := (take_eq_done.1 hdata).2
  have hle : adpcmSubHeaderSize ≤ payloadSize :=
    of_decide_eq_true (verify_eq_done.1 (context_eq_done.1 hsize)).2
  rw [UInt16.toNat_sub_of_le _ _ hle] at hlen
  have hlt := payloadSize.toNat_lt
  have hle' := UInt16.le_iff_toNat_le.1 hle
  change 4 ≤ payloadSize.toNat at hle'
  change data.length = payloadSize.toNat - 4 at hlen
  dsimp only
  omega

/-- The length of sound is that of a payload without its sub-header. -/
theorem BcMedia.deserialize_adpcm {buf rest : Bytes} {frame : BcMediaAdpcm}
    (h : deserialize buf = .done rest (.adpcm frame)) : frame.data.length + 4 < 2 ^ 16 := by
  have hother : ∀ {α : Type} {p : Parser α} {g : α → BcMedia} {mid : Bytes},
      (∀ v, g v ≠ .adpcm frame) → (p >>= fun v => pure (g v)) mid ≠ .done rest (.adpcm frame) := by
    intro α p g mid hne hp
    obtain ⟨_, v, -, hpure⟩ := bind_eq_done.1 hp
    exact hne v (Outcome.done.inj hpure).2
  obtain ⟨mid, magic, -, hbody⟩ := bind_eq_done.1 h
  rw [bcmediaBody] at hbody
  split_ifs at hbody
  · exact absurd hbody (hother fun _ => BcMedia.noConfusion)
  · exact absurd hbody (hother fun _ => BcMedia.noConfusion)
  · exact absurd hbody (hother fun _ => BcMedia.noConfusion)
  · exact absurd hbody (hother fun _ => BcMedia.noConfusion)
  · exact absurd hbody (hother fun _ => BcMedia.noConfusion)
  · obtain ⟨_, v, hv, hpure⟩ := bind_eq_done.1 hbody
    obtain ⟨-, heq⟩ := Outcome.done.inj hpure
    rw [← BcMedia.adpcm.inj heq]
    exact bcmediaAdpcm_length hv
  · exact nomatch hbody

/-- Ten bytes from each end need twenty of them. -/
theorem debugData_isSome {firstKey lastKey : String} {data : Bytes} :
    (debugData firstKey lastKey data).isSome ↔ 20 ≤ data.length := by
  constructor
  · intro h
    obtain ⟨first, -, hrest⟩ := Checked.isSome_bind.1 h
    obtain ⟨start, hstart, -⟩ := Checked.isSome_bind.1 hrest
    exact (Checked.sub_eq_some.1 hstart).1
  · intro h
    rw [debugData, Checked.slice_of_le (Nat.zero_le _) (Nat.min_le_right _ _),
      Checked.sub_of_le h]
    simp [Checked.slice_of_le]

/-- The frames in a packet are at most 4, so that its duration fits. -/
theorem BcMediaAac.duration_isSome (frame : BcMediaAac) : frame.duration.isSome := by
  rw [duration]
  split
  · rfl
  · next hlen =>
    have hget : ∀ i, i < 8 → ∃ b, frame.data[i]? = some b := fun i hi =>
      ⟨_, List.getElem?_eq_getElem (by omega)⟩
    obtain ⟨b0, h0⟩ := hget 0 (by decide)
    obtain ⟨b1, h1⟩ := hget 1 (by decide)
    obtain ⟨b2, h2⟩ := hget 2 (by decide)
    obtain ⟨b6, h6⟩ := hget 6 (by decide)
    have hframes : (b6 &&& 0x03).toNat + 1 ≤ 4 := by
      rw [UInt8.toNat_and]
      have hle : b6.toNat &&& (0x03 : UInt8).toNat ≤ (0x03 : UInt8).toNat := Nat.and_le_right
      change _ ≤ 3 at hle
      omega
    have hmicro : microsecondsPerSecond = 1000000 := rfl
    rw [h0, h1, h2, h6]
    simp only [Option.bind_eq_bind, Option.bind_some]
    split_ifs with hsync hsync'
    · rfl
    · rfl
    · cases aacSampleFrequency ((b2 &&& 0x3C) >>> 2) with
      | none => rfl
      | some sampleFrequency =>
        dsimp only
        rw [Checked.fit_of_lt (by omega), Option.bind_some, Checked.fit_of_lt (by omega),
          Option.bind_some, hmicro, Checked.fit_of_lt (by omega)]
        rfl

theorem BcMediaAdpcm.blockSize_isSome {frame : BcMediaAdpcm} (hlt : frame.data.length < 2 ^ 32) :
    frame.blockSize.isSome ↔ 4 ≤ frame.data.length := by
  rw [blockSize, Nat.mod_eq_of_lt hlt, Checked.isSome_sub]

/-- The duration is computed in words, which 2151 bytes of data are the most to fit in. -/
theorem BcMediaAdpcm.duration_isSome {frame : BcMediaAdpcm} (hlt : frame.data.length < 2 ^ 32) :
    frame.duration.isSome ↔ 4 ≤ frame.data.length ∧ frame.data.length ≤ 2151 := by
  have hmicro : microsecondsPerSecond = 1000000 := rfl
  rw [duration, blockSize, Nat.mod_eq_of_lt hlt]
  constructor
  · intro h
    obtain ⟨block, hblock, h'⟩ := Checked.isSome_bind.1 h
    obtain ⟨samples, hsamples, h''⟩ := Checked.isSome_bind.1 h'
    obtain ⟨product, hproduct, -⟩ := Checked.isSome_bind.1 h''
    obtain ⟨hle, rfl⟩ := Checked.sub_eq_some.1 hblock
    obtain ⟨-, rfl⟩ := Checked.fit_eq_some.1 hsamples
    obtain ⟨hfits, -⟩ := Checked.fit_eq_some.1 hproduct
    rw [hmicro] at hfits
    omega
  · rintro ⟨hle, hmax⟩
    rw [Checked.sub_of_le hle, Option.bind_eq_bind, Option.bind_some,
      Checked.fit_of_lt (by omega), Option.bind_some, hmicro, Checked.fit_of_lt (by omega)]
    rfl

/-- What is serialised is what the unchecked serialiser writes. -/
theorem BcMedia.serialize?_eq {v : BcMedia} (h : v.SizeInRange) :
    v.serialize? = some v.serialize := by
  cases v with
  | infoV1 payload => rfl
  | infoV2 payload => rfl
  | iframe payload => exact padded?_eq _ _
  | pframe payload => exact padded?_eq _ _
  | aac payload => exact padded?_eq _ _
  | adpcm payload =>
    obtain ⟨hle, hmax⟩ := h
    rw [serialize?, bcmediaAdpcmBytes?_eq hle (by omega)]
    exact padded?_eq _ _

/-- Everything that is done with a packet the parser returned has a result exactly
    if the length of its data is in range. -/
theorem BcMedia.deserialize_safe_iff {buf rest : Bytes} {v : BcMedia}
    (h : deserialize buf = .done rest v) : v.Safe ↔ v.SizeInRange := by
  have hdebug : ∀ {firstKey lastKey : String} {data : Bytes}
      {f : List (String × DebugValue) → Option (List (String × DebugValue))},
      (∀ entries, (f entries).isSome) →
      ((debugData firstKey lastKey data >>= f).isSome ↔ 20 ≤ data.length) := by
    intro firstKey lastKey data f hf
    rw [← @debugData_isSome firstKey lastKey]
    constructor
    · intro hsome
      obtain ⟨entries, hentries, -⟩ := Checked.isSome_bind.1 hsome
      rw [hentries]
      rfl
    · intro hsome
      obtain ⟨entries, hentries⟩ := Option.isSome_iff_exists.1 hsome
      exact Checked.isSome_bind.2 ⟨entries, hentries, hf entries⟩
  constructor
  · rintro ⟨hprinted, hmeasured, hserialized⟩
    cases v with
    | infoV1 payload => trivial
    | infoV2 payload => trivial
    | iframe payload => exact (hdebug fun _ => rfl).1 hprinted
    | pframe payload => exact (hdebug fun _ => rfl).1 hprinted
    | aac payload => trivial
    | adpcm payload =>
      have hlt := deserialize_adpcm h
      exact (BcMediaAdpcm.duration_isSome (by omega)).1 hmeasured.2
  · intro hrange
    have hserialized : v.serialize?.isSome := by
      rw [serialize?_eq hrange]
      rfl
    cases v with
    | infoV1 payload => exact ⟨rfl, trivial, hserialized⟩
    | infoV2 payload => exact ⟨rfl, trivial, hserialized⟩
    | iframe payload => exact ⟨(hdebug fun _ => rfl).2 hrange, trivial, hserialized⟩
    | pframe payload => exact ⟨(hdebug fun _ => rfl).2 hrange, trivial, hserialized⟩
    | aac payload => exact ⟨rfl, payload.duration_isSome, hserialized⟩
    | adpcm payload =>
      have hlt := deserialize_adpcm h
      exact ⟨rfl, ⟨(BcMediaAdpcm.blockSize_isSome (by omega)).2 hrange.1,
        (BcMediaAdpcm.duration_isSome (by omega)).2 hrange⟩, hserialized⟩

/-- A key frame of 20 bytes. -/
def smallIframe : BcMedia := .iframe ⟨.h264, 123, some 456, List.replicate 20 0⟩

theorem smallIframe_safe : smallIframe.Safe := by
  have hfits : smallIframe.Fits := show (List.replicate 20 (0 : UInt8)).length < 2 ^ 32 by decide
  have hrange : smallIframe.SizeInRange :=
    show 20 ≤ (List.replicate 20 (0 : UInt8)).length by decide
  exact (BcMedia.deserialize_safe_iff (BcMedia.deserialize_serialize hfits [])).2 hrange

/-- A key frame without data, and sound without the state of the predictor. -/
def emptyIframe : BcMedia := .iframe ⟨.h264, 123, some 456, []⟩

/-- A packet of audio with nothing behind its sub-header. -/
def emptyAdpcm : Bytes := [0x30, 0x31, 0x77, 0x62, 4, 0, 4, 0, 0, 1, 2, 0, 0, 0, 0, 0]

/-- Two packets that are read without complaint, and then panic. -/
theorem empty_not_safe :
    BcMedia.deserialize emptyIframe.serialize = .done [] emptyIframe ∧ ¬ emptyIframe.Safe ∧
    BcMedia.deserialize emptyAdpcm = .done [] (.adpcm ⟨[]⟩) ∧ ¬ (BcMedia.adpcm ⟨[]⟩).Safe := by
  have hfits : emptyIframe.Fits := show ([] : Bytes).length < 2 ^ 32 by decide
  have hyields := BcMedia.deserialize_serialize hfits []
  rw [List.append_nil] at hyields
  have hadpcm : BcMedia.deserialize emptyAdpcm = .done [] (.adpcm ⟨[]⟩) := by rfl
  refine ⟨hyields, fun h => ?_, hadpcm, fun h => ?_⟩
  · exact nomatch h.printed
  · exact nomatch h.serialized

end Bairelay
