import Bairelay.BcMedia.De

/-!
# Writing media packets

The serialiser of `bcmedia/ser.rs`. What it writes, the parser reads back
(`BcMedia.deserialize_serialize`), for the packets whose length fits the field
it is written to (`BcMedia.Fits`). ADPCM packets are not among them: their
padding is computed from the length of the data, and the parser computes it from
that of the data and the sub-header.
-/

namespace Bairelay

open Streaming Parser

/-- The zeros behind a payload. -/
def padding (data : Bytes) : Bytes :=
  List.replicate (padSize (UInt32.ofNat data.length)).toNat 0

/-- A description of a stream, whose two versions differ in the magic. -/
def bcmediaInfoBytes (magic : UInt32) (payload : BcMediaInfo) : Bytes :=
  leBytes 4 magic.toNat ++
  leBytes 4 32 ++
  leBytes 4 payload.videoWidth.toNat ++
  leBytes 4 payload.videoHeight.toNat ++
  leBytes 1 0 ++
  leBytes 1 payload.fps.toNat ++
  leBytes 1 payload.startYear.toNat ++
  leBytes 1 payload.startMonth.toNat ++
  leBytes 1 payload.startDay.toNat ++
  leBytes 1 payload.startHour.toNat ++
  leBytes 1 payload.startMin.toNat ++
  leBytes 1 payload.startSeconds.toNat ++
  leBytes 1 payload.endYear.toNat ++
  leBytes 1 payload.endMonth.toNat ++
  leBytes 1 payload.endDay.toNat ++
  leBytes 1 payload.endHour.toNat ++
  leBytes 1 payload.endMin.toNat ++
  leBytes 1 payload.endSeconds.toNat ++
  leBytes 1 0 ++
  leBytes 1 0

/-- The older magic. -/
def bcmediaInfoV1Bytes : BcMediaInfo → Bytes := bcmediaInfoBytes magicHeaderBcmediaInfoV1

/-- The newer magic. -/
def bcmediaInfoV2Bytes : BcMediaInfo → Bytes := bcmediaInfoBytes magicHeaderBcmediaInfoV2

/-- The codec as the header has it. -/
def vidString : VideoType → String
  | .h264 => "H264"
  | .h265 => "H265"

/-- The additional header of a key frame: the time, and four zeros. -/
def extraHeader (time : Option UInt32) : Bytes :=
  time.elim [] fun payloadTime => leBytes 4 payloadTime.toNat ++ leBytes 4 0

/-- The time is written with a word of zeros behind it. -/
def extraHeaderSize (time : Option UInt32) : UInt32 := if time.isSome then 8 else 0

/-- The header of a key frame. -/
def bcmediaIframeBytes (payload : BcMediaIframe) : Bytes :=
  leBytes 4 magicHeaderBcmediaIframe.toNat ++
  (vidString payload.videoType).toUTF8.data.toList ++
  leBytes 4 (UInt32.ofNat payload.data.length).toNat ++
  leBytes 4 (extraHeaderSize payload.time).toNat ++
  leBytes 4 payload.microseconds.toNat ++
  leBytes 4 0 ++
  extraHeader payload.time

/-- Written without an additional header. -/
def bcmediaPframeBytes (payload : BcMediaPframe) : Bytes :=
  leBytes 4 magicHeaderBcmediaPframe.toNat ++
  (vidString payload.videoType).toUTF8.data.toList ++
  leBytes 4 (UInt32.ofNat payload.data.length).toNat ++
  leBytes 4 0 ++
  leBytes 4 payload.microseconds.toNat ++
  leBytes 4 0

/-- The length stands there twice. -/
def bcmediaAacBytes (payload : BcMediaAac) : Bytes :=
  leBytes 4 magicHeaderBcmediaAac.toNat ++
  leBytes 2 (UInt16.ofNat payload.data.length).toNat ++
  leBytes 2 (UInt16.ofNat payload.data.length).toNat

/-- The length of half a block wraps for data of fewer than 4 bytes. -/
def bcmediaAdpcmBytes (payload : BcMediaAdpcm) : Bytes :=
  leBytes 4 magicHeaderBcmediaAdpcm.toNat ++
  leBytes 2 (UInt16.ofNat (payload.data.length + 4)).toNat ++
  leBytes 2 (UInt16.ofNat (payload.data.length + 4)).toNat ++
  leBytes 2 magicHeaderBcmediaAdpcmData.toNat ++
  leBytes 2 ((UInt64.ofNat payload.data.length - 4) / 2).toUInt16.toNat

/-- A packet as bytes. -/
def BcMedia.serialize : BcMedia → Bytes
  | .infoV1 payload => bcmediaInfoV1Bytes payload
  | .infoV2 payload => bcmediaInfoV2Bytes payload
  | .iframe payload => bcmediaIframeBytes payload ++ payload.data ++ padding payload.data
  | .pframe payload => bcmediaPframeBytes payload ++ payload.data ++ padding payload.data
  | .aac payload => bcmediaAacBytes payload ++ payload.data ++ padding payload.data
  | .adpcm payload => bcmediaAdpcmBytes payload ++ payload.data ++ padding payload.data

/-! ## Reading back -/

/-- The packets whose length fits the field it is written to, ADPCM aside. -/
def BcMedia.Fits : BcMedia → Prop
  | .infoV1 _ | .infoV2 _ => True
  | .iframe frame => frame.data.length < 2 ^ 32
  | .pframe frame => frame.data.length < 2 ^ 32
  | .aac frame => frame.data.length ≤ 65535
  | .adpcm _ => False

/-- The name of a codec is accepted and read back. -/
theorem take4_yields (videoType : VideoType) :
    Yields (take4.verify fun x => x = "H264" || x = "H265")
      (vidString videoType).toUTF8.data.toList (vidString videoType) := by
  have htake : Yields take4 (vidString videoType).toUTF8.data.toList (vidString videoType) := by
    have hlen : (vidString videoType).toUTF8.data.toList.length = 4 := by
      cases videoType <;> decide +kernel
    have hutf8 : String.fromUTF8? ⟨(vidString videoType).toUTF8.data.toList.toArray⟩ =
        some (vidString videoType) := by
      cases videoType <;> decide +kernel
    exact (yields_take_of_length hlen).mapRes hutf8
  exact htake.verify (by cases videoType <;> decide)

theorem videoTypeOf_vidString (videoType : VideoType) :
    videoTypeOf (vidString videoType) = pure videoType := by
  cases videoType <;> rfl

/-- What the serialiser pads, the parser skips. -/
theorem padding_yields (data : Bytes) :
    Yields (take (padSize (UInt32.ofNat data.length)).toNat) (padding data) (padding data) :=
  yields_take_of_length List.length_replicate

/-- The data and its padding, when the length is the one announced. -/
theorem bcmediaData_yields {α : Type} {data : Bytes} {size : UInt32} {p : Bytes → Parser α} {v : α}
    (hsize : UInt32.ofNat data.length = size) (hlen : data.length < 2 ^ 32)
    (hp : Yields (p data) [] v) :
    Yields (take size.toNat >>= fun data => take (padSize size).toNat >>= fun _ => p data)
      (data ++ padding data) v := by
  subst hsize
  have hdata : data.length = (UInt32.ofNat data.length).toNat := by
    rw [UInt32.toNat_ofNat', Nat.mod_eq_of_lt hlen]
  exact (yields_take_of_length hdata).bind ((padding_yields data).bind_nil hp)

/-- A description is read back from what stands behind its magic. -/
theorem bcmediaInfo_yields (text : String) (magic : UInt32) (payload : BcMediaInfo) :
    ∃ bytes, bcmediaInfoBytes magic payload = leBytes 4 magic.toNat ++ bytes ∧
      Yields (bcmediaInfo text) bytes payload := by
  have hsize : Yields (leU32.verify fun x => x = 32) (leBytes 4 32) 32 :=
    (yields_leU32 32).verify (by decide)
  have hunknown : Yields leU8 (leBytes 1 0) 0 := yields_leU8 0
  have hunknownB : Yields leU16 (leBytes 1 0 ++ leBytes 1 0) 0 := yields_leU16 0
  unfold bcmediaInfoBytes bcmediaInfo
  simp only [List.append_assoc]
  refine ⟨_, rfl, ?_⟩
  refine (hsize.context _).bind ?_
  refine (yields_leU32 payload.videoWidth).bind ?_
  refine (yields_leU32 payload.videoHeight).bind ?_
  refine hunknown.bind ?_
  refine (yields_leU8 payload.fps).bind ?_
  refine (yields_leU8 payload.startYear).bind ?_
  refine (yields_leU8 payload.startMonth).bind ?_
  refine (yields_leU8 payload.startDay).bind ?_
  refine (yields_leU8 payload.startHour).bind ?_
  refine (yields_leU8 payload.startMin).bind ?_
  refine (yields_leU8 payload.startSeconds).bind ?_
  refine (yields_leU8 payload.endYear).bind ?_
  refine (yields_leU8 payload.endMonth).bind ?_
  refine (yields_leU8 payload.endDay).bind ?_
  refine (yields_leU8 payload.endHour).bind ?_
  refine (yields_leU8 payload.endMin).bind ?_
  refine (yields_leU8 payload.endSeconds).bind ?_
  exact hunknownB.bind_pure _

/-- What is read of the additional header of a key frame. -/
theorem extraHeader_yields {α : Type} (time : Option UInt32) {p : Option UInt32 → Parser α}
    {bytes : Bytes} {v : α} (hp : Yields (p time) bytes v) :
    Yields (cond (4 ≤ extraHeaderSize time) leU32 >>= fun time' =>
        cond (4 < extraHeaderSize time) (take (extraHeaderSize time - 4).toNat) >>= fun _ =>
          p time')
      (extraHeader time ++ bytes) v := by
  cases time with
  | none => exact (yields_pure none).bind ((yields_pure none).bind hp)
  | some payloadTime =>
    have hsize : extraHeaderSize (some payloadTime) = 8 := rfl
    have hrest : ((8 : UInt32) - 4).toNat = 4 := by decide
    have hremained : Yields (cond true (take 4)) (leBytes 4 0) (some (leBytes 4 0)) :=
      (yields_take_of_length (length_leBytes 4 0)).bind_pure some
    rw [hsize, hrest]
    rw [extraHeader, Option.elim_some, List.append_assoc]
    exact ((yields_leU32 payloadTime).bind_pure some).bind (hremained.bind hp)

/-- A key frame is read back if its length fits in a word. -/
theorem bcmediaIframe_yields {payload : BcMediaIframe} (hlen : payload.data.length < 2 ^ 32) :
    ∃ bytes, bcmediaIframeBytes payload ++ payload.data ++ padding payload.data =
        leBytes 4 magicHeaderBcmediaIframe.toNat ++ bytes ∧
      Yields bcmediaIframe bytes payload := by
  have hunknown : Yields leU32 (leBytes 4 0) 0 := yields_leU32 0
  rw [bcmediaIframeBytes, bcmediaIframe]
  simp only [List.append_assoc]
  refine ⟨_, rfl, ?_⟩
  refine ((take4_yields payload.videoType).context _).bind ?_
  refine (yields_leU32 _).bind ?_
  refine (yields_leU32 (extraHeaderSize payload.time)).bind ?_
  refine (yields_leU32 payload.microseconds).bind ?_
  refine hunknown.bind ?_
  refine extraHeader_yields payload.time ?_
  refine bcmediaData_yields rfl hlen ?_
  rw [videoTypeOf_vidString]
  exact (yields_pure payload.videoType).bind_nil (yields_pure payload)

/-- A frame between key frames is read back if its length fits in a word. -/
theorem bcmediaPframe_yields {payload : BcMediaPframe} (hlen : payload.data.length < 2 ^ 32) :
    ∃ bytes, bcmediaPframeBytes payload ++ payload.data ++ padding payload.data =
        leBytes 4 magicHeaderBcmediaPframe.toNat ++ bytes ∧
      Yields bcmediaPframe bytes payload := by
  have hzero : Yields leU32 (leBytes 4 0) 0 := yields_leU32 0
  rw [bcmediaPframeBytes, bcmediaPframe]
  simp only [List.append_assoc]
  refine ⟨_, rfl, ?_⟩
  refine ((take4_yields payload.videoType).context _).bind ?_
  refine (yields_leU32 _).bind ?_
  refine hzero.bind ?_
  refine (yields_leU32 payload.microseconds).bind ?_
  refine hzero.bind ?_
  refine (yields_take []).bind ?_
  refine bcmediaData_yields rfl hlen ?_
  rw [videoTypeOf_vidString]
  exact (yields_pure payload.videoType).bind_nil (yields_pure payload)

/-- AAC is read back if its length fits in half a word. -/
theorem bcmediaAac_yields {payload : BcMediaAac} (hlen : payload.data.length ≤ 65535) :
    ∃ bytes, bcmediaAacBytes payload ++ payload.data ++ padding payload.data =
        leBytes 4 magicHeaderBcmediaAac.toNat ++ bytes ∧
      Yields bcmediaAac bytes payload := by
  have hsize : UInt32.ofNat payload.data.length = (UInt16.ofNat payload.data.length).toUInt32 := by
    rw [← UInt32.toNat_inj, UInt16.toNat_toUInt32, UInt32.toNat_ofNat', UInt16.toNat_ofNat']
    omega
  rw [bcmediaAacBytes, bcmediaAac]
  simp only [List.append_assoc]
  refine ⟨_, rfl, ?_⟩
  refine (yields_leU16 _).bind ?_
  refine (yields_leU16 _).bind ?_
  exact bcmediaData_yields hsize (by omega) (yields_pure payload)

/-- A packet is read back, whatever follows it. -/
theorem BcMedia.deserialize_serialize {v : BcMedia} (h : v.Fits) :
    Yields deserialize v.serialize v := by
  -- The magic of the serialiser is accepted, and chooses the parser of the kind.
  have hbind : ∀ {magic : UInt32} {bytes : Bytes}, isBcmediaMagic magic = true →
      Yields (bcmediaBody magic) bytes v →
      Yields deserialize (leBytes 4 magic.toNat ++ bytes) v :=
    fun {magic} {_} hmagic hbody => (((yields_leU32 magic).verify hmagic).context _).bind hbody
  cases v with
  | infoV1 payload =>
    obtain ⟨bytes, hbytes, hp⟩ := bcmediaInfo_yields
      "Header size mismatch in BCMedia InfoV1" magicHeaderBcmediaInfoV1 payload
    rw [serialize, bcmediaInfoV1Bytes, hbytes]
    exact hbind (by decide) (hp.bind_pure BcMedia.infoV1)
  | infoV2 payload =>
    obtain ⟨bytes, hbytes, hp⟩ := bcmediaInfo_yields
      "Failed to match headersize in BCMedia Info V2" magicHeaderBcmediaInfoV2 payload
    rw [serialize, bcmediaInfoV2Bytes, hbytes]
    exact hbind (by decide) (hp.bind_pure BcMedia.infoV2)
  | iframe payload =>
    obtain ⟨bytes, hbytes, hp⟩ := bcmediaIframe_yields h
    rw [serialize, hbytes]
    exact hbind (by decide) (hp.bind_pure BcMedia.iframe)
  | pframe payload =>
    obtain ⟨bytes, hbytes, hp⟩ := bcmediaPframe_yields h
    rw [serialize, hbytes]
    exact hbind (by decide) (hp.bind_pure BcMedia.pframe)
  | aac payload =>
    obtain ⟨bytes, hbytes, hp⟩ := bcmediaAac_yields h
    rw [serialize, hbytes]
    exact hbind (by decide) (hp.bind_pure BcMedia.aac)
  | adpcm payload => exact absurd h id

end Bairelay
