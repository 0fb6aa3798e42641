import Bairelay.Codec.Audio
import Bairelay.Lib.StablePartition
import Bairelay.Media.Frame

/-!
# Translating packets into frames

The pure translation of a camera's packets into what the driver is to do
(`stream_translate.rs`): broadcast frames, update the announced parameters, and
keep the last burst. The state holds the codec, guessed from the first NAL unit
that gives a verdict and then kept, and the counters of the timestamps.

* `translate_detectedCodec`, `translate_ofVideo`: where the codec comes from, and
  that everything produced carries it;
* `timestamps_isChain_iff`: the timestamps of the frames follow the camera's clock
  as long as its counter does not wrap;
* `codec_eq_declared_iff`: the packets whose frames carry the codec they declare
  are those of the codec that the first NAL unit identifies.
-/

namespace Bairelay

open Word32

/-! ## The state and the effects -/

/-- What the translator remembers from one packet to the next. -/
structure StreamTranslatorState where
  detectedCodec : Option VideoCodec := none
  aacPtsNext : UInt32 := 0
  g711PtsNext : UInt32 := 0
  aacAot : Option UInt8 := none
  lastVideoPts90khz : Option UInt32 := none
  sdpAudioEmitted : Bool := false
  deriving DecidableEq, Repr

/-- Something the driver is to do. -/
inductive Emit where
  | video (frame : Frame) (pace : Duration)
  | audio (frame : Frame) (pace : Duration)
  | sdpVideo (params : VideoParams)
  | sdpAudio (params : AudioParams)
  | replaceVideoBurst (burst : VideoBurst)
  | appendPframe (nals : List Bytes)
  | audioSeen (codec : AudioCodec)
  deriving DecidableEq, Repr

/-- What translating a packet gives: the state, the effects, and the timestamp of
    a video frame among them. -/
abbrev Translated := StreamTranslatorState × List Emit × Option UInt32

/-! ## Video -/

/-- Microseconds on the 90 kHz clock of RTP. -/
def microsTo90khz (micros : UInt32) : UInt32 := UInt32.ofNat (micros.toNat * 9 / 100)

/-- Parameter sets are kept for the announcement. -/
def isParameterSetNal : Bytes → VideoCodec → Bool
  | [], _ => false
  | b :: _, .h264 => h264NalType b = 7 || h264NalType b = 8
  | b :: _, .h265 => h265NalType b = 32 || h265NalType b = 33 || h265NalType b = 34

/-- A part of a picture. -/
def isSliceNal : Bytes → VideoCodec → Bool
  | [], _ => false
  | b :: _, .h264 => 1 ≤ h264NalType b && h264NalType b ≤ 5
  | b :: _, .h265 => h265NalType b ≤ 9 || 16 ≤ h265NalType b && h265NalType b ≤ 21

/-- The slices last, so that the marker of the access unit is on one of them. -/
def reorder (codec : VideoCodec) (nals : List Bytes) : List Bytes :=
  nals.filter (fun nal => !isSliceNal nal codec) ++ nals.filter (isSliceNal · codec)

/-- Slices come last, and otherwise the order is kept. -/
theorem reorder_isStablePartition (codec : VideoCodec) (nals : List Bytes) :
    IsStablePartition (isSliceNal · codec) nals (reorder codec nals) :=
  isStablePartition_iff.2 rfl

theorem reorder_ne_nil (codec : VideoCodec) {nals : List Bytes} (h : nals ≠ []) :
    reorder codec nals ≠ [] :=
  mt (reorder_isStablePartition codec nals).eq_nil_iff.1 h

/-- The parts of a key frame. -/
structure IframeParts where
  parameterSets : List Bytes := []
  iframeNals : List Bytes := []
  sps : Option Bytes := none
  pps : Option Bytes := none
  vps : Option Bytes := none
  deriving DecidableEq, Repr

/-- A NAL unit of a key frame: parameter sets and slices are kept apart. -/
def extractIframePart (codec : VideoCodec) (parts : IframeParts) : Bytes → IframeParts
  | [] => parts
  | b :: rest =>
    let owned := b :: rest
    let parameterSets := parts.parameterSets ++ [owned]
    match codec with
    | .h264 =>
      let ty := h264NalType b
      if ty = 7 then { parts with sps := some owned, parameterSets }
      else if ty = 8 then { parts with pps := some owned, parameterSets }
      -- IDR slices only; other units are no part of the snapshot.
      else if ty = 5 then { parts with iframeNals := parts.iframeNals ++ [owned] }
      else parts
    | .h265 =>
      let ty := h265NalType b
      if ty = 32 then { parts with vps := some owned, parameterSets }
      else if ty = 33 then { parts with sps := some owned, parameterSets }
      else if ty = 34 then { parts with pps := some owned, parameterSets }
      -- IDR, CRA, and of BLA the one with leading pictures.
      else if ty = 19 ∨ ty = 20 ∨ ty = 21 ∨ ty = 16 then
        { parts with iframeNals := parts.iframeNals ++ [owned] }
      else parts

/-- All NAL units of a key frame, in order. -/
def extractIframeParts (codec : VideoCodec) (nals : List Bytes) : IframeParts :=
  nals.foldl (extractIframePart codec) {}

theorem extractIframeParts_concat (codec : VideoCodec) (nals : List Bytes) (nal : Bytes) :
    extractIframeParts codec (nals ++ [nal]) =
      extractIframePart codec (extractIframeParts codec nals) nal := by
  rw [extractIframeParts, List.foldl_append]
  rfl

/-- The three bytes after the header of a parameter set. -/
def profileLevelId : Bytes → UInt8 × UInt8 × UInt8
  | _ :: b1 :: b2 :: b3 :: _ => (b1, b2, b3)
  | _ => (0, 0, 0)

/-- Five seconds; timestamps further apart do not tell a duration. -/
def pacerAnomalyCapTicks : UInt32 := 90000 * 5

/-- How long the pacer holds a frame: the time since the previous one, none if it
    is out of the ordinary. -/
def videoFrameDuration (state : StreamTranslatorState) (pts90khz : UInt32) :
    StreamTranslatorState × Duration :=
  let dur := match state.lastVideoPts90khz with
    | some prev =>
      let delta := pts90khz - prev
      -- A clock that jumps, forward or back, does not stop the pacer.
      let ticks := if pacerAnomalyCapTicks < delta then 0 else delta
      Duration.ofMicros (ticks.toNat * 1000000 / 90000)
    | none => 0
  ({ state with lastVideoPts90khz := some pts90khz }, dur)

/-- The first NAL unit with a verdict decides the codec, once and for all. -/
def latchCodec (state : StreamTranslatorState) (nals : List Bytes) : StreamTranslatorState :=
  { state with detectedCodec := state.detectedCodec <|> nals.findSome? detectCodec }

/-- The announced parameters of a key frame with its parameter sets. -/
def sdpVideo? (codec : VideoCodec) (parts : IframeParts) : Option Emit :=
  match parts.sps, parts.pps with
  | some sps, some pps => some (.sdpVideo {
      codec
      payloadType := 96
      sps
      pps
      vps := parts.vps
      profileLevelId := profileLevelId sps })
  | _, _ => none

/-- A key frame. Its first NAL unit that tells a codec sets it, if none is set. -/
def translateIframe (iframe : BcMediaIframe) (state : StreamTranslatorState) (now : Instant) :
    Translated :=
  let nals := splitAnnexB iframe.data
  if nals = [] then (state, [], none)
  else
    let state := latchCodec state nals
    match state.detectedCodec with
    -- Without a codec the frame is dropped.
    | none => (state, [], none)
    | some codec =>
      let nals := nals.filter (isDecodableNal · codec)
      if nals = [] then (state, [], none)
      -- The parameter sets are part of the snapshot, not of the frame.
      else
        let reordered := reorder codec nals
        let parts := extractIframeParts codec reordered
        let emits := (sdpVideo? codec parts).toList ++ [.replaceVideoBurst {
          codec
          parameterSets := parts.parameterSets
          iframeNals := parts.iframeNals
          pframeNals := []
          capturedAt := now
          capturedPts90khz := microsTo90khz iframe.microseconds }]
        -- What is sent is without the parameter sets, which the description has.
        let nals := reordered.filter fun nal => !isParameterSetNal nal codec
        if nals = [] then (state, emits, none)
        else
          let pts90khz := microsTo90khz iframe.microseconds
          let (state, pace) := videoFrameDuration state pts90khz
          (state, emits ++ [.video (.video codec nals pts90khz true true) pace], some pts90khz)

/-- A frame between key frames, for which the codec has to be known. -/
def translatePframe (pframe : BcMediaPframe) (state : StreamTranslatorState) : Translated :=
  match state.detectedCodec with
  -- A P-frame never decides the codec.
  | none => (state, [], none)
  | some codec =>
    let nals := (splitAnnexB pframe.data).filter (isDecodableNal · codec)
    if nals = [] then (state, [], none)
    else
      let reordered := reorder codec nals
      let pts90khz := microsTo90khz pframe.microseconds
      let (state, pace) := videoFrameDuration state pts90khz
      (state, [.appendPframe reordered,
        .video (.video codec reordered pts90khz false true) pace], some pts90khz)

/-! ## Audio -/

/-- The time some samples take. -/
def pacedAudioDuration (samples sampleRate : UInt32) : Duration :=
  if sampleRate = 0 then 0 else Duration.ofMicros (samples.toNat * 1000000 / sampleRate.toNat)

/-- Announce the parameters of AAC once; if they cannot be described, the next
    packet tries again. -/
def announceAac (header : AdtsHeader) (state : StreamTranslatorState) :
    StreamTranslatorState × List Emit :=
  if state.sdpAudioEmitted then (state, [])
  else
    match buildAudioSpecificConfigHex header.aot header.sampleRate header.channels with
    | some asc => ({ state with sdpAudioEmitted := true }, [.sdpAudio {
        codec := .aac
        payloadType := aacPayloadType
        sampleRate := header.sampleRate
        channels := header.channels
        ascHex := some asc }])
    | none => (state, [])

/-- The counter of the timestamps advances also while audio is muted. -/
def translateAac (aac : BcMediaAac) (state : StreamTranslatorState) (bridging : Bool) :
    StreamTranslatorState × List Emit :=
  match parseAdts aac.data with
  | none => (state, [])
  | some header =>
    -- Such a header leaves only its object type behind.
    if header.channels = 0 then ({ state with aacAot := some header.aot }, [])
    else
      let (state, emits) := announceAac header state
      -- The announcement is made before the payload is looked at.
      if aac.data.length < adtsHeaderLen ∨ header.frameLength < adtsHeaderLen then (state, emits)
      else
        let payload := aac.data.drop adtsHeaderLen
        let auBytesLen := min (header.frameLength - adtsHeaderLen) payload.length
        if auBytesLen = 0 then (state, emits)
        else
          match aacSamplesPerAu header.aot with
          | none => ({ state with aacAot := some header.aot }, emits)
          | some samplesPerAu =>
            -- Several frames may share a header; the timestamp goes on by all of them.
            let ptsStep :=
              UInt32.ofNat (min (samplesPerAu.toNat * header.aacFrames.toNat) (2 ^ 32 - 1))
            let pts := state.aacPtsNext
            let state := { state with
              aacAot := some header.aot
              aacPtsNext := state.aacPtsNext + ptsStep }
            -- While a gap is bridged there is no sound, and time goes on.
            if bridging then (state, emits)
            else
              let frame := .audio
                (.aac (payload.take auBytesLen) header.sampleRate header.channels) pts
              (state, emits ++ [.audio frame (pacedAudioDuration ptsStep header.sampleRate),
                .audioSeen .aac])

/-- Announce the parameters of G.711 once. -/
def announceG711 (state : StreamTranslatorState) : StreamTranslatorState × List Emit :=
  if state.sdpAudioEmitted then (state, [])
  else ({ state with sdpAudioEmitted := true }, [.sdpAudio {
    codec := .g711Ulaw
    payloadType := g711PayloadType
    sampleRate := 8000
    channels := 1
    ascHex := none }])

/-- Every block has its own header, so every packet gets a fresh decoder. -/
def translateAdpcm (adpcm : BcMediaAdpcm) (state : StreamTranslatorState) (bridging : Bool) :
    StreamTranslatorState × List Emit :=
  match AdpcmDecoder.new.decodeBlock adpcm.data with
  | some (_, .ok pcm16k) =>
    let pcm8k := decimate16To8 pcm16k
    -- A block may be too short for a single sample.
    if pcm16k = [] ∨ pcm8k = [] then (state, [])
    else
      let ulaw := g711Encode pcm8k
      let (state, emits) := announceG711 state
      let sampleCount := UInt32.ofNat ulaw.length
      let pts := state.g711PtsNext
      let state := { state with g711PtsNext := state.g711PtsNext + sampleCount }
      if bridging then (state, emits)
      else
        let frame := .audio (.g711Ulaw ulaw) pts
        (state, emits ++ [.audio frame (pacedAudioDuration sampleCount 8000),
          .audioSeen .g711Ulaw])
  | _ => (state, [])

/-- Translate a packet. -/
def translate (packet : BcMedia) (state : StreamTranslatorState) (now : Instant)
    (bridging : Bool) : Translated :=
  match packet with
  | .iframe iframe => translateIframe iframe state now
  | .pframe pframe => translatePframe pframe state
  | .aac aac => ((translateAac aac state bridging).1, (translateAac aac state bridging).2, none)
  | .adpcm adpcm =>
    ((translateAdpcm adpcm state bridging).1, (translateAdpcm adpcm state bridging).2, none)
  | .infoV1 _ | .infoV2 _ => (state, [], none)

/-! ## What an effect carries -/

namespace Emit

/-- The codec of a frame, a burst or announced parameters of video. -/
def codec? : Emit → Option VideoCodec
  | .video (.video codec _ _ _ _) _ => some codec
  | .sdpVideo params => some params.codec
  | .replaceVideoBurst burst => some burst.codec
  | _ => none

/-- The timestamp of a video frame. -/
def videoPts? : Emit → Option UInt32
  | .video frame _ => frame.videoPts?
  | _ => none

/-- The effect broadcasts a video frame. -/
def IsVideo : Emit → Prop
  | .video _ _ => True
  | _ => False

/-- The effect is about audio. -/
def IsAudio : Emit → Prop
  | .audio _ _ | .sdpAudio _ | .audioSeen _ => True
  | _ => False

theorem IsAudio.codec?_eq_none {e : Emit} (h : e.IsAudio) : e.codec? = none := by
  cases e <;> trivial

theorem IsAudio.not_isVideo {e : Emit} (h : e.IsAudio) : ¬e.IsVideo := by
  cases e <;> simp_all [IsAudio, IsVideo]

theorem videoPts?_eq_none {e : Emit} (h : ¬e.IsVideo) : e.videoPts? = none := by
  cases e <;> simp_all [IsVideo, videoPts?]

end Emit

/-- Nothing that the translation keeps of the video has changed. -/
structure StreamTranslatorState.KeepsVideo (s t : StreamTranslatorState) : Prop where
  detectedCodec : t.detectedCodec = s.detectedCodec
  lastVideoPts90khz : t.lastVideoPts90khz = s.lastVideoPts90khz

/-- Announcing AAC has nothing to do with video. -/
theorem announceAac_spec (header : AdtsHeader) (state : StreamTranslatorState) :
    state.KeepsVideo (announceAac header state).1 ∧
      ∀ e ∈ (announceAac header state).2, e.IsAudio := by
  rw [announceAac]
  split
  · exact ⟨⟨rfl, rfl⟩, by simp⟩
  · split <;> exact ⟨⟨rfl, rfl⟩, by simp [Emit.IsAudio]⟩

theorem translateAac_spec (aac : BcMediaAac) (state : StreamTranslatorState) (bridging : Bool) :
    state.KeepsVideo (translateAac aac state bridging).1 ∧
      ∀ e ∈ (translateAac aac state bridging).2, e.IsAudio := by
  rw [translateAac]
  split
  · exact ⟨⟨rfl, rfl⟩, by simp⟩
  next header _ =>
    obtain ⟨⟨hcodec, hlast⟩, haudio⟩ := announceAac_spec header state
    split
    · exact ⟨⟨rfl, rfl⟩, by simp⟩
    · dsimp only
      split
      · exact ⟨⟨hcodec, hlast⟩, haudio⟩
      · split
        · exact ⟨⟨hcodec, hlast⟩, haudio⟩
        · split
          · exact ⟨⟨hcodec, hlast⟩, haudio⟩
          · split
            · exact ⟨⟨hcodec, hlast⟩, haudio⟩
            · refine ⟨⟨hcodec, hlast⟩, List.forall_mem_append.2 ⟨haudio, ?_⟩⟩
              simp [Emit.IsAudio]

/-- Announcing PCMU has nothing to do with video. -/
theorem announceG711_spec (state : StreamTranslatorState) :
    state.KeepsVideo (announceG711 state).1 ∧ ∀ e ∈ (announceG711 state).2, e.IsAudio := by
  rw [announceG711]
  split <;> exact ⟨⟨rfl, rfl⟩, by simp [Emit.IsAudio]⟩

theorem translateAdpcm_spec (adpcm : BcMediaAdpcm) (state : StreamTranslatorState)
    (bridging : Bool) :
    state.KeepsVideo (translateAdpcm adpcm state bridging).1 ∧
      ∀ e ∈ (translateAdpcm adpcm state bridging).2, e.IsAudio := by
  rw [translateAdpcm]
  split
  · dsimp only
    obtain ⟨⟨hcodec, hlast⟩, haudio⟩ := announceG711_spec state
    split
    · exact ⟨⟨rfl, rfl⟩, by simp⟩
    · split
      · exact ⟨⟨hcodec, hlast⟩, haudio⟩
      · refine ⟨⟨hcodec, hlast⟩, List.forall_mem_append.2 ⟨haudio, ?_⟩⟩
        simp [Emit.IsAudio]
  · exact ⟨⟨rfl, rfl⟩, by simp⟩

/-- What is produced for a video packet of timestamp `micros` carries the latched
    codec and its timestamp. -/
def Emit.OfVideo (codec : Option VideoCodec) (micros : UInt32) (e : Emit) : Prop :=
  (∀ c, e.codec? = some c → codec = some c) ∧
    ∀ pts, e.videoPts? = some pts → pts = microsTo90khz micros

/-- Video is announced with the codec of its frame. -/
theorem sdpVideo?_ofVideo {codec : VideoCodec} {parts : IframeParts} {e : Emit}
    (h : e ∈ (sdpVideo? codec parts).toList) (micros : UInt32) : e.OfVideo (some codec) micros := by
  rw [Option.mem_toList, sdpVideo?] at h
  split at h
  · obtain rfl := Option.some.inj h
    exact ⟨fun c hc => hc, fun pts hpts => nomatch hpts⟩
  · exact nomatch h

theorem replaceVideoBurst_ofVideo {codec : VideoCodec} {parts : IframeParts} {now : Instant}
    {micros : UInt32} {e : Emit}
    (h : e ∈ (sdpVideo? codec parts).toList ++ [.replaceVideoBurst ⟨codec, parts.parameterSets,
      parts.iframeNals, [], now, microsTo90khz micros⟩]) : e.OfVideo (some codec) micros := by
  rcases List.mem_append.1 h with h | h
  · exact sdpVideo?_ofVideo h micros
  · obtain rfl := List.mem_singleton.1 h
    exact ⟨fun c hc => hc, fun pts hpts => nomatch hpts⟩

theorem videoFrameDuration_detectedCodec (state : StreamTranslatorState) (pts90khz : UInt32) :
    (videoFrameDuration state pts90khz).1.detectedCodec = state.detectedCodec := rfl

/-- A key frame sets the codec, if none is set, and everything it sends is of this codec. -/
theorem translateIframe_spec (iframe : BcMediaIframe) (state : StreamTranslatorState)
    (now : Instant) :
    (translateIframe iframe state now).1.detectedCodec =
        (state.detectedCodec <|> (splitAnnexB iframe.data).findSome? detectCodec) ∧
      ∀ e ∈ (translateIframe iframe state now).2.1,
        e.OfVideo (translateIframe iframe state now).1.detectedCodec iframe.microseconds := by
  rw [translateIframe]
  dsimp only
  split
  · next hnil => exact ⟨by simp [hnil], by simp⟩
  · split
    · exact ⟨rfl, by simp⟩
    next codec hcodec =>
      split
      · exact ⟨rfl, by simp⟩
      · split
        · refine ⟨rfl, fun e he => ?_⟩
          rw [hcodec]
          exact replaceVideoBurst_ofVideo he
        · refine ⟨rfl, fun e he => ?_⟩
          rw [videoFrameDuration_detectedCodec, hcodec]
          rcases List.mem_append.1 he with he | he
          · exact replaceVideoBurst_ofVideo he
          · obtain rfl := List.mem_singleton.1 he
            exact ⟨fun c hc => hc, fun pts hpts => (Option.some.inj hpts).symm⟩

/-- A frame between key frames is sent with the codec that is set. -/
theorem translatePframe_spec (pframe : BcMediaPframe) (state : StreamTranslatorState) :
    (translatePframe pframe state).1.detectedCodec = state.detectedCodec ∧
      ∀ e ∈ (translatePframe pframe state).2.1,
        e.OfVideo state.detectedCodec pframe.microseconds := by
  rw [translatePframe]
  split
  · exact ⟨rfl, by simp⟩
  next codec hcodec =>
    dsimp only
    split
    · exact ⟨rfl, by simp⟩
    · refine ⟨rfl, fun e he => ?_⟩
      rw [hcodec]
      simp only [List.mem_cons, List.not_mem_nil, or_false] at he
      rcases he with rfl | rfl
      · exact ⟨(fun c hc => nomatch hc), (fun pts hpts => nomatch hpts)⟩
      · exact ⟨fun c hc => hc, fun pts hpts => (Option.some.inj hpts).symm⟩

/-- Where the codec comes from. -/
theorem translate_detectedCodec (packet : BcMedia) (state : StreamTranslatorState)
    (now : Instant) (bridging : Bool) :
    (translate packet state now bridging).1.detectedCodec =
      (state.detectedCodec <|> packet.keyNals.findSome? detectCodec) := by
  have hnone : (state.detectedCodec <|> none) = state.detectedCodec := by simp
  cases packet with
  | infoV1 | infoV2 => exact hnone.symm
  | iframe frame => exact (translateIframe_spec frame state now).1
  | pframe frame => exact (translatePframe_spec frame state).1.trans hnone.symm
  | aac frame => exact (translateAac_spec frame state bridging).1.detectedCodec.trans hnone.symm
  | adpcm frame =>
    exact (translateAdpcm_spec frame state bridging).1.detectedCodec.trans hnone.symm

/-- Everything produced for a packet carries the latched codec and the timestamp of
    the packet. -/
theorem translate_ofVideo (packet : BcMedia) (state : StreamTranslatorState)
    (now : Instant) (bridging : Bool) :
    ∀ e ∈ (translate packet state now bridging).2.1,
      e.IsAudio ∨ ∃ micros, packet.microseconds? = some micros ∧
        e.OfVideo (translate packet state now bridging).1.detectedCodec micros := by
  intro e he
  cases packet with
  | infoV1 | infoV2 => exact nomatch he
  | iframe frame => exact .inr ⟨_, rfl, (translateIframe_spec frame state now).2 e he⟩
  | pframe frame =>
    obtain ⟨hcodec, hvideo⟩ := translatePframe_spec frame state
    exact .inr ⟨_, rfl, hcodec ▸ hvideo e he⟩
  | aac frame => exact .inl ((translateAac_spec frame state bridging).2 e he)
  | adpcm frame => exact .inl ((translateAdpcm_spec frame state bridging).2 e he)

/-! ## The frame of a packet -/

/-- There is a video frame among the effects exactly if its timestamp is returned,
    and it is the last of them. -/
def OneFrame (emits : List Emit) : Option UInt32 → Prop
  | none => ∀ e ∈ emits, ¬e.IsVideo
  | some pts90khz => ∃ before frame pace, emits = before ++ [.video frame pace] ∧
      (∀ e ∈ before, ¬e.IsVideo) ∧ frame.videoPts? = some pts90khz

theorem replaceVideoBurst_not_isVideo {codec : VideoCodec} {parts : IframeParts}
    {burst : VideoBurst} {e : Emit}
    (h : e ∈ (sdpVideo? codec parts).toList ++ [.replaceVideoBurst burst]) : ¬e.IsVideo := by
  rcases List.mem_append.1 h with h | h
  · rw [Option.mem_toList, sdpVideo?] at h
    split at h
    · obtain rfl := Option.some.inj h
      exact not_false
    · exact nomatch h
  · obtain rfl := List.mem_singleton.1 h
    exact not_false

theorem translateIframe_oneFrame (iframe : BcMediaIframe) (state : StreamTranslatorState)
    (now : Instant) :
    OneFrame (translateIframe iframe state now).2.1 (translateIframe iframe state now).2.2 := by
  rw [translateIframe]
  dsimp only
  split
  · exact fun e he => nomatch he
  · split
    · exact fun e he => nomatch he
    · split
      · exact fun e he => nomatch he
      · split
        · exact fun e => replaceVideoBurst_not_isVideo
        · exact ⟨_, _, _, rfl, fun e => replaceVideoBurst_not_isVideo, rfl⟩

theorem translatePframe_oneFrame (pframe : BcMediaPframe) (state : StreamTranslatorState) :
    OneFrame (translatePframe pframe state).2.1 (translatePframe pframe state).2.2 := by
  rw [translatePframe]
  split
  · exact fun e he => nomatch he
  · dsimp only
    split
    · exact fun e he => nomatch he
    · refine ⟨[_], _, _, rfl, fun e he => ?_, rfl⟩
      obtain rfl := List.mem_singleton.1 he
      exact not_false

theorem translate_oneFrame (packet : BcMedia) (state : StreamTranslatorState) (now : Instant)
    (bridging : Bool) :
    OneFrame (translate packet state now bridging).2.1
      (translate packet state now bridging).2.2 := by
  cases packet with
  | infoV1 | infoV2 => exact fun e he => nomatch he
  | iframe frame => exact translateIframe_oneFrame frame state now
  | pframe frame => exact translatePframe_oneFrame frame state
  | aac frame => exact fun e he => ((translateAac_spec frame state bridging).2 e he).not_isVideo
  | adpcm frame => exact fun e he => ((translateAdpcm_spec frame state bridging).2 e he).not_isVideo

/-! ## Runs -/

/-- A packet as it reaches the translator: when, and whether a gap is bridged. -/
structure Input where
  packet : BcMedia
  now : Instant
  bridging : Bool
  deriving DecidableEq, Repr

/-- Translate packets one after the other: each of them with what was produced
    for it. -/
def translateAll (state : StreamTranslatorState) : List Input → List (BcMedia × List Emit)
  | [] => []
  | input :: inputs =>
    let translated := translate input.packet state input.now input.bridging
    (input.packet, translated.2.1) :: translateAll translated.1 inputs

/-- Whatever is produced in a run is produced by some translation. -/
theorem mem_translateAll {state : StreamTranslatorState} {inputs : List Input}
    {t : BcMedia × List Emit} (h : t ∈ translateAll state inputs) :
    ∃ (state' : StreamTranslatorState) (input : Input),
      t = (input.packet, (translate input.packet state' input.now input.bridging).2.1) := by
  induction inputs generalizing state with
  | nil => exact nomatch h
  | cons input inputs ih =>
    rcases List.mem_cons.1 h with rfl | h
    · exact ⟨state, input, rfl⟩
    · exact ih h

/-! ## The timestamps follow the camera's clock -/

/-- The camera's timestamp and the one sent, for each video frame. -/
def timestamps (translated : List (BcMedia × List Emit)) : List (UInt32 × UInt32) :=
  translated.flatMap fun (packet, emits) => emits.filterMap fun e => do
    let micros ← packet.microseconds?
    let pts90khz ← e.videoPts?
    return (micros, pts90khz)

/-- The timestamps sent for two frames differ by the time between them on the
    camera's clock, up to a tick, and keep their serial order. -/
def FollowsCamera (a b : UInt32 × UInt32) : Prop :=
  let expected := UInt32.ofNat ((b.1 - a.1).toNat * 9 / 100)
  (b.2 - a.2 = expected ∨ b.2 - a.2 = expected + 1 ∨ b.2 - a.2 + 1 = expected) ∧
    (SerialLe a.1 b.1 → SerialLe a.2 b.2)

instance (a b : UInt32 × UInt32) : Decidable (FollowsCamera a b) :=
  inferInstanceAs (Decidable (_ ∧ _))

/-- A microsecond is nine hundredths of a tick. -/
theorem toNat_microsTo90khz (micros : UInt32) :
    (microsTo90khz micros).toNat = micros.toNat * 9 / 100 := by
  have hlt := micros.toNat_lt
  exact toNat_ofNat_of_lt (by omega)

/-- Without a wrap, the conversion is only rounded. -/
theorem followsCamera_of_le {m₁ m₂ : UInt32} (h : m₁ ≤ m₂) :
    FollowsCamera (m₁, microsTo90khz m₁) (m₂, microsTo90khz m₂) := by
  have hlt := m₂.toNat_lt
  have hle : microsTo90khz m₁ ≤ microsTo90khz m₂ := by
    simp only [UInt32.le_iff_toNat_le, toNat_microsTo90khz] at h ⊢
    omega
  have hticks : (microsTo90khz m₂ - microsTo90khz m₁).toNat =
      m₂.toNat * 9 / 100 - m₁.toNat * 9 / 100 := by
    rw [UInt32.toNat_sub_of_le _ _ hle, toNat_microsTo90khz, toNat_microsTo90khz]
  have hexp : (UInt32.ofNat ((m₂ - m₁).toNat * 9 / 100)).toNat =
      (m₂.toNat - m₁.toNat) * 9 / 100 := by
    rw [UInt32.toNat_sub_of_le _ _ h]
    exact toNat_ofNat_of_lt (by omega)
  have hround : m₂.toNat * 9 / 100 - m₁.toNat * 9 / 100 = (m₂.toNat - m₁.toNat) * 9 / 100 ∨
      m₂.toNat * 9 / 100 - m₁.toNat * 9 / 100 = (m₂.toNat - m₁.toNat) * 9 / 100 + 1 := by
    rw [UInt32.le_iff_toNat_le] at h
    omega
  refine ⟨?_, fun _ => hticks.trans_lt (by omega)⟩
  rcases hround with hround | hround
  · exact .inl (UInt32.toNat_inj.1 ((hticks.trans hround).trans hexp.symm))
  · refine .inr (.inl (UInt32.toNat_inj.1 ?_))
    rw [hticks, hround, UInt32.toNat_add, hexp, UInt32.toNat_one, Nat.mod_eq_of_lt (by omega)]

/-- Across a wrap, the conversion is off by the part of the circle that it does
    not reach. -/
theorem not_followsCamera_of_lt {m₁ m₂ : UInt32} (h : m₂ < m₁) :
    ¬FollowsCamera (m₁, microsTo90khz m₁) (m₂, microsTo90khz m₂) := by
  rintro ⟨hdiff, -⟩
  have hlt := m₁.toNat_lt
  rw [UInt32.lt_iff_toNat_lt] at h
  have hexp : (UInt32.ofNat ((m₂ - m₁).toNat * 9 / 100)).toNat =
      (2 ^ 32 - m₁.toNat + m₂.toNat) * 9 / 100 := by
    rw [UInt32.toNat_sub, Nat.mod_eq_of_lt (by omega)]
    exact toNat_ofNat_of_lt (by omega)
  have hticks : (microsTo90khz m₂ - microsTo90khz m₁).toNat =
      (2 ^ 32 - (m₁.toNat * 9 / 100 - m₂.toNat * 9 / 100)) % 2 ^ 32 := by
    rw [UInt32.toNat_sub, toNat_microsTo90khz, toNat_microsTo90khz]
    congr 1
    omega
  -- Forward by what is expected and back by the ticks is the range of the conversion,
  -- 2 ^ 32 * 9 / 100, and not the circle.
  have hsum : (2 ^ 32 - m₁.toNat + m₂.toNat) * 9 / 100 +
      (m₁.toNat * 9 / 100 - m₂.toNat * 9 / 100) < 2 ^ 32 * 9 / 100 + 2 ∧
      2 ^ 32 * 9 / 100 ≤ (2 ^ 32 - m₁.toNat + m₂.toNat) * 9 / 100 +
        (m₁.toNat * 9 / 100 - m₂.toNat * 9 / 100) + 1 := by
    omega
  simp only [← UInt32.toNat_inj, UInt32.toNat_add, UInt32.toNat_one] at hdiff
  rw [hticks, hexp] at hdiff
  generalize (2 ^ 32 - m₁.toNat + m₂.toNat) * 9 / 100 = expected at hsum hdiff
  generalize m₁.toNat * 9 / 100 - m₂.toNat * 9 / 100 = back at hsum hdiff
  omega

/-- The conversion follows the camera's clock exactly while the counter does not
    wrap. -/
theorem followsCamera_iff (m₁ m₂ : UInt32) :
    FollowsCamera (m₁, microsTo90khz m₁) (m₂, microsTo90khz m₂) ↔ m₁ ≤ m₂ := by
  refine ⟨fun h => ?_, followsCamera_of_le⟩
  by_contra hlt
  exact not_followsCamera_of_lt (UInt32.not_le.1 hlt) h

/-- The timestamps are those of the packets and of the frames they give. -/
theorem mem_timestamps {translated : List (BcMedia × List Emit)} {stamp : UInt32 × UInt32} :
    stamp ∈ timestamps translated ↔ ∃ t ∈ translated, ∃ e ∈ t.2,
      t.1.microseconds? = some stamp.1 ∧ e.videoPts? = some stamp.2 := by
  rcases stamp with ⟨micros, pts90khz⟩
  simp [timestamps, Option.bind_eq_some_iff]

/-- Each frame is sent with the camera's timestamp, converted. -/
theorem translateAll_timestamps {state : StreamTranslatorState} {inputs : List Input}
    {stamp : UInt32 × UInt32} (h : stamp ∈ timestamps (translateAll state inputs)) :
    stamp.2 = microsTo90khz stamp.1 := by
  obtain ⟨t, ht, e, he, hmicros, hpts⟩ := mem_timestamps.1 h
  obtain ⟨state', input, rfl⟩ := mem_translateAll ht
  rcases translate_ofVideo _ _ _ _ e he with haudio | ⟨micros, hmicros', hvideo⟩
  · exact nomatch (Emit.videoPts?_eq_none haudio.not_isVideo).symm.trans hpts
  · obtain rfl := Option.some.inj (hmicros.symm.trans hmicros')
    exact hvideo.2 _ hpts

/-- The time of a frame is that of its packet, in ticks. -/
theorem timestamps_eq (state : StreamTranslatorState) (inputs : List Input) :
    timestamps (translateAll state inputs) =
      ((timestamps (translateAll state inputs)).map Prod.fst).map
        fun micros => (micros, microsTo90khz micros) := by
  rw [List.map_map]
  refine (List.map_id _).symm.trans (List.map_congr_left fun stamp hstamp => ?_)
  exact Prod.ext rfl (translateAll_timestamps hstamp)

/-- The timestamps of two packets, and those of the frames of a run, follow the
    camera's clock exactly if its counter wraps nowhere between them. -/
theorem timestamps_isChain_iff (m₁ m₂ : UInt32) (state : StreamTranslatorState)
    (inputs : List Input) :
    (FollowsCamera (m₁, microsTo90khz m₁) (m₂, microsTo90khz m₂) ↔ m₁ ≤ m₂) ∧
      ((timestamps (translateAll state inputs)).IsChain FollowsCamera ↔
        ((timestamps (translateAll state inputs)).map Prod.fst).IsChain (· ≤ ·)) := by
  refine ⟨followsCamera_iff m₁ m₂, ?_⟩
  conv_lhs => rw [timestamps_eq, List.isChain_map]
  exact List.IsChain.iff followsCamera_iff

/-- A key frame and the frame 33 ms after it, on both sides of a wrap: the camera's
    clock goes forward, the timestamps sent go back. -/
theorem timestamps_wrapping_not_isChain :
    let inputs : List Input := [
      ⟨.iframe ⟨.h264, 4294960000, none, [0, 0, 0, 1, 0x65, 0x88]⟩, 0, false⟩,
      ⟨.pframe ⟨.h264, 26034, [0, 0, 0, 1, 0x41, 0x9a]⟩, Duration.ofMillis 33, false⟩]
    timestamps (translateAll {} inputs) = [(4294960000, 386546400), (26034, 2343)] ∧
      SerialLe 4294960000 26034 ∧ ¬SerialLe 386546400 2343 ∧
      ¬(timestamps (translateAll {} inputs)).IsChain FollowsCamera := by
  decide +kernel

/-! ## The codec -/

/-- The codec of a run: the one of the state, or the first verdict. -/
theorem translateAll_codec {state : StreamTranslatorState} {inputs : List Input}
    {t : BcMedia × List Emit} (ht : t ∈ translateAll state inputs) {e : Emit} (he : e ∈ t.2)
    {codec : VideoCodec} (hcodec : e.codec? = some codec) :
    (state.detectedCodec <|>
      (inputs.flatMap (·.packet.keyNals)).findSome? detectCodec) = some codec := by
  induction inputs generalizing state with
  | nil => exact nomatch ht
  | cons input inputs ih =>
    have hlatch := translate_detectedCodec input.packet state input.now input.bridging
    have hor : (state.detectedCodec <|>
        ((input :: inputs).flatMap (·.packet.keyNals)).findSome? detectCodec) =
          ((translate input.packet state input.now input.bridging).1.detectedCodec <|>
            (inputs.flatMap (·.packet.keyNals)).findSome? detectCodec) := by
      rw [hlatch, List.flatMap_cons, List.findSome?_append]
      cases state.detectedCodec <;> simp
    rw [hor]
    rcases List.mem_cons.1 ht with rfl | ht
    · rcases translate_ofVideo _ _ _ _ e he with haudio | ⟨micros, -, hvideo⟩
      · exact nomatch haudio.codec?_eq_none.symm.trans hcodec
      · rw [hvideo.1 codec hcodec]
        rfl
    · exact ih ht

/-- What is produced for a packet carries the codec that the packet declares if and
    only if it is the one that the first NAL unit of the first key frame identifies. -/
theorem codec_eq_declared_iff {inputs : List Input} {codec : VideoCodec}
    (hfirst : ∀ nal ∈ (inputs.flatMap (·.packet.keyNals)).head?, Identifies codec nal) :
    ∀ t ∈ translateAll {} inputs, ∀ e ∈ t.2, e.codec?.isSome →
      (e.codec? = t.1.declared? ↔ t.1.declared? = some codec) := by
  intro t ht e he hsome
  obtain ⟨c, hc⟩ := Option.isSome_iff_exists.1 hsome
  have hrun : (inputs.flatMap (·.packet.keyNals)).findSome? detectCodec = some c :=
    translateAll_codec ht he hc
  have hcodec : c = codec := by
    cases hnals : inputs.flatMap (·.packet.keyNals) with
    | nil =>
      rw [hnals] at hrun
      exact nomatch hrun
    | cons nal nals =>
      have hdetect := detectCodec_of_identifies (hfirst nal (by rw [hnals]; rfl))
      rw [hnals, List.findSome?_cons, hdetect] at hrun
      exact (Option.some.inj hrun).symm
  rw [hc, hcodec]
  exact eq_comm

/-- A camera that is set to H.265 after a key frame of H.264. -/
def reconfigured : List Input := [
  ⟨.iframe ⟨.h264, 1000000, none, [0, 0, 0, 1, 0x67, 0x64, 0, 0x1f, 0, 0, 0, 1, 0x68, 0xee,
    0, 0, 0, 1, 0x65, 0x88]⟩, 0, false⟩,
  ⟨.iframe ⟨.h265, 2000000, none, [0, 0, 0, 1, 0x40, 0x01, 0x0c, 0, 0, 0, 1, 0x42, 0x01, 0x01,
    0, 0, 0, 1, 0x44, 0x01, 0xc0, 0, 0, 0, 1, 0x26, 0x01, 0xaf]⟩, Duration.ofSecs 1, false⟩]

/-- The codec stays the one of the first key frame: the H.265 frame after it is sent
    as one of H.264. -/
theorem reconfigured_codec_ne_declared :
    ∃ t ∈ translateAll {} reconfigured, t.1.declared? = some .h265 ∧
      ∃ e ∈ t.2, e.videoPts?.isSome ∧ e.codec? = some .h264 := by
  decide +kernel

/-- The key frame of H.264 gives announced parameters, a burst and a frame with the
    codec declared, the one of H.265 a burst and a frame without. -/
theorem reconfigured_codec_eq_declared_iff :
    ((translateAll {} reconfigured).flatMap (·.2)).length = 5 ∧
      ∀ t ∈ translateAll {} reconfigured, ∀ e ∈ t.2, e.codec?.isSome →
        (e.codec? = t.1.declared? ↔ t.1.declared? = some .h264) :=
  ⟨by decide +kernel, codec_eq_declared_iff (by decide +kernel)⟩

end Bairelay
