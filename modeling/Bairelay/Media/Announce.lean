import Bairelay.Media.Mute
import Bairelay.Lib.Past

/-!
# Announced before sent

A player knows what to decode from the announced parameters, so these should come
before the frames they describe (`Announced`). The parameters of video are announced
with every key frame that has its parameter sets, those of audio once: one latch
covers AAC and G.711, and is never opened again.

* `announced_iff`: the packets for which every frame is announced. Audio has to keep
  the format of the first packet that could be announced, and a key frame with its
  parameter sets has to come before, or with, the first picture.
-/

namespace Bairelay

/-! ## Formats -/

/-- What a player has to know of an audio stream. -/
structure AudioFormat where
  codec : AudioCodec
  sampleRate : UInt32
  channels : UInt8
  deriving DecidableEq, Repr

/-- G.711 is always one channel of 8 kHz. -/
def AudioFormat.g711 : AudioFormat := ⟨.g711Ulaw, 8000, 1⟩

/-- What is announced of a frame of sound. -/
def AudioPayload.format : AudioPayload → AudioFormat
  | .aac _ sampleRate channels => ⟨.aac, sampleRate, channels⟩
  | .g711Ulaw _ => .g711

/-- What an announcement says about the sound. -/
def AudioParams.format (params : AudioParams) : AudioFormat :=
  ⟨params.codec, params.sampleRate, params.channels⟩

namespace Emit

/-- The format of an audio frame. -/
def audioFormat? : Emit → Option AudioFormat
  | .audio (.audio payload _) _ => some payload.format
  | _ => none

/-- The format that announced parameters of audio describe. -/
def sdpFormat? : Emit → Option AudioFormat
  | .sdpAudio params => some params.format
  | _ => none

/-- The codec of a video frame. -/
def frameCodec? : Emit → Option VideoCodec
  | .video (.video codec _ _ _ _) _ => some codec
  | _ => none

/-- The codec that announced parameters of video describe. -/
def sdpCodec? : Emit → Option VideoCodec
  | .sdpVideo params => some params.codec
  | _ => none

end Emit

/-- A frame comes after parameters that describe it. -/
def Announced (before : List Emit) (e : Emit) : Prop :=
  (∀ format, e.audioFormat? = some format → ∃ e' ∈ before, e'.sdpFormat? = some format) ∧
    ∀ codec, e.frameCodec? = some codec → ∃ e' ∈ before, e'.sdpCodec? = some codec

/-- Everything produced for some packets, in order. -/
def emitted (inputs : List Input) : List Emit := (translateAll {} inputs).flatMap (·.2)

/-! ## What packets offer -/

namespace BcMedia

/-- The format a packet can be announced with: its header is complete, and can be
    described. -/
def offers? : BcMedia → Option AudioFormat
  | .aac frame => do
    let header ← parseAdts frame.data
    if header.channels = 0 then none
    else
      let _ ← buildAudioSpecificConfigHex header.aot header.sampleRate header.channels
      some ⟨.aac, header.sampleRate, header.channels⟩
  | .adpcm frame =>
    match AdpcmDecoder.new.decodeBlock frame.data with
    | some (_, .ok pcm16k) => if pcm16k = [] ∨ decimate16To8 pcm16k = [] then none else some .g711
    | _ => none
  | .infoV1 _ | .infoV2 _ | .iframe _ | .pframe _ => none

/-- The format of the frame in a packet. -/
def plays? : BcMedia → Option AudioFormat
  | .aac frame => do
    let header ← parseAdts frame.data
    if header.channels = 0 ∨ header.frameLength ≤ adtsHeaderLen ∨ frame.data.length ≤ adtsHeaderLen
      then none
    else
      let _ ← aacSamplesPerAu header.aot
      some ⟨.aac, header.sampleRate, header.channels⟩
  | .adpcm frame => offers? (.adpcm frame)
  | .infoV1 _ | .infoV2 _ | .iframe _ | .pframe _ => none

end BcMedia

/-- A sequence parameter set. -/
def isSpsNal : Bytes → VideoCodec → Bool
  | [], _ => false
  | b :: _, .h264 => h264NalType b = 7
  | b :: _, .h265 => h265NalType b = 33

/-- A picture parameter set. -/
def isPpsNal : Bytes → VideoCodec → Bool
  | [], _ => false
  | b :: _, .h264 => h264NalType b = 8
  | b :: _, .h265 => h265NalType b = 34

namespace BcMedia

/-- The packet is a key frame with the parameter sets to be announced. -/
def Describes (codec : VideoCodec) (packet : BcMedia) : Prop :=
  (∃ nal ∈ packet.keyNals, isDecodableNal nal codec ∧ isSpsNal nal codec) ∧
    ∃ nal ∈ packet.keyNals, isDecodableNal nal codec ∧ isPpsNal nal codec

/-- The packet has something to be sent, besides the parameter sets of a key frame. -/
def Shows (codec : VideoCodec) : BcMedia → Prop
  | .iframe frame => ∃ nal ∈ splitAnnexB frame.data,
      isDecodableNal nal codec ∧ ¬isParameterSetNal nal codec
  | .pframe frame => ∃ nal ∈ splitAnnexB frame.data, isDecodableNal nal codec
  | .infoV1 _ | .infoV2 _ | .aac _ | .adpcm _ => False

end BcMedia

/-- The codec that the first NAL unit with a verdict identifies. -/
def identified? (inputs : List Input) : Option VideoCodec :=
  (inputs.flatMap (·.packet.keyNals)).findSome? detectCodec

/-- The format of the first packet that can be announced. -/
def offered? (inputs : List Input) : Option AudioFormat :=
  inputs.findSome? (·.packet.offers?)

/-- Some key frame came with its parameter sets, when the codec was known. -/
def Described (codec : VideoCodec) (inputs : List Input) : Prop :=
  ∃ before input after, inputs = before ++ input :: after ∧
    identified? (before ++ [input]) = some codec ∧ input.packet.Describes codec

/-! ## The effects of a packet -/

/-- What is announced for a packet comes before its frames. -/
def Ordered (emits : List Emit) : Prop :=
  ∃ head tail, emits = head ++ tail ∧
    (∀ e ∈ head, e.audioFormat? = none ∧ e.frameCodec? = none) ∧
    ∀ e ∈ tail, e.sdpFormat? = none ∧ e.sdpCodec? = none

/-- Effects that send no frame need no announcement. -/
theorem announced_of_silent {e : Emit} (h : e.audioFormat? = none ∧ e.frameCodec? = none)
    (before : List Emit) : Announced before e := by
  refine ⟨fun format hformat => ?_, fun codec hcodec => ?_⟩
  · rw [h.1] at hformat
    cases hformat
  · rw [h.2] at hcodec
    cases hcodec

/-- What announces nothing does not count. -/
theorem announced_append {seen extra : List Emit}
    (h : ∀ e ∈ extra, e.sdpFormat? = none ∧ e.sdpCodec? = none) (e : Emit) :
    Announced (seen ++ extra) e ↔ Announced seen e := by
  have hformat (format : AudioFormat) : ¬∃ e' ∈ extra, e'.sdpFormat? = some format := by
    rintro ⟨e', he', h'⟩
    rw [(h e' he').1] at h'
    cases h'
  have hcodec (codec : VideoCodec) : ¬∃ e' ∈ extra, e'.sdpCodec? = some codec := by
    rintro ⟨e', he', h'⟩
    rw [(h e' he').2] at h'
    cases h'
  simp only [Announced, List.mem_append, or_and_right, exists_or, hformat, hcodec, or_false]

/-- In order, a frame is announced if it is after all effects of its packet. -/
theorem Ordered.always_iff {emits : List Emit} (h : Ordered emits) (seen : List Emit) :
    Past.Always (fun before e => Announced (seen ++ before) e) emits ↔
      ∀ e ∈ emits, Announced (seen ++ emits) e := by
  obtain ⟨head, tail, rfl, hhead, htail⟩ := h
  have halways : Past.Always (fun before e => Announced (seen ++ before) e) head :=
    fun before e after heq => announced_of_silent (hhead e (by simp [heq])) _
  -- Before a frame there is the head, and what is not announcing anything.
  have htail' {before after : List Emit} {e : Emit} (heq : tail = before ++ e :: after) :
      Announced (seen ++ (head ++ before)) e ↔ Announced (seen ++ (head ++ tail)) e := by
    have hbefore : ∀ e' ∈ before, e'.sdpFormat? = none ∧ e'.sdpCodec? = none :=
      fun e' he' => htail e' (by simp [heq, he'])
    rw [← List.append_assoc, ← List.append_assoc, announced_append hbefore,
      announced_append htail]
  rw [Past.always_append, and_iff_right halways]
  constructor
  · intro h e he
    rcases List.mem_append.1 he with he | he
    · exact announced_of_silent (hhead e he) _
    · obtain ⟨before, after, heq⟩ := List.append_of_mem he
      exact (htail' heq).1 (h before e after heq)
  · intro h before e after heq
    exact (htail' heq).2 (h e (by simp [heq]))

/-- What the effects of a packet announce and show, between two states. -/
structure Announces (before after : StreamTranslatorState) (bridging : Bool) (packet : BcMedia)
    (emits : List Emit) : Prop where
  ordered : Ordered emits
  latch : after.sdpAudioEmitted = (before.sdpAudioEmitted || packet.offers?.isSome)
  sdpFormat : ∀ format, (∃ e ∈ emits, e.sdpFormat? = some format) ↔
    before.sdpAudioEmitted = false ∧ packet.offers? = some format
  audioFormat : ∀ format, (∃ e ∈ emits, e.audioFormat? = some format) ↔
    bridging = false ∧ packet.plays? = some format
  sdpCodec : ∀ codec, (∃ e ∈ emits, e.sdpCodec? = some codec) ↔
    after.detectedCodec = some codec ∧ packet.Describes codec
  frameCodec : ∀ codec, (∃ e ∈ emits, e.frameCodec? = some codec) ↔
    after.detectedCodec = some codec ∧ packet.Shows codec

section Audio

variable {before after : StreamTranslatorState} {bridging : Bool} {packet : BcMedia}

/-- A packet that is not of video announces a format or not, and plays or not. -/
theorem Announces.audio {sdp frames : List Emit}
    (hlatch : after.sdpAudioEmitted = (before.sdpAudioEmitted || packet.offers?.isSome))
    (hsdp : (sdp = [] ∧ (before.sdpAudioEmitted = true ∨ packet.offers? = none)) ∨
      ∃ params, sdp = [.sdpAudio params] ∧ before.sdpAudioEmitted = false ∧
        packet.offers? = some params.format)
    (hframes : (frames = [] ∧ (bridging = true ∨ packet.plays? = none)) ∨
      ∃ payload pts pace codec, frames = [.audio (.audio payload pts) pace, .audioSeen codec] ∧
        bridging = false ∧ packet.plays? = some payload.format)
    (hvideo : ∀ codec, ¬packet.Describes codec ∧ ¬packet.Shows codec) :
    Announces before after bridging packet (sdp ++ frames) := by
  have hsdp' : ∀ e ∈ sdp, e.audioFormat? = none ∧ e.frameCodec? = none ∧ e.sdpCodec? = none := by
    rcases hsdp with ⟨rfl, -⟩ | ⟨params, rfl, -⟩
    · simp
    · simp [Emit.audioFormat?, Emit.frameCodec?, Emit.sdpCodec?]
  have hframes' : ∀ e ∈ frames,
      e.sdpFormat? = none ∧ e.frameCodec? = none ∧ e.sdpCodec? = none := by
    rcases hframes with ⟨rfl, -⟩ | ⟨payload, pts, pace, codec, rfl, -⟩
    · simp
    · simp [Emit.sdpFormat?, Emit.frameCodec?, Emit.sdpCodec?]
  refine ⟨⟨sdp, frames, rfl, fun e he => ⟨(hsdp' e he).1, (hsdp' e he).2.1⟩,
    fun e he => ⟨(hframes' e he).1, (hframes' e he).2.2⟩⟩, hlatch, fun format => ?_,
    fun format => ?_, fun codec => ?_, fun codec => ?_⟩
  · have hnone : ¬∃ e ∈ frames, e.sdpFormat? = some format := by
      rintro ⟨e, he, h⟩
      rw [(hframes' e he).1] at h
      cases h
    simp only [List.mem_append, or_and_right, exists_or, hnone, or_false]
    rcases hsdp with ⟨rfl, h | h⟩ | ⟨params, rfl, h, hoffers⟩
    · simp [h]
    · simp [h]
    · simp [h, hoffers, Emit.sdpFormat?]
  · have hnone : ¬∃ e ∈ sdp, e.audioFormat? = some format := by
      rintro ⟨e, he, h⟩
      rw [(hsdp' e he).1] at h
      cases h
    simp only [List.mem_append, or_and_right, exists_or, hnone, false_or]
    rcases hframes with ⟨rfl, h | h⟩ | ⟨payload, pts, pace, codec, rfl, h, hplays⟩
    · simp [h]
    · simp [h]
    · simp [h, hplays, Emit.audioFormat?]
  · refine iff_of_false ?_ fun h => (hvideo codec).1 h.2
    rintro ⟨e, he, h⟩
    rcases List.mem_append.1 he with he | he
    · rw [(hsdp' e he).2.2] at h
      cases h
    · rw [(hframes' e he).2.2] at h
      cases h
  · refine iff_of_false ?_ fun h => (hvideo codec).2 h.2
    rintro ⟨e, he, h⟩
    rcases List.mem_append.1 he with he | he
    · rw [(hsdp' e he).2.1] at h
      cases h
    · rw [(hframes' e he).2.1] at h
      cases h

/-- Announcing AAC opens the latch if the header can be described. -/
theorem announceAac_cases (header : AdtsHeader) (state : StreamTranslatorState) :
    let asc := buildAudioSpecificConfigHex header.aot header.sampleRate header.channels
    (announceAac header state).1.sdpAudioEmitted = (state.sdpAudioEmitted || asc.isSome) ∧
      (((announceAac header state).2 = [] ∧ (state.sdpAudioEmitted = true ∨ asc = none)) ∨
        ∃ params, (announceAac header state).2 = [.sdpAudio params] ∧
          state.sdpAudioEmitted = false ∧ asc.isSome ∧
            params.format = ⟨.aac, header.sampleRate, header.channels⟩) := by
  rw [announceAac]
  split
  · next h => simp [h]
  · next h =>
    split
    · next hasc => simp [h, hasc, AudioParams.format]
    · next hasc => simp [h, hasc]

/-- A packet without NAL units of a key frame describes and shows nothing. -/
theorem not_video_of_keyNals (h : packet.keyNals = []) (hshows : ∀ codec, ¬packet.Shows codec)
    (codec : VideoCodec) : ¬packet.Describes codec ∧ ¬packet.Shows codec := by
  refine ⟨?_, hshows codec⟩
  rintro ⟨⟨nal, hnal, -⟩, -⟩
  rw [h] at hnal
  cases hnal

/-- A packet of AAC with a complete header, whatever becomes of its body. -/
theorem Announces.aac {aac : BcMediaAac} {header : AdtsHeader} {frames : List Emit}
    (hparse : parseAdts aac.data = some header) (hchannels : header.channels ≠ 0)
    (hlatch : after.sdpAudioEmitted = (announceAac header before).1.sdpAudioEmitted)
    (hframes : (frames = [] ∧ (bridging = true ∨ (BcMedia.aac aac).plays? = none)) ∨
      ∃ payload pts pace codec, frames = [.audio (.audio payload pts) pace, .audioSeen codec] ∧
        bridging = false ∧ (BcMedia.aac aac).plays? = some payload.format) :
    Announces before after bridging (.aac aac) ((announceAac header before).2 ++ frames) := by
  obtain ⟨hlatch', hsdp⟩ := announceAac_cases header before
  have hoffers : (BcMedia.aac aac).offers? =
      (buildAudioSpecificConfigHex header.aot header.sampleRate header.channels).map
        fun _ => ⟨.aac, header.sampleRate, header.channels⟩ := by
    simp only [BcMedia.offers?, hparse, Option.bind_eq_bind, Option.bind_some, if_neg hchannels]
    rw [Option.map_eq_bind]
    rfl
  refine .audio ?_ ?_ hframes (not_video_of_keyNals rfl fun _ => not_false)
  · rw [hlatch, hlatch', hoffers, Option.isSome_map]
  · rcases hsdp with ⟨hnil, h⟩ | ⟨params, hparams, hclosed, hasc, hformat⟩
    · refine .inl ⟨hnil, h.imp_right fun h => ?_⟩
      rw [hoffers, h, Option.map_none]
    · obtain ⟨asc, hasc⟩ := Option.isSome_iff_exists.1 hasc
      refine .inr ⟨params, hparams, hclosed, ?_⟩
      rw [hoffers, hasc, hformat, Option.map_some]

theorem translateAac_announces (aac : BcMediaAac) (state : StreamTranslatorState)
    (bridging : Bool) : Announces state (translateAac aac state bridging).1 bridging (.aac aac)
      (translateAac aac state bridging).2 := by
  have hvideo := @not_video_of_keyNals (.aac aac) rfl fun _ => not_false
  rw [translateAac]
  split
  · next hparse =>
    have hoffers : (BcMedia.aac aac).offers? = none := by simp [BcMedia.offers?, hparse]
    have hplays : (BcMedia.aac aac).plays? = none := by simp [BcMedia.plays?, hparse]
    exact .audio (by simp [hoffers]) (.inl ⟨rfl, .inr hoffers⟩) (.inl ⟨rfl, .inr hplays⟩) hvideo
  next header hparse =>
    split
    · next hchannels =>
      have hoffers : (BcMedia.aac aac).offers? = none := by
        simp [BcMedia.offers?, hparse, hchannels]
      have hplays : (BcMedia.aac aac).plays? = none := by simp [BcMedia.plays?, hparse, hchannels]
      exact .audio (by simp [hoffers]) (.inl ⟨rfl, .inr hoffers⟩) (.inl ⟨rfl, .inr hplays⟩) hvideo
    · next hchannels =>
      have hplays : (BcMedia.aac aac).plays? =
          if header.frameLength ≤ adtsHeaderLen ∨ aac.data.length ≤ adtsHeaderLen then none
          else (aacSamplesPerAu header.aot).map
            fun _ => ⟨.aac, header.sampleRate, header.channels⟩ := by
        simp only [BcMedia.plays?, hparse, Option.bind_eq_bind, Option.bind_some, hchannels,
          false_or, Option.map_eq_bind]
        rfl
      have hdropped (after : StreamTranslatorState)
          (hlatch : after.sdpAudioEmitted = (announceAac header state).1.sdpAudioEmitted)
          (h : bridging = true ∨ (BcMedia.aac aac).plays? = none) :
          Announces state after bridging (.aac aac) (announceAac header state).2 := by
        rw [← List.append_nil (announceAac header state).2]
        exact .aac hparse hchannels hlatch (.inl ⟨rfl, h⟩)
      dsimp only
      split
      · next hlen =>
        refine hdropped _ rfl (.inr ?_)
        rw [hplays, if_pos (hlen.symm.imp le_of_lt le_of_lt)]
      next hlen =>
        rw [List.length_drop]
        split
        · next hempty =>
          refine hdropped _ rfl (.inr ?_)
          rw [hplays, if_pos (by omega)]
        next hempty =>
          have hbody : ¬(header.frameLength ≤ adtsHeaderLen ∨ aac.data.length ≤ adtsHeaderLen) := by
            omega
          rw [if_neg hbody] at hplays
          split
          · next haot =>
            refine hdropped _ rfl (.inr ?_)
            rw [hplays, haot, Option.map_none]
          next samplesPerAu haot =>
            split
            · next hbridging => exact hdropped _ rfl (.inl hbridging)
            · next hbridging =>
              refine .aac hparse hchannels rfl (.inr ⟨_, _, _, _, rfl, ?_, ?_⟩)
              · exact Bool.eq_false_iff.2 hbridging
              · rw [hplays, haot, Option.map_some]
                rfl

/-- A block of ADPCM announces and plays the same. -/
theorem translateAdpcm_announces (adpcm : BcMediaAdpcm) (state : StreamTranslatorState)
    (bridging : Bool) : Announces state (translateAdpcm adpcm state bridging).1 bridging
      (.adpcm adpcm) (translateAdpcm adpcm state bridging).2 := by
  have hvideo := @not_video_of_keyNals (.adpcm adpcm) rfl fun _ => not_false
  have hplays : (BcMedia.adpcm adpcm).plays? = (BcMedia.adpcm adpcm).offers? := rfl
  have hdropped (hoffers : (BcMedia.adpcm adpcm).offers? = none) :
      Announces state state bridging (.adpcm adpcm) [] :=
    .audio (by simp [hoffers]) (.inl ⟨rfl, .inr hoffers⟩)
      (.inl ⟨rfl, .inr (hplays.trans hoffers)⟩) hvideo
  rw [translateAdpcm]
  split
  · next d pcm16k hdecode =>
    dsimp only
    split
    · next hempty => exact hdropped (by simp only [BcMedia.offers?, hdecode, if_pos hempty])
    · next hpcm =>
      have hoffers : (BcMedia.adpcm adpcm).offers? = some .g711 := by
        simp only [BcMedia.offers?, hdecode, if_neg hpcm]
      have hsdp : ((announceG711 state).2 = [] ∧
          (state.sdpAudioEmitted = true ∨ (BcMedia.adpcm adpcm).offers? = none)) ∨
          ∃ params, (announceG711 state).2 = [.sdpAudio params] ∧
            state.sdpAudioEmitted = false ∧
              (BcMedia.adpcm adpcm).offers? = some params.format := by
        rw [announceG711]
        split
        · next h => exact .inl ⟨rfl, .inl h⟩
        · next h => exact .inr ⟨_, rfl, Bool.eq_false_iff.2 h, hoffers⟩
      have hlatch : (announceG711 state).1.sdpAudioEmitted =
          (state.sdpAudioEmitted || (BcMedia.adpcm adpcm).offers?.isSome) := by
        rw [announceG711]
        split <;> simp_all
      split
      · next hbridging =>
        rw [← List.append_nil (announceG711 state).2]
        exact .audio hlatch hsdp (.inl ⟨rfl, .inl hbridging⟩) hvideo
      · next hbridging =>
        refine .audio hlatch hsdp (.inr ⟨_, _, _, _, rfl, ?_, hoffers⟩) hvideo
        exact Bool.eq_false_iff.2 hbridging
  · next hdecode =>
    refine hdropped ?_
    rw [BcMedia.offers?]
    split
    · next d pcm16k h => exact absurd h (hdecode d pcm16k)
    · rfl

end Audio

/-! ## Video -/

/-- Reordering loses nothing and adds nothing. -/
theorem mem_reorder {codec : VideoCodec} {nals : List Bytes} {nal : Bytes} :
    nal ∈ reorder codec nals ↔ nal ∈ nals :=
  (reorder_isStablePartition codec nals).perm.mem_iff

/-- A NAL unit is kept as SPS or PPS if it is one, and takes nothing kept away. -/
theorem isSome_extractIframePart (codec : VideoCodec) (parts : IframeParts) (nal : Bytes) :
    ((extractIframePart codec parts nal).sps.isSome =
        (parts.sps.isSome || isSpsNal nal codec)) ∧
      (extractIframePart codec parts nal).pps.isSome =
        (parts.pps.isSome || isPpsNal nal codec) := by
  cases nal with
  | nil => simp [extractIframePart, isSpsNal, isPpsNal]
  | cons b rest =>
    cases codec with
    | h264 =>
      simp only [extractIframePart, isSpsNal, isPpsNal]
      by_cases h7 : h264NalType b = 7
      · simp [h7]
      · by_cases h8 : h264NalType b = 8
        · simp [h8]
        · by_cases h5 : h264NalType b = 5 <;> simp [h7, h8, h5]
    | h265 =>
      simp only [extractIframePart, isSpsNal, isPpsNal]
      by_cases h32 : h265NalType b = 32
      · simp [h32]
      · by_cases h33 : h265NalType b = 33
        · simp [h33]
        · by_cases h34 : h265NalType b = 34
          · simp [h34]
          · split_ifs <;> simp [h33, h34]

/-- Parameter sets are found if there are some. -/
theorem isSome_extractIframeParts (codec : VideoCodec) (nals : List Bytes) :
    ((extractIframeParts codec nals).sps.isSome ↔ ∃ nal ∈ nals, isSpsNal nal codec) ∧
      ((extractIframeParts codec nals).pps.isSome ↔ ∃ nal ∈ nals, isPpsNal nal codec) := by
  induction nals using List.reverseRecOn with
  | nil => simp [extractIframeParts]
  | append_singleton nals nal ih =>
    obtain ⟨hsps, hpps⟩ := isSome_extractIframePart codec (extractIframeParts codec nals) nal
    rw [extractIframeParts_concat, hsps, hpps, Bool.or_eq_true, Bool.or_eq_true, ih.1, ih.2]
    simp [or_and_right, exists_or]

/-- The parameters of a key frame are announced if it has both sets. -/
theorem sdpVideo?_isSome (codec : VideoCodec) (parts : IframeParts) :
    (sdpVideo? codec parts).isSome = (parts.sps.isSome && parts.pps.isSome) := by
  rw [sdpVideo?]
  rcases parts.sps with - | sps <;> rcases parts.pps with - | pps <;> rfl

/-- Video is announced only with both parameter sets, and under its codec. -/
theorem sdpVideo?_cases (codec : VideoCodec) (parts : IframeParts) :
    (sdpVideo? codec parts = none ∨ ∃ params, sdpVideo? codec parts = some (.sdpVideo params) ∧
      params.codec = codec) := by
  rw [sdpVideo?]
  split
  · exact .inr ⟨_, rfl, rfl⟩
  · exact .inl rfl

section Video

variable {before after : StreamTranslatorState} {bridging : Bool} {packet : BcMedia}

/-- A packet that is not of audio announces a codec or not, and shows it or not. -/
theorem Announces.video {sdp rest frames : List Emit}
    (hlatch : after.sdpAudioEmitted = before.sdpAudioEmitted)
    (haudio : packet.offers? = none ∧ packet.plays? = none)
    (hsdp : (sdp = [] ∧ ∀ codec, after.detectedCodec = some codec → ¬packet.Describes codec) ∨
      ∃ params, sdp = [.sdpVideo params] ∧ after.detectedCodec = some params.codec ∧
        packet.Describes params.codec)
    (hrest : ∀ e ∈ rest, e.sdpFormat? = none ∧ e.sdpCodec? = none ∧ e.audioFormat? = none ∧
      e.frameCodec? = none)
    (hframes : (frames = [] ∧ ∀ codec, after.detectedCodec = some codec → ¬packet.Shows codec) ∨
      ∃ codec nals pts keyframe accessUnitEnd pace,
        frames = [.video (.video codec nals pts keyframe accessUnitEnd) pace] ∧
          after.detectedCodec = some codec ∧ packet.Shows codec) :
    Announces before after bridging packet (sdp ++ rest ++ frames) := by
  -- What each part announces is known from the kind of its emissions.
  have hsdp' : ∀ e ∈ sdp, e.sdpFormat? = none ∧ e.audioFormat? = none ∧ e.frameCodec? = none := by
    rcases hsdp with ⟨rfl, -⟩ | ⟨params, rfl, -⟩
    · simp
    · simp [Emit.audioFormat?, Emit.frameCodec?, Emit.sdpFormat?]
  have hframes' : ∀ e ∈ frames,
      e.sdpFormat? = none ∧ e.audioFormat? = none ∧ e.sdpCodec? = none := by
    rcases hframes with ⟨rfl, -⟩ | ⟨codec, nals, pts, keyframe, accessUnitEnd, pace, rfl, -⟩
    · simp
    · simp [Emit.sdpFormat?, Emit.audioFormat?, Emit.sdpCodec?]
  have hnone {α : Type} {f : Emit → Option α} {a : α} {emits : List Emit}
      (h : ∀ e ∈ emits, f e = none) : ¬∃ e ∈ emits, f e = some a := by
    rintro ⟨e, he, hfe⟩
    rw [h e he] at hfe
    cases hfe
  -- The description comes first, and nothing after it describes.
  refine ⟨⟨sdp, rest ++ frames, List.append_assoc _ _ _, fun e he => (hsdp' e he).2,
    fun e he => ?_⟩, ?_, fun format => ?_, fun format => ?_, fun codec => ?_, fun codec => ?_⟩
  · rcases List.mem_append.1 he with he | he
    · exact ⟨(hrest e he).1, (hrest e he).2.1⟩
    · exact ⟨(hframes' e he).1, (hframes' e he).2.2⟩
  · rw [hlatch, haudio.1, Option.isSome_none, Bool.or_false]
  · rw [haudio.1]
    refine iff_of_false (hnone fun e he => ?_) (by simp)
    rcases List.mem_append.1 he with he | he
    · rcases List.mem_append.1 he with he | he
      · exact (hsdp' e he).1
      · exact (hrest e he).1
    · exact (hframes' e he).1
  · rw [haudio.2]
    refine iff_of_false (hnone fun e he => ?_) (by simp)
    rcases List.mem_append.1 he with he | he
    · rcases List.mem_append.1 he with he | he
      · exact (hsdp' e he).2.1
      · exact (hrest e he).2.2.1
    · exact (hframes' e he).2.1
  · simp only [List.mem_append, or_and_right, exists_or, hnone fun e he => (hrest e he).2.1,
      hnone fun e he => (hframes' e he).2.2, or_false]
    rcases hsdp with ⟨rfl, h⟩ | ⟨params, rfl, hcodec, hdescribes⟩
    · exact iff_of_false (by simp) fun hc => h codec hc.1 hc.2
    · simp only [List.mem_singleton, exists_eq_left, Emit.sdpCodec?, hcodec]
      exact ⟨fun h => ⟨h, Option.some.inj h ▸ hdescribes⟩, fun h => h.1⟩
  · simp only [List.mem_append, or_and_right, exists_or, hnone fun e he => (hrest e he).2.2.2,
      hnone fun e he => (hsdp' e he).2.2, false_or]
    rcases hframes with ⟨rfl, h⟩ | ⟨c, nals, pts, keyframe, accessUnitEnd, pace, rfl, hc, hshows⟩
    · exact iff_of_false (by simp) fun hc => h codec hc.1 hc.2
    · simp only [List.mem_singleton, exists_eq_left, Emit.frameCodec?, hc]
      exact ⟨fun h => ⟨h, Option.some.inj h ▸ hshows⟩, fun h => h.1⟩

/-- A packet of which nothing is sent announces nothing. -/
theorem Announces.dropped (hlatch : after.sdpAudioEmitted = before.sdpAudioEmitted)
    (haudio : packet.offers? = none ∧ packet.plays? = none)
    (hdescribes : ∀ codec, after.detectedCodec = some codec → ¬packet.Describes codec)
    (hshows : ∀ codec, after.detectedCodec = some codec → ¬packet.Shows codec) :
    Announces before after bridging packet [] := by
  change Announces before after bridging packet ([] ++ [] ++ [])
  exact .video hlatch haudio (.inl ⟨rfl, hdescribes⟩) (by simp) (.inl ⟨rfl, hshows⟩)

/-- What a key frame announces is the codec of the sets, if both are there. -/
theorem sdpVideo?_of_iframe {iframe : BcMediaIframe} {codec : VideoCodec} {reordered : List Bytes}
    (hmem : ∀ {nal}, nal ∈ reordered ↔
      nal ∈ splitAnnexB iframe.data ∧ isDecodableNal nal codec)
    (hafter : after.detectedCodec = some codec) :
    ((sdpVideo? codec (extractIframeParts codec reordered)).toList = [] ∧
      ∀ c, after.detectedCodec = some c → ¬(BcMedia.iframe iframe).Describes c) ∨
    ∃ params, (sdpVideo? codec (extractIframeParts codec reordered)).toList =
      [.sdpVideo params] ∧ after.detectedCodec = some params.codec ∧
        (BcMedia.iframe iframe).Describes params.codec := by
  obtain ⟨hsps, hpps⟩ := isSome_extractIframeParts codec reordered
  have hdescribes : (sdpVideo? codec (extractIframeParts codec reordered)).isSome ↔
      (BcMedia.iframe iframe).Describes codec := by
    rw [sdpVideo?_isSome, Bool.and_eq_true, hsps, hpps]
    simp only [hmem, BcMedia.Describes, BcMedia.keyNals, and_assoc]
  rcases sdpVideo?_cases codec (extractIframeParts codec reordered) with h | ⟨params, h, hparams⟩
  · rw [h] at hdescribes ⊢
    refine .inl ⟨rfl, fun c hc => ?_⟩
    obtain rfl := Option.some.inj (hafter.symm.trans hc)
    exact fun hd => by simpa using hdescribes.2 hd
  · rw [h] at hdescribes ⊢
    rw [← hparams] at hdescribes
    exact .inr ⟨params, rfl, hafter.trans (congrArg some hparams.symm), hdescribes.1 rfl⟩

end Video

/-- The step of a key frame, which announces its video if it has both parameter sets. -/
theorem translateIframe_announces (iframe : BcMediaIframe) (state : StreamTranslatorState)
    (now : Instant) (bridging : Bool) :
    Announces state (translateIframe iframe state now).1 bridging (.iframe iframe)
      (translateIframe iframe state now).2.1 := by
  have hdropped (after : StreamTranslatorState)
      (hlatch : after.sdpAudioEmitted = state.sdpAudioEmitted)
      (h : ∀ codec, after.detectedCodec = some codec →
        ∀ nal ∈ splitAnnexB iframe.data, ¬isDecodableNal nal codec) :
      Announces state after bridging (.iframe iframe) [] := by
    refine .dropped hlatch ⟨rfl, rfl⟩ ?_ ?_
    · rintro codec hcodec ⟨⟨nal, hnal, hdecodable, -⟩, -⟩
      exact h codec hcodec nal hnal hdecodable
    · rintro codec hcodec ⟨nal, hnal, hdecodable, -⟩
      exact h codec hcodec nal hnal hdecodable
  rw [translateIframe]
  dsimp only
  split
  · next hnil => exact hdropped _ rfl fun codec _ nal hnal => by simp [hnil] at hnal
  next =>
    split
    · next hnone => exact hdropped _ rfl fun codec hcodec => by simp [hnone] at hcodec
    next codec hcodec =>
      split
      · next hnil =>
        refine hdropped _ rfl fun codec' hcodec' nal hnal hdecodable => ?_
        obtain rfl := Option.some.inj (hcodec.symm.trans hcodec')
        exact List.filter_eq_nil_iff.1 hnil nal hnal hdecodable
      next =>
        have hmem {nal : Bytes} :
            nal ∈ reorder codec ((splitAnnexB iframe.data).filter (isDecodableNal · codec)) ↔
              nal ∈ splitAnnexB iframe.data ∧ isDecodableNal nal codec := by
          rw [mem_reorder, List.mem_filter]
        generalize reorder codec ((splitAnnexB iframe.data).filter (isDecodableNal · codec)) =
          reordered at hmem
        have hshows : reordered.filter (fun nal => !isParameterSetNal nal codec) = [] ↔
            ¬(BcMedia.iframe iframe).Shows codec := by
          simp only [List.filter_eq_nil_iff, hmem, BcMedia.Shows, not_exists]
          simp only [Bool.not_eq_true', Bool.not_eq_false, not_and, not_not, and_imp]
        split
        · next hnil =>
          rw [← List.append_nil (_ ++ [Emit.replaceVideoBurst _])]
          refine .video rfl ⟨rfl, rfl⟩ (sdpVideo?_of_iframe hmem hcodec) ?_
            (.inl ⟨rfl, fun c hc => ?_⟩)
          · simp [Emit.sdpFormat?, Emit.sdpCodec?, Emit.audioFormat?, Emit.frameCodec?]
          · obtain rfl := Option.some.inj (hcodec.symm.trans hc)
            exact hshows.1 hnil
        · next hframe =>
          refine .video rfl ⟨rfl, rfl⟩ (sdpVideo?_of_iframe hmem hcodec) ?_
            (.inr ⟨_, _, _, _, _, _, rfl, hcodec, not_not.1 fun h => hframe (hshows.2 h)⟩)
          simp [Emit.sdpFormat?, Emit.sdpCodec?, Emit.audioFormat?, Emit.frameCodec?]

/-- The step of a frame between key frames, which announces nothing. -/
theorem translatePframe_announces (pframe : BcMediaPframe) (state : StreamTranslatorState)
    (bridging : Bool) :
    Announces state (translatePframe pframe state).1 bridging (.pframe pframe)
      (translatePframe pframe state).2.1 := by
  have hdescribes (codec : VideoCodec) : ¬(BcMedia.pframe pframe).Describes codec := by
    rintro ⟨⟨nal, hnal, -⟩, -⟩
    cases hnal
  have hdropped (h : ∀ codec, state.detectedCodec = some codec →
      ¬(BcMedia.pframe pframe).Shows codec) :
      Announces state state bridging (.pframe pframe) [] :=
    .dropped rfl ⟨rfl, rfl⟩ (fun codec _ => hdescribes codec) h
  rw [translatePframe]
  split
  · next hnone => exact hdropped fun codec hcodec => by simp [hnone] at hcodec
  next codec hcodec =>
    dsimp only
    split
    · next hnil =>
      refine hdropped fun codec' hcodec' => ?_
      obtain rfl := Option.some.inj (hcodec.symm.trans hcodec')
      rintro ⟨nal, hnal, hdecodable⟩
      exact List.filter_eq_nil_iff.1 hnil nal hnal hdecodable
    · next hframe =>
      have hshows : (BcMedia.pframe pframe).Shows codec := by
        obtain ⟨nal, hnal⟩ := List.exists_mem_of_ne_nil _ hframe
        exact ⟨nal, List.mem_of_mem_filter hnal, (List.mem_filter.1 hnal).2⟩
      change Announces _ _ _ _ ([] ++ [_] ++ [_])
      refine .video rfl ⟨rfl, rfl⟩ (.inl ⟨rfl, fun codec _ => hdescribes codec⟩) ?_
        (.inr ⟨_, _, _, _, _, _, rfl, hcodec, hshows⟩)
      simp [Emit.sdpFormat?, Emit.sdpCodec?, Emit.audioFormat?, Emit.frameCodec?]

/-- What a packet announces and shows. -/
theorem translate_announces (packet : BcMedia) (state : StreamTranslatorState) (now : Instant)
    (bridging : Bool) :
    Announces state (translate packet state now bridging).1 bridging packet
      (translate packet state now bridging).2.1 := by
  cases packet with
  | infoV1 | infoV2 =>
    change Announces _ _ _ _ ([] ++ [])
    exact .audio (by simp [translate, BcMedia.offers?])
      (.inl ⟨rfl, .inr rfl⟩) (.inl ⟨rfl, .inr rfl⟩) (not_video_of_keyNals rfl fun _ => not_false)
  | iframe frame => exact translateIframe_announces frame state now bridging
  | pframe frame => exact translatePframe_announces frame state bridging
  | aac frame => exact translateAac_announces frame state bridging
  | adpcm frame => exact translateAdpcm_announces frame state bridging

/-! ## Runs -/

/-- The last packet is translated after all others. -/
theorem translateAll_concat (state : StreamTranslatorState) (inputs : List Input) (input : Input) :
    translateAll state (inputs ++ [input]) = translateAll state inputs ++
      [(input.packet, (translate input.packet (translatorState state inputs) input.now
        input.bridging).2.1)] := by
  induction inputs generalizing state with
  | nil => rfl
  | cons first inputs ih =>
    rw [List.cons_append, translateAll, ih, translateAll]
    rfl

theorem emitted_concat (inputs : List Input) (input : Input) :
    emitted (inputs ++ [input]) = emitted inputs ++
      (translate input.packet (translatorState {} inputs) input.now input.bridging).2.1 := by
  rw [emitted, translateAll_concat, List.flatMap_append, List.flatMap_singleton]
  rfl

theorem translatorState_concat (state : StreamTranslatorState) (inputs : List Input)
    (input : Input) : translatorState state (inputs ++ [input]) =
      (translate input.packet (translatorState state inputs) input.now input.bridging).1 := by
  rw [translatorState, List.foldl_append]
  rfl

/-- The codec is that of the first NAL unit that tells it. -/
theorem identified?_concat (inputs : List Input) (input : Input) :
    identified? (inputs ++ [input]) =
      (identified? inputs <|> input.packet.keyNals.findSome? detectCodec) := by
  rw [identified?, List.flatMap_append, List.findSome?_append, List.flatMap_singleton, identified?]
  cases List.findSome? detectCodec (inputs.flatMap (·.packet.keyNals)) <;> rfl

theorem offered?_concat (inputs : List Input) (input : Input) :
    offered? (inputs ++ [input]) = (offered? inputs).or input.packet.offers? := by
  rw [offered?, List.findSome?_append, List.findSome?_singleton]
  rfl

/-- A codec is described by a packet of a stream of this codec. -/
theorem described_concat (codec : VideoCodec) (inputs : List Input) (input : Input) :
    Described codec (inputs ++ [input]) ↔ Described codec inputs ∨
      identified? (inputs ++ [input]) = some codec ∧ input.packet.Describes codec := by
  constructor
  · rintro ⟨before, x, after, heq, hcodec, hdescribes⟩
    rcases Past.concat_eq_append_cons heq with ⟨rfl, rfl, -⟩ | ⟨rest, -, rfl⟩
    · exact .inr ⟨hcodec, hdescribes⟩
    · exact .inl ⟨before, x, rest, rfl, hcodec, hdescribes⟩
  · rintro (⟨before, x, after, rfl, hcodec, hdescribes⟩ | ⟨hcodec, hdescribes⟩)
    · exact ⟨before, x, after ++ [input], by simp, hcodec, hdescribes⟩
    · exact ⟨inputs, input, [], rfl, hcodec, hdescribes⟩

/-- The latches of the state, and what was announced, after some packets. -/
structure Told (inputs : List Input) : Prop where
  latch : (translatorState {} inputs).sdpAudioEmitted = (offered? inputs).isSome
  codec : (translatorState {} inputs).detectedCodec = identified? inputs
  sdpFormat : ∀ format, (∃ e ∈ emitted inputs, e.sdpFormat? = some format) ↔
    offered? inputs = some format
  sdpCodec : ∀ codec, (∃ e ∈ emitted inputs, e.sdpCodec? = some codec) ↔
    Described codec inputs

/-- In every run it is known what has been announced. -/
theorem told (inputs : List Input) : Told inputs := by
  induction inputs using List.reverseRecOn with
  | nil =>
    refine ⟨rfl, rfl, fun format => by simp [emitted, translateAll, offered?], fun codec => ?_⟩
    refine iff_of_false (by simp [emitted, translateAll]) ?_
    rintro ⟨before, x, after, h, -⟩
    simp at h
  | append_singleton inputs input ih =>
    have h := translate_announces input.packet (translatorState {} inputs) input.now input.bridging
    have hcodec : (translate input.packet (translatorState {} inputs) input.now
        input.bridging).1.detectedCodec = identified? (inputs ++ [input]) := by
      rw [translate_detectedCodec, ih.codec, identified?_concat]
    refine ⟨?_, ?_, fun format => ?_, fun codec => ?_⟩
    · rw [translatorState_concat, h.latch, ih.latch, offered?_concat, Option.isSome_or]
    · rw [translatorState_concat, hcodec]
    · rw [emitted_concat, offered?_concat]
      simp only [List.mem_append, or_and_right, exists_or, ih.sdpFormat, h.sdpFormat, ih.latch]
      cases offered? inputs <;> simp
    · rw [emitted_concat, described_concat]
      simp only [List.mem_append, or_and_right, exists_or, ih.sdpCodec, h.sdpCodec, hcodec]

/-- An audio frame that is sent has the format of the first packet that could be
    announced. -/
def KeepsFormat (before : List Input) (input : Input) : Prop :=
  ∀ format, input.bridging = false → input.packet.plays? = some format →
    offered? (before ++ [input]) = some format

/-- A picture comes after, or with, a key frame that has the parameter sets. -/
def HasParameters (before : List Input) (input : Input) : Prop :=
  ∀ codec, identified? (before ++ [input]) = some codec → input.packet.Shows codec →
    Described codec (before ++ [input])

/-- Every frame is announced exactly if audio keeps the format it was announced with,
    and no picture comes before the parameter sets. -/
theorem announced_iff (inputs : List Input) :
    Past.Always Announced (emitted inputs) ↔
      Past.Always KeepsFormat inputs ∧ Past.Always HasParameters inputs := by
  induction inputs using List.reverseRecOn with
  | nil => simp [emitted, translateAll, Past.always_nil]
  | append_singleton inputs input ih =>
    have h := translate_announces input.packet (translatorState {} inputs) input.now input.bridging
    have hcodec := (told (inputs ++ [input])).codec
    rw [translatorState_concat] at hcodec
    have htold : ∀ e, Announced (emitted (inputs ++ [input])) e ↔
        (∀ format, e.audioFormat? = some format → offered? (inputs ++ [input]) = some format) ∧
          ∀ codec, e.frameCodec? = some codec → Described codec (inputs ++ [input]) := by
      intro e
      simp only [Announced, (told (inputs ++ [input])).sdpFormat,
        (told (inputs ++ [input])).sdpCodec]
    have hpacket : (∀ e ∈ (translate input.packet (translatorState {} inputs) input.now
        input.bridging).2.1, Announced (emitted (inputs ++ [input])) e) ↔
          KeepsFormat inputs input ∧ HasParameters inputs input := by
      simp only [htold, KeepsFormat, HasParameters]
      constructor
      · intro hall
        refine ⟨fun format hlive hplays => ?_, fun codec hid hshows => ?_⟩
        · obtain ⟨e, he, hformat⟩ := (h.audioFormat format).2 ⟨hlive, hplays⟩
          exact (hall e he).1 format hformat
        · obtain ⟨e, he, hframe⟩ := (h.frameCodec codec).2 ⟨hcodec.trans hid, hshows⟩
          exact (hall e he).2 codec hframe
      · rintro ⟨haudio, hvideo⟩ e he
        refine ⟨fun format hformat => ?_, fun codec hframe => ?_⟩
        · obtain ⟨hlive, hplays⟩ := (h.audioFormat format).1 ⟨e, he, hformat⟩
          exact haudio format hlive hplays
        · obtain ⟨hid, hshows⟩ := (h.frameCodec codec).1 ⟨e, he, hframe⟩
          exact hvideo codec (hcodec.symm.trans hid) hshows
    rw [emitted_concat, Past.always_append, ih, h.ordered.always_iff, ← emitted_concat, hpacket,
      Past.always_concat, Past.always_concat, and_and_and_comm]

/-- A camera whose audio changes from AAC to ADPCM. -/
def switchedAudio : List Input :=
  [⟨.aac ⟨[0xff, 0xf1, 0x60, 0x40, 0x01, 0x3f, 0xfc, 0x21, 0x22]⟩, 0, false⟩,
    ⟨.adpcm ⟨[0x00, 0x00, 0x00, 0x00, 0x11, 0x22]⟩, Duration.ofMillis 64, false⟩]

/-- The second packet is sent as G.711, which is announced nowhere. -/
theorem switchedAudio_not_announced : ¬Past.Always Announced (emitted switchedAudio) := by
  intro h
  have hemitted : emitted switchedAudio = (emitted switchedAudio).take 3 ++
      .audio (.audio (.g711Ulaw [255, 254]) 0) (Duration.ofMicros 250) ::
        [.audioSeen .g711Ulaw] := by
    decide +kernel
  obtain ⟨e, he, hformat⟩ := (h _ _ _ hemitted).1 .g711 rfl
  have hnone : ∀ e ∈ (emitted switchedAudio).take 3, e.sdpFormat? ≠ some .g711 := by
    decide +kernel
  exact hnone e he hformat

end Bairelay
