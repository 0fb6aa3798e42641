import Bairelay.Media.StreamTranslate

/-!
# Access units

What becomes of a video packet: a frame with its NAL units, or nothing. Those that decoders cannot
handle are left out, and so are the parameter sets of a key frame, which are announced instead; the
slices come last (`reorder`).

* `translate_givesFrame`: what a video packet gives, for both kinds of packets;
* `translate_accessUnit`: the timestamp returned is that of the frame, and the NAL units of the
  frame are those of the packet; what is ill-formed changes nothing.
-/

namespace Bairelay

/-- A video packet, of a key frame or of a frame after it. -/
structure VideoPacket where
  keyframe : Bool
  microseconds : UInt32
  data : Bytes
  deriving DecidableEq, Repr

/-- What of a packet is video. -/
def BcMedia.videoPacket? : BcMedia → Option VideoPacket
  | .iframe frame => some ⟨true, frame.microseconds, frame.data⟩
  | .pframe frame => some ⟨false, frame.microseconds, frame.data⟩
  | .infoV1 _ | .infoV2 _ | .aac _ | .adpcm _ => none

/-- The NAL units that decoders can handle. -/
def decodableNals (codec : VideoCodec) (data : Bytes) : List Bytes :=
  (splitAnnexB data).filter (isDecodableNal · codec)

/-- The NAL units that are sent. -/
def VideoPacket.sentNals (video : VideoPacket) (codec : VideoCodec) : List Bytes :=
  (decodableNals codec video.data).filter fun nal =>
    !(video.keyframe && isParameterSetNal nal codec)

namespace StreamTranslatorState

/-- The codec that a packet is translated with. -/
def codecFor? (state : StreamTranslatorState) (packet : BcMedia) : Option VideoCodec :=
  state.detectedCodec <|> packet.keyNals.findSome? detectCodec

/-- The timestamps that the translation keeps. -/
def clocks (state : StreamTranslatorState) : UInt32 × UInt32 × Option UInt32 :=
  (state.aacPtsNext, state.g711PtsNext, state.lastVideoPts90khz)

end StreamTranslatorState

/-- The frame that an effect sends. -/
def Emit.videoFrame? : Emit → Option Frame
  | .video frame _ => some frame
  | _ => none

/-- The video frames among some effects. -/
def videoFrames (emits : List Emit) : List Frame := emits.filterMap Emit.videoFrame?

/-- A packet without a start code, without a codec, or without anything that decoders can handle. -/
def IllFormed (codec? : Option VideoCodec) (video : VideoPacket) : Prop :=
  Bare video.data ∨ codec? = none ∨ ∀ codec ∈ codec?, decodableNals codec video.data = []

/-! ## The slices last -/

/-- Of a key frame, the parameter sets are left out once the slices are last. -/
theorem keyframe_isStablePartition (codec : VideoCodec) (microseconds : UInt32) (data : Bytes) :
    IsStablePartition (isSliceNal · codec) (VideoPacket.sentNals ⟨true, microseconds, data⟩ codec)
      ((reorder codec (decodableNals codec data)).filter fun nal => !isParameterSetNal nal codec) :=
  (reorder_isStablePartition codec (decodableNals codec data)).filter _

/-- Of another frame, all that decoders can handle is sent. -/
theorem pframe_isStablePartition (codec : VideoCodec) (microseconds : UInt32) (data : Bytes) :
    IsStablePartition (isSliceNal · codec) (VideoPacket.sentNals ⟨false, microseconds, data⟩ codec)
      (reorder codec (decodableNals codec data)) := by
  have hsent :
      VideoPacket.sentNals ⟨false, microseconds, data⟩ codec = decodableNals codec data := by
    simp [VideoPacket.sentNals]
  rw [hsent]
  exact reorder_isStablePartition codec (decodableNals codec data)

/-- Where nothing can be decoded nothing is sent. -/
theorem VideoPacket.sentNals_eq_nil {video : VideoPacket} {codec : VideoCodec}
    (h : decodableNals codec video.data = []) : video.sentNals codec = [] := by
  rw [sentNals, h]
  rfl

/-! ## What a packet gives -/

theorem videoFrames_append (emits emits' : List Emit) :
    videoFrames (emits ++ emits') = videoFrames emits ++ videoFrames emits' :=
  List.filterMap_append

theorem videoFrames_eq_nil {emits : List Emit} (h : ∀ e ∈ emits, ¬e.IsVideo) :
    videoFrames emits = [] := by
  refine List.filterMap_eq_nil_iff.2 fun e he => ?_
  cases e with
  | video frame pace => exact absurd trivial (h _ he)
  | audio | sdpVideo | sdpAudio | replaceVideoBurst | appendPframe | audioSeen => rfl

/-- What the translation of a packet gives, with a codec or without. -/
inductive GivesFrame (codec? : Option VideoCodec) (video : VideoPacket)
    (state : StreamTranslatorState) (t : Translated) : Prop where
  | nothing (hsent : ∀ codec ∈ codec?, video.sentNals codec = []) (hpts : t.2.2 = none)
      (hframes : videoFrames t.2.1 = []) (hclocks : t.1.clocks = state.clocks)
  | frame {codec : VideoCodec} {nals : List Bytes} (hcodec : codec? = some codec)
      (hnals : IsStablePartition (isSliceNal · codec) (video.sentNals codec) nals) (hne : nals ≠ [])
      (hpts : t.2.2 = some (microsTo90khz video.microseconds))
      (hframes : videoFrames t.2.1 =
        [.video codec nals (microsTo90khz video.microseconds) video.keyframe true])

/-- Without a codec, nothing can be sent. -/
theorem GivesFrame.of_none {codec? : Option VideoCodec} {video : VideoPacket}
    {state : StreamTranslatorState} {t : Translated} (hnone : codec? = none) (hpts : t.2.2 = none)
    (hframes : videoFrames t.2.1 = []) (hclocks : t.1.clocks = state.clocks) :
    GivesFrame codec? video state t := by
  refine .nothing (fun codec hcodec => ?_) hpts hframes hclocks
  rw [hnone] at hcodec
  cases hcodec

/-- A packet of which nothing is sent leaves the clocks alone. -/
theorem GivesFrame.of_eq_nil {codec? : Option VideoCodec} {codec : VideoCodec} {video : VideoPacket}
    {state : StreamTranslatorState} {t : Translated} (hcodec : codec? = some codec)
    (hnil : video.sentNals codec = []) (hpts : t.2.2 = none) (hframes : videoFrames t.2.1 = [])
    (hclocks : t.1.clocks = state.clocks) : GivesFrame codec? video state t := by
  refine .nothing (fun codec' hcodec' => ?_) hpts hframes hclocks
  obtain rfl := Option.some.inj (hcodec.symm.trans hcodec')
  exact hnil

/-- A key frame gives one frame, or none, as its NAL units are. -/
theorem translateIframe_givesFrame (iframe : BcMediaIframe) (state : StreamTranslatorState)
    (now : Instant) :
    GivesFrame (state.codecFor? (.iframe iframe)) ⟨true, iframe.microseconds, iframe.data⟩ state
      (translateIframe iframe state now) := by
  have hcodecFor : state.codecFor? (.iframe iframe) =
      (latchCodec state (splitAnnexB iframe.data)).detectedCodec := rfl
  rw [hcodecFor, translateIframe]
  dsimp only
  split
  · next hnil =>
    -- No NAL units, so no codec is latched either.
    refine .nothing (fun codec _ => VideoPacket.sentNals_eq_nil ?_) rfl rfl rfl
    rw [decodableNals, hnil]
    rfl
  · split
    · next hnone => exact .of_none hnone rfl rfl rfl
    · next codec hcodec =>
      have hparts := keyframe_isStablePartition codec iframe.microseconds iframe.data
      split
      · next hnil =>
        exact .of_eq_nil hcodec (VideoPacket.sentNals_eq_nil hnil) rfl rfl rfl
      · split
        · next hnil =>
          -- Only parameter sets: they are announced, and the burst is replaced.
          exact .of_eq_nil hcodec (hparts.eq_nil_iff.1 hnil) rfl
            (videoFrames_eq_nil fun e => replaceVideoBurst_not_isVideo) rfl
        · next hne =>
          -- The frame is the last effect, behind the announced parameters and the burst.
          refine .frame hcodec hparts hne rfl ?_
          rw [videoFrames_append, videoFrames_eq_nil fun e => replaceVideoBurst_not_isVideo]
          rfl

theorem translatePframe_givesFrame (pframe : BcMediaPframe) (state : StreamTranslatorState) :
    GivesFrame state.detectedCodec ⟨false, pframe.microseconds, pframe.data⟩ state
      (translatePframe pframe state) := by
  rw [translatePframe]
  split
  · next hnone => exact .of_none hnone rfl rfl rfl
  · next codec hcodec =>
    have hparts := pframe_isStablePartition codec pframe.microseconds pframe.data
    dsimp only
    split
    · next hnil =>
      exact .of_eq_nil hcodec (VideoPacket.sentNals_eq_nil hnil) rfl rfl rfl
    · next hne =>
      exact .frame hcodec hparts (reorder_ne_nil codec hne) rfl rfl

/-- A video packet gives the frame of its access unit. -/
theorem translate_givesFrame (packet : BcMedia) (state : StreamTranslatorState) (now : Instant)
    (bridging : Bool) {video : VideoPacket} (h : packet.videoPacket? = some video) :
    GivesFrame (state.codecFor? packet) video state (translate packet state now bridging) := by
  cases packet with
  | infoV1 | infoV2 | aac | adpcm => cases h
  | iframe frame =>
    cases h
    exact translateIframe_givesFrame frame state now
  | pframe frame =>
    cases h
    -- No codec is guessed from a frame that is not a key frame.
    have hcodecFor : state.codecFor? (.pframe frame) = state.detectedCodec := by
      simp [StreamTranslatorState.codecFor?, BcMedia.keyNals]
    rw [hcodecFor]
    exact translatePframe_givesFrame frame state

/-- Nothing of an ill-formed packet is sent. -/
theorem IllFormed.sentNals_eq_nil {codec? : Option VideoCodec} {video : VideoPacket}
    (h : IllFormed codec? video) {codec : VideoCodec} (hcodec : codec? = some codec) :
    video.sentNals codec = [] := by
  refine VideoPacket.sentNals_eq_nil ?_
  rcases h with hbare | hnone | hnils
  · rw [decodableNals, splitAnnexB_eq_nil hbare]
    rfl
  · rw [hnone] at hcodec
    cases hcodec
  · exact hnils codec hcodec

/-- The timestamp that the translation of a video packet returns is that of the one frame it gives,
    whose NAL units are those of the packet that are sent, in order but for the slices, which come
    last. Of an ill-formed packet there is no frame, and no timestamp changes. -/
theorem translate_accessUnit (packet : BcMedia) (state : StreamTranslatorState) (now : Instant)
    (bridging : Bool) {video : VideoPacket} (hvideo : packet.videoPacket? = some video) :
    let t := translate packet state now bridging
    (∀ pts90khz, t.2.2 = some pts90khz ↔
        ∃ frame, videoFrames t.2.1 = [frame] ∧ frame.videoPts? = some pts90khz) ∧
      (t.2.2 = none ↔ videoFrames t.2.1 = []) ∧
      (∀ frame ∈ videoFrames t.2.1, ∃ codec nals pts90khz,
        frame = .video codec nals pts90khz video.keyframe true ∧
          state.codecFor? packet = some codec ∧ nals ≠ [] ∧
          IsStablePartition (isSliceNal · codec) (video.sentNals codec) nals) ∧
      IsAnnexB video.data (splitAnnexB video.data) ∧
      (IllFormed (state.codecFor? packet) video →
        videoFrames t.2.1 = [] ∧ t.1.clocks = state.clocks) := by
  dsimp only
  refine and_assoc.1 ⟨?_, ?_, splitAnnexB_isAnnexB video.data, ?_⟩
  · cases translate_givesFrame packet state now bridging hvideo with
    | nothing hsent hpts hframes hclocks => simp [hpts, hframes]
    | frame hcodec hnals hne hpts hframes => simp [hpts, hframes, Frame.videoPts?]
  · cases translate_givesFrame packet state now bridging hvideo with
    | nothing hsent hpts hframes hclocks =>
      rw [hframes]
      exact fun frame hframe => nomatch hframe
    | frame hcodec hnals hne hpts hframes =>
      rw [hframes]
      exact List.forall_mem_singleton.2 ⟨_, _, _, rfl, hcodec, hne, hnals⟩
  · intro hill
    cases translate_givesFrame packet state now bridging hvideo with
    | nothing hsent hpts hframes hclocks => exact ⟨hframes, hclocks⟩
    | frame hcodec hnals hne hpts hframes =>
      have hsent := hill.sentNals_eq_nil hcodec
      exact absurd (hnals.eq_nil_iff.2 hsent) hne

/-- A key frame with SEI behind its slice: the SEI goes first, without the parameter sets. -/
theorem translate_accessUnit_seiLast :
    let packet : BcMedia := .iframe ⟨.h264, 1000, none, [0, 0, 0, 1, 0x67, 0x64, 0, 0x1f,
      0, 0, 0, 1, 0x68, 0xee, 0, 0, 0, 1, 0x65, 0x88, 0, 0, 1, 0x06, 0x05]⟩
    let t := translate packet {} 0 false
    t.2.2 = some 90 ∧
      videoFrames t.2.1 = [.video .h264 [[0x06, 0x05], [0x65, 0x88]] 90 true true] ∧
      ∃ frame, videoFrames t.2.1 = [frame] ∧ frame.videoPts? = some 90 :=
  ⟨by decide +kernel, by decide +kernel,
    ((translate_accessUnit (.iframe _) {} 0 false rfl).1 90).1 (by decide +kernel)⟩

end Bairelay
