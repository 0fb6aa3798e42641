import Bairelay.Media.AccessUnit
import Bairelay.Media.StreamSource
import Bairelay.Rtsp.Session

/-!
# Key frames

A key frame is sent in two ways: to the sessions that are there, whose gates it opens, and out of
the last-frame buffer, as the burst for those that come later. The translation flags a frame as a
key frame because the packet is an I-frame, whatever its NAL units are, and it picks the NAL units
of the burst by other types than those it puts last in the frame (`isBurstNal`, `isSliceNal`).

* `picturesKeyFrames_iff`: when a key frame has a slice;
* `cachesKeyFrame_iff`: when the burst has the slices of the key frame.
-/

namespace Bairelay

/-! ## Types -/

/-- The NAL units that are kept for the burst: the slices of an IDR, and in H.265 those of a CRA,
    and of a BLA with leading pictures. -/
def isBurstNal : Bytes → VideoCodec → Bool
  | [], _ => false
  | b :: _, .h264 => h264NalType b = 5
  | b :: _, .h265 =>
    h265NalType b = 19 || h265NalType b = 20 || h265NalType b = 21 || h265NalType b = 16

/-- What the burst keeps is part of a picture. -/
theorem isSliceNal_of_isBurstNal {nal : Bytes} {codec : VideoCodec} (h : isBurstNal nal codec) :
    isSliceNal nal codec := by
  cases nal with
  | nil => cases h
  | cons b rest =>
    cases codec with
    | h264 =>
      have hty : h264NalType b = 5 := by simpa [isBurstNal] using h
      simp [isSliceNal, hty]
    | h265 =>
      simp only [isBurstNal, Bool.or_eq_true, decide_eq_true_eq] at h
      rcases h with ((hty | hty) | hty) | hty <;> simp [isSliceNal, hty]

theorem isParameterSetNal_eq_false {nal : Bytes} {codec : VideoCodec} (h : isSliceNal nal codec) :
    isParameterSetNal nal codec = false := by
  cases nal with
  | nil => rfl
  | cons b rest =>
    rw [← Bool.not_eq_true]
    intro hset
    cases codec with
    | h264 =>
      simp only [isParameterSetNal, Bool.or_eq_true, decide_eq_true_eq] at hset
      rcases hset with hty | hty <;> simp [isSliceNal, hty] at h
    | h265 =>
      simp only [isParameterSetNal, Bool.or_eq_true, decide_eq_true_eq] at hset
      rcases hset with (hty | hty) | hty <;> simp [isSliceNal, hty] at h

/-- A NAL unit is kept if it is one for the burst. -/
theorem extractIframePart_iframeNals (codec : VideoCodec) (parts : IframeParts) (nal : Bytes) :
    (extractIframePart codec parts nal).iframeNals =
      parts.iframeNals ++ [nal].filter (isBurstNal · codec) := by
  cases nal with
  | nil => simp [extractIframePart, isBurstNal]
  | cons b rest =>
    cases codec with
    | h264 =>
      simp only [extractIframePart, isBurstNal]
      split_ifs with h7 h8 h5 <;> simp [*]
    | h265 =>
      simp only [extractIframePart, isBurstNal]
      split_ifs with h32 h33 h34 hkey
      · simp [h32]
      · simp [h33]
      · simp [h34]
      · rcases hkey with hty | hty | hty | hty <;> simp [hty]
      · simp_all

/-- The burst has the NAL units of its kinds, in order. -/
theorem extractIframeParts_iframeNals (codec : VideoCodec) (nals : List Bytes) :
    (extractIframeParts codec nals).iframeNals = nals.filter (isBurstNal · codec) := by
  induction nals using List.reverseRecOn with
  | nil => rfl
  | append_singleton nals nal ih =>
    rw [extractIframeParts_concat, extractIframePart_iframeNals, ih, List.filter_append]

/-! ## A key frame has a picture -/

/-- Some slice of the frame's codec is in the frame. -/
def Frame.HasPicture : Frame → Prop
  | .video codec nals _ _ _ => ∃ nal ∈ nals, isSliceNal nal codec
  | .audio .. => False

/-- The loop waits for a key frame. -/
def Loop.awaits : Loop → Bool
  | .running _ _ awaitingLiveKeyframe => awaitingLiveKeyframe
  | .starting _ | .ended => false

/-- Some video loop that waits for a key frame no longer does so after the frame. -/
def Frame.OpensGate (frame : Frame) : Prop :=
  ∃ (rtp : RtpTypes) (x : Session) (position : ℕ) (track : Option RuntimeTrack) (seq : UInt16)
    (taken : ℕ) (loop : Loop) (out : List LoopOutput) (first : Option (UInt16 × UInt32)),
    x.recvFrame rtp .video position track true frame seq taken = some (loop, out, first) ∧
      loop.awaits = false

/-- The key frames among some effects have pictures, and gates open on nothing without one. -/
def PicturesKeyFrames (emits : List Emit) : Prop :=
  ∀ frame ∈ videoFrames emits, frame.isKeyframe ∨ frame.OpensGate → frame.HasPicture

/-- Nothing is sent of a key frame with parameter sets only. -/
theorem VideoPacket.sentNals_keyframe_eq_nil_iff {codec : VideoCodec} {microseconds : UInt32}
    {data : Bytes} :
    VideoPacket.sentNals ⟨true, microseconds, data⟩ codec = [] ↔
      ∀ nal ∈ decodableNals codec data, isParameterSetNal nal codec := by
  rw [sentNals, List.filter_eq_nil_iff]
  simp

/-- A key frame that has a NAL unit is not made of parameter sets only. -/
theorem not_forall_isParameterSetNal {codec : VideoCodec} {microseconds : UInt32} {data : Bytes}
    {p : Bytes → Bool} {nals : List Bytes}
    (hnals : IsStablePartition p (VideoPacket.sentNals ⟨true, microseconds, data⟩ codec) nals)
    (hne : nals ≠ []) : ¬∀ nal ∈ decodableNals codec data, isParameterSetNal nal codec := by
  rw [← VideoPacket.sentNals_keyframe_eq_nil_iff, ← hnals.eq_nil_iff]
  exact hne

/-- There is a picture if there is a part of one. -/
theorem exists_isSliceNal_iff {codec : VideoCodec} {nals : List Bytes} :
    (∃ nal ∈ nals, isSliceNal nal codec) ↔ nals.filter (isSliceNal · codec) ≠ [] := by
  simp [List.filter_eq_nil_iff]

/-- No slice is left out. -/
theorem VideoPacket.filter_sentNals (video : VideoPacket) (codec : VideoCodec) :
    (video.sentNals codec).filter (isSliceNal · codec) =
      (decodableNals codec video.data).filter (isSliceNal · codec) := by
  rw [sentNals, List.filter_filter]
  refine List.filter_congr fun nal _ => ?_
  cases hslice : isSliceNal nal codec with
  | false => rfl
  | true => simp [isParameterSetNal_eq_false hslice]

/-- The key frame of an I-frame packet has a slice exactly if there is one among the NAL units that
    decoders can handle, or if these are all parameter sets, of which no frame is made. -/
theorem picturesKeyFrames_iff (iframe : BcMediaIframe) (state : StreamTranslatorState)
    (now : Instant) (bridging : Bool) :
    PicturesKeyFrames (translate (.iframe iframe) state now bridging).2.1 ↔
      ∀ codec ∈ state.codecFor? (.iframe iframe),
        (∃ nal ∈ decodableNals codec iframe.data, isSliceNal nal codec) ∨
          ∀ nal ∈ decodableNals codec iframe.data, isParameterSetNal nal codec := by
  cases translate_givesFrame (.iframe iframe) state now bridging rfl with
  | nothing hsent hpts hframes hclocks =>
    -- Without a frame there is nothing to show, and nothing but parameter sets can have been there.
    rw [PicturesKeyFrames, hframes]
    refine iff_of_true (fun frame hframe => nomatch hframe) fun codec hcodec => .inr ?_
    exact VideoPacket.sentNals_keyframe_eq_nil_iff.1 (hsent codec hcodec)
  | @frame codec nals hcodec hnals hne hpts hframes =>
    -- The strip takes no slice, so those of the frame are those of the packet.
    have hslices : (∃ nal ∈ nals, isSliceNal nal codec) ↔
        ∃ nal ∈ decodableNals codec iframe.data, isSliceNal nal codec := by
      have heq := hnals.with_eq.trans (VideoPacket.filter_sentNals _ codec)
      rw [exists_isSliceNal_iff, heq, exists_isSliceNal_iff]
    have hsets := not_forall_isParameterSetNal hnals hne
    have hframe : PicturesKeyFrames (translate (.iframe iframe) state now bridging).2.1 ↔
        ∃ nal ∈ nals, isSliceNal nal codec := by
      rw [PicturesKeyFrames, hframes, List.forall_mem_singleton]
      exact ⟨fun h => h (.inl rfl), fun h _ => h⟩
    rw [hframe, hslices, hcodec]
    simp [hsets]

/-- A key frame of which only SEI is left. -/
def seiOnly : BcMediaIframe :=
  ⟨.h264, 1000, none, [0, 0, 0, 1, 0x67, 0x64, 0, 0x1f, 0, 0, 0, 1, 0x68, 0xee,
    0, 0, 0, 1, 0x06, 0x05]⟩

/-- A frame without a picture is sent as a key frame. -/
theorem seiOnly_not_picturesKeyFrames :
    videoFrames (translate (.iframe seiOnly) {} 0 false).2.1 =
        [.video .h264 [[0x06, 0x05]] 90 true true] ∧
      ¬PicturesKeyFrames (translate (.iframe seiOnly) {} 0 false).2.1 := by
  have hframes : videoFrames (translate (.iframe seiOnly) {} 0 false).2.1 =
      [.video .h264 [[0x06, 0x05]] 90 true true] := by
    decide +kernel
  refine ⟨hframes, fun h => ?_⟩
  rw [PicturesKeyFrames, hframes, List.forall_mem_singleton] at h
  have hslice : ∃ nal ∈ [[(0x06 : UInt8), 0x05]], isSliceNal nal .h264 := h (.inl rfl)
  exact absurd hslice (by decide)

/-! ## The burst of a key frame -/

/-- The burst that an effect leaves. -/
def Emit.burst? : Emit → Option VideoBurst
  | .replaceVideoBurst burst => some burst
  | _ => none

/-- The bursts among some effects. -/
def bursts (emits : List Emit) : List VideoBurst := emits.filterMap Emit.burst?

/-- The burst has the slices of a frame, its codec and its timestamp. -/
def VideoBurst.Caches (burst : VideoBurst) : Frame → Prop
  | .video codec nals pts90khz _ _ =>
    burst.codec = codec ∧ burst.capturedPts90khz = pts90khz ∧
      burst.iframeNals = nals.filter (isSliceNal · codec) ∧ burst.iframeNals ≠ []
  | .audio .. => False

instance (burst : VideoBurst) : DecidablePred burst.Caches
  | .video .. => inferInstanceAs (Decidable (_ ∧ _ ∧ _ ∧ _))
  | .audio .. => inferInstanceAs (Decidable False)

/-- A key frame goes with one burst, that has its slices, and is left in the last-frame buffer. -/
def StreamSource.CachesKeyFrame (s : StreamSource) (iframe : BcMediaIframe) (now : Instant)
    (bridging : Bool) : Prop :=
  ∀ frame ∈ videoFrames (translate (.iframe iframe) s.translatorState now bridging).2.1,
    frame.isKeyframe → ∃ burst,
      bursts (translate (.iframe iframe) s.translatorState now bridging).2.1 = [burst] ∧
        (s.applyBcmediaPacket (.iframe iframe) now bridging).1.lastFrame = some burst ∧
        burst.Caches frame

/-- The burst of an I-frame packet. -/
def iframeBurst (codec : VideoCodec) (iframe : BcMediaIframe) (now : Instant) : VideoBurst :=
  let parts := extractIframeParts codec (reorder codec (decodableNals codec iframe.data))
  { codec
    parameterSets := parts.parameterSets
    iframeNals := parts.iframeNals
    pframeNals := []
    capturedAt := now
    capturedPts90khz := microsTo90khz iframe.microseconds }

/-- The effects of an I-frame packet: the announced parameters if they are there, the burst, and the
    frame if there is one. -/
theorem translateIframe_emits (iframe : BcMediaIframe) (state : StreamTranslatorState)
    (now : Instant) :
    (translateIframe iframe state now).2.1 = [] ∨
      ∃ codec ∈ state.codecFor? (.iframe iframe), ∃ parts frames, (∀ e ∈ frames, e.IsVideo) ∧
        (translateIframe iframe state now).2.1 = (sdpVideo? codec parts).toList ++
          .replaceVideoBurst (iframeBurst codec iframe now) :: frames := by
  have hcodecFor : state.codecFor? (.iframe iframe) =
      (latchCodec state (splitAnnexB iframe.data)).detectedCodec := rfl
  rw [hcodecFor, translateIframe]
  dsimp only
  split
  · exact .inl rfl
  · split
    · exact .inl rfl
    · next codec hcodec =>
      split
      · exact .inl rfl
      · split
        · -- Only parameter sets: they are announced, and the burst is replaced by one
          -- without slices.
          exact .inr ⟨codec, hcodec, _, [], by simp, rfl⟩
        · refine .inr ⟨codec, hcodec, _, [.video _ _], ?_, List.append_assoc _ _ _⟩
          exact List.forall_mem_singleton.2 trivial

/-- The effect changes nothing in the last-frame buffer. -/
def Emit.LeavesBurst (e : Emit) : Prop := e.burst? = none ∧ ∀ nals, e ≠ .appendPframe nals

theorem Emit.IsVideo.leavesBurst {e : Emit} (h : e.IsVideo) : e.LeavesBurst := by
  cases e with
  | video frame pace =>
    refine ⟨rfl, fun nals hnals => ?_⟩
    cases hnals
  | audio | sdpVideo | sdpAudio | replaceVideoBurst | appendPframe | audioSeen => exact h.elim

theorem sdpVideo?_leavesBurst {codec : VideoCodec} {parts : IframeParts} {e : Emit}
    (h : e ∈ (sdpVideo? codec parts).toList) : e.LeavesBurst := by
  rw [Option.mem_toList, sdpVideo?] at h
  split at h
  · cases h
    refine ⟨rfl, fun nals hnals => ?_⟩
    cases hnals
  · cases h

/-- Where all leave it alone no burst is made. -/
theorem bursts_eq_nil {emits : List Emit} (h : ∀ e ∈ emits, e.LeavesBurst) : bursts emits = [] :=
  List.filterMap_eq_nil_iff.2 fun e he => (h e he).1

theorem foldl_applyEmit_lastFrame (s : StreamSource) {emits : List Emit}
    (h : ∀ e ∈ emits, e.LeavesBurst) :
    (emits.foldl StreamSource.applyEmit s).lastFrame = s.lastFrame := by
  induction emits generalizing s with
  | nil => rfl
  | cons e emits ih =>
    obtain ⟨he, hemits⟩ := List.forall_mem_cons.1 h
    rw [List.foldl_cons, ih _ hemits]
    cases e with
    | video | audio | sdpVideo | sdpAudio | audioSeen => rfl
    | replaceVideoBurst burst => cases he.1
    | appendPframe nals => exact absurd rfl (he.2 nals)

/-- What an I-frame packet with a frame leaves: its burst is the only one, and is kept. -/
theorem iframeBurst_kept (s : StreamSource) (iframe : BcMediaIframe) (now : Instant)
    (bridging : Bool) {codec : VideoCodec}
    (hcodec : s.translatorState.codecFor? (.iframe iframe) = some codec)
    (h : videoFrames (translate (.iframe iframe) s.translatorState now bridging).2.1 ≠ []) :
    bursts (translate (.iframe iframe) s.translatorState now bridging).2.1 =
        [iframeBurst codec iframe now] ∧
      (s.applyBcmediaPacket (.iframe iframe) now bridging).1.lastFrame =
        some (iframeBurst codec iframe now) := by
  rw [StreamSource.applyBcmediaPacket]
  dsimp only [translate] at h ⊢
  rcases translateIframe_emits iframe s.translatorState now with
    hnil | ⟨codec', hcodec', parts, frames, hvideo, hemits⟩
  · rw [hnil] at h
    exact absurd rfl h
  · obtain rfl := Option.some.inj (hcodec.symm.trans hcodec')
    have hsdp : ∀ e ∈ (sdpVideo? codec parts).toList, e.LeavesBurst :=
      fun e he => sdpVideo?_leavesBurst he
    have hframes : ∀ e ∈ frames, e.LeavesBurst := fun e he => (hvideo e he).leavesBurst
    rw [hemits]
    constructor
    · rw [bursts, List.filterMap_append, ← bursts, bursts_eq_nil hsdp, List.nil_append]
      exact congrArg (iframeBurst codec iframe now :: ·) (bursts_eq_nil hframes)
    · rw [List.foldl_append, List.foldl_cons, foldl_applyEmit_lastFrame _ hframes]
      rfl

/-- The burst has those of the frame's NAL units that can be decoded and are of its kinds. -/
theorem iframeBurst_iframeNals (codec : VideoCodec) (iframe : BcMediaIframe) (now : Instant) :
    (iframeBurst codec iframe now).iframeNals =
      (decodableNals codec iframe.data).filter (isBurstNal · codec) := by
  have hnals : (iframeBurst codec iframe now).iframeNals =
      (reorder codec (decodableNals codec iframe.data)).filter (isBurstNal · codec) :=
    extractIframeParts_iframeNals codec _
  -- All that is kept for the burst is in the part of the slices, whose order is the packet's.
  have hslices (nals : List Bytes) : nals.filter (isBurstNal · codec) =
      (nals.filter (isSliceNal · codec)).filter (isBurstNal · codec) := by
    rw [List.filter_filter]
    refine List.filter_congr fun nal _ => ?_
    cases hburst : isBurstNal nal codec with
    | false => rfl
    | true => rw [isSliceNal_of_isBurstNal hburst]; rfl
  rw [hnals, hslices, (reorder_isStablePartition codec _).with_eq, ← hslices]

/-- Leaving out more keeps the same elements just if there are no more to be left out. -/
theorem filter_isBurstNal_eq_iff {codec : VideoCodec} {nals : List Bytes} :
    nals.filter (isBurstNal · codec) = nals.filter (isSliceNal · codec) ↔
      ∀ nal ∈ nals, isSliceNal nal codec → isBurstNal nal codec := by
  constructor
  · intro heq nal hnal hslice
    have hmem : nal ∈ nals.filter (isSliceNal · codec) := List.mem_filter.2 ⟨hnal, hslice⟩
    rw [← heq] at hmem
    exact (List.mem_filter.1 hmem).2
  · intro h
    refine List.filter_congr fun nal hnal => ?_
    exact Bool.eq_iff_iff.2 ⟨isSliceNal_of_isBurstNal, h nal hnal⟩

/-- The burst of an I-frame packet has the slices of its key frame exactly if there are slices, all
    of the types that are kept for the burst, or if there is no frame, as all NAL units that
    decoders can handle are parameter sets. -/
theorem cachesKeyFrame_iff (s : StreamSource) (iframe : BcMediaIframe) (now : Instant)
    (bridging : Bool) :
    s.CachesKeyFrame iframe now bridging ↔
      ∀ codec ∈ s.translatorState.codecFor? (.iframe iframe),
        ((∃ nal ∈ decodableNals codec iframe.data, isSliceNal nal codec) ∧
          ∀ nal ∈ decodableNals codec iframe.data,
            isSliceNal nal codec → isBurstNal nal codec) ∨
        ∀ nal ∈ decodableNals codec iframe.data, isParameterSetNal nal codec := by
  cases translate_givesFrame (.iframe iframe) s.translatorState now bridging rfl with
  | nothing hsent hpts hframes hclocks =>
    rw [StreamSource.CachesKeyFrame, hframes]
    refine iff_of_true (fun frame hframe => nomatch hframe) fun codec hcodec => .inr ?_
    exact VideoPacket.sentNals_keyframe_eq_nil_iff.1 (hsent codec hcodec)
  | @frame codec nals hcodec hnals hne hpts hframes =>
    obtain ⟨hburst, hlast⟩ := iframeBurst_kept s iframe now bridging hcodec (by simp [hframes])
    have hslices := hnals.with_eq.trans (VideoPacket.filter_sentNals _ codec)
    have hsets := not_forall_isParameterSetNal hnals hne
    -- The codec and the timestamp agree as they are made from the same packet; the slices decide.
    have hcaches : s.CachesKeyFrame iframe now bridging ↔
        (iframeBurst codec iframe now).iframeNals = nals.filter (isSliceNal · codec) ∧
          (iframeBurst codec iframe now).iframeNals ≠ [] := by
      rw [StreamSource.CachesKeyFrame, hframes, hburst, hlast, List.forall_mem_singleton]
      constructor
      · intro h
        obtain ⟨burst, -, hsome, -, -, hcached⟩ := h rfl
        obtain rfl := Option.some.inj hsome
        exact hcached
      · exact fun h _ => ⟨_, rfl, rfl, rfl, rfl, h⟩
    -- Where both lists of slices are the same one, it is empty just if there is no slice.
    rw [hcaches, iframeBurst_iframeNals, hslices, filter_isBurstNal_eq_iff, hcodec]
    simp only [Option.mem_def, Option.some.injEq, forall_eq', hsets, or_false,
      exists_isSliceNal_iff]
    rw [and_comm]
    refine and_congr_left fun h => ?_
    rw [filter_isBurstNal_eq_iff.2 h]

/-- A key frame of H.265 whose slice is of a type that is not kept for the burst: a BLA with
    decodable leading pictures only. -/
def blaOnly : BcMediaIframe :=
  ⟨.h265, 1000, none, [0, 0, 0, 1, 0x40, 0x01, 0x0c, 0, 0, 0, 1, 0x42, 0x01, 0x01,
    0, 0, 0, 1, 0x44, 0x01, 0xc0, 0, 0, 0, 1, 0x22, 0x01, 0xaf]⟩

/-- The burst of a key frame with a BLA picture only has no picture. -/
theorem blaOnly_not_cachesKeyFrame :
    let s := StreamSource.new (Duration.ofSecs 2) 0 none .unknown false
    videoFrames (translate (.iframe blaOnly) s.translatorState 0 false).2.1 =
        [.video .h265 [[0x22, 0x01, 0xaf]] 90 true true] ∧
      (s.applyBcmediaPacket (.iframe blaOnly) 0 false).1.lastFrame.map VideoBurst.iframeNals =
        some [] ∧
      ¬s.CachesKeyFrame blaOnly 0 false := by
  intro s
  have hframes : videoFrames (translate (.iframe blaOnly) s.translatorState 0 false).2.1 =
      [.video .h265 [[0x22, 0x01, 0xaf]] 90 true true] := by
    decide +kernel
  have hnals : (s.applyBcmediaPacket (.iframe blaOnly) 0 false).1.lastFrame.map
      VideoBurst.iframeNals = some [] := by
    decide +kernel
  refine ⟨hframes, hnals, fun h => ?_⟩
  rw [StreamSource.CachesKeyFrame, hframes, List.forall_mem_singleton] at h
  obtain ⟨burst, -, hlast, -, -, -, hne⟩ := h rfl
  rw [hlast] at hnals
  exact hne (Option.some.inj hnals)

end Bairelay
