import Bairelay.Media.StreamTranslate

/-!
# Muted audio

While a gap is bridged, the translator drops audio frames, and nothing else
changes: the counters, the latches, the announced parameters and the video are
those of the run in which no gap is bridged (`translateAll_mute`). What is left
of the audio is what that run sends outside the gaps.
-/

namespace Bairelay

/-- The effect belongs to an audio frame: its broadcast, or that it was seen. -/
def Emit.isAudioFrame : Emit → Bool
  | .audio _ _ | .audioSeen _ => true
  | .video _ _ | .sdpVideo _ | .sdpAudio _ | .replaceVideoBurst _ | .appendPframe _ => false

/-- What is left of some effects while a gap is bridged. -/
def mute (bridging : Bool) (emits : List Emit) : List Emit :=
  if bridging then emits.filter (!·.isAudioFrame) else emits

theorem mute_nil (bridging : Bool) : mute bridging [] = [] := by
  cases bridging <;> rfl

theorem mute_of_forall {emits : List Emit} (h : ∀ e ∈ emits, e.isAudioFrame = false)
    (bridging : Bool) : mute bridging emits = emits := by
  cases bridging with
  | false => rfl
  | true => exact List.filter_eq_self.2 fun e he => by rw [h e he, Bool.not_false]

/-- A frame behind other effects is what bridging takes away. -/
theorem ite_eq_mute {emits : List Emit} (h : ∀ e ∈ emits, e.isAudioFrame = false) (frame : Frame)
    (pace : Duration) (codec : AudioCodec) (bridging : Bool) :
    (if bridging then emits else emits ++ [.audio frame pace, .audioSeen codec]) =
      mute bridging (emits ++ [.audio frame pace, .audioSeen codec]) := by
  cases bridging with
  | false => rfl
  | true =>
    rw [mute, if_pos rfl, if_pos rfl, List.filter_append]
    exact ((List.append_nil _).symm.trans (congrArg (· ++ []) (mute_of_forall h true).symm))

theorem announceAac_not_isAudioFrame (header : AdtsHeader) (state : StreamTranslatorState) :
    ∀ e ∈ (announceAac header state).2, e.isAudioFrame = false := by
  rw [announceAac]
  split
  · simp
  · split <;> simp [Emit.isAudioFrame]

theorem announceG711_not_isAudioFrame (state : StreamTranslatorState) :
    ∀ e ∈ (announceG711 state).2, e.isAudioFrame = false := by
  rw [announceG711]
  split <;> simp [Emit.isAudioFrame]

/-- A bridged gap mutes AAC, and changes nothing else. -/
theorem translateAac_mute (aac : BcMediaAac) (state : StreamTranslatorState) (bridging : Bool) :
    translateAac aac state bridging =
      ((translateAac aac state false).1, mute bridging (translateAac aac state false).2) := by
  simp only [translateAac]
  split
  · rw [mute_nil]
  next header _ =>
    have hannounce := announceAac_not_isAudioFrame header state
    split
    · rw [mute_nil]
    · split
      · rw [mute_of_forall hannounce]
      · split
        · rw [mute_of_forall hannounce]
        · split
          · rw [mute_of_forall hannounce]
          · rw [if_neg Bool.false_ne_true, ← ite_eq_mute hannounce]
            split <;> rfl

/-- A bridged gap mutes ADPCM, and changes nothing else. -/
theorem translateAdpcm_mute (adpcm : BcMediaAdpcm) (state : StreamTranslatorState)
    (bridging : Bool) : translateAdpcm adpcm state bridging =
      ((translateAdpcm adpcm state false).1,
        mute bridging (translateAdpcm adpcm state false).2) := by
  simp only [translateAdpcm]
  split
  · split
    · rw [mute_nil]
    · rw [if_neg Bool.false_ne_true, ← ite_eq_mute (announceG711_not_isAudioFrame state)]
      split <;> rfl
  · rw [mute_nil]

theorem translateIframe_not_isAudioFrame (iframe : BcMediaIframe) (state : StreamTranslatorState)
    (now : Instant) : ∀ e ∈ (translateIframe iframe state now).2.1, e.isAudioFrame = false := by
  have hsdp (codec : VideoCodec) (parts : IframeParts) :
      ∀ e ∈ (sdpVideo? codec parts).toList, e.isAudioFrame = false := by
    rw [sdpVideo?]
    split <;> simp [Emit.isAudioFrame]
  have hburst (codec : VideoCodec) (parts : IframeParts) (burst : VideoBurst) : ∀ e ∈
      (sdpVideo? codec parts).toList ++ [.replaceVideoBurst burst], e.isAudioFrame = false := by
    intro e he
    rcases List.mem_append.1 he with he | he
    · exact hsdp codec parts e he
    · rw [List.mem_singleton.1 he, Emit.isAudioFrame]
  rw [translateIframe]
  dsimp only
  split
  · simp
  · split
    · simp
    · split
      · simp
      · split
        · exact hburst _ _ _
        · intro e he
          rcases List.mem_append.1 he with he | he
          · exact hburst _ _ _ e he
          · rw [List.mem_singleton.1 he, Emit.isAudioFrame]

theorem translatePframe_not_isAudioFrame (pframe : BcMediaPframe)
    (state : StreamTranslatorState) :
    ∀ e ∈ (translatePframe pframe state).2.1, e.isAudioFrame = false := by
  rw [translatePframe]
  split
  · simp
  · dsimp only
    split <;> simp [Emit.isAudioFrame]

/-- Bridging takes the audio frames of a packet away, and changes nothing else. -/
theorem translate_mute (packet : BcMedia) (state : StreamTranslatorState) (now : Instant)
    (bridging : Bool) :
    (translate packet state now bridging).1 = (translate packet state now false).1 ∧
      (translate packet state now bridging).2.1 =
        mute bridging (translate packet state now false).2.1 := by
  cases packet with
  | infoV1 | infoV2 => exact ⟨rfl, (mute_nil bridging).symm⟩
  | iframe frame =>
    exact ⟨rfl, (mute_of_forall (translateIframe_not_isAudioFrame frame state now) _).symm⟩
  | pframe frame =>
    exact ⟨rfl, (mute_of_forall (translatePframe_not_isAudioFrame frame state) _).symm⟩
  | aac frame => exact Prod.ext_iff.1 (translateAac_mute frame state bridging)
  | adpcm frame => exact Prod.ext_iff.1 (translateAdpcm_mute frame state bridging)

/-! ## Runs -/

/-- The state after a run. -/
def translatorState (state : StreamTranslatorState) (inputs : List Input) :
    StreamTranslatorState :=
  inputs.foldl (fun state input => (translate input.packet state input.now input.bridging).1) state

/-- The same packet, outside a gap. -/
def Input.live (input : Input) : Input := { input with bridging := false }

/-- Whether gaps are bridged does not matter for the translator. -/
theorem translatorState_live (state : StreamTranslatorState) (inputs : List Input) :
    translatorState state inputs = translatorState state (inputs.map Input.live) := by
  rw [translatorState, translatorState, List.foldl_map]
  congr 1
  funext state input
  exact (translate_mute input.packet state input.now input.bridging).1

/-- Muting leaves everything but sound, and all sound where nothing is bridged. -/
theorem filter_mute (bridging : Bool) (emits : List Emit) :
    (mute bridging emits).filter (!·.isAudioFrame) = emits.filter (!·.isAudioFrame) ∧
      (mute bridging emits).filter (·.isAudioFrame) =
        if bridging then [] else emits.filter (·.isAudioFrame) := by
  cases bridging with
  | false => exact ⟨rfl, rfl⟩
  | true => simp [mute, List.filter_filter]

/-- What a run produces besides audio frames is what the one without gaps produces. -/
theorem translateAll_live (state : StreamTranslatorState) (inputs : List Input) :
    (translateAll state inputs).map (fun t => t.2.filter (!·.isAudioFrame)) =
      (translateAll state (inputs.map Input.live)).map
        (fun t => t.2.filter (!·.isAudioFrame)) := by
  induction inputs generalizing state with
  | nil => rfl
  | cons input inputs ih =>
    obtain ⟨hstate, hemits⟩ := translate_mute input.packet state input.now input.bridging
    simp only [translateAll, List.map_cons, Input.live]
    rw [hstate, hemits, (filter_mute input.bridging _).1, ih]

/-- Sound is left out of just the packets that come while a gap is bridged. -/
theorem translateAll_audio (state : StreamTranslatorState) (inputs : List Input) :
    (translateAll state inputs).map (fun t => t.2.filter (·.isAudioFrame)) =
      List.zipWith (fun input frames => if input.bridging then [] else frames) inputs
        ((translateAll state (inputs.map Input.live)).map
          fun t => t.2.filter (·.isAudioFrame)) := by
  induction inputs generalizing state with
  | nil => rfl
  | cons input inputs ih =>
    obtain ⟨hstate, hemits⟩ := translate_mute input.packet state input.now input.bridging
    simp only [translateAll, List.map_cons, Input.live, List.zipWith_cons_cons]
    rw [hstate, hemits, (filter_mute input.bridging _).2, ih]

/-- Two runs over the same packets, whatever gaps are bridged in them, end in the same
    state and produce, packet by packet, the same video and announced parameters. The
    audio frames of a run are those of the run without gaps at the packets outside its own. -/
theorem translateAll_mute {inputs inputs' : List Input}
    (h : inputs.map Input.live = inputs'.map Input.live) (state : StreamTranslatorState) :
    translatorState state inputs = translatorState state inputs' ∧
      (translateAll state inputs).map (fun t => t.2.filter (!·.isAudioFrame)) =
        (translateAll state inputs').map (fun t => t.2.filter (!·.isAudioFrame)) ∧
      (translateAll state inputs).map (fun t => t.2.filter (·.isAudioFrame)) =
        List.zipWith (fun input frames => if input.bridging then [] else frames) inputs
          ((translateAll state (inputs.map Input.live)).map
            fun t => t.2.filter (·.isAudioFrame)) := by
  refine ⟨?_, ?_, translateAll_audio state inputs⟩
  · rw [translatorState_live, h, ← translatorState_live]
  · rw [translateAll_live, h, ← translateAll_live]

/-- Two AAC packets, of the same data. -/
def gappedAudio (first second : Bool) : List Input :=
  [⟨.aac ⟨[0xff, 0xf1, 0x60, 0x40, 0x01, 0x3f, 0xfc, 0x21, 0x22]⟩, 0, first⟩,
    ⟨.aac ⟨[0xff, 0xf1, 0x60, 0x40, 0x01, 0x3f, 0xfc, 0x21, 0x22]⟩, Duration.ofMillis 64, second⟩]

/-- The second packet is sent at 1024, whether or not the first one is muted. -/
theorem translateAll_mute_gappedAudio :
    (translateAll {} (gappedAudio false false)).map (fun t => t.2.length) = [3, 2] ∧
      (translateAll {} (gappedAudio true false)).map (fun t => t.2.length) = [1, 2] ∧
      translatorState {} (gappedAudio true false) = translatorState {} (gappedAudio false false) ∧
      (translateAll {} (gappedAudio true false)).map (fun t => t.2.filter (·.isAudioFrame)) =
        [[], [.audio (.audio (.aac [0x21, 0x22] 16000 1) 1024) (Duration.ofMicros 64000),
          .audioSeen .aac]] := by
  have h := @translateAll_mute (gappedAudio true false) (gappedAudio false false) rfl {}
  exact ⟨by decide +kernel, by decide +kernel, h.1, by rw [h.2.2]; decide +kernel⟩

end Bairelay
