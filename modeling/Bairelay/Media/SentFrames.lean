import Bairelay.Media.StreamSource

/-!
# The frames that a source sends

Whatever the camera delivers and however the tasks of a source interleave, a frame that is
sent as video is one, with a NAL unit at least, and a frame that is sent as audio is one
(`run_sound`). The same goes for what waits in the pacers.
-/

namespace Bairelay

/-- A frame of video, with NAL units. -/
def Frame.HasNals : Frame → Prop
  | .video _ nals _ _ _ => nals ≠ []
  | .audio _ _ => False

/-- A frame of sound. -/
def Frame.IsAudio : Frame → Prop
  | .video .. => False
  | .audio .. => True

/-- A frame is sent as what it is. -/
def Sent.Sound : Sent → Prop
  | .video frame => frame.1.HasNals
  | .audio frame => frame.IsAudio

/-- The frame of an effect is what it is sent as. -/
def Emit.Sound : Emit → Prop
  | .video frame _ => frame.HasNals
  | .audio frame _ => frame.IsAudio
  | .sdpVideo _ | .sdpAudio _ | .replaceVideoBurst _ | .appendPframe _ | .audioSeen _ => True

/-! ## The effects of a packet -/

/-- A key frame is sent with NAL units, or not at all. -/
theorem translateIframe_sound (iframe : BcMediaIframe) (state : StreamTranslatorState)
    (now : Instant) : ∀ e ∈ (translateIframe iframe state now).2.1, e.Sound := by
  have hrest : ∀ (codec : VideoCodec) (parts : IframeParts) (burst : VideoBurst),
      ∀ e ∈ (sdpVideo? codec parts).toList ++ [Emit.replaceVideoBurst burst], e.Sound := by
    intro codec parts burst e he
    rcases List.mem_append.1 he with he | he
    · rw [Option.mem_toList, sdpVideo?] at he
      split at he
      · obtain rfl := Option.some.inj he
        trivial
      · cases he
    · obtain rfl := List.mem_singleton.1 he
      trivial
  rw [translateIframe]
  dsimp only
  split
  · simp
  · split
    · simp
    · split
      · simp
      · split
        · exact hrest _ _ _
        · next hnals =>
          exact List.forall_mem_append.2 ⟨hrest _ _ _, List.forall_mem_singleton.2 hnals⟩

theorem translatePframe_sound (pframe : BcMediaPframe) (state : StreamTranslatorState) :
    ∀ e ∈ (translatePframe pframe state).2.1, e.Sound := by
  rw [translatePframe]
  split
  · simp
  · next codec hcodec =>
    dsimp only
    split
    · simp
    · next hnals =>
      exact List.forall_mem_cons.2
        ⟨trivial, List.forall_mem_singleton.2 (reorder_ne_nil codec hnals)⟩

theorem translateAac_sound (aac : BcMediaAac) (state : StreamTranslatorState) (bridging : Bool) :
    ∀ e ∈ (translateAac aac state bridging).2, e.Sound := by
  have hannounce : ∀ (header : AdtsHeader), ∀ e ∈ (announceAac header state).2, e.Sound := by
    intro header
    rw [announceAac]
    split
    · simp
    · split <;> simp [Emit.Sound]
  rw [translateAac]
  split
  · simp
  · next header _ =>
    split
    · simp
    · dsimp only
      split
      · exact hannounce header
      · split
        · exact hannounce header
        · split
          · exact hannounce header
          · split
            · exact hannounce header
            · exact List.forall_mem_append.2 ⟨hannounce header, by simp [Emit.Sound, Frame.IsAudio]⟩

theorem translateAdpcm_sound (adpcm : BcMediaAdpcm) (state : StreamTranslatorState)
    (bridging : Bool) : ∀ e ∈ (translateAdpcm adpcm state bridging).2, e.Sound := by
  have hannounce : ∀ e ∈ (announceG711 state).2, e.Sound := by
    rw [announceG711]
    split <;> simp [Emit.Sound]
  rw [translateAdpcm]
  split
  · dsimp only
    split
    · simp
    · split
      · exact hannounce
      · exact List.forall_mem_append.2 ⟨hannounce, by simp [Emit.Sound, Frame.IsAudio]⟩
  · simp

theorem translate_sound (packet : BcMedia) (state : StreamTranslatorState) (now : Instant)
    (bridging : Bool) : ∀ e ∈ (translate packet state now bridging).2.1, e.Sound := by
  cases packet with
  | infoV1 | infoV2 => simp [translate]
  | iframe frame => exact translateIframe_sound frame state now
  | pframe frame => exact translatePframe_sound frame state
  | aac frame => exact translateAac_sound frame state bridging
  | adpcm frame => exact translateAdpcm_sound frame state bridging

/-! ## The source -/

namespace StreamSource

/-- What waits in a pacer, as it will be sent. -/
def waitingIn {α : Type} (send : α → Sent) (pacer : Option (Pacer α)) : List Sent :=
  pacer.toList.flatMap fun pacer => pacer.waiting.map send

/-- All that was sent, and will be, is sent as what it is. -/
structure Sound (s : StreamSource) : Prop where
  broadcast : ∀ sent ∈ s.broadcast, sent.Sound
  video : ∀ sent ∈ waitingIn .video s.videoPacer, sent.Sound
  audio : ∀ sent ∈ waitingIn .audio s.audioPacer, sent.Sound

section

variable {α : Type} {send : α → Sent} {pacer : Option (Pacer α)}

@[simp] theorem waitingIn_none : waitingIn send none = [] := rfl

@[simp] theorem waitingIn_some (pacer : Pacer α) :
    waitingIn send (some pacer) = pacer.waiting.map send := by
  rw [waitingIn, Option.toList_some, List.flatMap_singleton]

/-- A frame that is paced waits, or goes out at once. -/
theorem dispatchPaced_sound (config : PacerConfig) {frame : α} (duration : Duration)
    (hwaiting : ∀ sent ∈ waitingIn send pacer, sent.Sound) (hframe : (send frame).Sound) :
    (∀ sent ∈ waitingIn send (dispatchPaced config pacer send frame duration).1, sent.Sound) ∧
      ∀ sent ∈ (dispatchPaced config pacer send frame duration).2, sent.Sound := by
  cases pacer with
  | none => exact ⟨hwaiting, List.forall_mem_singleton.2 hframe⟩
  | some pacer =>
    refine ⟨?_, List.forall_mem_nil _⟩
    rw [waitingIn_some] at hwaiting
    rw [dispatchPaced, waitingIn_some]
    by_cases hrefuses : pacer.Refuses config
    · rwa [Pacer.waiting_trySend_of_refuses hrefuses]
    · rw [Pacer.waiting_trySend_of_not_refuses hrefuses, List.map_append]
      exact List.forall_mem_append.2 ⟨hwaiting, List.forall_mem_singleton.2 hframe⟩

/-- What is emitted had waited. -/
theorem emit_sound (pacer : Pacer α) (now : Instant)
    (hwaiting : ∀ sent ∈ waitingIn send (some pacer), sent.Sound) :
    (∀ sent ∈ waitingIn send (some (pacer.emit now).1), sent.Sound) ∧
      ∀ sent ∈ (pacer.emit now).2.toList.map send, sent.Sound := by
  rw [waitingIn_some, ← pacer.emit_waiting now, List.map_append, List.forall_mem_append] at hwaiting
  rw [waitingIn_some]
  exact hwaiting.symm

theorem recv_sound (config : PacerConfig) (now : Instant)
    (hwaiting : ∀ sent ∈ waitingIn send pacer, sent.Sound) :
    ∀ sent ∈ waitingIn send (pacer.map (·.recv config now)), sent.Sound := by
  cases pacer with
  | none => exact hwaiting
  | some pacer => rwa [Option.map_some, waitingIn_some, Pacer.waiting_recv, ← waitingIn_some]

theorem exit_sound : ∀ sent ∈ waitingIn send (pacer.map (·.exit)), sent.Sound := by
  cases pacer with
  | none => simp
  | some pacer => simp [Pacer.waiting_exit]

end

variable {s : StreamSource}

/-- One effect: the frame goes out or waits, as it is. -/
theorem applyEmit_sound (h : s.Sound) {e : Emit} (he : e.Sound) : (s.applyEmit e).Sound := by
  cases e with
  | video frame pace =>
    obtain ⟨hwaiting, hsent⟩ := @dispatchPaced_sound _ .video s.videoPacer .video
      (frame, s.recorded.length) pace h.video he
    exact ⟨List.forall_mem_append.2 ⟨h.broadcast, hsent⟩, hwaiting, h.audio⟩
  | audio frame pace =>
    obtain ⟨hwaiting, hsent⟩ :=
      @dispatchPaced_sound _ .audio s.audioPacer .audio frame pace h.audio he
    exact ⟨List.forall_mem_append.2 ⟨h.broadcast, hsent⟩, h.video, hwaiting⟩
  | sdpVideo | sdpAudio | replaceVideoBurst | appendPframe | audioSeen =>
    exact ⟨h.broadcast, h.video, h.audio⟩

theorem foldl_applyEmit_sound (h : s.Sound) {emits : List Emit} (hemits : ∀ e ∈ emits, e.Sound) :
    (emits.foldl applyEmit s).Sound := by
  induction emits generalizing s with
  | nil => exact h
  | cons e emits ih =>
    obtain ⟨he, hemits⟩ := List.forall_mem_cons.1 hemits
    exact ih (applyEmit_sound h he) hemits

theorem processPacket_sound (h : s.Sound) (packet : BcMedia) (now : Instant) :
    (s.processPacket packet now).Sound := by
  have htracked : (s.trackUpstream packet now).Sound := by
    rw [trackUpstream]
    split
    · exact ⟨h.broadcast, h.video, h.audio⟩
    · exact h
  rw [processPacket]
  generalize s.trackUpstream packet now = t at htracked
  have hfold := @foldl_applyEmit_sound { t with
    translatorState := (translate packet t.translatorState now t.bridging.isBridging).1 }
    ⟨htracked.broadcast, htracked.video, htracked.audio⟩ _
    (translate_sound packet t.translatorState now t.bridging.isBridging)
  dsimp only [applyBcmediaPacket]
  split
  · next heq =>
    obtain ⟨rfl, -⟩ := Prod.mk.inj heq
    exact ⟨hfold.broadcast, hfold.video, hfold.audio⟩
  · next heq =>
    obtain ⟨rfl, -⟩ := Prod.mk.inj heq
    exact hfold

/-- A tick may replay a frame, which is well formed if that of the camera was. -/
theorem tickBridging_sound (h : s.Sound) (now : Instant) : (s.tickBridging now).Sound := by
  rw [tickBridging]
  split
  · next codec nals pts htick hpayload =>
    have hnals : nals ≠ [] := by
      rw [replayPayload] at hpayload
      split at hpayload
      · cases hpayload
      · dsimp only at hpayload
        split at hpayload
        · cases hpayload
        · next hnals =>
          cases hpayload
          exact hnals
    exact ⟨List.forall_mem_append.2 ⟨h.broadcast, List.forall_mem_singleton.2 hnals⟩,
      h.video, h.audio⟩
  · exact ⟨h.broadcast, h.video, h.audio⟩
  · exact ⟨h.broadcast, h.video, h.audio⟩

/-- One step of a source sends what is well formed. -/
theorem step_sound (h : s.Sound) (e : Event) : (s.step e).Sound := by
  cases e with
  | result result now =>
    rw [step]
    split
    · cases result with
      | packet packet => exact processPacket_sound h packet now
      | decodeError => exact h
      | finished => exact ⟨h.broadcast, h.video, h.audio⟩
    · exact h
  | tick now =>
    rw [step]
    split
    · exact tickBridging_sound h now
    · exact h
  | recvVideo now => exact ⟨h.broadcast, recv_sound .video now h.video, h.audio⟩
  | recvAudio now => exact ⟨h.broadcast, h.video, recv_sound .audio now h.audio⟩
  | exitVideo => exact ⟨h.broadcast, exit_sound, h.audio⟩
  | exitAudio => exact ⟨h.broadcast, h.video, exit_sound⟩
  | emitVideo now =>
    rw [step]
    split
    · next pacer frame heq =>
      obtain ⟨pacer', hpacer, hemit⟩ := Option.map_eq_some_iff.1 heq
      obtain ⟨hwaiting, hsent⟩ := emit_sound pacer' now (hpacer ▸ h.video)
      rw [hemit] at hwaiting hsent
      exact ⟨List.forall_mem_append.2 ⟨h.broadcast, hsent⟩, hwaiting, h.audio⟩
    · exact h
  | emitAudio now =>
    rw [step]
    split
    · next pacer frame heq =>
      obtain ⟨pacer', hpacer, hemit⟩ := Option.map_eq_some_iff.1 heq
      obtain ⟨hwaiting, hsent⟩ := emit_sound pacer' now (hpacer ▸ h.audio)
      rw [hemit] at hwaiting hsent
      exact ⟨List.forall_mem_append.2 ⟨h.broadcast, hsent⟩, h.video, hwaiting⟩
    · exact h
  | stopReading | otherSource => exact ⟨h.broadcast, h.video, h.audio⟩

/-- In every run, frames are sent as what they are. -/
theorem run_sound (gapThreshold : Duration) (start : Instant) (lastFrame : Option VideoBurst)
    (audioPresence : AudioPresence) (paced : Bool) (events : List Event) :
    ((new gapThreshold start lastFrame audioPresence paced).run events).Sound := by
  induction events using List.reverseRecOn with
  | nil => cases paced <;> exact ⟨by simp [run, new], by simp [run, new, Pacer.waiting],
      by simp [run, new, Pacer.waiting]⟩
  | append_singleton events e ih =>
    rw [run, List.foldl_concat]
    exact step_sound ih e

end StreamSource

end Bairelay
