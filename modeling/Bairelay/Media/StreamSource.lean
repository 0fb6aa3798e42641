import Bairelay.Lib.Bypass
import Bairelay.Media.GapBridging
import Bairelay.Media.Pacer
import Bairelay.Media.StreamTranslate

/-!
# The source of a stream

The tasks behind a stream (`stream_source.rs`): the reader, which translates
packets and queues the frames with the pacers, the pacers, and the timer of the
gap detection. All send to one broadcast channel; the timer sends there directly,
past the queue of the video pacer.

The policy of gap bridging records a video frame when the reader queues it
(`onBroadcast`), and a replay when the timer sends it. So the frames on the
channel are in the order of the records exactly as long as no replay overtakes a
frame that waits in the pacer.

* `tracks`: the records, the frames that wait and those sent are a queue with a
  bypass;
* `run_inOrder_iff`: the order throughout a run, of any interleaving of the tasks;
* `run_recorded`, `videos_sublist_timeline`: the records are the timeline of the
  policy, and what the subscribers see is part of it.
-/

namespace Bairelay

/-! ## The state -/

/-- Whether a camera is known to send sound. -/
inductive AudioPresence where
  | unknown
  | present (codec : AudioCodec)
  | absent
  deriving DecidableEq, Repr

/-- The first codec observed stays. -/
def AudioPresence.observed (presence : AudioPresence) (codec : AudioCodec) : AudioPresence :=
  match presence with
  | .unknown | .absent => .present codec
  | .present old => .present old

/-- A video frame, with the number of the record the policy makes of it. -/
abbrev RecordedFrame := Frame × ℕ

/-- A frame sent on the broadcast channel. -/
inductive Sent where
  | video (frame : RecordedFrame)
  | audio (frame : Frame)
  deriving DecidableEq, Repr

/-- A frame of video among what was sent. -/
def Sent.video? : Sent → Option RecordedFrame
  | .video frame => some frame
  | .audio _ => none

/-- The state of a source and its tasks. The last frame and the audio presence are
    shared with the other sources of the camera. What was sent (`broadcast`) and the
    timestamps that the policy recorded (`recorded`) are kept in full. -/
structure StreamSource where
  translatorState : StreamTranslatorState
  bridging : BridgingPolicy
  lastFrame : Option VideoBurst
  sdpVideo : Option VideoParams
  sdpAudio : Option AudioParams
  audioPresence : AudioPresence
  videoPacer : Option (Pacer RecordedFrame)
  audioPacer : Option (Pacer Frame)
  reading : Bool
  broadcast : List Sent
  recorded : List UInt32
  deriving DecidableEq, Repr

/-- What the reader gets from the camera. -/
inductive StreamResult where
  | packet (packet : BcMedia)
  | decodeError
  | finished
  deriving DecidableEq, Repr

namespace StreamSource

/-- A source at its start, with or without pacers. -/
def new (gapThreshold : Duration) (now : Instant) (lastFrame : Option VideoBurst)
    (audioPresence : AudioPresence) (paced : Bool) : StreamSource where
  translatorState := {}
  bridging := .new gapThreshold now
  lastFrame := lastFrame
  sdpVideo := none
  sdpAudio := none
  audioPresence := audioPresence
  videoPacer := if paced then some {} else none
  audioPacer := if paced then some {} else none
  reading := true
  broadcast := []
  recorded := []

/-! ## The reader -/

/-- Queue a frame with its pacer; without a pacer, send it. -/
def dispatchPaced {α : Type} (config : PacerConfig) (pacer : Option (Pacer α)) (send : α → Sent)
    (frame : α) (duration : Duration) : Option (Pacer α) × List Sent :=
  match pacer with
  | some pacer => (some (pacer.trySend config ⟨frame, duration⟩), [])
  | none => (none, [send frame])

/-- A frame of video goes through the pacer, if there is one. -/
def dispatchPacedVideo (s : StreamSource) (frame : Frame) (duration : Duration) : StreamSource :=
  let (videoPacer, sent) :=
    dispatchPaced .video s.videoPacer .video (frame, s.recorded.length) duration
  { s with videoPacer, broadcast := s.broadcast ++ sent }

/-- So does a frame of sound, through its own. -/
def dispatchPacedAudio (s : StreamSource) (frame : Frame) (duration : Duration) : StreamSource :=
  let (audioPacer, sent) := dispatchPaced .audio s.audioPacer .audio frame duration
  { s with audioPacer, broadcast := s.broadcast ++ sent }

/-- One effect of the translation. -/
def applyEmit (s : StreamSource) : Emit → StreamSource
  | .video frame pace => s.dispatchPacedVideo frame pace
  | .audio frame pace => s.dispatchPacedAudio frame pace
  | .sdpVideo params => { s with sdpVideo := some params }
  | .sdpAudio params => { s with sdpAudio := s.sdpAudio <|> some params }
  | .replaceVideoBurst burst => { s with lastFrame := some burst }
  | .appendPframe nals => { s with lastFrame := s.lastFrame.map (·.appendPframe nals) }
  | .audioSeen codec => { s with audioPresence := s.audioPresence.observed codec }

/-- Translate a packet and apply the effects; the timestamp of a video frame among
    them, which is not yet broadcast if there is a pacer. -/
def applyBcmediaPacket (s : StreamSource) (packet : BcMedia) (now : Instant) (bridging : Bool) :
    StreamSource × Option UInt32 :=
  let (translatorState, emits, videoPts) := translate packet s.translatorState now bridging
  (emits.foldl applyEmit { s with translatorState }, videoPts)

/-- Any video packet shows that the camera is alive, also if nothing of it is
    broadcast. -/
def trackUpstream (s : StreamSource) (packet : BcMedia) (now : Instant) : StreamSource :=
  if packet.declared?.isSome then { s with bridging := s.bridging.onUpstreamPacket now } else s

/-- A packet from the camera; the frame in it is recorded. -/
def processPacket (s : StreamSource) (packet : BcMedia) (now : Instant) : StreamSource :=
  let s := s.trackUpstream packet now
  match s.applyBcmediaPacket packet now s.bridging.isBridging with
  | (s, some pts90khz) => { s with
      bridging := s.bridging.onBroadcast pts90khz now
      recorded := s.recorded ++ [pts90khz] }
  | (s, none) => s

/-- A packet, or an error of the decoder, which changes nothing. -/
def processStreamResult (s : StreamSource) (result : StreamResult) (now : Instant) :
    StreamSource :=
  match result with
  | .packet packet => s.processPacket packet now
  | .decodeError => s
  | .finished => { s with reading := false }

/-! ## The timer -/

/-- What a gap would be filled with: the codec and the slices of the cached key
    frame, and its timestamp. -/
def replayPayload (s : StreamSource) : Option (VideoCodec × List Bytes × UInt32) :=
  match s.lastFrame with
  | none => none
  | some burst =>
    let nals := burst.iframeNals.filter fun nal =>
      !isParameterSetNal nal burst.codec && isDecodableNal nal burst.codec
    if nals = [] then none else some (burst.codec, nals, burst.capturedPts90khz)

/-- The timestamp a replay starts from. -/
def replayAnchor (s : StreamSource) : Option UInt32 := s.replayPayload.map (·.2.2)

/-- A tick of the gap detection: a replay is recorded and sent at once. -/
def tickBridging (s : StreamSource) (now : Instant) : StreamSource :=
  match s.bridging.onTick now s.replayAnchor, s.replayPayload with
  | (bridging, some synthPts), some (codec, nals, _) => { s with
      bridging
      broadcast := s.broadcast ++
        [.video (.video codec nals synthPts true true, s.recorded.length)]
      recorded := s.recorded ++ [synthPts] }
  | (bridging, some synthPts), none => { s with
      bridging
      recorded := s.recorded ++ [synthPts] }
  | (bridging, none), _ => { s with bridging }

/-! ## Steps -/

/-- A step of one of the tasks, or a write of another source of the camera to what
    they share. -/
inductive Event where
  | result (result : StreamResult) (now : Instant)
  | tick (now : Instant)
  | stopReading
  | recvVideo (now : Instant)
  | emitVideo (now : Instant)
  | exitVideo
  | recvAudio (now : Instant)
  | emitAudio (now : Instant)
  | exitAudio
  | otherSource (lastFrame : Option VideoBurst) (audioPresence : AudioPresence)
  deriving DecidableEq, Repr

/-- A step; the timer and the reader are one task, which ends with the stream. -/
def step (s : StreamSource) : Event → StreamSource
  -- Both arms of the `select` of the reader.
  | .result result now => if s.reading then s.processStreamResult result now else s
  | .tick now => if s.reading then s.tickBridging now else s
  | .stopReading => { s with reading := false }
  | .recvVideo now => { s with videoPacer := s.videoPacer.map (·.recv .video now) }
  -- The pacer sends what is due, or drops it.
  | .emitVideo now =>
    match s.videoPacer.map (·.emit now) with
    | some (pacer, frame) => { s with
        videoPacer := some pacer
        broadcast := s.broadcast ++ frame.toList.map .video }
    | none => s
  | .exitVideo => { s with videoPacer := s.videoPacer.map (·.exit) }
  | .recvAudio now => { s with audioPacer := s.audioPacer.map (·.recv .audio now) }
  | .emitAudio now =>
    match s.audioPacer.map (·.emit now) with
    | some (pacer, frame) => { s with
        audioPacer := some pacer
        broadcast := s.broadcast ++ frame.toList.map .audio }
    | none => s
  | .exitAudio => { s with audioPacer := s.audioPacer.map (·.exit) }
  | .otherSource lastFrame audioPresence => { s with lastFrame, audioPresence }

/-- The state after some events. -/
def run (s : StreamSource) (events : List Event) : StreamSource := events.foldl step s

/-! ## The order of the frames -/

/-- The video frames sent, in order. -/
def videos (s : StreamSource) : List RecordedFrame := s.broadcast.filterMap Sent.video?

/-- The video frames that wait in the pacer, in order. -/
def waiting (s : StreamSource) : List RecordedFrame :=
  match s.videoPacer with
  | some pacer => pacer.waiting
  | none => []

/-- The video frames sent, then those that will be. -/
def frames (s : StreamSource) : List RecordedFrame := s.videos ++ s.waiting

/-- The video frames sent, and those that will be, are in the order in which the
    policy recorded them. -/
def InOrder (s : StreamSource) : Prop := (s.frames.map (·.2)).Pairwise (· < ·)

instance : DecidablePred InOrder := fun _ => inferInstanceAs (Decidable (List.Pairwise _ _))

/-- Every frame has the timestamp of its record. -/
def Labelled (s : StreamSource) : Prop :=
  ∀ v ∈ s.frames, ∃ pts90khz, v.1.videoPts? = some pts90khz ∧ s.recorded[v.2]? = some pts90khz

/-- A tick in a gap that can be filled finds the video pacer drained. -/
def Drained (s : StreamSource) : Event → Prop
  | .tick now => s.reading → s.bridging.Replays now s.replayAnchor → s.waiting = []
  | _ => True

/-- Nothing changed for the video frames. -/
structure SameVideo (s t : StreamSource) : Prop where
  videos : t.videos = s.videos
  videoPacer : t.videoPacer = s.videoPacer
  recorded : t.recorded = s.recorded

variable {s t : StreamSource}

/-- What leaves the video alone may be done one after the other. -/
theorem SameVideo.trans {u : StreamSource} (h : s.SameVideo t) (h' : t.SameVideo u) :
    s.SameVideo u where
  videos := h'.videos.trans h.videos
  videoPacer := h'.videoPacer.trans h.videoPacer
  recorded := h'.recorded.trans h.recorded

theorem SameVideo.waiting (h : s.SameVideo t) : t.waiting = s.waiting := by
  rw [StreamSource.waiting, StreamSource.waiting, h.videoPacer]

theorem videos_append_audio (s : StreamSource) (sent : List Frame) :
    (s.broadcast ++ sent.map Sent.audio).filterMap Sent.video? = s.videos := by
  have hnone : (sent.map Sent.audio).filterMap Sent.video? = [] := by
    simp [List.filterMap_map, Sent.video?]
  rw [List.filterMap_append, hnone, List.append_nil]
  rfl

theorem dispatchPacedAudio_sameVideo (s : StreamSource) (frame : Frame) (duration : Duration) :
    s.SameVideo (s.dispatchPacedAudio frame duration) := by
  rw [dispatchPacedAudio]
  cases s.audioPacer with
  | some pacer => exact ⟨videos_append_audio s [], rfl, rfl⟩
  | none => exact ⟨videos_append_audio s [frame], rfl, rfl⟩

/-- Only an effect with a video frame concerns the video frames. -/
theorem applyEmit_sameVideo (s : StreamSource) {e : Emit} (h : ¬e.IsVideo) :
    s.SameVideo (s.applyEmit e) := by
  cases e with
  | video frame pace => exact absurd trivial h
  | audio frame pace => exact dispatchPacedAudio_sameVideo s frame pace
  | sdpVideo | sdpAudio | replaceVideoBurst | appendPframe | audioSeen => exact ⟨rfl, rfl, rfl⟩

theorem foldl_applyEmit_sameVideo (s : StreamSource) {emits : List Emit}
    (h : ∀ e ∈ emits, ¬e.IsVideo) : s.SameVideo (emits.foldl applyEmit s) := by
  induction emits generalizing s with
  | nil => exact ⟨rfl, rfl, rfl⟩
  | cons e emits ih =>
    have hfirst := applyEmit_sameVideo s (h e List.mem_cons_self)
    exact hfirst.trans (ih (s.applyEmit e) fun e he => h e (List.mem_cons_of_mem _ he))

/-- Sending frames has nothing to do with gaps. -/
theorem applyEmit_bridging (s : StreamSource) (e : Emit) :
    (s.applyEmit e).bridging = s.bridging := by
  cases e <;> rfl

theorem foldl_applyEmit_bridging (s : StreamSource) (emits : List Emit) :
    (emits.foldl applyEmit s).bridging = s.bridging := by
  induction emits generalizing s with
  | nil => rfl
  | cons e emits ih => exact (ih (s.applyEmit e)).trans (applyEmit_bridging s e)

/-- The timestamp of the frame in a packet. -/
def framePts? (s : StreamSource) (packet : BcMedia) (now : Instant) : Option UInt32 :=
  (translate packet s.translatorState now s.bridging.isBridging).2.2

theorem trackUpstream_sameVideo (s : StreamSource) (packet : BcMedia) (now : Instant) :
    s.SameVideo (s.trackUpstream packet now) := by
  rw [trackUpstream]
  split <;> exact ⟨rfl, rfl, rfl⟩

/-- Noting it does not change the time of its frame. -/
theorem framePts?_trackUpstream (s : StreamSource) (packet : BcMedia) (now : Instant) :
    (s.trackUpstream packet now).framePts? packet now = s.framePts? packet now := by
  rw [trackUpstream]
  split <;> rfl

/-- A packet without a frame changes nothing for the video frames; the frame of a
    packet is dispatched, and recorded. -/
theorem processPacket_cases (s : StreamSource) (packet : BcMedia) (now : Instant) :
    (s.framePts? packet now = none ∧ s.SameVideo (s.processPacket packet now) ∧
      (s.processPacket packet now).bridging = (s.trackUpstream packet now).bridging) ∨
    ∃ t frame pace pts90khz, s.SameVideo t ∧ t.bridging = (s.trackUpstream packet now).bridging ∧
      frame.videoPts? = some pts90khz ∧ s.framePts? packet now = some pts90khz ∧
      s.processPacket packet now = { t.dispatchPacedVideo frame pace with
        bridging := (t.dispatchPacedVideo frame pace).bridging.onBroadcast pts90khz now
        recorded := (t.dispatchPacedVideo frame pace).recorded ++ [pts90khz] } := by
  have hsame := trackUpstream_sameVideo s packet now
  rw [← framePts?_trackUpstream, processPacket]
  generalize s.trackUpstream packet now = u at hsame
  have hone := translate_oneFrame packet u.translatorState now u.bridging.isBridging
  have hfold : ∀ emits : List Emit, (∀ e ∈ emits, ¬e.IsVideo) →
      u.SameVideo (emits.foldl applyEmit { u with
        translatorState := (translate packet u.translatorState now u.bridging.isBridging).1 }) := by
    intro emits hemits
    obtain ⟨hvideos, hpacer, hrecorded⟩ := foldl_applyEmit_sameVideo { u with
      translatorState := (translate packet u.translatorState now u.bridging.isBridging).1 } hemits
    exact ⟨hvideos, hpacer, hrecorded⟩
  cases hpts : u.framePts? packet now with
  | none =>
    rw [framePts?] at hpts
    rw [hpts] at hone
    refine .inl ⟨rfl, ?_⟩
    simp only [applyBcmediaPacket, hpts]
    exact ⟨hsame.trans (hfold _ hone), foldl_applyEmit_bridging _ _⟩
  | some pts90khz =>
    rw [framePts?] at hpts
    rw [hpts] at hone
    obtain ⟨before, frame, pace, hemits, hbefore, hframe⟩ := hone
    refine .inr ⟨_, frame, pace, pts90khz, hsame.trans (hfold before hbefore),
      foldl_applyEmit_bridging _ _, hframe, rfl, ?_⟩
    simp only [applyBcmediaPacket, hpts, hemits, List.foldl_concat]
    rfl

theorem videos_append_video (s : StreamSource) (sent : List RecordedFrame) :
    (s.broadcast ++ sent.map Sent.video).filterMap Sent.video? = s.videos ++ sent := by
  have hsome : (sent.map Sent.video).filterMap Sent.video? = sent := by
    rw [List.filterMap_map]
    exact List.filterMap_some
  rw [List.filterMap_append, hsome]
  rfl

/-! ## The queue with a bypass -/

/-- The records as tickets of a queue. -/
def line (s : StreamSource) : Bypass.Line where
  issued := s.recorded.length
  waiting := s.waiting.map (·.2)
  served := s.videos.map (·.2)

/-- What becomes of a frame that the reader dispatches. -/
def dispatched (s : StreamSource) : Bypass.Action :=
  match s.videoPacer with
  | some pacer => if pacer.Refuses .video then .turnAway else .enter
  | none => .bypass

/-- What a step does to the queue. -/
def action? (s : StreamSource) : Event → Option Bypass.Action
  | .result (.packet packet) now =>
    if s.reading then (s.framePts? packet now).map fun _ => s.dispatched else none
  | .tick now =>
    if s.reading ∧ s.bridging.Replays now s.replayAnchor then some .bypass else none
  | .emitVideo now => s.videoPacer.bind fun pacer => (pacer.emit now).2.map fun _ => .serve
  | .exitVideo => some .clear
  | _ => none

/-- What a step can do to the video frames and the records, for each action. -/
inductive Moves (s t : StreamSource) : Option Bypass.Action → Prop where
  | none (hvideos : t.videos = s.videos) (hwaiting : t.waiting = s.waiting)
      (hrecorded : t.recorded = s.recorded) : Moves s t none
  | enter (frame : Frame) (pts90khz : UInt32) (hpts : frame.videoPts? = some pts90khz)
      (hvideos : t.videos = s.videos)
      (hwaiting : t.waiting = s.waiting ++ [(frame, s.recorded.length)])
      (hrecorded : t.recorded = s.recorded ++ [pts90khz]) : Moves s t (some .enter)
  | turnAway (pts90khz : UInt32) (hvideos : t.videos = s.videos)
      (hwaiting : t.waiting = s.waiting) (hrecorded : t.recorded = s.recorded ++ [pts90khz]) :
      Moves s t (some .turnAway)
  | bypass (frame : Frame) (pts90khz : UInt32) (hpts : frame.videoPts? = some pts90khz)
      (hvideos : t.videos = s.videos ++ [(frame, s.recorded.length)])
      (hwaiting : t.waiting = s.waiting) (hrecorded : t.recorded = s.recorded ++ [pts90khz]) :
      Moves s t (some .bypass)
  | serve (frame : RecordedFrame) (hvideos : t.videos = s.videos ++ [frame])
      (hwaiting : s.waiting = frame :: t.waiting) (hrecorded : t.recorded = s.recorded) :
      Moves s t (some .serve)
  | clear (hvideos : t.videos = s.videos) (hwaiting : t.waiting = [])
      (hrecorded : t.recorded = s.recorded) : Moves s t (some .clear)

/-- What leaves the video alone does nothing to the line. -/
theorem SameVideo.moves (h : s.SameVideo t) : s.Moves t none :=
  .none h.videos h.waiting h.recorded

/-- Leaving the video alone first does not matter. -/
theorem SameVideo.trans_moves {u : StreamSource} {a : Option Bypass.Action} (h : s.SameVideo t)
    (hmoves : t.Moves u a) : s.Moves u a := by
  have hv := h.videos
  have hw := h.waiting
  have hr := h.recorded
  cases hmoves with
  | none hvideos hwaiting hrecorded =>
    exact .none (hvideos.trans hv) (hwaiting.trans hw) (hrecorded.trans hr)
  | enter frame pts hpts hvideos hwaiting hrecorded =>
    rw [hw, hr] at hwaiting
    exact .enter frame pts hpts (hvideos.trans hv) hwaiting (hr ▸ hrecorded)
  | turnAway pts hvideos hwaiting hrecorded =>
    exact .turnAway pts (hvideos.trans hv) (hwaiting.trans hw) (hr ▸ hrecorded)
  | bypass frame pts hpts hvideos hwaiting hrecorded =>
    rw [hv, hr] at hvideos
    exact .bypass frame pts hpts hvideos (hwaiting.trans hw) (hr ▸ hrecorded)
  | serve frame hvideos hwaiting hrecorded =>
    exact .serve frame (hv ▸ hvideos) (hw.symm.trans hwaiting) (hrecorded.trans hr)
  | clear hvideos hwaiting hrecorded =>
    exact .clear (hvideos.trans hv) hwaiting (hrecorded.trans hr)

/-- What is recorded of the frame of a packet, and what becomes of it. -/
theorem dispatchPacedVideo_moves (s : StreamSource) {frame : Frame} {pts90khz : UInt32}
    (hpts : frame.videoPts? = some pts90khz) (pace : Duration) (bridging : BridgingPolicy) :
    s.Moves { s.dispatchPacedVideo frame pace with
      bridging
      recorded := (s.dispatchPacedVideo frame pace).recorded ++ [pts90khz] }
        (some s.dispatched) := by
  have hnone := videos_append_video s []
  have hsent := videos_append_video s [(frame, s.recorded.length)]
  rw [dispatchPacedVideo, dispatched]
  cases hpacer : s.videoPacer with
  | none => exact .bypass frame pts90khz hpts hsent (by rw [waiting, waiting, hpacer]; rfl) rfl
  | some pacer =>
    have hwaiting : s.waiting = pacer.waiting := by rw [waiting, hpacer]
    dsimp only [dispatchPaced]
    split
    next hrefuses =>
      refine .turnAway pts90khz (hnone.trans (List.append_nil _)) ?_ rfl
      exact (Pacer.waiting_trySend_of_refuses hrefuses _).trans hwaiting.symm
    next hrefuses =>
      refine .enter frame pts90khz hpts (hnone.trans (List.append_nil _)) ?_ rfl
      rw [hwaiting]
      exact Pacer.waiting_trySend_of_not_refuses hrefuses _

/-- A packet's frame enters the line, or is turned away, or is sent past it. -/
theorem processPacket_moves (s : StreamSource) (packet : BcMedia) (now : Instant) :
    s.Moves (s.processPacket packet now)
      ((s.framePts? packet now).map fun _ => s.dispatched) := by
  rcases processPacket_cases s packet now with ⟨hpts, hsame, -⟩ |
    ⟨t, frame, pace, pts90khz, hsame, -, hframe, hpts, heq⟩
  · rw [hpts]
    exact hsame.moves
  · have hdispatched : t.dispatched = s.dispatched := by
      rw [dispatched, dispatched, hsame.videoPacer]
    rw [hpts, heq, Option.map_some, ← hdispatched]
    exact hsame.trans_moves (dispatchPacedVideo_moves t hframe pace _)

/-- A tick sends the next record past the queue, or leaves the queue alone. -/
theorem tickBridging_moves (s : StreamSource) (now : Instant) :
    s.Moves (s.tickBridging now)
      (if s.bridging.Replays now s.replayAnchor then some .bypass else none) := by
  rcases BridgingPolicy.onTick_cases s.bridging now s.replayAnchor with
    ⟨anchor, hanchor, hreplays, htick⟩ | ⟨hnot, htick, -, -⟩
  · obtain ⟨⟨codec, nals, pts⟩, hpayload, -⟩ := Option.map_eq_some_iff.1 hanchor
    rw [if_pos hreplays, tickBridging, htick, hpayload]
    exact .bypass _ _ rfl (videos_append_video s [_]) rfl rfl
  · rcases h : s.bridging.onTick now s.replayAnchor with ⟨bridging, pts⟩
    obtain rfl : pts = none := by
      rw [h] at htick
      exact htick
    rw [if_neg hnot, tickBridging, h]
    exact .none rfl rfl rfl

/-- An emission sends the first frame that waits, or nothing. -/
theorem emitVideo_moves (s : StreamSource) (now : Instant) :
    s.Moves (s.step (.emitVideo now)) (s.action? (.emitVideo now)) := by
  rw [step, action?]
  cases hpacer : s.videoPacer with
  | none => exact .none rfl rfl rfl
  | some pacer =>
    have hwaiting : s.waiting = pacer.waiting := by rw [waiting, hpacer]
    have hemit := pacer.emit_waiting now
    rw [← hwaiting] at hemit
    dsimp only [Option.map_some, Option.bind_some]
    generalize pacer.emit now = emitted at hemit
    rcases emitted with ⟨pacer', _ | frame⟩
    · exact .none ((videos_append_video s []).trans (List.append_nil _)) hemit rfl
    · exact .serve frame (videos_append_video s [frame]) hemit.symm rfl

/-- What a step can do. -/
theorem step_moves (s : StreamSource) (e : Event) : s.Moves (s.step e) (s.action? e) := by
  cases e with
  | result result now =>
    rw [step]
    cases result with
    | packet packet =>
      rw [action?]
      split
      · exact processPacket_moves s packet now
      · exact .none rfl rfl rfl
    | decodeError | finished => split <;> exact .none rfl rfl rfl
  | tick now =>
    rw [step, action?]
    by_cases hreading : s.reading
    · simpa only [hreading, if_true, true_and] using tickBridging_moves s now
    · rw [if_neg hreading, if_neg fun h => hreading h.1]
      exact .none rfl rfl rfl
  | recvVideo now =>
    refine .none rfl ?_ rfl
    rw [step, waiting, waiting]
    cases s.videoPacer with
    | none => rfl
    | some pacer => exact Pacer.waiting_recv .video pacer now
  | emitVideo now => exact emitVideo_moves s now
  | exitVideo =>
    refine .clear rfl ?_ rfl
    rw [step, waiting]
    cases s.videoPacer with
    | none => rfl
    | some pacer => exact Pacer.waiting_exit pacer
  | emitAudio now =>
    rw [step]
    split
    · exact .none (videos_append_audio s _) rfl rfl
    · exact .none rfl rfl rfl
  | stopReading | recvAudio | exitAudio | otherSource => exact .none rfl rfl rfl

theorem Moves.line_eq {a : Option Bypass.Action} (h : s.Moves t a) :
    t.line = a.elim s.line s.line.step := by
  cases h with
  | none hvideos hwaiting hrecorded => rw [line, hvideos, hwaiting, hrecorded]; rfl
  | enter frame pts hpts hvideos hwaiting hrecorded =>
    rw [line, hvideos, hwaiting, hrecorded, List.length_append, List.map_append]
    rfl
  | turnAway pts hvideos hwaiting hrecorded =>
    rw [line, hvideos, hwaiting, hrecorded, List.length_append]
    rfl
  | bypass frame pts hpts hvideos hwaiting hrecorded =>
    rw [line, hvideos, hwaiting, hrecorded, List.length_append, List.map_append]
    rfl
  | serve frame hvideos hwaiting hrecorded =>
    rw [line, line, hvideos, hwaiting, hrecorded, List.map_append]
    rfl
  | clear hvideos hwaiting hrecorded => rw [line, hvideos, hwaiting, hrecorded]; rfl

/-- A source is a queue with a bypass. -/
theorem tracks : Bypass.Tracks step line action? where
  line_step s e := (step_moves s e).line_eq

/-- A frame keeps its record as the records grow. -/
theorem Moves.labelled {a : Option Bypass.Action} (h : s.Moves t a) (hlabelled : s.Labelled) :
    t.Labelled := by
  have hgrow : ∀ (v : RecordedFrame) (pts : UInt32), v ∈ s.frames → ∃ pts90khz,
      v.1.videoPts? = some pts90khz ∧ (s.recorded ++ [pts])[v.2]? = some pts90khz := by
    intro v pts hv
    obtain ⟨pts90khz, hpts, hget⟩ := hlabelled v hv
    refine ⟨pts90khz, hpts, ?_⟩
    rw [List.getElem?_append_left (List.getElem?_eq_some_iff.1 hget).1]
    exact hget
  have hnew : ∀ (frame : Frame) (pts : UInt32), frame.videoPts? = some pts → ∃ pts90khz,
      frame.videoPts? = some pts90khz ∧
        (s.recorded ++ [pts])[s.recorded.length]? = some pts90khz := by
    intro frame pts hpts
    exact ⟨pts, hpts, List.getElem?_concat_length⟩
  intro v hv
  cases h with
  | none hvideos hwaiting hrecorded =>
    rw [frames, hvideos, hwaiting] at hv
    rw [hrecorded]
    exact hlabelled v hv
  | enter frame pts hpts hvideos hwaiting hrecorded =>
    rw [frames, hvideos, hwaiting, ← List.append_assoc] at hv
    rw [hrecorded]
    rcases List.mem_append.1 hv with hv | hv
    · exact hgrow v pts hv
    · obtain rfl := List.mem_singleton.1 hv
      exact hnew frame pts hpts
  | turnAway pts hvideos hwaiting hrecorded =>
    rw [frames, hvideos, hwaiting] at hv
    rw [hrecorded]
    exact hgrow v pts hv
  | bypass frame pts hpts hvideos hwaiting hrecorded =>
    rw [frames, hvideos, hwaiting, List.mem_append, List.mem_append, List.mem_singleton] at hv
    rw [hrecorded]
    rcases hv with (hv | rfl) | hv
    · exact hgrow v pts (List.mem_append_left _ hv)
    · exact hnew frame pts hpts
    · exact hgrow v pts (List.mem_append_right _ hv)
  | serve frame hvideos hwaiting hrecorded =>
    rw [frames, hvideos, List.append_assoc, List.singleton_append, ← hwaiting] at hv
    rw [hrecorded]
    exact hlabelled v hv
  | clear hvideos hwaiting hrecorded =>
    rw [frames, hvideos, hwaiting, List.append_nil] at hv
    rw [hrecorded]
    exact hlabelled v (List.mem_append_left _ hv)

/-! ## The events of the policy -/

/-- What a step tells the policy. -/
def policyEvents (s : StreamSource) : Event → List BridgingPolicy.Event
  | .result (.packet packet) now =>
    if s.reading then
      (if packet.declared?.isSome then [.upstreamPacket now] else []) ++
        (s.framePts? packet now).toList.map (.broadcast · now)
    else []
  | .tick now => if s.reading then [.tick now s.replayAnchor] else []
  | _ => []

/-- The policy is told of every packet that declares a stream. -/
theorem trackUpstream_bridging (s : StreamSource) (packet : BcMedia) (now : Instant) :
    (s.trackUpstream packet now).bridging =
      s.bridging.run (if packet.declared?.isSome then [.upstreamPacket now] else []) := by
  rw [trackUpstream]
  split <;> rfl

theorem timeline_upstream (policy : BridgingPolicy) (packet : BcMedia) (now : Instant) :
    policy.timeline (if packet.declared?.isSome then [.upstreamPacket now] else []) = [] := by
  split <;> rfl

/-- A tick asks the policy, and records what it says. -/
theorem tickBridging_policy (s : StreamSource) (now : Instant) :
    (s.tickBridging now).bridging = (s.bridging.onTick now s.replayAnchor).1 ∧
      (s.tickBridging now).recorded =
        s.recorded ++ (s.bridging.onTick now s.replayAnchor).2.toList := by
  rw [tickBridging]
  generalize s.bridging.onTick now s.replayAnchor = ticked
  rcases ticked with ⟨policy, _ | pts90khz⟩
  · exact ⟨rfl, (List.append_nil _).symm⟩
  · cases s.replayPayload <;> exact ⟨rfl, rfl⟩

/-- The policy goes through the events it is told, and the records are its
    timeline. -/
theorem step_policy (s : StreamSource) (e : Event) :
    (s.step e).bridging = s.bridging.run (s.policyEvents e) ∧
      (s.step e).recorded = s.recorded ++ s.bridging.timeline (s.policyEvents e) := by
  have hsame : s.bridging = s.bridging.run [] ∧
      s.recorded = s.recorded ++ s.bridging.timeline [] := ⟨rfl, (List.append_nil _).symm⟩
  cases e with
  | result result now =>
    rw [step]
    cases result with
    | packet packet =>
      rw [policyEvents]
      split
      · rw [BridgingPolicy.timeline_append, BridgingPolicy.run_append, timeline_upstream,
          ← trackUpstream_bridging, processStreamResult]
        rcases processPacket_cases s packet now with ⟨hpts, hvideo, hpolicy⟩ |
          ⟨t, frame, pace, pts90khz, hvideo, hpolicy, -, hpts, heq⟩
        · rw [hpts, hpolicy, hvideo.recorded]
          exact ⟨rfl, (List.append_nil _).symm⟩
        · rw [hpts, heq, ← hvideo.recorded, ← hpolicy]
          exact ⟨rfl, rfl⟩
      · exact hsame
    | decodeError | finished => split <;> exact hsame
  | tick now =>
    rw [step, policyEvents]
    split
    · obtain ⟨hpolicy, hrecorded⟩ := tickBridging_policy s now
      exact ⟨hpolicy, hrecorded.trans (congrArg _ (List.append_nil _).symm)⟩
    · exact hsame
  | emitVideo now =>
    rw [step]
    split <;> exact hsame
  | emitAudio now =>
    rw [step]
    split <;> exact hsame
  | stopReading | recvVideo | exitVideo | recvAudio | exitAudio | otherSource => exact hsame

/-! ## Runs -/

section Run

variable (gapThreshold : Duration) (start : Instant) (lastFrame : Option VideoBurst)
  (audioPresence : AudioPresence) (paced : Bool)

theorem new_frames : (new gapThreshold start lastFrame audioPresence paced).frames = [] := by
  cases paced <;> rfl

/-- In every run each frame has the number under which it was recorded. -/
theorem run_labelled (events : List Event) :
    ((new gapThreshold start lastFrame audioPresence paced).run events).Labelled := by
  induction events using List.reverseRecOn with
  | nil =>
    intro v hv
    rw [run, List.foldl_nil, new_frames] at hv
    exact nomatch hv
  | append_singleton events e ih =>
    rw [run, List.foldl_concat]
    exact (step_moves _ e).labelled ih

/-- The frames are in order if their numbers are. -/
theorem inOrder_iff_line (s : StreamSource) : s.InOrder ↔ s.line.InOrder := by
  rw [InOrder, frames, List.map_append]
  rfl

/-- Only a replay can be sent past a frame: without a pacer nothing waits. -/
theorem overtakes_iff (s : StreamSource) (e : Event) :
    Bypass.Tracks.Overtakes line action? s e ↔ ¬s.Drained e := by
  constructor
  · rintro ⟨a, haction, rfl, hwaiting⟩ hdrained
    have hne : s.waiting ≠ [] := fun h => hwaiting (congrArg (List.map _) h)
    cases e with
    | result result now =>
      cases result with
      | packet packet =>
        rw [action?] at haction
        split at haction
        · obtain ⟨pts90khz, -, hdispatched⟩ := Option.map_eq_some_iff.1 haction
          rw [dispatched] at hdispatched
          split at hdispatched
          · split at hdispatched <;> exact nomatch hdispatched
          next hpacer => exact hne (by rw [waiting, hpacer])
        · exact nomatch haction
      | decodeError | finished => exact nomatch haction
    | tick now =>
      rw [action?] at haction
      split at haction
      next h => exact hne (hdrained h.1 h.2)
      · exact nomatch haction
    | emitVideo now =>
      obtain ⟨pacer, -, hemit⟩ := Option.bind_eq_some_iff.1 haction
      obtain ⟨frame, -, hserve⟩ := Option.map_eq_some_iff.1 hemit
      exact nomatch hserve
    | exitVideo => exact nomatch haction
    | stopReading | recvVideo | recvAudio | emitAudio | exitAudio | otherSource =>
      exact nomatch haction
  · intro hdrained
    cases e with
    | tick now =>
      simp only [Drained, not_forall] at hdrained
      obtain ⟨hreading, hreplays, hne⟩ := hdrained
      refine ⟨.bypass, if_pos ⟨hreading, hreplays⟩, rfl, fun h => hne ?_⟩
      exact List.map_eq_nil_iff.1 h
    | result | stopReading | recvVideo | emitVideo | exitVideo | recvAudio | emitAudio | exitAudio
    | otherSource => exact absurd trivial hdrained

/-- Frames in order have timestamps that are recorded, in order. -/
theorem Labelled.sublist (hlabelled : s.Labelled) (hord : s.InOrder) :
    (s.videos.filterMap (·.1.videoPts?)).Sublist s.recorded := by
  have hlt : ∀ v ∈ s.videos, v.2 < s.recorded.length := by
    intro v hv
    obtain ⟨pts90khz, -, hget⟩ := hlabelled v (List.mem_append_left _ hv)
    exact (List.getElem?_eq_some_iff.1 hget).1
  -- The records as indices into the list of them.
  let indices := s.videos.attach.map fun v => (⟨v.1.2, hlt v.1 v.2⟩ : Fin s.recorded.length)
  have hindices : indices.Pairwise (· < ·) := by
    have hvideos : (s.videos.attach.map fun v => v.1.2).Pairwise (· < ·) := by
      rw [InOrder, frames, List.map_append] at hord
      rw [List.attach_map_val]
      exact hord.sublist (List.sublist_append_left _ _)
    rw [List.pairwise_map] at hvideos ⊢
    exact hvideos
  have heq : s.videos.filterMap (·.1.videoPts?) = indices.map (s.recorded[·]) := by
    conv_lhs => rw [← List.attach_map_subtype_val s.videos, List.filterMap_map]
    rw [List.map_map, ← List.filterMap_eq_map]
    refine List.filterMap_congr fun v _ => ?_
    obtain ⟨pts90khz, hpts, hget⟩ := hlabelled v.1 (List.mem_append_left _ v.2)
    exact hpts.trans (hget.symm.trans (List.getElem?_eq_getElem (hlt v.1 v.2)))
  rw [heq]
  exact List.map_getElem_sublist hindices

/-- All that a run tells the policy. -/
def history (s : StreamSource) : List Event → List BridgingPolicy.Event
  | [] => []
  | e :: events => s.policyEvents e ++ (s.step e).history events

/-- The records of a run are the timeline of the policy. -/
theorem run_recorded (s : StreamSource) (events : List Event) :
    (s.run events).recorded = s.recorded ++ s.bridging.timeline (s.history events) := by
  induction events generalizing s with
  | nil => exact (List.append_nil _).symm
  | cons e events ih =>
    obtain ⟨hpolicy, hrecorded⟩ := step_policy s e
    rw [history, BridgingPolicy.timeline_append, ← hpolicy, ← List.append_assoc, ← hrecorded]
    exact ih (s.step e)

/-- The order throughout a run. -/
theorem forall_inOrder_iff (events : List Event) :
    (∀ past, past <+: events →
      ((new gapThreshold start lastFrame audioPresence paced).run past).InOrder) ↔
      ∀ past e, past ++ [e] <+: events →
        ((new gapThreshold start lastFrame audioPresence paced).run past).Drained e := by
  have hnew := new_frames gapThreshold start lastFrame audioPresence paced
  have hwf : (new gapThreshold start lastFrame audioPresence paced).line.Wf := by
    intro ticket hticket
    rw [line, ← List.map_append] at hticket
    rw [frames] at hnew
    rw [hnew] at hticket
    exact nomatch hticket
  have hord : (new gapThreshold start lastFrame audioPresence paced).line.InOrder := by
    rw [← inOrder_iff_line, InOrder, hnew]
    exact .nil
  have hiff := tracks.inOrder_iff hwf hord events
  simp only [overtakes_iff, not_not, ← inOrder_iff_line] at hiff
  exact hiff

/-- In every run, of any interleaving of the tasks: the frames are sent in the order
    in which the policy recorded them, exactly if every tick that fills a gap finds
    the video pacer drained. -/
theorem run_inOrder_iff (events : List Event) :
    (∀ past, past <+: events →
      ((new gapThreshold start lastFrame audioPresence paced).run past).Labelled ∧
        ((new gapThreshold start lastFrame audioPresence paced).run past).InOrder) ↔
      ∀ past e, past ++ [e] <+: events →
        ((new gapThreshold start lastFrame audioPresence paced).run past).Drained e := by
  rw [← forall_inOrder_iff]
  refine forall₂_congr fun past _ => and_iff_right ?_
  exact run_labelled gapThreshold start lastFrame audioPresence paced past

/-- Then what the subscribers see is part of the timeline of the policy, in order. -/
theorem videos_sublist_timeline {events : List Event}
    (h : ∀ past e, past ++ [e] <+: events →
      ((new gapThreshold start lastFrame audioPresence paced).run past).Drained e) :
    (((new gapThreshold start lastFrame audioPresence paced).run events).videos.filterMap
      (·.1.videoPts?)).Sublist ((BridgingPolicy.new gapThreshold start).timeline
        ((new gapThreshold start lastFrame audioPresence paced).history events)) := by
  have hlabelled := run_labelled gapThreshold start lastFrame audioPresence paced events
  have hord := (forall_inOrder_iff gapThreshold start lastFrame audioPresence paced events).2 h
    events (List.prefix_refl events)
  have hsublist := hlabelled.sublist hord
  rwa [run_recorded] at hsublist

end Run

/-- A key frame and three frames a second apart each, delivered in one burst by a
    camera that is then silent. The pacer sends the first two after its initial
    latency, the third a second later; the fourth waits until 3.5 s. -/
def delayedBurst : List Event := [
  .result (.packet (.iframe ⟨.h264, 1000000, none, [0, 0, 0, 1, 0x67, 0x64, 0, 0x1f,
    0, 0, 0, 1, 0x68, 0xee, 0, 0, 0, 1, 0x65, 0x88]⟩)) 0,
  .result (.packet (.pframe ⟨.h264, 2000000, [0, 0, 0, 1, 0x41, 0x9a]⟩)) 0,
  .result (.packet (.pframe ⟨.h264, 3000000, [0, 0, 0, 1, 0x41, 0x9b]⟩)) 0,
  .result (.packet (.pframe ⟨.h264, 4000000, [0, 0, 0, 1, 0x41, 0x9c]⟩)) 0,
  .recvVideo 0, .emitVideo (Duration.ofMillis 1500),
  .recvVideo (Duration.ofMillis 1500), .emitVideo (Duration.ofMillis 1500),
  .recvVideo (Duration.ofMillis 1500), .emitVideo (Duration.ofMillis 2500),
  .recvVideo (Duration.ofMillis 2500),
  .tick (Duration.ofMillis 3200), .emitVideo (Duration.ofMillis 3500)]

/-- With the default threshold of three seconds, the key frame is replayed before
    the frame that waits, and with a later timestamp. -/
theorem delayedBurst_not_inOrder :
    ((new (Duration.ofSecs 3) 0 none .unknown true).run delayedBurst).videos.map
        (fun v => (v.1.videoPts?, v.2)) =
      [(some 90000, 0), (some 180000, 1), (some 270000, 2), (some 648000, 4), (some 360000, 3)] ∧
    ¬((new (Duration.ofSecs 3) 0 none .unknown true).run delayedBurst).InOrder := by
  decide +kernel

end StreamSource

end Bairelay
