import Bairelay.Lib.Gate
import Bairelay.Lib.Past
import Bairelay.Media.SentFrames
import Bairelay.Rtsp.ServerStep

/-!
# From the burst to the live stream

A session and the source it gets its frames from (`stream_source.rs`,
`rtsp/server/session_task.rs`), in any order of their steps and of what the handlers do.

After the burst, the video loop waits for a key frame. But any frame that is flagged as one
will do: one that the receiver held, or the pacer, from before the burst, and the key frame
that is sent again to bridge a gap. So the stream goes on from the burst as it should
(`ContinuesBurst`) only if the frames that the receiver hands to the loop do so themselves
(`Orderly`).

* `burst_to_live`: in every run, it is enough that they do; and as long as the loop has not
  ended, it takes that;
* `bufferedKey_not_continuesBurst`: a key frame and the one after it wait in the receiver
  when the burst, a later key frame, is replayed.
-/

namespace Bairelay

/-- The timestamp of a packet, as a receiver reads it. -/
def rtpTimestamp? (packet : Bytes) : Option UInt32 := (RtpPacket.parse? packet).map (·.timestamp)

/-- What was sent, as a frame. -/
def Sent.frame : Sent → Frame
  | .video frame => frame.1
  | .audio frame => frame

/-- What becomes of a session by others than its task. -/
inductive Handling where
  | touch (now : Instant)
  | appendTrack (track : TrackEntry)
  /-- `PLAY` sets the flag, and then it notifies. -/
  | fire
  | notify
  | remove
  | finish
  deriving DecidableEq, Repr

namespace Session

/-- What a handler does to the session. -/
def handle (x : Session) : Handling → Session
  | .touch now => { x with lastActivity := now }
  | .appendTrack track => x.appendTrack track
  | .fire => { x with playFired := true }
  | .notify => x.notifyWaiters
  | .remove => x.remove
  | .finish => if x.task = .cleaning then { x with task := .finished } else x

/-- Where the video loop is. -/
def videoLoop (x : Session) : Loop :=
  match x.task with
  | .spawned | .registered _ | .parked _ => .starting x.position
  | .playing loops | .joining loops => loops.video
  | .cleaning | .finished => .ended

end Session

/-- The server does nothing else to a session, but for the steps of its task. -/
theorem Server.Changes.handled {config : ServerConfig} {s : Server} {e : Event} {i : ℕ}
    {x x' : Session} (h : Changes config s e i x x') :
    (∃ te, e = .task i te ∧ x' = (x.act config.rtp s.media te).1) ∨
      ∃ handlings : List Handling, x' = handlings.foldl Session.handle x := by
  cases h with
  | same => exact .inr ⟨[], rfl⟩
  | touch => exact .inr ⟨[.touch s.now], rfl⟩
  | @teardown r ambient i x now => exact .inr ⟨[.touch now, .remove], rfl⟩
  | append => exact .inr ⟨[.appendTrack _], rfl⟩
  | fire => exact .inr ⟨[.fire], rfl⟩
  | notify => exact .inr ⟨[.notify], rfl⟩
  | replace | expire | close | cleanUpOther => exact .inr ⟨[.remove], rfl⟩
  | act => exact .inl ⟨_, rfl, rfl⟩
  | cleanUp htask =>
    split
    · exact .inr ⟨[.remove, .finish], (if_pos htask).symm⟩
    · exact .inr ⟨[.finish], (if_pos htask).symm⟩

/-- The packets of video that a task gives out. -/
def videoPackets (out : List (TrackKind × LoopOutput)) : List Bytes :=
  out.filterMap fun
    | (.video, .packet _ packet) => some packet
    | _ => none

/-- A burst of which packets were sent, and how many frames the source had recorded. -/
structure Replayed where
  burst : VideoBurst
  records : ℕ
  packets : List Bytes
  deriving DecidableEq, Repr

/-- A session with its source. -/
structure Viewing where
  source : StreamSource
  stream : StreamKind
  session : Session
  /-- The records of the frames that bridged gaps. -/
  bridged : List ℕ := []
  replayed : Option Replayed := none
  /-- The video frames that were handed to the loop since, with what was sent of each. -/
  taken : List (RecordedFrame × List Bytes) := []
  deriving DecidableEq, Repr

namespace Viewing

/-- A session as a `SETUP` makes it: it gets the frames from now on. -/
def setUp (source : StreamSource) (stream : StreamKind) (id camera : Bytes) (track : TrackEntry)
    (now : Instant) : Viewing where
  source := source
  stream := stream
  session := {
    id
    request := 0
    subscription := ⟨camera, 0, ⟨source.sdpVideo, source.sdpAudio⟩⟩
    position := source.broadcast.length
    tracks := [track]
    lastActivity := now }

/-- What the task of the session finds. -/
def media (v : Viewing) : Media where
  sources := [{
    camera := v.session.subscription.camera
    kind := v.stream
    sdpParams := ⟨v.source.sdpVideo, v.source.sdpAudio⟩
    broadcast := v.source.broadcast.map Sent.frame }]
  recorded := v.source.lastFrame.toList.map (v.session.subscription.camera, ·)

/-- The video frame that the receiver hands to the loop next. -/
def nextFrame? (v : Viewing) : Option RecordedFrame :=
  match v.session.videoLoop, v.session.cancelled with
  | .running position _ _, false => v.source.broadcast[position]?.bind Sent.video?
  | _, _ => none

/-- The records that a step of the source makes to bridge a gap. -/
def bridges (v : Viewing) : StreamSource.Event → List ℕ
  | .tick now => (List.range (v.source.step (.tick now)).recorded.length).drop
      v.source.recorded.length
  | _ => []

/-- The source and the session, with the handlers that write to it. -/
inductive Event where
  | source (e : StreamSource.Event)
  | handle (handling : Handling)
  | task (e : TaskEvent)
  deriving DecidableEq, Repr

variable (rtp : RtpTypes)

/-- A step of the task of the session. -/
def act (v : Viewing) (e : TaskEvent) : Viewing :=
  let (session, out) := v.session.act rtp v.media e
  let packets := videoPackets out
  match e with
  | .build .video _ _ => { v with
      session
      replayed := if packets = [] then v.replayed
        else v.source.lastFrame.map (⟨·, v.source.recorded.length, packets⟩) }
  | .recv .video _ _ => { v with
      session
      taken := if v.replayed.isSome then v.taken ++ (v.nextFrame?.map (·, packets)).toList
        else v.taken }
  | _ => { v with session }

/-- A step of one of them. -/
def step (v : Viewing) : Event → Viewing
  | .source e => { v with source := v.source.step e, bridged := v.bridged ++ v.bridges e }
  | .handle handling => { v with session := v.session.handle handling }
  | .task e => v.act rtp e

/-- The viewing after some steps. -/
def run (v : Viewing) (events : List Event) : Viewing := events.foldl (step rtp) v

/-! ## What is to hold -/

/-- A key frame that the camera has sent after the burst. -/
def Fresh (v : Viewing) (frame : RecordedFrame) : Prop :=
  frame.1.isKeyframe ∧ frame.2 ∉ v.bridged ∧ ∀ r ∈ v.replayed, r.records ≤ frame.2

/-- All that was sent on the video track, from the burst on. -/
def packets (v : Viewing) : List Bytes :=
  v.replayed.toList.flatMap (·.packets) ++ v.taken.flatMap (·.2)

/-- A key frame that is fresh comes before any other frame that is sent, and the timestamps
    never step back. -/
structure ContinuesBurst (v : Viewing) : Prop where
  gated : Past.Always (fun before sending => sending.2 ≠ [] → ¬sending.1.1.isKeyframe →
    ∃ earlier ∈ before, earlier.2 ≠ [] ∧ v.Fresh earlier.1) v.taken
  forward : (v.packets.filterMap rtpTimestamp?).IsChain Word32.SerialLe

/-- The frames that the loop was handed, from the first one that is flagged as a key frame
    on. -/
def live (v : Viewing) : List RecordedFrame :=
  Gate.passed (·.1.isKeyframe) (v.taken.map (·.1))

/-- Among the frames from the first flagged one on, one that is fresh comes before any that is
    no key frame, and their timestamps follow that of the burst and each other. -/
structure Orderly (v : Viewing) : Prop where
  fresh : Past.Always (fun before frame => ¬frame.1.isKeyframe →
    ∃ earlier ∈ before, v.Fresh earlier) v.live
  forward : (v.replayed.toList.map (·.burst.capturedPts90khz) ++ v.live.map (·.1.pts)).IsChain
    Word32.SerialLe

instance (v : Viewing) : DecidablePred v.Fresh := fun _ => inferInstanceAs (Decidable (_ ∧ _))

instance : DecidablePred Orderly := fun v =>
  decidable_of_iff (Past.Always (fun before frame => ¬frame.1.isKeyframe →
      ∃ earlier ∈ before, v.Fresh earlier) v.live ∧
    (v.replayed.toList.map (·.burst.capturedPts90khz) ++ v.live.map (·.1.pts)).IsChain
      Word32.SerialLe) ⟨fun h => ⟨h.1, h.2⟩, fun h => ⟨h.1, h.2⟩⟩

end Viewing

/-! ## The packets of a frame -/

section

open Fragment

variable {rtp : RtpTypes} (hrtp : rtp.Lawful)

/-- A packet that is built has the time it was built with. -/
theorem rtpTimestamp?_emit {payloadType : UInt8} {timestamp : UInt32} {counters : RtpCounters}
    {payloads : List (Bool × Bytes)} (htype : payloadType < 0x80) :
    ∀ packet ∈ (emit payloadType timestamp counters payloads).1,
      rtpTimestamp? packet = some timestamp := by
  intro packet hpacket
  obtain ⟨built, hbuilt, rfl⟩ := List.mem_map.1 hpacket
  obtain ⟨hpayload, htimestamp, -, -⟩ := mem_stamp hbuilt
  rw [rtpTimestamp?, RtpPacket.parse?_bytes (hpayload ▸ htype), Option.map_some, htimestamp]

include hrtp

/-- A frame with NAL units makes packets, all of its timestamp. -/
theorem dispatch_hasNals {frame : Frame} (hframe : frame.HasNals) (counters : RtpCounters) :
    ∃ packets counters', dispatch rtp frame counters = some (packets, counters') ∧
      packets ≠ [] ∧ ∀ packet ∈ packets, rtpTimestamp? packet = some frame.pts := by
  cases frame with
  | audio => exact hframe.elim
  | video codec nals pts90khz keyframe accessUnitEnd =>
    refine ⟨_, _, dispatch_video hrtp codec nals keyframe accessUnitEnd, ?_,
      rtpTimestamp?_emit (payloadType_lt codec)⟩
    rw [Ne, List.map_eq_nil_iff, ← List.length_eq_zero_iff, length_stamp, length_mark,
      List.length_eq_zero_iff, ← List.isEmpty_iff, isEmpty_flatMap_nalPayloads (by decide),
      List.isEmpty_iff]
    exact hframe

/-- The packets of a burst have its timestamp. -/
theorem replayBurst_pts {burst : VideoBurst} {sendRtp : ℕ → Bool} {counters : RtpCounters}
    {replay : Replay} (h : replayBurst rtp sendRtp burst counters = some replay) :
    ∀ packet ∈ replay.packets, rtpTimestamp? packet = some burst.capturedPts90khz := by
  obtain ⟨n, replay', hreplay, hdispatch, -⟩ :=
    @replayBurst_eq rtp sendRtp hrtp burst counters
  obtain rfl := Option.some.inj (h.symm.trans hreplay)
  rw [VideoBurst.keyFrame, dispatch_video hrtp] at hdispatch
  rw [← (Prod.mk.inj (Option.some.inj hdispatch)).1]
  exact rtpTimestamp?_emit (payloadType_lt burst.codec)

end

/-! ## The video loop, step by step -/

/-- A loop goes on without taking a frame of its kind, or it ends. -/
inductive Loop.Rests : Loop → Loop → Prop
  | same {loop : Loop} : Rests loop loop
  | passes {position position' : ℕ} {track : Option RuntimeTrack} {awaiting : Bool} :
      Rests (.running position track awaiting) (.running position' track awaiting)
  | ends {loop : Loop} : Rests loop .ended

namespace Session

variable {rtp : RtpTypes} {media : Media} {x : Session}

/-- The loop for video while the task runs its loops. -/
theorem videoLoop_of_loops {loops : Loops} (h : x.task.loops? = some loops) :
    x.videoLoop = loops.video := by
  rw [videoLoop]
  cases htask : x.task <;> rw [htask] at h <;> cases h <;> rfl

theorem loops_of_running {position : ℕ} {track : Option RuntimeTrack} {awaiting : Bool}
    (h : x.videoLoop = .running position track awaiting) :
    ∃ loops, x.task.loops? = some loops ∧ loops.video = .running position track awaiting := by
  rw [videoLoop] at h
  cases htask : x.task <;> rw [htask] at h <;> first | cases h | exact ⟨_, rfl, h⟩

theorem videoLoop_setLoop {loops : Loops} (h : x.task.loops? = some loops) (kind : TrackKind)
    (loop : Loop) : (x.setLoop loops kind loop).videoLoop = (loops.set loop kind).video := by
  refine videoLoop_of_loops ?_
  rw [setLoop]
  cases htask : x.task <;> rw [htask] at h <;> cases h <;> rfl

theorem videoPackets_outputs (track : RuntimeTrack) (packets : List Bytes) :
    videoPackets ((outputs track packets).map (TrackKind.video, ·)) = packets := by
  simp [videoPackets, outputs, List.filterMap_map, Function.comp_def]

theorem videoPackets_audio (out : List LoopOutput) :
    videoPackets (out.map (TrackKind.audio, ·)) = [] := by
  simp [videoPackets, List.filterMap_map]

/-- Handlers leave the burst's record and the subscription alone. -/
theorem handle_frame (x : Session) (handling : Handling) :
    (x.handle handling).firstVideoRtp = x.firstVideoRtp ∧
      (x.handle handling).subscription = x.subscription := by
  cases handling with
  | touch | appendTrack | fire | remove => exact ⟨rfl, rfl⟩
  | notify =>
    rw [handle, notifyWaiters]
    split <;> exact ⟨rfl, rfl⟩
  | finish =>
    rw [handle]
    split <;> exact ⟨rfl, rfl⟩

theorem rests_handle (x : Session) (handling : Handling) :
    x.videoLoop.Rests (x.handle handling).videoLoop := by
  cases handling with
  | touch | appendTrack | fire | remove => exact .same
  | notify =>
    rw [handle, notifyWaiters]
    split
    · next htask =>
      rw [videoLoop, htask]
      exact .same
    · next htask =>
      rw [videoLoop, htask]
      exact .same
    · exact .same
  | finish =>
    rw [handle]
    split
    · exact .ends
    · exact .same

/-- A step that neither starts the video loop nor hands it a video frame. -/
theorem act_rests {e : TaskEvent} (hbuild : ∀ seq taken, e ≠ .build .video seq taken)
    (hrecv : ∀ seq taken position track awaiting frame, e = .recv .video seq taken →
      x.videoLoop = .running position track awaiting → x.cancelled = false →
      (media.broadcast x.subscription.source)[position]? = some frame →
      frame.trackKind ≠ .video) :
    x.videoLoop.Rests (x.act rtp media e).1.videoLoop ∧
      videoPackets (x.act rtp media e).2 = [] := by
  have hacts := acts rtp media x e
  generalize x.act rtp media e = t at hacts ⊢
  cases hacts with
  | skip => exact ⟨.same, rfl⟩
  | register htask | park htask | pass htask | wake htask =>
    refine ⟨?_, rfl⟩
    rw [videoLoop, htask]
    exact .same
  | leave | joined => exact ⟨.ends, rfl⟩
  | select htask =>
    refine ⟨?_, rfl⟩
    rw [videoLoop, htask]
    exact .same
  | @build kind seq taken position loops loop out hloops hloop hstart =>
    cases kind with
    | video => exact absurd rfl (hbuild seq taken)
    | audio =>
      rw [videoLoop_setLoop hloops, videoLoop_of_loops hloops]
      exact ⟨.same, videoPackets_audio out⟩
  | @recv kind seq taken position loops loop track awaiting frame out first hloops hcancelled hloop
      hframe hone =>
    have hvideo : { x.setLoop loops kind loop with
        firstVideoRtp := x.firstVideoRtp <|> first }.videoLoop = (loops.set loop kind).video :=
      videoLoop_setLoop hloops kind loop
    rw [hvideo, videoLoop_of_loops hloops]
    cases kind with
    | audio => exact ⟨.same, videoPackets_audio out⟩
    | video =>
      -- The loop skips the frame, as it is of audio.
      have hkind := hrecv seq taken position track awaiting frame rfl
        ((videoLoop_of_loops hloops).trans hloop) hcancelled hframe
      rw [recvFrame, if_pos hkind] at hone
      cases hone
      exact ⟨(show loops.video = _ from hloop) ▸ .passes, rfl⟩
  | @fail kind cause loops hloops =>
    rw [videoLoop_setLoop hloops, videoLoop_of_loops hloops]
    cases kind
    · exact ⟨.ends, rfl⟩
    · exact ⟨.same, rfl⟩
  | @stop kind loops hloops =>
    rw [videoLoop_setLoop hloops, videoLoop_of_loops hloops]
    cases kind
    · exact ⟨.ends, rfl⟩
    · exact ⟨.same, rfl⟩

/-- The video loop starts, or there is no need to. -/
theorem act_build (x : Session) (seq : UInt16) (taken : ℕ) :
    (x.videoLoop.Rests (x.act rtp media (.build .video seq taken)).1.videoLoop ∧
      videoPackets (x.act rtp media (.build .video seq taken)).2 = []) ∨
    ∃ position loop out, x.videoLoop = .starting position ∧
      x.startLoop rtp media .video position seq taken = some (loop, out) ∧
      (x.act rtp media (.build .video seq taken)).1.videoLoop = loop ∧
      videoPackets (x.act rtp media (.build .video seq taken)).2 =
        videoPackets (out.map (.video, ·)) := by
  generalize he : TaskEvent.build .video seq taken = e
  have hacts := acts rtp media x e
  generalize x.act rtp media e = t at hacts ⊢
  cases hacts with
  | skip => exact .inl ⟨.same, rfl⟩
  | build hloops hloop hstart =>
    cases he
    refine .inr ⟨_, _, _, (videoLoop_of_loops hloops).trans hloop, hstart, ?_, rfl⟩
    rw [videoLoop_setLoop hloops]
    rfl
  | _ => cases he

/-- The video loop takes a frame. -/
theorem act_recv {position : ℕ} {track : Option RuntimeTrack} {awaiting : Bool} {frame : Frame}
    {seq : UInt16} {taken : ℕ} {loop : Loop} {out : List LoopOutput}
    {first : Option (UInt16 × UInt32)} (hloop : x.videoLoop = .running position track awaiting)
    (hcancelled : x.cancelled = false)
    (hframe : (media.broadcast x.subscription.source)[position]? = some frame)
    (hone : x.recvFrame rtp .video position track awaiting frame seq taken =
      some (loop, out, first)) :
    (x.act rtp media (.recv .video seq taken)).1.videoLoop = loop ∧
      (x.act rtp media (.recv .video seq taken)).2 = out.map (.video, ·) := by
  obtain ⟨loops, hloops, hvideo⟩ := loops_of_running hloop
  have hget : loops.get .video = .running position track awaiting := hvideo
  rw [act, hloops, hcancelled]
  dsimp only
  rw [hget]
  dsimp only
  rw [hframe]
  dsimp only
  rw [hone]
  exact ⟨videoLoop_setLoop hloops .video loop, rfl⟩

/-- The video loop starts with the burst, if packets of it were sent. -/
theorem startLoop_video (hrtp : rtp.Lawful) {position : ℕ} {seq : UInt16} {taken : ℕ} {loop : Loop}
    {out : List LoopOutput}
    (h : x.startLoop rtp media .video position seq taken = some (loop, out))
    (hsent : videoPackets (out.map (.video, ·)) ≠ []) :
    ∃ burst track, media.videoSnapshot x.subscription.camera = some burst ∧
      loop = .running position (some track) true ∧
      ∀ packet ∈ videoPackets (out.map (.video, ·)),
        rtpTimestamp? packet = some burst.capturedPts90khz := by
  unfold startLoop at h
  split at h
  · next track burst _ hbuild hburst =>
    obtain ⟨replay, hreplay, h⟩ := Option.bind_eq_some_iff.1 h
    cases h
    rw [videoPackets_outputs] at hsent ⊢
    have hpos : 0 < replay.sent := by
      refine Nat.pos_of_ne_zero fun hzero => hsent ?_
      rw [hzero, List.take_zero]
    refine ⟨burst, _, hburst, by rw [decide_eq_true hpos], fun packet hpacket => ?_⟩
    exact replayBurst_pts hrtp hreplay packet (List.mem_of_mem_take hpacket)
  · cases h
    exact absurd rfl hsent

/-- What the video loop does with a frame: it holds it back, it sends it and goes on, or it
    sends a part of it and ends. -/
theorem recvFrame_video (hrtp : rtp.Lawful) {frame : Frame} (hframe : frame.HasNals) (x : Session)
    (position : ℕ) (track : RuntimeTrack) (awaiting : Bool) (seq : UInt16) (taken : ℕ) :
    (awaiting = true ∧ frame.isKeyframe = false ∧
      x.recvFrame rtp .video position (some track) awaiting frame seq taken =
        some (.running (position + 1) (some track) awaiting, [], none)) ∨
    ∃ loop out first, (awaiting = false ∨ frame.isKeyframe) ∧
      x.recvFrame rtp .video position (some track) awaiting frame seq taken =
        some (loop, out, first) ∧
      (∀ packet ∈ videoPackets (out.map (.video, ·)), rtpTimestamp? packet = some frame.pts) ∧
      ((∃ track', loop = .running (position + 1) (some track') false ∧
        videoPackets (out.map (.video, ·)) ≠ []) ∨ loop = .ended) := by
  have hkind : frame.trackKind = .video := by
    cases frame with
    | video => rfl
    | audio => exact hframe.elim
  obtain ⟨packets, counters, hdispatch, hne, hpts⟩ := dispatch_hasNals hrtp hframe track.counters
  have htaken : ∀ packet ∈ packets.take taken, rtpTimestamp? packet = some frame.pts :=
    fun packet hpacket => hpts packet (List.mem_of_mem_take hpacket)
  rw [recvFrame, if_neg (not_not.2 hkind)]
  dsimp only [HOrElse.hOrElse, OrElse.orElse, Option.orElse]
  by_cases hclosed : awaiting = true ∧ frame.isKeyframe = false
  · rw [if_pos (by simp [hclosed])]
    exact .inl ⟨hclosed.1, hclosed.2, rfl⟩
  · rw [if_neg (by simpa using hclosed), dispatchOne, hdispatch]
    have hopen : awaiting = false ∨ frame.isKeyframe := by
      cases awaiting
      · exact .inl rfl
      · exact .inr (by simpa using hclosed)
    refine .inr ?_
    by_cases hall : taken < packets.length
    · -- The transport refuses a packet.
      refine ⟨.ended, outputs track (packets.take taken) ++ [.ended .sendFailed], none, hopen,
        ?_, ?_, .inr rfl⟩
      · simp [hall]
      · rw [List.map_append, videoPackets, List.filterMap_append, ← videoPackets,
          videoPackets_outputs]
        simpa using htaken
    · have htake : packets.take taken = packets := List.take_of_length_le (not_lt.1 hall)
      refine ⟨.running (position + 1) (some { track with counters }) false,
        outputs track (packets.take taken), some (track.counters.seq, frame.pts), hopen, ?_, ?_,
        .inl ⟨_, rfl, ?_⟩⟩
      · simp [hall, htake, hne]
      · rwa [videoPackets_outputs]
      · rwa [videoPackets_outputs, htake]

end Session

/-! ## What is kept along a run -/

/-- A frame that opens the gate of the video loop. -/
def flagged (sending : RecordedFrame × List Bytes) : Bool := sending.1.1.isKeyframe

/-- The gate of the loop is closed as long as nothing has passed it, and all that has was sent,
    but for the last where the loop has ended. -/
def Loop.Airs (passed : List (RecordedFrame × List Bytes)) : Loop → Prop
  | .starting _ => False
  | .running _ track awaiting =>
    track.isSome ∧ (awaiting = true ↔ passed = []) ∧ ∀ sending ∈ passed, sending.2 ≠ []
  | .ended => True

/-- A loop that rests has taken the same frames. -/
theorem Loop.Rests.airs {loop loop' : Loop} {passed : List (RecordedFrame × List Bytes)}
    (hrests : loop.Rests loop') (h : loop.Airs passed) : loop'.Airs passed := by
  cases hrests with
  | same => exact h
  | passes => exact h
  | ends => trivial

namespace Viewing

/-- A burst that was replayed, and what was sent since. -/
structure Airs (v : Viewing) (r : Replayed) : Prop where
  nonempty : r.packets ≠ []
  burst : ∀ packet ∈ r.packets, rtpTimestamp? packet = some r.burst.capturedPts90khz
  stamped : ∀ sending ∈ v.taken, ∀ packet ∈ sending.2, rtpTimestamp? packet = some sending.1.1.pts
  held : ∀ sending ∈ Gate.held flagged v.taken, sending.2 = []
  passed : ∀ sending ∈ (Gate.passed flagged v.taken).dropLast, sending.2 ≠ []
  loop : v.session.videoLoop.Airs (Gate.passed flagged v.taken)

/-- What holds of a viewing: the loop has taken what was sent, one frame after the other. -/
structure Kept (v : Viewing) : Prop where
  sound : v.source.Sound
  source : v.session.subscription.source = 0
  taken : v.replayed = none → v.taken = []
  airs : ∀ r ∈ v.replayed, v.Airs r

variable {rtp : RtpTypes} {v : Viewing}

theorem broadcast_media (h : v.session.subscription.source = 0) :
    v.media.broadcast v.session.subscription.source = v.source.broadcast.map Sent.frame := by
  rw [h]
  rfl

/-- The burst that is replayed is that of the source. -/
theorem videoSnapshot_media :
    v.media.videoSnapshot v.session.subscription.camera = v.source.lastFrame := by
  rw [Media.videoSnapshot, media]
  cases v.source.lastFrame <;> simp

/-- Nothing comes of a step for what was sent. -/
theorem Kept.rests {w : Viewing} (h : v.Kept) (hsound : w.source.Sound)
    (hsource : w.session.subscription = v.session.subscription)
    (hloop : v.session.videoLoop.Rests w.session.videoLoop) (hreplayed : w.replayed = v.replayed)
    (htaken : w.taken = v.taken) : w.Kept where
  sound := hsound
  source := hsource ▸ h.source
  taken hnone := htaken.trans (h.taken (hreplayed.symm.trans hnone))
  airs r hr := by
    have hr' := h.airs r (hreplayed ▸ hr)
    refine ⟨hr'.nonempty, hr'.burst, ?_, ?_, ?_, ?_⟩ <;> rw [htaken]
    · exact hr'.stamped
    · exact hr'.held
    · exact hr'.passed
    · exact hloop.airs hr'.loop

theorem subscription_act (x : Session) (media : Media) (e : TaskEvent) :
    (x.act rtp media e).1.subscription = x.subscription := (Session.act_frame rtp media x e).2.2.1

/-- The loop starts, with or without a burst. -/
theorem Kept.build (hrtp : rtp.Lawful) (h : v.Kept) (seq : UInt16) (taken : ℕ) :
    (v.act rtp (.build .video seq taken)).Kept := by
  have hsubscription := @subscription_act rtp v.session v.media (.build .video seq taken)
  rcases @Session.act_build rtp v.media v.session seq taken with ⟨hrests, hpackets⟩ |
    ⟨position, loop, out, hstarting, hstart, hloop, hpackets⟩
  · exact h.rests h.sound hsubscription hrests (if_pos hpackets) rfl
  · have hnone : v.replayed = none := by
      cases hr : v.replayed with
      | none => rfl
      | some r =>
        have hloop := (h.airs r hr).loop
        rw [hstarting] at hloop
        exact hloop.elim
    refine ⟨h.sound, hsubscription ▸ h.source, fun _ => h.taken hnone, fun r hr => ?_⟩
    dsimp only [act] at hr ⊢
    split at hr
    · rw [hnone] at hr
      cases hr
    · next hsent =>
      rw [hpackets] at hsent hr
      obtain ⟨burst, track, hburst, rfl, hpts⟩ := Session.startLoop_video hrtp hstart hsent
      rw [videoSnapshot_media] at hburst
      rw [hburst] at hr
      cases hr
      -- Nothing was taken yet, and the gate of the loop is closed.
      refine ⟨hsent, hpts, ?_, ?_, ?_, ?_⟩ <;> dsimp only <;> rw [h.taken hnone]
      · exact List.forall_mem_nil _
      · exact List.forall_mem_nil _
      · exact List.forall_mem_nil _
      · rw [hloop]
        exact ⟨rfl, iff_of_true rfl rfl, List.forall_mem_nil _⟩

/-- The gate holds back a frame. -/
theorem Airs.hold {w : Viewing} {r : Replayed} {sending : RecordedFrame × List Bytes}
    (h : v.Airs r) (htaken : w.taken = v.taken ++ [sending])
    (hclosed : Gate.passed flagged v.taken = []) (hkey : flagged sending = false)
    (hnil : sending.2 = []) (hloop : w.session.videoLoop.Airs []) : w.Airs r := by
  obtain ⟨hheld, hpassed⟩ := Gate.held_concat_of_closed hclosed hkey
  refine ⟨h.nonempty, h.burst, ?_, ?_, ?_, ?_⟩ <;> rw [htaken]
  · refine List.forall_mem_append.2 ⟨h.stamped, List.forall_mem_singleton.2 ?_⟩
    rw [hnil]
    exact List.forall_mem_nil _
  · rw [hheld]
    exact List.forall_mem_append.2 ⟨h.held, List.forall_mem_singleton.2 hnil⟩
  · rw [hpassed]
    exact List.forall_mem_nil _
  · rwa [hpassed]

/-- The gate lets a frame pass. -/
theorem Airs.pass {w : Viewing} {r : Replayed} {sending : RecordedFrame × List Bytes}
    (h : v.Airs r) (htaken : w.taken = v.taken ++ [sending])
    (hall : ∀ earlier ∈ Gate.passed flagged v.taken, earlier.2 ≠ [])
    (hopen : Gate.passed flagged v.taken ≠ [] ∨ flagged sending)
    (hpts : ∀ packet ∈ sending.2, rtpTimestamp? packet = some sending.1.1.pts)
    (hloop : w.session.videoLoop.Airs (Gate.passed flagged v.taken ++ [sending])) : w.Airs r := by
  obtain ⟨hheld, hpassed⟩ := Gate.passed_concat_of_open hopen
  refine ⟨h.nonempty, h.burst, ?_, ?_, ?_, ?_⟩ <;> rw [htaken]
  · exact List.forall_mem_append.2 ⟨h.stamped, List.forall_mem_singleton.2 hpts⟩
  · rw [hheld]
    exact h.held
  · rwa [hpassed, List.dropLast_concat]
  · rwa [hpassed]

/-- What the receiver hands to the loop. -/
theorem nextFrame?_eq_some {frame : RecordedFrame} (h : v.nextFrame? = some frame) :
    ∃ position track awaiting, v.session.videoLoop = .running position track awaiting ∧
      v.session.cancelled = false ∧ v.source.broadcast[position]? = some (.video frame) := by
  rw [nextFrame?] at h
  split at h
  · next position track awaiting hloop hcancelled =>
    obtain ⟨sent, hsent, hvideo⟩ := Option.bind_eq_some_iff.1 h
    cases sent with
    | audio => cases hvideo
    | video frame' =>
      obtain rfl := Option.some.inj hvideo
      exact ⟨position, track, awaiting, hloop, hcancelled, hsent⟩
  · cases h

/-- Where it hands over no video frame, there is none next. -/
theorem Kept.trackKind_ne (h : v.Kept) (hnext : v.nextFrame? = none) {position : ℕ}
    {track : Option RuntimeTrack} {awaiting : Bool} {frame : Frame}
    (hloop : v.session.videoLoop = .running position track awaiting)
    (hcancelled : v.session.cancelled = false)
    (hframe : (v.media.broadcast v.session.subscription.source)[position]? = some frame) :
    frame.trackKind ≠ .video := by
  rw [broadcast_media h.source, List.getElem?_map] at hframe
  obtain ⟨sent, hsent, rfl⟩ := Option.map_eq_some_iff.1 hframe
  rw [nextFrame?, hloop, hcancelled] at hnext
  dsimp only at hnext
  rw [hsent] at hnext
  have hsound := h.sound.broadcast sent (List.mem_of_getElem? hsent)
  cases sent with
  | video => cases hnext
  | audio frame =>
    cases frame with
    | video => exact hsound.elim
    | audio => exact fun h => nomatch h

/-- The loop is handed the next frame. -/
theorem Kept.recv (hrtp : rtp.Lawful) (h : v.Kept) (seq : UInt16) (taken : ℕ) :
    (v.act rtp (.recv .video seq taken)).Kept := by
  have hsubscription := @subscription_act rtp v.session v.media (.recv .video seq taken)
  -- A frame of the live stream changes what was taken only after a replay.
  refine ⟨h.sound, hsubscription ▸ h.source, fun hnone => ?_, fun r hr => ?_⟩
  · have hnone : v.replayed = none := hnone
    dsimp only [act]
    rw [hnone]
    exact h.taken hnone
  · have hr : v.replayed = some r := hr
    have hairs := h.airs r hr
    have htaken : (v.act rtp (.recv .video seq taken)).taken = v.taken ++
        (v.nextFrame?.map (·, videoPackets
          (v.session.act rtp v.media (.recv .video seq taken)).2)).toList := by
      dsimp only [act]
      rw [hr]
      rfl
    -- Either nothing is there to be taken, or the loop takes the next frame of the broadcast.
    cases hnext : v.nextFrame? with
    | none =>
      obtain ⟨hrests, -⟩ := @Session.act_rests rtp v.media v.session (.recv .video seq taken)
        (fun _ _ h => nomatch h)
        (fun _ _ _ _ _ _ _ hloop hcancelled hframe => h.trackKind_ne hnext hloop hcancelled hframe)
      rw [hnext, Option.map_none, Option.toList_none, List.append_nil] at htaken
      refine ⟨hairs.nonempty, hairs.burst, ?_, ?_, ?_, ?_⟩ <;> rw [htaken]
      · exact hairs.stamped
      · exact hairs.held
      · exact hairs.passed
      · exact hrests.airs hairs.loop
    | some frame =>
      obtain ⟨position, track, awaiting, hloop, hcancelled, hsent⟩ := nextFrame?_eq_some hnext
      have hframe :
          (v.media.broadcast v.session.subscription.source)[position]? = some frame.1 := by
        rw [broadcast_media h.source, List.getElem?_map, hsent]
        rfl
      have hnals : frame.1.HasNals := h.sound.broadcast _ (List.mem_of_getElem? hsent)
      have hrunning := hairs.loop
      rw [hloop] at hrunning
      obtain ⟨htrack, hgate, hall⟩ := hrunning
      obtain ⟨track, rfl⟩ := Option.isSome_iff_exists.1 htrack
      rw [hnext, Option.map_some, Option.toList_some] at htaken
      -- A frame is held back while a key frame is awaited, or else it passes.
      rcases Session.recvFrame_video hrtp hnals v.session position track awaiting seq taken with
        ⟨hawaiting, hkey, hone⟩ | ⟨loop, out, first, hopen, hone, hpts, hend⟩
      · obtain ⟨hloop', hout⟩ := Session.act_recv hloop hcancelled hframe hone
        have hclosed := hgate.1 hawaiting
        refine hairs.hold htaken hclosed hkey (by rw [hout]; rfl) ?_
        dsimp only [act]
        rw [hloop']
        exact ⟨rfl, iff_of_true hawaiting rfl, List.forall_mem_nil _⟩
      · obtain ⟨hloop', hout⟩ := Session.act_recv hloop hcancelled hframe hone
        rw [hout] at htaken
        refine hairs.pass htaken hall ?_ hpts ?_
        · -- The gate is open, or the frame opens it.
          refine hopen.imp_left fun hopen hnil => ?_
          rw [hgate.2 hnil] at hopen
          cases hopen
        · dsimp only [act]
          rw [hloop']
          rcases hend with ⟨track', rfl, hne⟩ | rfl
          · refine ⟨rfl, iff_of_false (by simp) (by simp), ?_⟩
            exact List.forall_mem_append.2 ⟨hall, List.forall_mem_singleton.2 hne⟩
          · trivial

theorem Kept.step (hrtp : rtp.Lawful) (h : v.Kept) (e : Event) : (v.step rtp e).Kept := by
  cases e with
  | source e => exact h.rests (StreamSource.step_sound h.sound e) rfl .same rfl rfl
  | handle handling =>
    exact h.rests h.sound (Session.handle_frame v.session handling).2
      (Session.rests_handle v.session handling) rfl rfl
  | task e =>
    have hother (hbuild : ∀ seq taken, e ≠ .build .video seq taken)
        (hrecv : ∀ seq taken, e ≠ .recv .video seq taken)
        (hact : v.act rtp e = { v with session := (v.session.act rtp v.media e).1 }) :
        (v.act rtp e).Kept := by
      rw [hact]
      refine h.rests h.sound (subscription_act ..) ?_ rfl rfl
      exact (Session.act_rests hbuild fun seq taken _ _ _ _ he => absurd he (hrecv seq taken)).1
    cases e with
    | build kind seq taken =>
      cases kind with
      | video => exact h.build hrtp seq taken
      | audio => exact hother (by simp) (by simp) rfl
    | recv kind seq taken =>
      cases kind with
      | video => exact h.recv hrtp seq taken
      | audio => exact hother (by simp) (by simp) rfl
    | register | check | notified | cancelled | fail | stop | select | joined =>
      exact hother (by simp) (by simp) rfl

theorem Kept.run (hrtp : rtp.Lawful) (h : v.Kept) (events : List Event) :
    (v.run rtp events).Kept := by
  induction events generalizing v with
  | nil => exact h
  | cons e events ih => exact ih (h.step hrtp e)

/-- A session that was just set up has taken nothing. -/
theorem kept_setUp {source : StreamSource} (h : source.Sound) (stream : StreamKind)
    (id camera : Bytes) (track : TrackEntry) (now : Instant) :
    (setUp source stream id camera track now).Kept where
  sound := h
  source := rfl
  taken _ := rfl
  airs _ hr := nomatch hr

/-! ## From the frames to the packets -/

theorem filterMap_rtpTimestamp? {packets : List Bytes} {timestamp : UInt32}
    (h : ∀ packet ∈ packets, rtpTimestamp? packet = some timestamp) :
    packets.filterMap rtpTimestamp? = List.replicate packets.length timestamp := by
  rw [List.filterMap_congr h, ← List.map_const]
  exact congrFun (List.filterMap_eq_map (f := fun _ => timestamp)) packets

theorem live_eq : v.live = (Gate.passed flagged v.taken).map (·.1) :=
  Gate.passed_map (fun sending : RecordedFrame × List Bytes => sending.1) v.taken

/-- The burst and what has passed the gate, as blocks of packets with their timestamps. -/
def blocks (v : Viewing) (r : Replayed) : List (UInt32 × List Bytes) :=
  (r.burst.capturedPts90khz, r.packets) ::
    (Gate.passed flagged v.taken).map fun sending => (sending.1.1.pts, sending.2)

variable {r : Replayed}

/-- The packets are those of the burst, and then those of the frames that have passed. -/
theorem Airs.packets_eq (h : v.Airs r) (hr : v.replayed = some r) :
    v.packets = (v.blocks r).flatMap (·.2) := by
  have hheld : (Gate.held flagged v.taken).flatMap (·.2) = [] := List.flatMap_eq_nil_iff.2 h.held
  rw [packets, hr, ← @Gate.held_append_passed _ flagged v.taken, List.flatMap_append, hheld,
    blocks, List.flatMap_cons, List.flatMap_map]
  simp

/-- The times of the burst and of the live frames. -/
theorem blocks_labels (hr : v.replayed = some r) : (v.blocks r).map (·.1) =
    v.replayed.toList.map (·.burst.capturedPts90khz) ++ v.live.map (·.1.pts) := by
  rw [hr, live_eq, blocks, List.map_cons, List.map_map, List.map_map]
  rfl

/-- A block is of its timestamp. -/
theorem Airs.blocks_timestamp (h : v.Airs r) : ∀ block ∈ v.blocks r, ∀ packet ∈ block.2,
    rtpTimestamp? packet = some block.1 := by
  refine List.forall_mem_cons.2 ⟨h.burst, List.forall_mem_map.2 fun sending hsending => ?_⟩
  exact h.stamped sending (Gate.passed_subset hsending)

/-- A frame of which packets were sent has some. -/
theorem Airs.blocks_ne_nil (h : v.Airs r)
    (hall : ∀ sending ∈ Gate.passed flagged v.taken, sending.2 ≠ []) :
    ∀ block ∈ v.blocks r, block.2 ≠ [] :=
  List.forall_mem_cons.2 ⟨h.nonempty, List.forall_mem_map.2 hall⟩

theorem Airs.dropLast_blocks_ne_nil (h : v.Airs r) :
    ∀ block ∈ (v.blocks r).dropLast, block.2 ≠ [] := by
  rw [blocks]
  by_cases hnil : Gate.passed flagged v.taken = []
  · rw [hnil]
    exact List.forall_mem_nil _
  · rw [List.dropLast_cons_of_ne_nil (by simpa using hnil), ← List.map_dropLast]
    exact List.forall_mem_cons.2 ⟨h.nonempty, List.forall_mem_map.2 h.passed⟩

theorem filterMap_ne_nil {block : UInt32 × List Bytes} (hne : block.2 ≠ [])
    (h : ∀ packet ∈ block.2, rtpTimestamp? packet = some block.1) :
    block.2.filterMap rtpTimestamp? ≠ [] := by
  rw [filterMap_rtpTimestamp? h, Ne, List.replicate_eq_nil_iff, List.length_eq_zero_iff]
  exact hne

theorem eq_of_mem_filterMap {block : UInt32 × List Bytes}
    (h : ∀ packet ∈ block.2, rtpTimestamp? packet = some block.1) :
    ∀ timestamp ∈ block.2.filterMap rtpTimestamp?, timestamp = block.1 := by
  rw [filterMap_rtpTimestamp? h]
  exact fun timestamp => List.eq_of_mem_replicate

/-- The time of a block is that of its packets. -/
theorem Airs.timestamps_eq (h : v.Airs r) : ∀ block ∈ v.blocks r,
    ∀ timestamp ∈ block.2.filterMap rtpTimestamp?, timestamp = block.1 :=
  fun block hblock => eq_of_mem_filterMap (h.blocks_timestamp block hblock)

/-- The timestamps of the packets go forward with those of the frames. -/
theorem Airs.forward (h : v.Airs r) (hr : v.replayed = some r) (horderly : v.Orderly) :
    (v.packets.filterMap rtpTimestamp?).IsChain Word32.SerialLe := by
  have htimestamp := h.blocks_timestamp
  rw [h.packets_eq hr, List.filterMap_flatMap]
  refine Gate.isChain_flatMap h.timestamps_eq (fun block hblock => ?_) ?_
  · exact filterMap_ne_nil (h.dropLast_blocks_ne_nil block hblock)
      (htimestamp block (List.mem_of_mem_dropLast hblock))
  · rw [blocks_labels hr]
    exact horderly.forward

/-- A frame that is sent has passed the gate, so what came before it on the other side of the
    gate was sent as well. -/
theorem Airs.gated (h : v.Airs r) (horderly : v.Orderly) :
    Past.Always (fun before sending => sending.2 ≠ [] → ¬sending.1.1.isKeyframe →
      ∃ earlier ∈ before, earlier.2 ≠ [] ∧ v.Fresh earlier.1) v.taken := by
  have hfresh := horderly.fresh
  rw [live_eq, Past.always_map] at hfresh
  rw [← @Gate.held_append_passed _ flagged v.taken, Past.always_append]
  constructor
  · intro before sending after hsplit hne
    exact absurd (h.held sending (by rw [hsplit]; simp)) hne
  · intro before sending after hsplit _ hkey
    obtain ⟨frame, hframe, hfresh⟩ := hfresh before sending after hsplit hkey
    obtain ⟨earlier, hearlier, rfl⟩ := List.mem_map.1 hframe
    refine ⟨earlier, List.mem_append_right _ hearlier, h.passed earlier ?_, hfresh⟩
    rw [hsplit, List.dropLast_append_cons]
    exact List.mem_append_left _ hearlier

/-- Conversely, where all that has passed the gate was sent. -/
theorem Airs.orderly (h : v.Airs r) (hr : v.replayed = some r)
    (hall : ∀ sending ∈ Gate.passed flagged v.taken, sending.2 ≠ [])
    (hcontinues : v.ContinuesBurst) : v.Orderly := by
  constructor
  · have hgated := hcontinues.gated
    rw [← @Gate.held_append_passed _ flagged v.taken, Past.always_append] at hgated
    rw [live_eq, Past.always_map]
    intro before sending after hsplit hkey
    have hsent : sending.2 ≠ [] := hall sending (by rw [hsplit]; simp)
    obtain ⟨earlier, hearlier, hne, hfresh⟩ := hgated.2 before sending after hsplit hsent hkey
    -- It is not one that the gate held back.
    have hbefore : earlier ∈ before :=
      (List.mem_append.1 hearlier).resolve_left fun hheld => hne (h.held earlier hheld)
    exact ⟨earlier.1, List.mem_map_of_mem hbefore, hfresh⟩
  · have htimestamp := h.blocks_timestamp
    have hforward := hcontinues.forward
    rw [h.packets_eq hr, List.filterMap_flatMap, Gate.isChain_flatMap_iff h.timestamps_eq
      fun block hblock => filterMap_ne_nil (h.blocks_ne_nil hall block hblock)
        (htimestamp block hblock), blocks_labels hr] at hforward
    exact hforward

/-- Where the packets are in order, the live frames continue the burst. -/
theorem Kept.continuesBurst (h : v.Kept) (horderly : v.Orderly) : v.ContinuesBurst := by
  cases hr : v.replayed with
  | none =>
    have htaken := h.taken hr
    constructor
    · rw [htaken]
      exact Past.always_nil
    · rw [packets, hr, htaken]
      exact .nil
  | some r =>
    have hairs := h.airs r hr
    exact ⟨hairs.gated horderly, hairs.forward hr horderly⟩

/-- Where the live frames continue the burst, the packets are in order as long as the loop runs. -/
theorem Kept.orderly (h : v.Kept) (hloop : v.session.videoLoop ≠ .ended)
    (hcontinues : v.ContinuesBurst) : v.Orderly := by
  cases hr : v.replayed with
  | none =>
    have hlive : v.live = [] := by
      rw [live, h.taken hr]
      rfl
    refine ⟨?_, ?_⟩ <;> rw [hlive]
    · exact Past.always_nil
    · rw [hr]
      exact .nil
  | some r =>
    have hairs := h.airs r hr
    refine hairs.orderly hr ?_ hcontinues
    have hrunning := hairs.loop
    cases hvideo : v.session.videoLoop with
    | starting =>
      rw [hvideo] at hrunning
      exact hrunning.elim
    | running =>
      rw [hvideo] at hrunning
      exact hrunning.2.2
    | ended => exact absurd hvideo hloop

/-- In every run of a session with its source, the stream goes on from the burst as it should
    if the frames that the loop is handed do, and until the loop ends, only then. -/
theorem burst_to_live (hrtp : rtp.Lawful) (gapThreshold : Duration) (start : Instant)
    (lastFrame : Option VideoBurst) (audioPresence : AudioPresence) (paced : Bool)
    (past : List StreamSource.Event) (stream : StreamKind) (id camera : Bytes) (track : TrackEntry)
    (now : Instant) (events : List Event) :
    let v := (setUp ((StreamSource.new gapThreshold start lastFrame audioPresence paced).run past)
      stream id camera track now).run rtp events
    (v.Orderly → v.ContinuesBurst) ∧
      (v.session.videoLoop ≠ .ended → v.ContinuesBurst → v.Orderly) := by
  intro v
  have hsound := StreamSource.run_sound gapThreshold start lastFrame audioPresence paced past
  have hkept : v.Kept := (kept_setUp hsound stream id camera track now).run hrtp events
  exact ⟨hkept.continuesBurst, hkept.orderly⟩

/-! ## A key frame that was held -/

/-- A key frame packet, with its parameter sets. -/
def keyPacket (micros : UInt32) : StreamResult := .packet (.iframe ⟨.h264, micros, none,
  [0, 0, 0, 1, 0x67, 0x64, 0, 0x1f, 0, 0, 0, 1, 0x68, 0xee, 0, 0, 0, 1, 0x65, 0x88]⟩)

/-- A frame between key frames, at some time. -/
def deltaPacket (micros : UInt32) : StreamResult :=
  .packet (.pframe ⟨.h264, micros, [0, 0, 0, 1, 0x41, 0x9a]⟩)

/-- A session on the source of a camera that has sent its first key frame, `past` ago. -/
def warmedUp (past : List StreamSource.Event) : Viewing :=
  setUp ((StreamSource.new (Duration.ofSecs 3) 0 none .unknown true).run
    (.result (keyPacket 1000000) 0 :: past)) .main (utf8 "a") (utf8 "porch")
    ⟨.video, .tcpInterleaved 0 1, 7, 90000⟩ 0

/-- The pacer takes the next frame, and sends it. -/
def paces (taken sent : Duration) : List Event :=
  [.source (.recvVideo taken), .source (.emitVideo sent)]

/-- `PLAY`, and the start of the video loop with its replay. -/
def playing : List Event :=
  [.task .register, .handle .fire, .handle .notify, .task .check, .task (.build .video 7 100)]

/-- The loop takes a frame, and the transport takes all its packets. -/
def taking : Event := .task (.recv .video 0 100)

/-- The camera sends a frame and the next key frame before the pacer sends the first one and
    the frame after it. Then the session plays: the burst is the later key frame. -/
def bufferedKey : List Event :=
  [.source (.result (deltaPacket 1500000) (Duration.ofMillis 500)),
    .source (.result (keyPacket 2000000) (Duration.ofMillis 1000))] ++
    paces 0 (Duration.ofMillis 1500) ++ paces (Duration.ofMillis 1500) (Duration.ofMillis 1500) ++
    playing ++ [taking, taking]

/-- The first key frame opens the gate: the timestamps step back, and the frame after it is
    sent with no key frame since the burst. -/
theorem bufferedKey_not_continuesBurst :
    ((warmedUp []).run rfc3550 bufferedKey).packets.filterMap rtpTimestamp? =
        [180000, 90000, 135000] ∧
      (((warmedUp []).run rfc3550 bufferedKey).taken.map fun sending =>
        (sending.1.1.isKeyframe, decide (((warmedUp []).run rfc3550 bufferedKey).Fresh sending.1),
          sending.2.length)) = [(true, false, 1), (false, false, 1)] ∧
      ¬((warmedUp []).run rfc3550 bufferedKey).ContinuesBurst := by
  have htimestamps : ((warmedUp []).run rfc3550 bufferedKey).packets.filterMap rtpTimestamp? =
      [180000, 90000, 135000] := by decide +kernel
  refine ⟨htimestamps, by decide +kernel, fun h => ?_⟩
  have hforward := h.forward
  rw [htimestamps] at hforward
  revert hforward
  decide

/-- The camera sends a frame, the pacer sends it on, and the loop takes it. -/
def deliver (result : StreamResult) (now : Instant) : List Event :=
  .source (.result result now) :: paces now now ++ [taking]

/-- The session plays when the first key frame is sent already. A frame of its group comes next,
    then the next key frame, and the frame after it. -/
def freshKey : List Event :=
  playing ++ deliver (deltaPacket 1500000) (Duration.ofMillis 1600) ++
    deliver (keyPacket 2000000) (Duration.ofMillis 2100) ++
    deliver (deltaPacket 2500000) (Duration.ofMillis 2600)

/-- The first frame after the burst is held back, and the stream goes on with the key frame. -/
theorem burst_to_live_freshKey :
    ((warmedUp [.recvVideo 0, .emitVideo (Duration.ofMillis 1500)]).run rfc3550
        freshKey).ContinuesBurst ∧
      ((warmedUp [.recvVideo 0, .emitVideo (Duration.ofMillis 1500)]).run rfc3550
        freshKey).taken.map (fun sending => (sending.1.1.isKeyframe, sending.2.length)) =
          [(false, 0), (true, 1), (false, 1)] := by
  refine ⟨?_, by decide +kernel⟩
  refine (burst_to_live rfc3550_lawful (Duration.ofSecs 3) 0 none .unknown true
    [.result (keyPacket 1000000) 0, .recvVideo 0, .emitVideo (Duration.ofMillis 1500)] .main
    (utf8 "a") (utf8 "porch") ⟨.video, .tcpInterleaved 0 1, 7, 90000⟩ 0 freshKey).1 ?_
  show ((warmedUp [.recvVideo 0, .emitVideo (Duration.ofMillis 1500)]).run rfc3550
    freshKey).Orderly
  decide +kernel

end Viewing

end Bairelay
