import Bairelay.Rtsp.Auth
import Bairelay.Rtsp.SessionTask

/-!
# Sessions

A session of a connection, and its task (`rtsp/server/registry.rs`,
`rtsp/server/session_task.rs`).

The entry of a session is made by a `SETUP` and shared by the registry, where the handlers
of requests find it by its id, and the task that is started with it. The task waits for
`PLAY` at a gate. Then it has two loops, one for each kind of media, each of which takes
the frames of the source from a position of its own, and sends them on the first track of
its kind. When one of them ends, or the session is cancelled, the other one is ended as
well, and the task removes the session from the registry, by its id.

A step of a task (`Session.act`) is what it does up to the next point where the handlers or
another task may come in; sending a frame is one step.
-/

namespace Bairelay

/-- A track of a session: what one `SETUP` has set up. -/
structure TrackEntry where
  kind : TrackKind
  transport : Transport
  ssrc : UInt32
  clockRate : UInt32
  deriving DecidableEq, Repr

/-- What is announced of a stream. -/
structure SdpParams where
  video : Option VideoParams := none
  audio : Option AudioParams := none
  deriving DecidableEq, Repr

/-- The source of a stream of a camera, with all the frames it has sent. -/
structure Source where
  camera : Bytes
  kind : StreamKind
  sdpParams : SdpParams := {}
  broadcast : List Frame := []
  deriving DecidableEq, Repr

/-- The sources by their numbers, and the bursts recorded for the cameras. A camera has one
    buffer for its last frame, whatever the stream. -/
structure Media where
  sources : List Source := []
  recorded : List (Bytes × VideoBurst) := []
  deriving DecidableEq, Repr

namespace Media

/-- The burst in the buffer of a camera. -/
def videoSnapshot (media : Media) (camera : Bytes) : Option VideoBurst :=
  (media.recorded.reverse.find? (·.1 = camera)).map (·.2)

/-- The frames a source has sent. -/
def broadcast (media : Media) (source : ℕ) : List Frame :=
  (media.sources[source]?.map Source.broadcast).getD []

end Media

/-- What a session has got from the provider: a receiver of the frames of a source. -/
structure Subscription where
  camera : Bytes
  source : ℕ
  sdpParams : SdpParams
  deriving DecidableEq, Repr

/-! ## The loops -/

/-- The track a loop sends on. -/
structure RuntimeTrack where
  transport : Transport
  counters : RtpCounters
  deriving DecidableEq, Repr

/-- A loop, with its position in what the source sends. -/
inductive Loop where
  | starting (position : ℕ)
  | running (position : ℕ) (track : Option RuntimeTrack) (awaitingLiveKeyframe : Bool)
  | ended
  deriving DecidableEq, Repr

/-- Why a loop ends by itself. -/
inductive LoopEnd where
  | sendFailed
  | lagged
  | closed
  deriving DecidableEq, Repr

/-- The loops of the two kinds. -/
structure Loops where
  video : Loop
  audio : Loop
  deriving DecidableEq, Repr

namespace Loops

/-- The loop of a kind. -/
def get (loops : Loops) : TrackKind → Loop
  | .video => loops.video
  | .audio => loops.audio

/-- Another loop for a kind. -/
def set (loops : Loops) (loop : Loop) : TrackKind → Loops
  | .video => { loops with video := loop }
  | .audio => { loops with audio := loop }

end Loops

/-! ## The task -/

/-- Where the task of a session is. -/
inductive Task where
  | spawned
  /-- The future for the signal of `PLAY` is made; `notified` says whether it came. -/
  | registered (notified : Bool)
  /-- `PLAY` had not been there, and the task waits. -/
  | parked (notified : Bool)
  | playing (loops : Loops)
  /-- The loops are cancelled, and the task waits for their ends. -/
  | joining (loops : Loops)
  | cleaning
  | finished
  deriving DecidableEq, Repr

/-- The loops of a task, if it has any. -/
def Task.loops? : Task → Option Loops
  | .playing loops | .joining loops => some loops
  | .spawned | .registered _ | .parked _ | .cleaning | .finished => none

/-- A task with its loops changed. -/
def Task.setLoops (task : Task) (loops : Loops) : Task :=
  match task with
  | .playing _ => .playing loops
  | .joining _ => .joining loops
  | _ => task

/-- The entry of a session, with its task. `request` is the number of the `SETUP` that has
    made it, and `inRegistry` says whether the registry holds it. -/
structure Session where
  id : Bytes
  request : ℕ
  subscription : Subscription
  /-- Where the receiver of the task starts. -/
  position : ℕ
  tracks : List TrackEntry
  lastActivity : Instant
  inRegistry : Bool := true
  cancelled : Bool := false
  firstVideoRtp : Option (UInt16 × UInt32) := none
  playFired : Bool := false
  task : Task := .spawned
  deriving DecidableEq, Repr

/-- What a task does next; random numbers and what the transport takes come with it. -/
inductive TaskEvent where
  /-- Make the future for the signal. -/
  | register
  /-- Look at the flag. -/
  | check
  | notified
  /-- The wait at the gate ends with the session. -/
  | cancelled
  /-- A loop starts, with `seq` as the first number, on a transport that takes so many
      packets. -/
  | build (kind : TrackKind) (seq : UInt16) (taken : ℕ)
  | recv (kind : TrackKind) (seq : UInt16) (taken : ℕ)
  /-- The receiver of a loop has lagged, or the source is gone. -/
  | fail (kind : TrackKind) (cause : LoopEnd)
  /-- A loop sees that the session is cancelled. -/
  | stop (kind : TrackKind)
  /-- The session is cancelled, or a loop has ended. -/
  | select
  | joined
  deriving DecidableEq, Repr

/-- What a loop gives out: the packets that the transport took, and its end. -/
inductive LoopOutput where
  | packet (transport : Transport) (packet : Bytes)
  | ended (cause : LoopEnd)
  deriving DecidableEq, Repr

/-- The kind of a frame. -/
def Frame.trackKind : Frame → TrackKind
  | .video .. => .video
  | .audio .. => .audio

/-- The timestamp of a frame. -/
def Frame.pts : Frame → UInt32
  | .video _ _ pts90khz _ _ => pts90khz
  | .audio _ pts => pts

/-- Whether a loop may begin with the frame. -/
def Frame.isKeyframe : Frame → Bool
  | .video _ _ _ keyframe _ => keyframe
  | .audio .. => false

namespace Session

variable (rtp : RtpTypes) (media : Media)

/-- The registry lets go of the entry, and cancels the session. -/
def remove (x : Session) : Session := { x with inRegistry := false, cancelled := true }

/-- `SETUP` adds a track. -/
def appendTrack (x : Session) (track : TrackEntry) : Session :=
  { x with tracks := x.tracks ++ [track] }

/-- Wake the task if it has made its future for the signal. -/
def notifyWaiters (x : Session) : Session :=
  match x.task with
  | .registered _ => { x with task := .registered true }
  | .parked _ => { x with task := .parked true }
  | _ => x

/-- The track of a kind that comes first. -/
def buildRuntimeForKind (x : Session) (kind : TrackKind) (seq : UInt16) : Option RuntimeTrack :=
  (x.tracks.find? (·.kind = kind)).map fun entry => ⟨entry.transport, ⟨entry.ssrc, seq⟩⟩

/-- The packets of a track that its transport took. -/
def outputs (track : RuntimeTrack) (packets : List Bytes) : List LoopOutput :=
  packets.map (.packet track.transport)

/-- A loop starts: it looks for its track, and replays the burst if it is that of video. -/
def startLoop (x : Session) (kind : TrackKind) (position : ℕ) (seq : UInt16) (taken : ℕ) :
    Option (Loop × List LoopOutput) :=
  match kind, x.buildRuntimeForKind kind seq, media.videoSnapshot x.subscription.camera with
  | .video, some track, some burst => do
    let replay ← replayBurst rtp (· < taken) burst track.counters
    return (.running position (some { track with counters := replay.counters })
      (decide (0 < replay.sent)), outputs track (replay.packets.take replay.sent))
  | _, track, _ => some (.running position track false, [])

/-- Send a frame on a track: the packets it took, and the counters, if it took all. -/
def dispatchOne (frame : Frame) (track : RuntimeTrack) (taken : ℕ) :
    Option (List Bytes × Option RtpCounters) := do
  let (packets, counters) ← dispatch rtp frame track.counters
  return (packets.take taken, if taken < packets.length then none else some counters)

/-- A loop takes the next frame: what comes of it, and of the first packet of video if this
    is it. -/
def recvFrame (x : Session) (kind : TrackKind) (position : ℕ) (track : Option RuntimeTrack)
    (awaiting : Bool) (frame : Frame) (seq : UInt16) (taken : ℕ) :
    Option (Loop × List LoopOutput × Option (UInt16 × UInt32)) :=
  -- Of the broadcast each loop takes the frames of its own kind.
  if frame.trackKind ≠ kind then some (.running (position + 1) track awaiting, [], none)
  else
    match track <|> x.buildRuntimeForKind kind seq with
    -- No track of that kind yet: the frame is lost, and the next one looks again.
    | none => some (.running (position + 1) none awaiting, [], none)
    | some track =>
      -- After a replay, the next key frame opens the gate.
      if awaiting && !frame.isKeyframe then
        some (.running (position + 1) (some track) awaiting, [], none)
      else do
        match ← dispatchOne rtp frame track taken with
        | (packets, some counters) =>
          let first := if kind = .video ∧ packets ≠ [] then some (track.counters.seq, frame.pts)
            else none
          return (.running (position + 1) (some { track with counters }) false,
            outputs track packets, first)
        -- Some packets went out before one failed; the counters stay behind with the loop.
        | (packets, none) =>
          return (.ended, outputs track packets ++ [.ended .sendFailed], none)

/-- The session with a loop of its task changed. -/
def setLoop (x : Session) (loops : Loops) (kind : TrackKind) (loop : Loop) : Session :=
  { x with task := x.task.setLoops (loops.set loop kind) }

/-- The loops when they start: that of audio with what the source sends from now on. -/
def newLoops (x : Session) : Loops where
  video := .starting x.position
  audio := .starting (media.broadcast x.subscription.source).length

/-- A step of the task, but for the removal at its end; nothing happens where the task is
    not there. -/
def act (x : Session) : TaskEvent → Session × List (TrackKind × LoopOutput)
  | .register =>
    match x.task with
    | .spawned => ({ x with task := .registered false }, [])
    | _ => (x, [])
  | .check =>
    match x.task with
    | .registered notified =>
      -- Whether the session was started already is looked at behind the registration.
      ({ x with task := if x.playFired then .playing (x.newLoops media) else .parked notified },
        [])
    | _ => (x, [])
  | .notified =>
    match x.task with
    | .parked true => ({ x with task := .playing (x.newLoops media) }, [])
    | _ => (x, [])
  | .cancelled =>
    match x.task, x.cancelled with
    -- The task leaves before a start without any loop.
    | .parked _, true => ({ x with task := .cleaning }, [])
    | _, _ => (x, [])
  | .build kind seq taken =>
    match x.task.loops? with
    | none => (x, [])
    | some loops =>
      match loops.get kind with
      | .starting position =>
        match x.startLoop rtp media kind position seq taken with
        | some (loop, out) => (x.setLoop loops kind loop, out.map (kind, ·))
        | none => (x, [])
      | .running .. | .ended => (x, [])
  | .recv kind seq taken =>
    match x.task.loops?, x.cancelled with
    -- The loops look at the cancellation between two frames.
    | some loops, false =>
      match loops.get kind with
      | .running position track awaiting =>
        match (media.broadcast x.subscription.source)[position]? with
        | none => (x, [])
        | some frame =>
          match x.recvFrame rtp kind position track awaiting frame seq taken with
          | some (loop, out, first) =>
            ({ x.setLoop loops kind loop with firstVideoRtp := x.firstVideoRtp <|> first },
              out.map (kind, ·))
          | none => (x, [])
      | .starting _ | .ended => (x, [])
    | _, _ => (x, [])
  | .fail kind cause =>
    match x.task.loops?, x.cancelled with
    | some loops, false =>
      match loops.get kind, cause with
      -- A receiver that lags behind ends its loop as a closed one does.
      | .running .., .lagged | .running .., .closed =>
        (x.setLoop loops kind .ended, [(kind, .ended cause)])
      | _, _ => (x, [])
    | _, _ => (x, [])
  | .stop kind =>
    match x.task.loops?, x.cancelled with
    | some loops, true =>
      match loops.get kind with
      | .running .. => (x.setLoop loops kind .ended, [])
      | .starting _ | .ended => (x, [])
    | _, _ => (x, [])
  | .select =>
    match x.task with
    | .playing loops =>
      -- The first loop that ends takes the other one with it.
      if x.cancelled ∨ loops.video = .ended ∨ loops.audio = .ended then
        ({ x with task := .joining loops, cancelled := true }, [])
      else (x, [])
    | _ => (x, [])
  | .joined =>
    match x.task with
    -- The session is removed when both loops are joined.
    | .joining ⟨.ended, .ended⟩ => ({ x with task := .cleaning }, [])
    | _ => (x, [])

/-! ## What a step of a task does -/

/-- The steps of a task, with what they need. -/
inductive Acts (x : Session) : TaskEvent → Session × List (TrackKind × LoopOutput) → Prop
  | skip {e : TaskEvent} : Acts x e (x, [])
  | register (htask : x.task = .spawned) :
      Acts x .register ({ x with task := .registered false }, [])
  | park {notified : Bool} (htask : x.task = .registered notified) (hfired : x.playFired = false) :
      Acts x .check ({ x with task := .parked notified }, [])
  | pass {notified : Bool} (htask : x.task = .registered notified) (hfired : x.playFired) :
      Acts x .check ({ x with task := .playing (x.newLoops media) }, [])
  | wake (htask : x.task = .parked true) :
      Acts x .notified ({ x with task := .playing (x.newLoops media) }, [])
  | leave {notified : Bool} (htask : x.task = .parked notified) (hcancelled : x.cancelled) :
      Acts x .cancelled ({ x with task := .cleaning }, [])
  | build {kind : TrackKind} {seq : UInt16} {taken position : ℕ} {loops : Loops} {loop : Loop}
      {out : List LoopOutput} (hloops : x.task.loops? = some loops)
      (hloop : loops.get kind = .starting position)
      (hstart : x.startLoop rtp media kind position seq taken = some (loop, out)) :
      Acts x (.build kind seq taken) (x.setLoop loops kind loop, out.map (kind, ·))
  | recv {kind : TrackKind} {seq : UInt16} {taken position : ℕ} {loops : Loops} {loop : Loop}
      {track : Option RuntimeTrack} {awaiting : Bool} {frame : Frame} {out : List LoopOutput}
      {first : Option (UInt16 × UInt32)} (hloops : x.task.loops? = some loops)
      (hcancelled : x.cancelled = false) (hloop : loops.get kind = .running position track awaiting)
      (hframe : (media.broadcast x.subscription.source)[position]? = some frame)
      (hrecv : x.recvFrame rtp kind position track awaiting frame seq taken =
        some (loop, out, first)) :
      Acts x (.recv kind seq taken)
        ({ x.setLoop loops kind loop with firstVideoRtp := x.firstVideoRtp <|> first },
          out.map (kind, ·))
  | fail {kind : TrackKind} {cause : LoopEnd} {loops : Loops} (hloops : x.task.loops? = some loops)
      (hcancelled : x.cancelled = false) :
      Acts x (.fail kind cause) (x.setLoop loops kind .ended, [(kind, .ended cause)])
  | stop {kind : TrackKind} {loops : Loops} (hloops : x.task.loops? = some loops)
      (hcancelled : x.cancelled) : Acts x (.stop kind) (x.setLoop loops kind .ended, [])
  | select {loops : Loops} (htask : x.task = .playing loops)
      (hend : x.cancelled ∨ loops.video = .ended ∨ loops.audio = .ended) :
      Acts x .select ({ x with task := .joining loops, cancelled := true }, [])
  | joined (htask : x.task = .joining ⟨.ended, .ended⟩) :
      Acts x .joined ({ x with task := .cleaning }, [])

/-- What a step of the task does, case by case. -/
theorem acts (x : Session) (e : TaskEvent) : Acts rtp media x e (x.act rtp media e) := by
  -- One constructor of `Acts` for each branch of the task; where the task is elsewhere the event is
  -- skipped.
  cases e with
  | register =>
    rw [act]
    split
    · next htask => exact .register htask
    · exact .skip
  | check =>
    rw [act]
    split
    · next notified htask =>
      -- `notified()` is armed before the flag is read, so a start in between is not missed.
      split
      · next hfired => exact .pass htask hfired
      · next hfired => exact .park htask (Bool.not_eq_true _ ▸ hfired)
    · exact .skip
  | notified =>
    rw [act]
    split
    · next htask => exact .wake htask
    · exact .skip
  | cancelled =>
    rw [act]
    split
    · next htask hcancelled => exact .leave htask hcancelled
    · exact .skip
  -- A loop first builds its track, and replays the last frames if there are any.
  | build kind seq taken =>
    rw [act]
    split
    · exact .skip
    · next loops hloops =>
      split
      · next position hloop =>
        split
        · next loop out hstart => exact .build hloops hloop hstart
        · exact .skip
      · exact .skip
      · exact .skip
  -- A frame is received only while the session is not cancelled.
  | recv kind seq taken =>
    rw [act]
    split
    · next loops hloops hcancelled =>
      split
      · next position track awaiting hloop =>
        split
        · exact .skip
        · next frame hframe =>
          split
          · next loop out first hrecv => exact .recv hloops hcancelled hloop hframe hrecv
          · exact .skip
      · exact .skip
      · exact .skip
    · exact .skip
  | fail kind cause =>
    rw [act]
    split
    · next loops hloops hcancelled =>
      split
      · exact .fail hloops hcancelled
      · exact .fail hloops hcancelled
      · exact .skip
    · exact .skip
  | stop kind =>
    rw [act]
    split
    · next loops hloops hcancelled =>
      split
      · exact .stop hloops hcancelled
      · exact .skip
      · exact .skip
    · exact .skip
  -- The select ends when both loops have.
  | select =>
    rw [act]
    split
    · next loops htask =>
      split
      · next hend => exact .select htask hend
      · exact .skip
    · exact .skip
  | joined =>
    rw [act]
    split
    · next htask => exact .joined htask
    · exact .skip

/-- What a task leaves alone: all that the handlers see of a session, but for its end. -/
theorem act_frame (x : Session) (e : TaskEvent) :
    (x.act rtp media e).1.id = x.id ∧ (x.act rtp media e).1.request = x.request ∧
      (x.act rtp media e).1.subscription = x.subscription ∧
      (x.act rtp media e).1.tracks = x.tracks ∧
      (x.act rtp media e).1.inRegistry = x.inRegistry ∧
      (x.act rtp media e).1.playFired = x.playFired := by
  have h := acts rtp media x e
  generalize x.act rtp media e = t at h ⊢
  cases h <;> exact ⟨rfl, rfl, rfl, rfl, rfl, rfl⟩

end Session

end Bairelay
