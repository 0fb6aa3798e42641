import Bairelay.Basic
import Bairelay.Rtsp.Url

/-!
# The handle of a camera

A camera, its connection and its stream sources (`camera.rs`), as the tasks see them that
share it:

* the connection loop (`run`, `run_connected_session`, `teardown_session_tasks`), which
  goes from session to session and fills and clears the slot with the connection;
* the callers of `stream_source`, for a `SETUP` (`camera_provider.rs`) or to warm the camera
  up, who find a source in the registry or make one, under a lock of their own;
* the watchdog, which prunes idle sources (`prune_idle_stream_sources_at`);
* the readers of the sources.

A step is what a task does up to the next point where another one may come in. The sources are
numbered, and so are the sessions; a source keeps the session whose connection it was started
against.
-/

namespace Bairelay

/-- Whether the camera is connected, as its handle says. -/
inductive CameraState where
  | disconnected
  | connecting
  | connected
  deriving DecidableEq, Repr

/-- A stream source with its reader. -/
structure SourceTask where
  kind : StreamKind
  session : ℕ
  reading : Bool := true
  cancelled : Bool := false
  subscribers : ℕ := 0
  lastIdleSince : Option Instant := none
  /-- It was let go without waiting for the end of its reader: it was pruned, or the wait
      took too long. -/
  released : Bool := false
  deriving DecidableEq, Repr

/-- Why there is no source. -/
inductive Unavailable where
  | shuttingDown
  | notConnectedInTime
  | noLongerConnected
  | notConnected
  | sdpNotReady
  deriving DecidableEq, Repr

/-- A call of `subscribe`, which calls `stream_source` first. -/
inductive Caller where
  /-- Until the camera is connected. -/
  | polling (kind : StreamKind)
  | connected (kind : StreamKind)
  /-- It was not in the registry, and the caller waits for the lock. -/
  | waiting (kind : StreamKind)
  | locked (kind : StreamKind)
  /-- It was not in the registry under the lock either. -/
  | missing (kind : StreamKind)
  /-- The camera is still connected. -/
  | admitted (kind : StreamKind)
  /-- The connection was in the slot. -/
  | starting (kind : StreamKind) (session : ℕ)
  | inserting (kind : StreamKind) (source : ℕ)
  /-- `stream_source` has returned; the caller waits for the parameters of the stream. -/
  | holding (source : ℕ)
  | subscribed (source : ℕ)
  | failed (error : Unavailable)
  | gone
  deriving DecidableEq, Repr

/-- Where the connection loop is. -/
inductive CameraTask where
  | idle
  | connecting
  /-- The state says so; the slot is not filled yet. -/
  | connected
  | serving
  /-- The session is cancelled, and its tasks are waited for. The loop may also be at its end
      (`quitting`), where the sources are stopped once more. -/
  | draining (quitting : Bool)
  /-- The sources that are left are stopped, one by one; `cancelled` says whether the first
      was told to. -/
  | stopping (quitting : Bool) (left : List ℕ) (cancelled : Bool)
  | loggingOut
  | loggedOut
  | exited
  deriving DecidableEq, Repr

/-- The handle of a camera, shared by the tasks of its sessions and by all clients. -/
structure CameraHandle where
  state : CameraState := .disconnected
  /-- The session whose connection is in the slot. -/
  camera : Option ℕ := none
  cancelled : Bool := false
  streamSources : List (StreamKind × ℕ) := []
  /-- The caller that holds it. -/
  streamSourceCreateLock : Option ℕ := none
  sources : List SourceTask := []
  callers : List Caller := []
  task : CameraTask := .idle
  /-- How many sessions there have been. -/
  sessions : ℕ := 0
  /-- How many of them were torn down. -/
  tornDown : ℕ := 0
  /-- The sources that `stream_source` has returned, with how many sessions were torn down
      by then. -/
  handedOut : List (ℕ × ℕ) := []
  deriving DecidableEq, Repr

/-! ## Sources -/

/-- A source has been idle for long enough. -/
def SourceTask.expired (s : SourceTask) (now : Instant) (grace : Duration) : Bool :=
  s.subscribers = 0 &&
    match s.lastIdleSince with
    | none => grace = 0
    | some since => grace ≤ now - since

/-- What a sweep makes of a source in the registry. -/
def SourceTask.swept (s : SourceTask) (now : Instant) (grace : Duration) :
    SourceTask :=
  if 0 < s.subscribers then { s with lastIdleSince := none }
  else
    let s' := { s with lastIdleSince := some (s.lastIdleSince.getD now) }
    if s.expired now grace then { s' with cancelled := true, released := true } else s'

namespace CameraHandle

/-! ## Callers -/

/-- The source of a stream that is in the map, if there is one. -/
def source? (h : CameraHandle) (kind : StreamKind) : Option ℕ :=
  (h.streamSources.find? (·.1 = kind)).map (·.2)

/-- One caller goes on. -/
def setCaller (h : CameraHandle) (i : ℕ) (caller : Caller) : CameraHandle :=
  { h with callers := h.callers.set i caller }

/-- `stream_source` returns a source. -/
def handOut (h : CameraHandle) (i source : ℕ) : CameraHandle :=
  { h.setCaller i (.holding source) with handedOut := h.handedOut ++ [(source, h.tornDown)] }

/-- The lock under which sources are made is free again. -/
def unlock (h : CameraHandle) : CameraHandle := { h with streamSourceCreateLock := none }

/-- Something happens to one source. -/
def modifySource (h : CameraHandle) (source : ℕ) (f : SourceTask → SourceTask) : CameraHandle :=
  { h with sources := h.sources.modify source f }

@[simp]
theorem modifySource_task (h : CameraHandle) (source : ℕ) (f : SourceTask → SourceTask) :
    (h.modifySource source f).task = h.task := rfl

/-- A step of a caller; `late` says whether it has waited long enough. -/
def stepCaller (h : CameraHandle) (i : ℕ) (late : Bool) : CameraHandle :=
  match h.callers[i]? with
  -- Polled until the camera is connected, for thirty seconds at most.
  | some (.polling kind) =>
    if h.cancelled then h.setCaller i (.failed .shuttingDown)
    else if h.state = .connected then h.setCaller i (.connected kind)
    else if late then h.setCaller i (.failed .notConnectedInTime)
    else h
  -- The fast path, without the mutex.
  | some (.connected kind) =>
    match h.source? kind with
    | some source => h.handOut i source
    | none => h.setCaller i (.waiting kind)
  -- The mutex under which sources are made.
  | some (.waiting kind) =>
    if h.streamSourceCreateLock = none then
      { h.setCaller i (.locked kind) with streamSourceCreateLock := some i }
    else h
  -- Another caller may have made the source meanwhile.
  | some (.locked kind) =>
    match h.source? kind with
    | some source => (h.handOut i source).unlock
    | none => h.setCaller i (.missing kind)
  -- The session may have come to its end in the meantime.
  | some (.missing kind) =>
    if h.cancelled ∨ h.state ≠ .connected then (h.setCaller i (.failed .noLongerConnected)).unlock
    else h.setCaller i (.admitted kind)
  -- The slot is cleared only after the logout, so it may hold the session that ends.
  | some (.admitted kind) =>
    match h.camera with
    | none => (h.setCaller i (.failed .notConnected)).unlock
    | some session => h.setCaller i (.starting kind session)
  | some (.starting kind session) =>
    { h.setCaller i (.inserting kind h.sources.length) with
      sources := h.sources ++ [{ kind, session }] }
  -- The mutex is released when the source is in the map.
  | some (.inserting kind source) =>
    ({ h with
      streamSources := (kind, source) :: h.streamSources.filter (·.1 ≠ kind) }.handOut i
        source).unlock
  -- The caller waits for the parameters of the stream before it subscribes.
  | some (.holding source) =>
    if late then h.setCaller i (.failed .sdpNotReady)
    else
      (h.modifySource source fun s => { s with subscribers := s.subscribers + 1 }).setCaller i
        (.subscribed source)
  | some (.subscribed _) | some (.failed _) | some .gone | none => h

/-- A caller leaves where it waits, or drops its subscription. -/
def leave (h : CameraHandle) (i : ℕ) : CameraHandle :=
  match h.callers[i]? with
  | some (.polling _) | some (.waiting _) | some (.holding _) => h.setCaller i .gone
  | some (.subscribed source) =>
    (h.modifySource source fun s => { s with subscribers := s.subscribers - 1 }).setCaller i .gone
  | _ => h

/-! ## The watchdog -/

/-- The sweep: sources that had no subscriber for longer than the grace are cancelled and leave the
    map. -/
def pruneIdleStreamSourcesAt (h : CameraHandle) (now : Instant) (grace : Duration) :
    CameraHandle :=
  { h with
    streamSources := h.streamSources.filter fun entry =>
      (h.sources[entry.2]?.map (!·.expired now grace)).getD true
    sources := h.sources.mapIdx fun i s =>
      if i ∈ h.streamSources.map (·.2) then s.swept now grace else s }

/-! ## The connection loop -/

/-- The steps of the loop that connects. -/
inductive TaskStep where
  | connect
  | connected
  | connectFailed
  /-- The connection is put into the slot. -/
  | fill
  /-- The keepalive has failed too often, or the session is over for another reason. -/
  | keepaliveFails
  /-- The registry is emptied, and the tasks of the session are gone. -/
  | drain
  | stop
  | joined
  | timedOut
  /-- No source is left. -/
  | stopped
  /-- The camera has answered, or not in time; the slot is cleared. -/
  | logout
  | disconnect
  /-- The loop ends. -/
  | quit
  deriving DecidableEq, Repr

/-- A step of the loop. The sources are taken down before the camera is logged out and the slot
    emptied, and only then does the state say so. -/
def stepTask (h : CameraHandle) (step : TaskStep) : CameraHandle :=
  match step, h.task with
  -- The loop looks at the shutdown before it connects.
  | .connect, .idle =>
    if h.cancelled then h else { h with task := .connecting, state := .connecting }
  | .connected, .connecting =>
    { h with task := .connected, state := .connected, sessions := h.sessions + 1 }
  | .connectFailed, .connecting => { h with task := .idle, state := .disconnected }
  | .fill, .connected => { h with task := .serving, camera := some (h.sessions - 1) }
  -- The state stays connected until the session has been torn down.
  | .keepaliveFails, .serving => { h with task := .draining false }
  -- The map is emptied at once; its sources are then stopped one by one.
  | .drain, .draining quitting =>
    { h with
      task := .stopping quitting (h.streamSources.map (·.2)) false
      streamSources := [] }
  | .stop, .stopping quitting (source :: left) false =>
    { h.modifySource source fun s => { s with cancelled := true } with
      task := .stopping quitting (source :: left) true }
  -- A source has stopped when its reader has.
  | .joined, .stopping quitting (source :: left) true =>
    if h.sources[source]?.any (·.reading) then h
    else { h with task := .stopping quitting left false }
  -- A reader that does not stop in time is left behind, and still holds its session.
  | .timedOut, .stopping quitting (source :: left) true =>
    { h.modifySource source fun s => { s with released := true } with
      task := .stopping quitting left false }
  | .stopped, .stopping false [] _ => { h with task := .loggingOut }
  | .stopped, .stopping true [] _ => { h with task := .exited }
  -- Only now is the slot empty, though the sources were stopped before.
  | .logout, .loggingOut => { h with task := .loggedOut, camera := none }
  | .disconnect, .loggedOut =>
    { h with task := .idle, state := .disconnected, tornDown := h.sessions }
  | .quit, .idle => { h with task := .draining true, state := .disconnected }
  | .quit, .connecting => { h with task := .draining true, state := .disconnected }
  | _, _ => h

/-! ## Steps -/

/-- The steps of callers, of the sweep and of the loop, in any order. -/
inductive Event where
  | call (kind : StreamKind)
  | caller (i : ℕ) (late : Bool)
  | leave (i : ℕ)
  | prune (now : Instant) (grace : Duration)
  /-- The reader of a source comes to its end. -/
  | readerEnds (source : ℕ)
  /-- The program shuts down. -/
  | cancel
  | task (step : TaskStep)
  deriving DecidableEq, Repr

/-- One step of one of them. -/
def step (h : CameraHandle) : Event → CameraHandle
  | .call kind => { h with callers := h.callers ++ [.polling kind] }
  | .caller i late => h.stepCaller i late
  | .leave i => h.leave i
  | .prune now grace => h.pruneIdleStreamSourcesAt now grace
  | .readerEnds source => h.modifySource source fun s => { s with reading := false }
  | .cancel => { h with cancelled := true }
  | .task step => h.stepTask step

/-- The handle after some events. -/
def run (events : List Event) : CameraHandle := events.foldl step {}

theorem run_concat (events : List Event) (e : Event) :
    run (events ++ [e]) = (run events).step e := by
  rw [run, List.foldl_concat, ← run]

end CameraHandle

end Bairelay
