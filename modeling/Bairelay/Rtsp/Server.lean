import Bairelay.Rtsp.Session

/-!
# A connection

The server's side of a connection: the handlers of requests (`rtsp/server/connection.rs`),
which run one after the other, the registry of sessions (`rtsp/server/registry.rs`), the
tasks of the sessions, and the provider of streams (`camera_provider.rs`). A step is what
one of them does up to the next point where another may come in: a `SETUP` looks for its
session, and then appends a track to it or subscribes and makes a new one; a `PLAY` looks for
its session, sets the flag, gives the signal, and answers.

What is sent and what happens to the sessions is kept in a log.
-/

namespace Bairelay

/-! ## The provider -/

/-- A camera as the server has it. -/
structure CameraConfig where
  name : Bytes
  enabled : Bool := true
  permittedUsers : List Bytes := []
  deriving DecidableEq, Repr

/-- What is configured, and the crates that are used. -/
structure ServerConfig where
  cameras : List CameraConfig
  realm : Realm
  digests : Digests
  rtp : RtpTypes

/-- Why there is no subscription; the texts are left out. -/
inductive StreamError where
  | unknownCamera
  | accessDenied
  | unavailable
  | internal
  deriving DecidableEq, Repr

/-- Whom a camera admits: everyone if no one is listed, or if no one had to authenticate. -/
def CameraConfig.permits (camera : CameraConfig) : Option Bytes → Bool
  | none => true
  | some user => camera.permittedUsers = [] || camera.permittedUsers.contains user

namespace ServerConfig

variable (config : ServerConfig)

/-- The camera of a name, among those that are enabled. -/
def camera? (name : Bytes) : Option CameraConfig :=
  (config.cameras.filter (·.enabled)).reverse.find? (·.name = name)

/-- Subscribe to a stream: the wake locks acquired, and the subscription. The camera comes
    up with a source, or not, as `outcome` has it. -/
def subscribe (sources : List Source) (camera : Bytes) (kind : StreamKind) (user : Option Bytes)
    (outcome : Except StreamError ℕ) : List Bytes × Except StreamError Subscription :=
  match config.camera? camera with
  -- A camera that is disabled is as unknown as one that is not there.
  | none => ([], .error .unknownCamera)
  | some handle =>
    -- Who may not watch does not wake the camera.
    if !handle.permits user then ([], .error .accessDenied)
    else
      ([camera], match outcome with
        | .error e => .error e
        | .ok i =>
          match sources[i]? with
          | some source =>
            -- The source is of the camera and the stream that were asked for.
            if source.camera = camera ∧ source.kind = kind then
              .ok ⟨camera, i, source.sdpParams⟩
            else .error .unavailable
          | none => .error .unavailable)

/-- The balanced stream is replaced by the smaller one if it is not available. -/
def subscribeWithExternFallback (sources : List Source) (camera : Bytes) (kind : StreamKind)
    (user : Option Bytes) (outcome fallback : Except StreamError ℕ) :
    List Bytes × Except StreamError Subscription :=
  match config.subscribe sources camera kind user outcome, kind with
  | (locks, .error .unavailable), .externStream =>
    let (locks', subscription) := config.subscribe sources camera .sub user fallback
    (locks ++ locks', subscription)
  | other, _ => other

end ServerConfig

/-! ## Responses -/

/-- The codes that are answered. -/
inductive StatusCode where
  | ok
  | badRequest
  | unauthorized
  | forbidden
  | notFound
  | sessionNotFound
  | unsupportedTransport
  | internalServerError
  | serviceUnavailable
  deriving DecidableEq, Repr

/-- A response; a body is what is announced of a stream. -/
structure Response where
  status : StatusCode
  cseq : UInt32
  headers : List (Bytes × Bytes) := []
  body : Option SdpParams := none
  deriving DecidableEq, Repr

/-! ## The state -/

/-- What a `SETUP` sets up, once it is authenticated and its transport is bound. -/
structure Setup where
  request : ℕ
  cseq : UInt32
  sessionId : Bytes
  target : ResolvedPath
  kind : TrackKind
  user : Option Bytes
  transport : Transport
  ssrc : UInt32
  deriving DecidableEq, Repr

/-- A `PLAY` of a session. -/
structure Play where
  request : ℕ
  cseq : UInt32
  uri : Bytes
  sessionId : Bytes
  deriving DecidableEq, Repr

/-- Where the handler of a request is. -/
inductive Handler where
  | idle
  /-- The session of a `SETUP` is there. -/
  | append (setup : Setup)
  /-- It is not. -/
  | subscribe (setup : Setup)
  /-- The session of a `PLAY` is there. -/
  | play (play : Play)
  /-- The flag of a session is set. -/
  | notify (play : Play) (session : ℕ)
  | answerPlay (play : Play)
  deriving DecidableEq, Repr

/-- Why the registry lets go of a session. -/
inductive Removal where
  | teardown
  | expired
  | connectionClosed
  /-- The id was inserted again. -/
  | replaced
  /-- The task of a session has come to its end. -/
  | cleanUp (session : ℕ)
  deriving DecidableEq, Repr

/-- An entry of the log. Requests and sessions are named by their numbers. -/
inductive Output where
  | response (request : ℕ) (response : Response)
  | authenticated (request : ℕ) (user : Bytes)
  | wakeLock (request : ℕ) (camera : Bytes)
  | created (request session : ℕ)
  /-- What is announced of a source was sent. -/
  | disclosed (request source : ℕ) (sdpParams : SdpParams)
  /-- A `SETUP` was answered with OK; its session, if it was still there. -/
  | setUp (setup : Setup) (session : Option ℕ)
  /-- The flag of a session was set by a `PLAY`. -/
  | playAccepted (session : ℕ)
  | media (session : ℕ) (kind : TrackKind) (transport : Transport) (packet : Bytes)
  | ended (session : ℕ) (kind : TrackKind) (cause : LoopEnd)
  | removed (session : ℕ) (cause : Removal)
  deriving DecidableEq, Repr

/-- A connection with its handler, the sessions and the media, and the log of what came of it. -/
structure Server where
  now : Instant := 0
  nonce : Nonce
  /-- How many requests there have been. -/
  requests : ℕ := 0
  handler : Handler := .idle
  closed : Bool := false
  /-- All sessions there have been. -/
  sessions : List Session := []
  media : Media := {}
  log : List Output := []
  deriving DecidableEq, Repr

/-- What a handler gets from outside: random values, ports of the pool for UDP, and the
    sources that the provider comes up with. -/
structure Ambient where
  ssrc : UInt32 := 0
  serverPorts : Option (UInt16 × UInt16) := none
  sessionId : Bytes := []
  nonce : Bytes := []
  outcome : Except StreamError ℕ := .error .unavailable
  fallback : Except StreamError ℕ := .error .unavailable

namespace Server

/-! ## The registry -/

/-- The session that the registry holds under an id. -/
def lookup (s : Server) (id : Bytes) : Option ℕ :=
  s.sessions.findIdx? fun x => x.inRegistry && x.id = id

/-- Whether a session is registered. -/
def contains (s : Server) (id : Bytes) : Bool := (s.lookup id).isSome

/-- Change the session that the registry holds under an id. -/
def onEntry (s : Server) (id : Bytes) (f : Session → Session) : Server :=
  { s with sessions := s.sessions.map fun x => if x.inRegistry ∧ x.id = id then f x else x }

/-- The registry lets go of some of its sessions. -/
def removeWhere (s : Server) (p : Session → Bool) (cause : Removal) : Server :=
  { s with
    sessions := s.sessions.map fun x => if x.inRegistry ∧ p x then x.remove else x
    log := s.log ++ (s.sessions.zipIdx.filter fun (x, _) => x.inRegistry && p x).map
      fun (_, i) => .removed i cause }

/-- Take the session of an id out of the registry. -/
def remove (s : Server) (id : Bytes) (cause : Removal) : Server :=
  s.removeWhere (fun x => x.id = id) cause

/-- At the close of the connection. -/
def clear (s : Server) : Server := s.removeWhere (fun _ => true) .connectionClosed

/-- Half a minute. -/
def maxIdle : Duration := 30 * 10 ^ 9

/-- Take out the sessions that were idle for too long. -/
def sweepExpired (s : Server) : Server :=
  s.removeWhere (fun x => maxIdle < s.now - x.lastActivity) .expired

/-- Insert a session, in the place of one of the same id. -/
def insert (s : Server) (x : Session) : Server :=
  let s := s.remove x.id .replaced
  { s with
    sessions := s.sessions ++ [x]
    log := s.log ++ [.created x.request s.sessions.length] }

/-- The session is in use. -/
def touch (s : Server) (id : Bytes) : Server :=
  s.onEntry id fun x => { x with lastActivity := s.now }

/-- The session has another track. -/
def appendTrack (s : Server) (id : Bytes) (track : TrackEntry) : Server :=
  s.onEntry id (·.appendTrack track)

/-! ## The handlers -/

/-- Log some output. -/
def emit (s : Server) (out : List Output) : Server := { s with log := s.log ++ out }

/-- Answer a request. -/
def respond (s : Server) (request : ℕ) (response : Response) : Server :=
  { s with handler := .idle, log := s.log ++ [.response request response] }

/-- Authenticate a request, if there are users: who it is from, or the response. -/
def authenticated (s : Server) (config : ServerConfig) (r : ParsedRequest) (ambient : Ambient)
    (method : Bytes) : Server × Except Response (Option Bytes) :=
  if config.realm.users = [] then (s, .ok none)
  else
    match authenticate config.digests config.realm s.now s.nonce ambient.nonce r method with
    | (.ok user, nonce) =>
      ({ s with nonce, log := s.log ++ [.authenticated s.requests user] }, .ok (some user))
    | (.challenge headers, nonce) =>
      ({ s with nonce }, .error ⟨.unauthorized, r.cseq, headers, none⟩)
    | (.forbidden, nonce) => ({ s with nonce }, .error ⟨.forbidden, r.cseq, [], none⟩)

/-- The status of an error of the provider. -/
def describeStatus : StreamError → StatusCode
  | .unknownCamera => .notFound
  | .accessDenied | .unavailable | .internal => .serviceUnavailable

/-- What is answered to a `SETUP` without a stream. -/
def setupStatus : StreamError → StatusCode
  | .unknownCamera => .notFound
  | .accessDenied => .forbidden
  | .unavailable | .internal => .serviceUnavailable

/-- Subscribe, and log the wake locks. -/
def subscribed (s : Server) (config : ServerConfig) (request : ℕ) (target : ResolvedPath)
    (user : Option Bytes) (ambient : Ambient) : Server × Except StreamError Subscription :=
  let (locks, subscription) := config.subscribeWithExternFallback s.media.sources target.camera
    target.stream user ambient.outcome ambient.fallback
  (s.emit (locks.map (.wakeLock request)), subscription)

/-- `DESCRIBE`: a stream is subscribed to for its description, and given up at once. -/
def handleDescribe (s : Server) (config : ServerConfig) (r : ParsedRequest)
    (ambient : Ambient) : Server :=
  -- A bad path is answered before the credentials are looked at.
  match resolve (extractPath r.uri) with
  | none => s.respond s.requests ⟨.notFound, r.cseq, [], none⟩
  | some target =>
    match s.authenticated config r ambient (utf8 "DESCRIBE") with
    | (s, .error response) => s.respond s.requests response
    | (s, .ok user) =>
      match s.subscribed config s.requests target user ambient with
      | (s, .error e) => s.respond s.requests ⟨describeStatus e, r.cseq, [], none⟩
      | (s, .ok subscription) =>
        -- The tracks are relative to the URI with a slash at its end.
        let base := if r.uri.getLast? = some 0x2f then r.uri else r.uri ++ [0x2f]
        (s.emit [.disclosed s.requests subscription.source subscription.sdpParams]).respond
          s.requests ⟨.ok, r.cseq, [(utf8 "Content-Type", utf8 "application/sdp"),
            (utf8 "Content-Base", base)], some subscription.sdpParams⟩

/-- Bind what the packets of a track are sent from; over UDP, that may fail. -/
def buildTransport (spec : TransportSpec) (ambient : Ambient) : Option Transport :=
  match spec with
  | .tcpInterleaved channelRtp channelRtcp => some (.tcpInterleaved channelRtp channelRtcp)
  | .udpUnicast clientRtpPort clientRtcpPort =>
    ambient.serverPorts.map fun (serverRtpPort, serverRtcpPort) =>
      .udpUnicast clientRtpPort clientRtcpPort serverRtpPort serverRtcpPort

/-- A `SETUP` up to where it looks for its session. -/
def handleSetup (s : Server) (config : ServerConfig) (r : ParsedRequest) (ambient : Ambient) :
    Server :=
  match setupTarget r.uri with
  | none => s.respond s.requests ⟨.notFound, r.cseq, [], none⟩
  | some (target, kind) =>
    match s.authenticated config r ambient (utf8 "SETUP") with
    | (s, .error response) => s.respond s.requests response
    | (s, .ok user) =>
      match r.transport.map TransportSpec.parse with
      | none => s.respond s.requests ⟨.badRequest, r.cseq, [], none⟩
      | some (.error _) => s.respond s.requests ⟨.unsupportedTransport, r.cseq, [], none⟩
      | some (.ok spec) =>
        match buildTransport spec ambient with
        -- A port that cannot be bound.
        | none => s.respond s.requests ⟨.internalServerError, r.cseq, [], none⟩
        | some transport =>
          let setup : Setup := {
            request := s.requests, cseq := r.cseq
            -- The client's own session id, or a fresh one.
            sessionId := r.session.getD ambient.sessionId
            target, kind, user, transport, ssrc := ambient.ssrc }
          { s with handler :=
              -- With the id in the registry the track joins its session.
              if s.contains setup.sessionId then .append setup else .subscribe setup }

/-- The `Session` header, with the time a session may be idle. -/
def sessionTimeout (sid : Bytes) : Bytes × Bytes := (utf8 "Session", sid ++ utf8 ";timeout=30")

/-- The answer to a `SETUP`. -/
def answerSetup (s : Server) (setup : Setup) (session : Option ℕ) : Server :=
  (s.emit [.setUp setup session]).respond setup.request
    ⟨.ok, setup.cseq, [(utf8 "Transport", setup.transport.response setup.ssrc),
      sessionTimeout setup.sessionId], none⟩

/-- The clock of a track; that of audio is what is announced of the stream. -/
def clockRate (kind : TrackKind) (sdpParams : Option SdpParams) : UInt32 :=
  match kind with
  | .video => 90000
  | .audio => ((sdpParams.bind SdpParams.audio).map AudioParams.sampleRate).getD 16000

/-- A track more for a session, if it is still there. -/
def setupAppend (s : Server) (setup : Setup) : Server :=
  let entry := s.lookup setup.sessionId
  let sdpParams := (entry.bind (s.sessions[·]?)).map (·.subscription.sdpParams)
  let track : TrackEntry :=
    ⟨setup.kind, setup.transport, setup.ssrc, clockRate setup.kind sdpParams⟩
  (s.appendTrack setup.sessionId track).answerSetup setup entry

/-- A new session with its first track. -/
def newSession (s : Server) (setup : Setup) (subscription : Subscription) : Session where
  id := setup.sessionId
  request := setup.request
  subscription := subscription
  position := (s.media.broadcast subscription.source).length
  tracks := [⟨setup.kind, setup.transport, setup.ssrc,
    clockRate setup.kind (some subscription.sdpParams)⟩]
  lastActivity := s.now

/-- `SETUP`, when there is no session yet: the stream is subscribed to, and the session entered. -/
def setupSubscribe (s : Server) (config : ServerConfig) (setup : Setup) (ambient : Ambient) :
    Server :=
  match s.subscribed config setup.request setup.target setup.user ambient with
  | (s, .error e) => s.respond setup.request ⟨setupStatus e, setup.cseq, [], none⟩
  | (s, .ok subscription) =>
    (s.insert (s.newSession setup subscription)).answerSetup setup (some s.sessions.length)

/-- `PLAY`, if there is such a session. -/
def handlePlay (s : Server) (r : ParsedRequest) : Server :=
  match r.session with
  | none => s.respond s.requests ⟨.badRequest, r.cseq, [], none⟩
  | some sid =>
    if s.contains sid then { s with handler := .play ⟨s.requests, r.cseq, r.uri, sid⟩ }
    else s.respond s.requests ⟨.sessionNotFound, r.cseq, [], none⟩

/-- The flag of the session is set, if it is still there. -/
def markPlaying (s : Server) (play : Play) : Server :=
  match s.lookup play.sessionId with
  | none => { s with handler := .answerPlay play }
  | some i => { s with
      handler := .notify play i
      sessions := s.sessions.modify i fun x => { x with playFired := true }
      log := s.log ++ [.playAccepted i] }

/-- The tasks that wait for `PLAY` go on. -/
def notifyPlaying (s : Server) (play : Play) (i : ℕ) : Server :=
  { s with
    handler := .answerPlay play
    sessions := s.sessions.modify i Session.notifyWaiters }

/-- The answer to a `PLAY`: with the number and the time of the first packet of video if it
    is there by then. -/
def answerPlay (s : Server) (play : Play) : Server :=
  let first := ((s.lookup play.sessionId).bind (s.sessions[·]?)).bind (·.firstVideoRtp)
  let rtpInfo := first.toList.map fun (seq, rtptime) =>
    (utf8 "RTP-Info", utf8 "url=" ++ play.uri ++ utf8 s!";seq={seq};rtptime={rtptime}")
  s.respond play.request ⟨.ok, play.cseq,
    [(utf8 "Session", play.sessionId), (utf8 "Range", utf8 "npt=now-")] ++ rtpInfo, none⟩

/-- `TEARDOWN` answers alike whether there was such a session or not. -/
def handleTeardown (s : Server) (r : ParsedRequest) : Server :=
  match r.session with
  | none => s.respond s.requests ⟨.badRequest, r.cseq, [], none⟩
  | some sid =>
    let response : Response :=
      if s.contains sid then ⟨.ok, r.cseq, [(utf8 "Session", sid)], none⟩
      else ⟨.sessionNotFound, r.cseq, [], none⟩
    (s.remove sid .teardown).respond s.requests response

/-- `OPTIONS` names the methods, and asks for no user. -/
def handleOptions (s : Server) (r : ParsedRequest) : Server :=
  s.respond s.requests ⟨.ok, r.cseq, [(utf8 "Public", utf8
    "OPTIONS, DESCRIBE, SETUP, PLAY, TEARDOWN, GET_PARAMETER, PAUSE")], none⟩

/-- `GET_PARAMETER` keeps a session alive. -/
def handleGetparameter (s : Server) (r : ParsedRequest) : Server :=
  s.respond s.requests ⟨.ok, r.cseq, r.session.toList.map sessionTimeout, none⟩

/-- The media are live: nothing is held back. -/
def handlePause (s : Server) (r : ParsedRequest) : Server :=
  s.respond s.requests ⟨.ok, r.cseq, r.session.toList.map (utf8 "Session", ·), none⟩

/-- A request that names a session shows that the client is there. -/
def touchSession (s : Server) (r : ParsedRequest) : Server :=
  match r.session with
  | some sid => s.touch sid
  | none => s

/-- A request goes to its handler, if its scheme is that of the connection. The session it names was
    used. -/
def dispatchRequest (s : Server) (config : ServerConfig) (r : ParsedRequest)
    (ambient : Ambient) : Server :=
  let s := { s with requests := s.requests + 1 }
  -- `rtsps` over the plain port is refused, and the other way round.
  if !schemeMatchesTransport r.uri config.realm.isTls then
    s.respond s.requests ⟨.badRequest, r.cseq, [], none⟩
  else
    -- Any request that names a session keeps it alive.
    let s := s.touchSession r
    match r.method with
    | .options => s.handleOptions r
    | .getParameter => s.handleGetparameter r
    | .pause => s.handlePause r
    | .describe => s.handleDescribe config r ambient
    | .setup => s.handleSetup config r ambient
    | .play => s.handlePlay r
    | .teardown => s.handleTeardown r

/-- The next step of the handler. -/
def proceed (s : Server) (config : ServerConfig) (ambient : Ambient) : Server :=
  match s.handler with
  | .idle => s
  | .append setup => s.setupAppend setup
  | .subscribe setup => s.setupSubscribe config setup ambient
  | .play play => s.markPlaying play
  | .notify play session => s.notifyPlaying play session
  | .answerPlay play => s.answerPlay play

/-! ## Steps -/

/-- An entry of the log for what a loop gives out. -/
def loopOutput (session : ℕ) : TrackKind × LoopOutput → Output
  | (kind, .packet transport packet) => .media session kind transport packet
  | (kind, .ended cause) => .ended session kind cause

/-- A step of the task of a session. -/
def taskStep (s : Server) (config : ServerConfig) (i : ℕ) (e : TaskEvent) : Server :=
  match s.sessions[i]? with
  | none => s
  | some x =>
    let (x, out) := x.act config.rtp s.media e
    { s with sessions := s.sessions.set i x, log := s.log ++ out.map (loopOutput i) }

/-- At the end of a task, it removes its session by its id. -/
def cleanUp (s : Server) (i : ℕ) : Server :=
  match s.sessions[i]? with
  | some x =>
    match x.task with
    | .cleaning =>
      let s := s.remove x.id (.cleanUp i)
      { s with sessions := s.sessions.modify i fun x => { x with task := .finished } }
    | _ => s
  | none => s

/-- What happens to a connection, its sessions, the sources and the cameras. -/
inductive Event where
  /-- What happens to the sources and the cameras. -/
  | sourceStarted (camera : Bytes) (kind : StreamKind)
  | announce (source : ℕ) (sdpParams : SdpParams)
  | broadcast (source : ℕ) (frame : Frame)
  | record (camera : Bytes) (burst : VideoBurst)
  | advance (d : Duration)
  /-- The steps of the connection. -/
  | request (r : ParsedRequest) (ambient : Ambient)
  | malformed
  | proceed (ambient : Ambient)
  | sweep
  | close
  /-- The steps of the tasks. -/
  | task (session : ℕ) (e : TaskEvent)
  | cleanUp (session : ℕ)

/-- The connection takes a request, sweeps and closes between requests only. -/
def ready (s : Server) : Bool := !s.closed && s.handler = .idle

/-- One step of any of them. -/
def step (config : ServerConfig) (s : Server) : Event → Server
  | .sourceStarted camera kind =>
    { s with media.sources := s.media.sources ++ [{ camera, kind }] }
  | .announce source sdpParams =>
    { s with media.sources := s.media.sources.modify source fun x => { x with sdpParams } }
  | .broadcast source frame =>
    { s with media.sources := s.media.sources.modify source fun x =>
        { x with broadcast := x.broadcast ++ [frame] } }
  | .record camera burst => { s with media.recorded := s.media.recorded ++ [(camera, burst)] }
  | .advance d => { s with now := s.now + d }
  | .request r ambient => if s.ready then s.dispatchRequest config r ambient else s
  | .malformed =>
    if s.ready then
      -- A request that cannot be read ends the connection.
      { (s.respond s.requests ⟨.badRequest, 0, [], none⟩).clear with closed := true }
    else s
  -- A request that waits goes on after other tasks have taken their steps.
  | .proceed ambient => if s.closed then s else s.proceed config ambient
  | .sweep => if s.ready then s.sweepExpired else s
  | .close => if s.ready then { s.clear with closed := true } else s
  | .task i e => s.taskStep config i e
  | .cleanUp i => s.cleanUp i

/-- The connection after some events. -/
def run (config : ServerConfig) (nonce : Nonce) (events : List Event) : Server :=
  events.foldl (step config) { nonce }

/-! ## A server of one camera -/

/-- A server with one camera on the porch, and Bob's password in Base64. -/
def porchServer (users : List UserCred) : ServerConfig where
  cameras := [{ name := utf8 "porch" }]
  realm := ⟨users, utf8 "home", true⟩
  digests := {
    base64 := fun s => if s = utf8 "Ym9iOnNlY3JldA==" then some (utf8 "bob:secret") else none
    md5 := fun _ => [] }
  rtp := rfc3550

/-- A request of bob in a session. -/
def porchRequest (method : RtspMethod) (session : Bytes) : ParsedRequest where
  method := method
  uri := utf8 "rtsps://home/porch/main"
  cseq := 1
  session := some session
  authorization := some (utf8 "Basic Ym9iOnNlY3JldA==")

/-- Set up a track of the camera. -/
def porchSetup (session : Bytes) (track : ℕ) : ParsedRequest :=
  { porchRequest .setup session with
    uri := utf8 s!"rtsps://home/porch/main/trackID={track}"
    transport := some (utf8 s!"RTP/AVP/TCP;unicast;interleaved={2 * track}-{2 * track + 1}") }

end Server

end Bairelay
