import Bairelay.Wake.Address
import Bairelay.Wake.Handshake
import Bairelay.Wake.Resolve

/-!
# The datagrams of the wake server

The two loops of the wake server with all that they receive and send (`wake_server/middleman.rs`,
`register.rs`, `packet.rs`, `route.rs`). A client that asks for a camera makes the server send it
a burst of wake commands, in a task of its own: the datagrams of the bursts come between whatever
else is received and sent.

* `mem_sent`: what is sent goes back to where a datagram came from, or wakes a camera whose own
  heartbeat came from there, for a client that is named to it by where it really is;
* `count_sent`: no more than two replies for a datagram, and ten wake commands for a request.
-/

namespace Bairelay

/-! ## Payloads -/

/-- A client asks for a camera (`C2R_C`). -/
structure C2rC where
  uid : String
  cli : IpPort
  cid : Int32

/-- What the loops look at of a payload. -/
inductive WakeRequest where
  | c2mQ (uid : String)
  | d2mQ (uid : String)
  | c2rC (c : C2rC)
  | d2rHb (hb : D2rHb)
  | d2rR (r : D2rR)
  | d2rDisc (sid : UInt32)
  | other

/-- What is sent. -/
inductive WakePayload where
  | m2cQr (reg relay log t : Option IpPort)
  | m2dQr (reg log : IpPort) (rsp : ℤ) (token : UInt64) (ac : UInt32)
  | r2cCr (dev dmap relay relayt : Option IpPort) (nat : Bytes) (sid : Option UInt32) (rsp : ℤ)
      (ac : UInt32)
  | r2cT (dev dmap : IpPort) (sid : UInt32) (cid : Int32)
  | r2dC (cli cmap relay : IpPort) (sid : UInt32) (cid : Int32)
  | r2dDcr (sid : UInt32) (rsp : ℤ)
  | r2dRr (rsp : ℤ) (ac : UInt32)
  | r2dHbr (rsp : ℤ) (timeT : ℕ) (hb : UInt32)
  deriving DecidableEq

namespace WakeRequest

/-- The longest UID that is let in. -/
def maxUidLen : ℕ := 64

/-- The UID a request names, if any. -/
def uid? : WakeRequest → Option String
  | c2mQ uid | d2mQ uid => some uid
  | c2rC c => some c.uid
  | d2rHb hb => some hb.uid
  | d2rR r => some r.uid
  | _ => none

/-- A request with too long a UID is not decoded. -/
def validateUidBounds (payload : WakeRequest) : Bool :=
  payload.uid?.all fun uid => uid.utf8ByteSize ≤ maxUidLen

end WakeRequest

/-- A datagram that was received, with its payload. -/
structure Arrival where
  now : Instant
  src : SocketAddr
  tid : UInt32
  payload : WakeRequest

/-- A datagram that is sent. -/
structure Departure where
  dst : SocketAddr
  tid : UInt32
  payload : WakePayload
  deriving DecidableEq

/-! ## The address to be reached at -/

/-- From which address the kernel said a peer is reached. -/
abbrev Routes := Capped (IpAddr × IpAddr) IpAddr 256

/-- The kernel is asked, which may fail. -/
def resolveAdvertiseIp (peer : SocketAddr) (kernel : IpAddr → Option IpAddr) : IpAddr :=
  (kernel peer.ip).getD peer.ip.localhost

/-- The address to be told to a peer, and the cache after it. -/
def advertiseIp (routes : Routes) (bind : IpAddr) (peer : SocketAddr)
    (kernel : IpAddr → Option IpAddr) : IpAddr × Routes :=
  if ¬bind.isUnspecified then (bind, routes)
  else match routes.get? (bind, peer.ip) with
    | some cached => (cached, routes)
    | none =>
      let resolved := resolveAdvertiseIp peer kernel
      (resolved, (routes.upsert (bind, peer.ip) resolved).getD routes)

/-! ## The server -/

/-- The configuration of the sockets, after its validation. -/
structure Listeners extends RuntimeConfig where
  bind : IpAddr
  registerPort : UInt16
  registerPort_ne : registerPort ≠ 0

/-- A task that wakes a camera, with so many datagrams still to send. -/
structure Burst where
  camera : SocketAddr
  tid : UInt32
  wake : WakePayload
  left : ℕ

/-- The datagrams in a wake burst. -/
def wakeBurstCount : ℕ := 10

/-- The order in which a hash map is gone through. -/
abbrev Shuffle (α : Type) := {f : List α → List α // ∀ l, (f l).Perm l}

/-- The server with its route cache and the bursts it has under way. -/
structure WakeProtocol where
  server : WakeServer SocketAddr := {}
  routes : Routes := .empty
  bursts : List Burst := []

namespace WakeProtocol

variable (cfg : Listeners) (s : WakeProtocol)

/-- `handle` of the middleman, with the token and the anchor it may draw. -/
def handleMiddleman (a : Arrival) (kernel : IpAddr → Option IpAddr) (token : UInt64)
    (ac : UInt32) : WakeProtocol × List Departure :=
  if ¬a.payload.validateUidBounds then (s, [])
  else
    let (ip, routes) := advertiseIp s.routes cfg.bind a.src kernel
    let reg : IpPort := ⟨ip.text, cfg.registerPort⟩
    match a.payload with
    | .c2mQ _ =>
      ({ s with routes },
        [⟨a.src, a.tid, .m2cQr (some reg) (some reg) (some reg) (some reg)⟩])
    | .d2mQ uid =>
      match s.server.handleQuery a.now uid token ac with
      | (server, some (.m2dQr rsp token ac)) =>
        ({ s with server, routes }, [⟨a.src, a.tid, .m2dQr reg reg rsp token ac⟩])
      | (server, _) => ({ s with server, routes }, [])
    | _ => ({ s with routes }, [])

/-- `handle_heartbeat` -/
def handleHeartbeat (a : Arrival) (nowSecs : ℕ) (hb : D2rHb) : WakeProtocol × List Departure :=
  match s.server.handleHeartbeat cfg.toRuntimeConfig a.now nowSecs a.src hb with
  | (server, some (.r2dHbr rsp timeT hbMs)) =>
    ({ s with server }, [⟨a.src, a.tid, .r2dHbr rsp timeT hbMs⟩])
  | (server, _) => ({ s with server }, [])

/-- `handle_connect`, with the session that is drawn for it. The client is told to the camera by
    the address its datagram came from, whatever it says itself. -/
def handleConnect (a : Arrival) (c : C2rC) (sid : UInt32)
    (shuffle : Shuffle (String × CameraEntry SocketAddr)) (kernel : IpAddr → Option IpAddr) :
    WakeProtocol × List Departure :=
  match CameraRegistry.lookupFresh s.server.registry (shuffle.1 s.server.registry.entries) c.uid
      a.now cfg.staleAfter with
  | none => (s, [⟨a.src, a.tid, .r2cCr none none none none (utf8 "NULL") none (-1) 0⟩])
  | some entry =>
    let (relayForCamera, routes) := advertiseIp s.routes cfg.bind entry.addr kernel
    let (relayForClient, routes) := advertiseIp routes cfg.bind a.src kernel
    let wake := .r2dC ⟨a.src.ip.text, c.cli.port⟩ ⟨a.src.ip.text, a.src.port⟩
      ⟨relayForCamera.text, cfg.registerPort⟩ sid c.cid
    let cam : IpPort := ⟨entry.addr.ip.text, entry.addr.port⟩
    ({ s with routes, bursts := s.bursts ++ [⟨entry.addr, a.tid, wake, wakeBurstCount⟩] },
      [⟨a.src, a.tid, .r2cCr (some cam) (some cam)
          (some ⟨relayForClient.text, cfg.registerPort⟩) none (utf8 "NULL") (some sid) 0 0⟩,
        ⟨a.src, a.tid, .r2cT cam cam sid c.cid⟩])

/-- `handle` of the register loop. -/
def handleRegister (a : Arrival) (nowSecs : ℕ) (sid : UInt32)
    (shuffle : Shuffle (String × CameraEntry SocketAddr)) (kernel : IpAddr → Option IpAddr) :
    WakeProtocol × List Departure :=
  if ¬a.payload.validateUidBounds then (s, [])
  else match a.payload with
    | .d2rHb hb => s.handleHeartbeat cfg a nowSecs hb
    | .c2rC c => s.handleConnect cfg a c sid shuffle kernel
    | .d2rR r =>
      match s.server.handleRegister a.now r with
      | some (.r2dRr rsp ac) => (s, [⟨a.src, a.tid, .r2dRr rsp ac⟩])
      | _ => (s, [])
    | .d2rDisc sid => (s, [⟨a.src, a.tid, .r2dDcr sid 0⟩])
    | _ => (s, [])

/-- What happens to the server: a datagram at one of its sockets, or a burst at work. -/
inductive Event where
  | middleman (a : Arrival) (kernel : IpAddr → Option IpAddr) (token : UInt64) (ac : UInt32)
  | register (a : Arrival) (nowSecs : ℕ) (sid : UInt32)
      (shuffle : Shuffle (String × CameraEntry SocketAddr)) (kernel : IpAddr → Option IpAddr)
  /-- A burst sends its next datagram. -/
  | wake (i : ℕ)
  /-- A burst ends early: a datagram could not be sent, or the server is stopped. -/
  | stop (i : ℕ)

/-- The task sends one more datagram, and ends with the last one. -/
def sendWake (i : ℕ) : WakeProtocol × List Departure :=
  match s.bursts[i]? with
  | some ⟨camera, tid, wake, left + 1⟩ =>
    ({ s with bursts := s.bursts.set i ⟨camera, tid, wake, left⟩ }, [⟨camera, tid, wake⟩])
  | _ => (s, [])

/-- The task sends nothing any more. -/
def stopWake (i : ℕ) : WakeProtocol :=
  match s.bursts[i]? with
  | some burst => { s with bursts := s.bursts.set i { burst with left := 0 } }
  | none => s

/-- One event, and the datagrams that leave. -/
def step : Event → WakeProtocol × List Departure
  | .middleman a kernel token ac => s.handleMiddleman cfg a kernel token ac
  | .register a nowSecs sid shuffle kernel => s.handleRegister cfg a nowSecs sid shuffle kernel
  | .wake i => s.sendWake i
  | .stop i => (s.stopWake i, [])

/-- The server after some events. -/
def run (events : List Event) : WakeProtocol := events.foldl (fun s e => (s.step cfg e).1) {}

/-- All that was sent. -/
def sent (events : List Event) : List Departure :=
  (Past.moments (fun s e => (step cfg s e).1) {} events).flatMap fun m => (m.1.step cfg m.2).2

theorem run_concat (events : List Event) (e : Event) :
    run cfg (events ++ [e]) = ((run cfg events).step cfg e).1 := by
  rw [run, List.foldl_concat, ← run]

theorem sent_concat (events : List Event) (e : Event) :
    sent cfg (events ++ [e]) = sent cfg events ++ ((run cfg events).step cfg e).2 := by
  rw [sent, Past.moments_concat, List.flatMap_append, List.flatMap_singleton, ← sent]
  rfl

namespace Event

/-- The datagram that the register loop received. -/
def registered? : Event → Option Arrival
  | register a .. => some a
  | _ => none

/-- The datagram that was received. -/
def arrival? : Event → Option Arrival
  | middleman a .. | register a .. => some a
  | _ => none

/-- A client asks for a camera. -/
def isConnect (e : Event) : Bool :=
  match e.registered? with
  | some ⟨_, _, _, .c2rC _⟩ => true
  | _ => false

end Event

/-! ## The tables -/

/-- What an event is to the tables. -/
def Event.packet? : Event → Option (WakeServer.Event SocketAddr)
  | .middleman a _ token ac =>
    match a.payload with
    | .d2mQ uid =>
      if a.payload.validateUidBounds then some (.query a.now uid token ac) else none
    | _ => none
  | .register a nowSecs .. =>
    match a.payload with
    | .d2rHb hb =>
      if a.payload.validateUidBounds then some (.heartbeat a.now nowSecs a.src hb) else none
    | .d2rR r => if a.payload.validateUidBounds then some (.register a.now r) else none
    | _ => none
  | .wake _ | .stop _ => none

/-- What the tables take for the heartbeat of a camera came from where it says. -/
theorem Event.of_packet?_eq_heartbeat {e : Event} {now : Instant} {nowSecs : ℕ}
    {src : SocketAddr} {hb : D2rHb} (h : e.packet? = some (.heartbeat now nowSecs src hb)) :
    ∃ a sid shuffle kernel, e = .register a nowSecs sid shuffle kernel ∧ a.now = now ∧
      a.src = src ∧ a.payload = .d2rHb hb := by
  cases e with
  | middleman a kernel token ac =>
    dsimp only [packet?] at h
    split at h
    · split at h <;> cases h
    · cases h
  | register a nowSecs' sid shuffle kernel =>
    dsimp only [packet?] at h
    split at h
    · next hpayload =>
      split at h
      · cases h
        exact ⟨a, sid, shuffle, kernel, rfl, rfl, rfl, hpayload⟩
      · cases h
    · split at h <;> cases h
    · cases h
  | wake i => cases h
  | stop i => cases h

variable {cfg} {s : WakeProtocol} {e : Event}

/-- To the registry a heartbeat is what it was without the addresses. -/
theorem handleHeartbeat_server {a : Arrival} {nowSecs : ℕ} {hb : D2rHb} :
    (s.handleHeartbeat cfg a nowSecs hb).1.server =
      (s.server.handleHeartbeat cfg.toRuntimeConfig a.now nowSecs a.src hb).1 := by
  rw [handleHeartbeat]
  split
  · next h => rw [h]
  · next h => rw [h]

/-- Asking for a camera leaves the registry alone. -/
theorem handleConnect_server {a : Arrival} {c : C2rC} {sid : UInt32}
    {shuffle : Shuffle (String × CameraEntry SocketAddr)} {kernel : IpAddr → Option IpAddr} :
    (s.handleConnect cfg a c sid shuffle kernel).1.server = s.server := by
  rw [handleConnect]
  split <;> rfl

/-- The socket of the middleman changes the anchors by a query only. -/
theorem handleMiddleman_server {a : Arrival} {kernel : IpAddr → Option IpAddr} {token : UInt64}
    {ac : UInt32} : (s.handleMiddleman cfg a kernel token ac).1.server =
      match a.payload with
      | .d2mQ uid =>
        if a.payload.validateUidBounds then (s.server.handleQuery a.now uid token ac).1
        else s.server
      | _ => s.server := by
  by_cases hvalid : a.payload.validateUidBounds
  · rw [handleMiddleman, if_neg (not_not.2 hvalid)]
    cases hpayload : a.payload with
    | d2mQ uid =>
      rw [hpayload] at hvalid
      dsimp only
      rw [if_pos hvalid]
      split <;> next h => rw [h]
    | _ => rfl
  · rw [handleMiddleman, if_pos hvalid]
    cases hpayload : a.payload with
    | d2mQ uid => exact (if_neg (hpayload ▸ hvalid)).symm
    | _ => rfl

/-- The register socket changes the registry by a heartbeat only. -/
theorem handleRegister_server {a : Arrival} {nowSecs : ℕ} {sid : UInt32}
    {shuffle : Shuffle (String × CameraEntry SocketAddr)} {kernel : IpAddr → Option IpAddr} :
    (s.handleRegister cfg a nowSecs sid shuffle kernel).1.server =
      match a.payload with
      | .d2rHb hb =>
        if a.payload.validateUidBounds then
          (s.server.handleHeartbeat cfg.toRuntimeConfig a.now nowSecs a.src hb).1
        else s.server
      | _ => s.server := by
  by_cases hvalid : a.payload.validateUidBounds
  · rw [handleRegister, if_neg (not_not.2 hvalid)]
    cases hpayload : a.payload with
    | d2rHb hb =>
      rw [hpayload] at hvalid
      dsimp only
      rw [if_pos hvalid, handleHeartbeat_server]
    | c2rC c => exact handleConnect_server
    | d2rR r =>
      dsimp only
      split <;> rfl
    | _ => rfl
  · rw [handleRegister, if_pos hvalid]
    cases hpayload : a.payload with
    | d2rHb hb => exact (if_neg (hpayload ▸ hvalid)).symm
    | _ => rfl

/-- Each event is at most one event of the server with its maps. -/
theorem server_step : (s.step cfg e).1.server =
    match e.packet? with
    | some packet => (s.server.step cfg.toRuntimeConfig packet).1
    | none => s.server := by
  cases e with
  | middleman a kernel token ac =>
    rw [step, handleMiddleman_server, Event.packet?]
    cases a.payload with
    | d2mQ uid =>
      dsimp only
      split <;> rfl
    | _ => rfl
  | register a nowSecs sid shuffle kernel =>
    rw [step, handleRegister_server, Event.packet?]
    cases a.payload with
    | d2rHb hb =>
      dsimp only
      split <;> rfl
    | d2rR r =>
      dsimp only
      by_cases hvalid : (WakeRequest.d2rR r).validateUidBounds
      · rw [if_pos hvalid]
        rfl
      · rw [if_neg hvalid]
    | _ => rfl
  | wake i =>
    rw [step, sendWake, Event.packet?]
    split <;> rfl
  | stop i =>
    rw [step, stopWake, Event.packet?]
    split <;> rfl

/-- To the tables, a run is that of their packets. -/
theorem server_run (events : List Event) :
    (run cfg events).server =
      WakeServer.run cfg.toRuntimeConfig (events.filterMap Event.packet?) := by
  induction events using List.reverseRecOn with
  | nil => rfl
  | append_singleton events e ih =>
    rw [run_concat, server_step, ih, List.filterMap_append]
    cases hpacket : e.packet? with
    | none => simp [hpacket]
    | some packet => simp [hpacket, WakeServer.run_concat]

/-! ## What is sent -/

/-- A wake command. -/
def isWake (d : Departure) : Bool :=
  match d.payload with
  | .r2dC .. => true
  | _ => false

/-- The replies to a datagram: at most two, to where it came from. -/
structure Replies (a : Arrival) (ds : List Departure) : Prop where
  length_le : ds.length ≤ 2
  dst : ∀ d ∈ ds, d.dst = a.src ∧ d.tid = a.tid ∧ isWake d = false

theorem replies_nil (a : Arrival) : Replies a [] := ⟨Nat.zero_le _, fun _ h => nomatch h⟩

/-- A single reply to the sender under its own transaction. -/
theorem replies_singleton {a : Arrival} {payload : WakePayload}
    (h : isWake ⟨a.src, a.tid, payload⟩ = false) : Replies a [⟨a.src, a.tid, payload⟩] where
  length_le := Nat.le_succ 1
  dst d hd := by
    obtain rfl := List.mem_singleton.1 hd
    exact ⟨rfl, rfl, h⟩

/-- The middleman replies to the sender at most once. -/
theorem handleMiddleman_replies (a : Arrival) (kernel : IpAddr → Option IpAddr) (token : UInt64)
    (ac : UInt32) : Replies a (s.handleMiddleman cfg a kernel token ac).2 := by
  rw [handleMiddleman]
  split
  · exact replies_nil a
  · dsimp only
    split
    · exact replies_singleton rfl
    · split
      · exact replies_singleton rfl
      · exact replies_nil a
    · exact replies_nil a

theorem handleRegister_replies (a : Arrival) (nowSecs : ℕ) (sid : UInt32)
    (shuffle : Shuffle (String × CameraEntry SocketAddr)) (kernel : IpAddr → Option IpAddr) :
    Replies a (s.handleRegister cfg a nowSecs sid shuffle kernel).2 := by
  rw [handleRegister]
  split
  · exact replies_nil a
  · split
    · rw [handleHeartbeat]
      split
      · exact replies_singleton rfl
      · exact replies_nil a
    · rw [handleConnect]
      split
      · exact replies_singleton rfl
      · refine ⟨le_refl 2, fun d hd => ?_⟩
        simp only [List.mem_cons, List.not_mem_nil, or_false] at hd
        rcases hd with rfl | rfl <;> exact ⟨rfl, rfl, rfl⟩
    · split
      · exact replies_singleton rfl
      · exact replies_nil a
    · exact replies_singleton rfl
    · exact replies_nil a

/-- What an event sends: replies to the datagram received, or the next wake command of a
    burst. -/
theorem departures_step (cfg : Listeners) (s : WakeProtocol) (e : Event) :
    (∃ a, e.arrival? = some a ∧ Replies a (s.step cfg e).2) ∨
    e.arrival? = none ∧ ((s.step cfg e).2 = [] ∨
      ∃ i burst left, e = .wake i ∧ s.bursts[i]? = some burst ∧ burst.left = left + 1 ∧
        (s.step cfg e).2 = [⟨burst.camera, burst.tid, burst.wake⟩]) := by
  cases e with
  | middleman a kernel token ac => exact .inl ⟨a, rfl, handleMiddleman_replies a kernel token ac⟩
  | register a nowSecs sid shuffle kernel =>
    exact .inl ⟨a, rfl, handleRegister_replies a nowSecs sid shuffle kernel⟩
  | wake i =>
    refine .inr ⟨rfl, ?_⟩
    rw [step, sendWake]
    split
    · next camera tid wake left h => exact .inr ⟨i, _, left, rfl, h, rfl, rfl⟩
    · exact .inl rfl
  | stop i => exact .inr ⟨rfl, .inl rfl⟩

/-- A burst that is begun for a client: it wakes the camera found for it, which is told the
    address the client has. -/
structure Begins (cfg : Listeners) (s : WakeProtocol) (a : Arrival) (burst : Burst) : Prop where
  tid : burst.tid = a.tid
  left : burst.left = wakeBurstCount
  wakes : ∃ c stored entry relay sid, a.payload = .c2rC c ∧
    s.server.registry.get? stored = some entry ∧ CameraRegistry.startsWith stored c.uid ∧
    CameraRegistry.isFresh a.now cfg.staleAfter entry ∧ burst.camera = entry.addr ∧
    burst.wake = .r2dC ⟨a.src.ip.text, c.cli.port⟩ ⟨a.src.ip.text, a.src.port⟩
      ⟨relay, cfg.registerPort⟩ sid c.cid

theorem handleMiddleman_bursts (a : Arrival) (kernel : IpAddr → Option IpAddr) (token : UInt64)
    (ac : UInt32) : (s.handleMiddleman cfg a kernel token ac).1.bursts = s.bursts := by
  rw [handleMiddleman]
  split
  · rfl
  · dsimp only
    split
    · rfl
    · split <;> rfl
    · rfl

/-- A client that asks for a camera begins at most one burst, for the camera that was found. -/
theorem handleConnect_bursts {a : Arrival} {c : C2rC} (hpayload : a.payload = .c2rC c)
    (sid : UInt32) (shuffle : Shuffle (String × CameraEntry SocketAddr))
    (kernel : IpAddr → Option IpAddr) :
    let s' := (s.handleConnect cfg a c sid shuffle kernel).1
    s'.bursts = s.bursts ∨ ∃ burst, Begins cfg s a burst ∧ s'.bursts = s.bursts ++ [burst] := by
  intro s'
  cases hlookup : CameraRegistry.lookupFresh s.server.registry
      (shuffle.1 s.server.registry.entries) c.uid a.now cfg.staleAfter with
  | none =>
    have hsame : s' = s := by
      simp only [s', handleConnect, hlookup]
    exact .inl (congrArg bursts hsame)
  | some entry =>
    obtain ⟨stored, hget, hstarts, hfresh⟩ :=
      CameraRegistry.exists_of_lookupFresh (shuffle.2 _) hlookup
    let relay := (advertiseIp s.routes cfg.bind entry.addr kernel).1.text
    let wake : WakePayload := .r2dC ⟨a.src.ip.text, c.cli.port⟩ ⟨a.src.ip.text, a.src.port⟩
      ⟨relay, cfg.registerPort⟩ sid c.cid
    refine .inr ⟨⟨entry.addr, a.tid, wake, wakeBurstCount⟩, ⟨rfl, rfl, c, stored, entry, relay,
      sid, hpayload, hget, hstarts, hfresh, rfl, rfl⟩, ?_⟩
    simp only [s', handleConnect, hlookup]
    rfl

/-- The register socket begins a burst for such a client only. -/
theorem handleRegister_bursts (a : Arrival) (nowSecs : ℕ) (sid : UInt32)
    (shuffle : Shuffle (String × CameraEntry SocketAddr)) (kernel : IpAddr → Option IpAddr) :
    let s' := (s.handleRegister cfg a nowSecs sid shuffle kernel).1
    s'.bursts = s.bursts ∨ ∃ burst, Begins cfg s a burst ∧ s'.bursts = s.bursts ++ [burst] := by
  dsimp only
  rw [handleRegister]
  split
  · exact .inl rfl
  · cases hpayload : a.payload with
    | d2rHb hb =>
      dsimp only
      rw [handleHeartbeat]
      split <;> exact .inl rfl
    | c2rC c => exact handleConnect_bursts hpayload sid shuffle kernel
    | d2rR r =>
      dsimp only
      split <;> exact .inl rfl
    | _ => exact .inl rfl

/-- What happens to the bursts: nothing, one is begun, or one has less left to send; one less,
    where it has sent something. -/
theorem bursts_step (cfg : Listeners) (s : WakeProtocol) (e : Event) :
    ((s.step cfg e).1.bursts = s.bursts ∧ e.arrival? ≠ none) ∨
    (∃ a burst, e.registered? = some a ∧ Begins cfg s a burst ∧
      (s.step cfg e).1.bursts = s.bursts ++ [burst]) ∨
    ((s.step cfg e).1.bursts = s.bursts ∧ (s.step cfg e).2 = []) ∨
    ∃ i burst left, s.bursts[i]? = some burst ∧ left + (s.step cfg e).2.length ≤ burst.left ∧
      (s.step cfg e).1.bursts = s.bursts.set i { burst with left := left } := by
  cases e with
  | middleman a kernel token ac =>
    exact .inl ⟨handleMiddleman_bursts a kernel token ac, Option.some_ne_none a⟩
  | register a nowSecs sid shuffle kernel =>
    rcases handleRegister_bursts a nowSecs sid shuffle kernel with h | ⟨burst, h⟩
    · exact .inl ⟨h, Option.some_ne_none a⟩
    · exact .inr (.inl ⟨a, burst, rfl, h⟩)
  | wake i =>
    refine .inr (.inr ?_)
    rw [step, sendWake]
    split
    · next camera tid wake left h => exact .inr ⟨i, _, left, h, le_refl _, rfl⟩
    · exact .inl ⟨rfl, rfl⟩
  | stop i =>
    refine .inr (.inr ?_)
    rw [step, stopWake]
    split
    · next burst h => exact .inr ⟨i, burst, 0, h, Nat.zero_le _, rfl⟩
    · exact .inl ⟨rfl, rfl⟩

/-- Every burst was begun for a client. -/
theorem begins_of_mem_bursts {events : List Event} {burst : Burst}
    (h : burst ∈ (run cfg events).bursts) : ∃ before e after a, events = before ++ e :: after ∧
      e.registered? = some a ∧
        Begins cfg (run cfg before) a { burst with left := wakeBurstCount } := by
  induction events using List.reverseRecOn generalizing burst with
  | nil => cases h
  | append_singleton events e ih =>
    rw [run_concat] at h
    -- The burst was there, it is the new one, or it has sent something now.
    have hold : ∀ burst ∈ (run cfg events).bursts, ∃ before e' after a,
        events ++ [e] = before ++ e' :: after ∧ e'.registered? = some a ∧
          Begins cfg (run cfg before) a { burst with left := wakeBurstCount } := by
      intro burst hburst
      obtain ⟨before, e', after, a, rfl, ha⟩ := ih hburst
      exact ⟨before, e', after ++ [e], a, by simp, ha⟩
    rcases bursts_step cfg (run cfg events) e with
      ⟨hsame, -⟩ | ⟨a, new, ha, hbegins, hnew⟩ | ⟨hsame, -⟩ | ⟨i, burst', left, hi, -, hset⟩
    · exact hold burst (hsame ▸ h)
    · rw [hnew] at h
      rcases List.mem_append.1 h with h | h
      · exact hold burst h
      · obtain rfl := List.mem_singleton.1 h
        exact ⟨events, e, [], a, rfl, ha, hbegins.tid, rfl, hbegins.wakes⟩
    · exact hold burst (hsame ▸ h)
    · rw [hset] at h
      rcases List.mem_or_eq_of_mem_set h with h | rfl
      · exact hold burst h
      · exact hold burst' (List.mem_of_getElem? hi)

/-- A reply goes to where the datagram came from that it answers. All else is sent to a camera
    that was heard from there, and not too long ago, when a client asked for it; and the camera is
    told the address of that client. -/
theorem mem_sent (cfg : Listeners) (events : List Event) (d : Departure)
    (hsent : d ∈ sent cfg events) :
    (isWake d = false ∧ ∃ e ∈ events, ∃ a, e.arrival? = some a ∧ d.dst = a.src ∧
      d.tid = a.tid) ∨
    ∃ before e after a c relay sid, events = before ++ e :: after ∧ e.registered? = some a ∧
      a.payload = .c2rC c ∧ d.tid = a.tid ∧
      d.payload = .r2dC ⟨a.src.ip.text, c.cli.port⟩ ⟨a.src.ip.text, a.src.port⟩
        ⟨relay, cfg.registerPort⟩ sid c.cid ∧
      ∃ e' ∈ before, ∃ h hb, e'.registered? = some h ∧ h.payload = .d2rHb hb ∧ h.src = d.dst ∧
        CameraRegistry.startsWith hb.uid c.uid ∧ a.now - h.now ≤ cfg.staleAfter := by
  obtain ⟨⟨s, e⟩, hmoment, hd⟩ := List.mem_flatMap.1 hsent
  obtain ⟨before, after, hevents, hs⟩ :=
    Past.exists_of_mem_moments (fun s e => (step cfg s e).1) hmoment
  obtain rfl : s = run cfg before := hs
  subst hevents
  clear hsent hmoment
  rcases departures_step cfg (run cfg before) e with
    ⟨a, ha, hreplies⟩ | ⟨-, hnone | ⟨i, burst, left, rfl, hi, -, hone⟩⟩
  · obtain ⟨hdst, htid, hwake⟩ := hreplies.dst d hd
    exact .inl ⟨hwake, e, by simp, a, ha, hdst, htid⟩
  · rw [hnone] at hd
    cases hd
  · rw [hone] at hd
    obtain rfl := List.mem_singleton.1 hd
    obtain ⟨front, e', rest, a, rfl, ha, htid, -, c, stored, entry, relay, sid, hc, hget, hstarts,
      hfresh, hcamera, hwake⟩ := begins_of_mem_bursts (List.mem_of_getElem? hi)
    -- The camera was found in the registry, so that it was heard.
    rw [server_run] at hget
    obtain ⟨nowSecs, hb, hmem, rfl⟩ := WakeServer.exists_heartbeat hget
    obtain ⟨e'', he'', hpacket⟩ := List.mem_filterMap.1 hmem
    obtain ⟨h, sid', shuffle, kernel, rfl, hnow, hsrc, hhb⟩ :=
      Event.of_packet?_eq_heartbeat hpacket
    refine .inr ⟨front, e', rest ++ .wake i :: after, a, c, relay, sid, by simp, ha, hc, htid,
      hwake, _, he'', h, hb, rfl, hhb, hsrc.trans hcamera.symm, hstarts, ?_⟩
    rw [CameraRegistry.isFresh, CameraEntry.isStale, Bool.not_eq_true',
      decide_eq_false_iff_not, not_lt] at hfresh
    rwa [hnow]

/-- Where the camera listens. -/
def camera : SocketAddr := ⟨.v4 192 168 1 50, 6000⟩

/-- The server on its own network. -/
def listeners : Listeners where
  bind := .v4 192 168 1 10
  registerPort := 58200
  registerPort_ne := by decide

/-- A kernel that has no route to anywhere. -/
def noRoute (_ : IpAddr) : Option IpAddr := none

/-- A camera is heard. -/
def heartbeat : Event :=
  .register ⟨0, camera, 1, .d2rHb { uid := "UID1ABCD", token := 5 }⟩ 0 0 ⟨id, .refl⟩ noRoute

/-- The map is gone through in the order of its entries. -/
def inOrder : Shuffle (String × CameraEntry SocketAddr) := ⟨id, .refl⟩

/-- A client asks for it. -/
def connect (now : Instant) : Arrival :=
  ⟨now, ⟨.v4 192 168 1 20, 5000⟩, 2, .c2rC ⟨"UID1", ⟨utf8 "10.0.0.1", 5000⟩, 7⟩⟩

/-- The camera is sent the address of the client, not the one the client gives. -/
theorem mem_sent_wake : ∃ before e after a c relay sid,
    [heartbeat, .register (connect 1) 0 42 ⟨id, .refl⟩ noRoute, .wake 0] =
      before ++ e :: after ∧ e.registered? = some a ∧ a.payload = .c2rC c ∧ 2 = a.tid ∧
    WakePayload.r2dC ⟨utf8 "192.168.1.20", 5000⟩ ⟨utf8 "192.168.1.20", 5000⟩
        ⟨utf8 "192.168.1.10", 58200⟩ 42 7 =
      .r2dC ⟨a.src.ip.text, c.cli.port⟩ ⟨a.src.ip.text, a.src.port⟩ ⟨relay, 58200⟩ sid c.cid ∧
    ∃ e' ∈ before, ∃ h hb, e'.registered? = some h ∧ h.payload = .d2rHb hb ∧ h.src = camera ∧
      CameraRegistry.startsWith hb.uid c.uid ∧ a.now - h.now ≤ listeners.staleAfter := by
  refine (mem_sent listeners
    [heartbeat, .register (connect 1) 0 42 ⟨id, .refl⟩ noRoute, .wake 0]
    ⟨camera, 2, .r2dC ⟨utf8 "192.168.1.20", 5000⟩ ⟨utf8 "192.168.1.20", 5000⟩
      ⟨utf8 "192.168.1.10", 58200⟩ 42 7⟩ (by decide +kernel)).resolve_left ?_
  rintro ⟨h, -⟩
  cases h

/-! ## How much is sent -/

/-- A burst begins when a client asks for a camera. -/
theorem isConnect_of_begins {a : Arrival} {burst : Burst} (ha : e.registered? = some a)
    (h : Begins cfg s a burst) : e.isConnect := by
  obtain ⟨c, stored, entry, relay, sid, hc, -⟩ := h.wakes
  obtain ⟨now, src, tid, payload⟩ := a
  dsimp only at hc
  rw [Event.isConnect, ha, hc]

/-- What the bursts may still send. -/
def pending (s : WakeProtocol) : ℕ := (s.bursts.map Burst.left).sum

/-- Replacing one entry of a list of numbers moves the sum by the difference. -/
theorem sum_set_add {l : List ℕ} {i a : ℕ} (b : ℕ) (h : l[i]? = some a) :
    (l.set i b).sum + a = l.sum + b := by
  induction l generalizing i with
  | nil => cases h
  | cons c l ih =>
    cases i with
    | zero =>
      obtain rfl := Option.some.inj h
      simp only [List.set_cons_zero, List.sum_cons]
      omega
    | succ i =>
      have hsum := ih h
      simp only [List.set_cons_succ, List.sum_cons]
      omega

/-- Wake datagrams sent and still to be sent grow with the clients that ask, by ten each. -/
theorem pending_step (cfg : Listeners) (s : WakeProtocol) (e : Event) :
    (s.step cfg e).2.countP isWake + (s.step cfg e).1.pending ≤
    s.pending + if e.isConnect then wakeBurstCount else 0 := by
  have hreplies : e.arrival? ≠ none → (s.step cfg e).2.countP isWake = 0 := by
    intro harrival
    rcases departures_step cfg s e with ⟨a, -, hreplies⟩ | ⟨hnone, -⟩
    · exact List.countP_eq_zero.2 fun d hd => by simp [(hreplies.dst d hd).2.2]
    · exact absurd hnone harrival
  have hle := (s.step cfg e).2.countP_le_length (p := isWake)
  rcases bursts_step cfg s e with
    ⟨hsame, harrival⟩ | ⟨a, new, ha, hbegins, hnew⟩ | ⟨hsame, hnone⟩ |
      ⟨i, burst, left, hi, hleft, hset⟩
  · rw [hreplies harrival, pending, hsame, ← pending]
    omega
  · have harrival : e.arrival? ≠ none := by
      cases e with
      | register => exact Option.some_ne_none _
      | _ => cases ha
    rw [hreplies harrival, pending, hnew, if_pos (isConnect_of_begins ha hbegins), List.map_append,
      List.sum_append, ← pending]
    simp [hbegins.left]
  · rw [hnone, pending, hsame, ← pending, List.countP_nil]
    omega
  · have hleft' : (s.bursts.map Burst.left)[i]? = some burst.left := by
      rw [List.getElem?_map, hi, Option.map_some]
    have hsum := sum_set_add left hleft'
    rw [pending, hset, List.map_set, pending]
    dsimp only
    omega

/-- Ten wake commands at most for a request, and two replies for a datagram, all of them to where
    it came from. -/
theorem count_sent (cfg : Listeners) (events : List Event) :
    (sent cfg events).countP isWake ≤ wakeBurstCount * events.countP Event.isConnect ∧
    ∀ dst, ((sent cfg events).countP fun d => !isWake d && d.dst = dst) ≤
      2 * events.countP fun e => e.arrival?.any fun a => a.src = dst := by
  have hpending : (sent cfg events).countP isWake + (run cfg events).pending ≤
      wakeBurstCount * events.countP Event.isConnect := by
    induction events using List.reverseRecOn with
    | nil => rfl
    | append_singleton events e ih =>
      have hstep := pending_step cfg (run cfg events) e
      rw [sent_concat, run_concat, List.countP_append, List.countP_append, List.countP_singleton,
        mul_add, mul_ite, mul_one, mul_zero]
      omega
  refine ⟨by omega, fun dst => ?_⟩
  clear hpending
  induction events using List.reverseRecOn with
  | nil => rfl
  | append_singleton events e ih =>
    rw [sent_concat, List.countP_append, List.countP_append, List.countP_singleton]
    rcases departures_step cfg (run cfg events) e with
      ⟨a, ha, hreplies⟩ | ⟨-, hnone | ⟨i, burst, left, -, hi, -, hone⟩⟩
    · have hle : (((run cfg events).step cfg e).2.countP fun d => !isWake d && d.dst = dst) ≤
          if a.src = dst then 2 else 0 := by
        split
        · exact List.countP_le_length.trans hreplies.length_le
        · next hne =>
          refine (List.countP_eq_zero.2 fun d hd => ?_).le
          simp [(hreplies.dst d hd).1, hne]
      rw [ha, Option.any_some]
      by_cases hsrc : a.src = dst
      · rw [if_pos hsrc] at hle
        rw [if_pos (decide_eq_true hsrc)]
        omega
      · rw [if_neg hsrc] at hle
        rw [if_neg (by simpa using hsrc)]
        omega
    · rw [hnone, List.countP_nil]
      omega
    · obtain ⟨front, e', rest, a, -, -, -, -, c, stored, entry, relay, sid, -, -, -, -, -, hwake⟩ :=
        begins_of_mem_bursts (List.mem_of_getElem? hi)
      have hno : isWake ⟨burst.camera, burst.tid, burst.wake⟩ = true := by
        rw [isWake]
        dsimp only at hwake ⊢
        rw [hwake]
      rw [hone, List.countP_singleton, hno, Bool.not_true, Bool.false_and,
        if_neg Bool.false_ne_true]
      omega

end WakeProtocol

end Bairelay
