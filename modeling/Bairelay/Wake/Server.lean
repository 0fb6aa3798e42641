import Bairelay.Basic
import Bairelay.Lib.Capped

/-!
# The wake server

The tables of the wake server (`wake_server/registry.rs`), and its two loops: the middleman
(`middleman.rs`) hands a camera a token and an anchor, and the register loop (`register.rs`)
takes the registration and then the heartbeats of the camera. Addresses are left abstract.
-/

namespace Bairelay

/-- The cap on each of the tables. -/
def maxMapEntries : ℕ := 1024

/-- The pair that a query was answered with. -/
structure SessionAnchor where
  token : UInt64
  ac : UInt32
  issuedAt : Instant

/-- The last heartbeat of a camera. -/
structure CameraEntry (α : Type*) where
  addr : α
  token : UInt64
  lastSeen : Instant

/-- An anchor goes stale after the time since it was issued. -/
def SessionAnchor.isStale (now : Instant) (staleAfter : Duration) (a : SessionAnchor) : Bool :=
  staleAfter < now - a.issuedAt

/-- An entry goes stale after the time since its last heartbeat. -/
def CameraEntry.isStale {α : Type*} (now : Instant) (staleAfter : Duration)
    (e : CameraEntry α) : Bool :=
  staleAfter < now - e.lastSeen

/-- The anchors by UID. -/
abbrev SessionAnchors := Capped String SessionAnchor maxMapEntries

/-- The registered cameras by UID. -/
abbrev CameraRegistry (α : Type*) := Capped String (CameraEntry α) maxMapEntries

namespace SessionAnchors

/-- Whether the anchor was stored is returned as well. -/
def issue (anchors : SessionAnchors) (uid : String) (token : UInt64) (ac : UInt32)
    (now : Instant) : SessionAnchors × Bool :=
  match Capped.upsert anchors uid { token, ac, issuedAt := now } with
  | some anchors' => (anchors', true)
  | none => (anchors, false)

/-- Removes the anchors that are stale. -/
def purgeStale (anchors : SessionAnchors) (now : Instant) (staleAfter : Duration) :
    SessionAnchors :=
  anchors.purge (SessionAnchor.isStale now staleAfter)

/-- The anchor of a UID, unless it is stale. -/
def lookup (anchors : SessionAnchors) (uid : String) (now : Instant) (staleAfter : Duration) :
    Option SessionAnchor :=
  (anchors.get? uid).filter fun a => !a.isStale now staleAfter

end SessionAnchors

namespace CameraRegistry

variable {α : Type*}

/-- Whether the camera is new is returned as well, or nothing if it was refused. -/
def upsert (registry : CameraRegistry α) (uid : String) (addr : α) (token : UInt64)
    (now : Instant) : CameraRegistry α × Option Bool :=
  match Capped.upsert registry uid { addr, token, lastSeen := now } with
  | some registry' => (registry', some (decide (uid ∉ registry)))
  | none => (registry, none)

/-- Removes the entries that are stale. -/
def purgeStale (registry : CameraRegistry α) (now : Instant) (staleAfter : Duration) :
    CameraRegistry α :=
  registry.purge (CameraEntry.isStale now staleAfter)

end CameraRegistry

/-! ## Packets -/

/-- The settings of the server, with their defaults. -/
structure RuntimeConfig where
  heartbeatMs : UInt32 := 20000
  staleAfterMs : UInt64 := 80000

/-- The time after which an entry is stale. -/
def RuntimeConfig.staleAfter (cfg : RuntimeConfig) : Duration := .ofMillis cfg.staleAfterMs.toNat

/-- A heartbeat of a camera. -/
structure D2rHb where
  uid : String
  needrsp : Option UInt8 := none
  token : UInt64

/-- A camera registers. -/
structure D2rR where
  uid : String
  token : UInt64

/-- The replies of the server. -/
inductive WakeReply where
  | m2dQr (rsp : ℤ) (token : UInt64) (ac : UInt32)
  | r2dRr (rsp : ℤ) (ac : UInt32)
  | r2dHbr (rsp : ℤ) (timeT : ℕ) (hb : UInt32)
  deriving DecidableEq

/-! ## The loops -/

/-- The two maps of the server. -/
structure WakeServer (α : Type*) where
  registry : CameraRegistry α := .empty
  anchors : SessionAnchors := .empty

namespace WakeServer

variable {α : Type*} (cfg : RuntimeConfig) (s : WakeServer α)

/-- `D2M_Q`, with the token and the anchor that are drawn for it. -/
def handleQuery (now : Instant) (uid : String) (token : UInt64) (ac : UInt32) :
    WakeServer α × Option WakeReply :=
  match SessionAnchors.issue s.anchors uid token ac now with
  | (_, false) => (s, none)
  | (anchors, true) => ({ s with anchors }, some (.m2dQr 0 token ac))

/-- `D2R_R`. -/
def handleRegister (now : Instant) (r : D2rR) : Option WakeReply :=
  match s.anchors.lookup r.uid now (.ofSecs (60 * 60)) with
  | some a => if a.token = r.token then some (.r2dRr (-4) a.ac) else none
  | none => none

/-- `D2R_HB`; `nowSecs` is what the wall clock says. A heartbeat that is refused purges nothing. -/
def handleHeartbeat (now : Instant) (nowSecs : ℕ) (src : α) (hb : D2rHb) :
    WakeServer α × Option WakeReply :=
  match CameraRegistry.upsert s.registry hb.uid src hb.token now with
  | (_, none) => (s, none)
  | (registry, some _) =>
    ({ registry := registry.purgeStale now cfg.staleAfter
       anchors := s.anchors.purgeStale now cfg.staleAfter },
      if hb.needrsp = some 1 then some (.r2dHbr 0 nowSecs cfg.heartbeatMs) else none)

/-- The requests that change or read the maps. -/
inductive Event (α : Type*) where
  | query (now : Instant) (uid : String) (token : UInt64) (ac : UInt32)
  | register (now : Instant) (r : D2rR)
  | heartbeat (now : Instant) (nowSecs : ℕ) (src : α) (hb : D2rHb)

/-- The time of the request. -/
def Event.now : Event α → Instant
  | .query now .. | .register now _ | .heartbeat now .. => now

/-- One request and its reply. -/
def step : Event α → WakeServer α × Option WakeReply
  | .query now uid token ac => s.handleQuery now uid token ac
  | .register now r => (s, s.handleRegister now r)
  | .heartbeat now nowSecs src hb => s.handleHeartbeat cfg now nowSecs src hb

/-- The server after some packets. -/
def run (events : List (Event α)) : WakeServer α := events.foldl (fun s e => (s.step cfg e).1) {}

theorem run_concat (events : List (Event α)) (e : Event α) :
    run cfg (events ++ [e]) = ((run cfg events).step cfg e).1 := by
  rw [run, List.foldl_concat, ← run]

end WakeServer

end Bairelay
