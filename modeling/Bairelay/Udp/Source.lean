import Bairelay.BcUdp.Codex
import Bairelay.Lib.Purge

/-!
# The UDP connection

The tasks of an established UDP connection (`bc_protocol/connection/udpsource.rs`,
`UdpPayloadInner`): one reads packets off the socket, whoever sent them, and queues
them up; `run` takes them from there, looks at those of the camera only, and passes
on what they complete to the application; another acknowledges.

Datagrams are decoded one at a time, each until nothing is left of it (`UdpFramed`).
Sending on the socket is taken to succeed, and the heartbeats, which depend on nothing
here, are left out.
-/

namespace Bairelay

/-- Why a task of the connection ends. -/
inductive UdpError where
  | bcUdpTimeout
  | codec (e : UdpCodecError)
  | dropReceiverSendFailed
  | dropReceiverNoneReceived
  | dropSender
  /-- Never, since the acknowledgement of a flow can always be built. -/
  | buildSendAck
  deriving DecidableEq, Repr

/-- How long the socket may be silent. -/
@[irreducible] def timeOut : Duration := Duration.ofSecs 10

/-- How many packets `socketOut` holds. -/
def socketOutCap : ℕ := 500

/-- The connection, with all that was passed on to the application (`threadStream`) and
    to the socket (`socketIn`). -/
structure UdpPayloadInner (ρ α : Type) where
  cameraAddr : α
  /-- The datagrams that are there to be read, the first one perhaps in part. -/
  inner : List (α × Bytes)
  /-- When the connection was established. -/
  established : Instant
  /-- When packets were read, and from whom. -/
  heard : List (Instant × α)
  socketOut : List (BcUdp ρ × α)
  ackTx : UdpAck
  flow : UdpFlowState
  threadStream : List Bytes
  socketIn : List (BcUdp ρ)
  /-- Why the task of the socket has ended. -/
  broken : Option UdpError
  /-- Why the connection has ended. -/
  ended : Option UdpError

namespace UdpPayloadInner

variable {ρ α : Type}

/-- A source after the discovery, with nothing sent or read. -/
def new (cameraAddr : α) (clientId cameraId : Int32) (now : Instant) : UdpPayloadInner ρ α where
  cameraAddr := cameraAddr
  inner := []
  established := now
  heard := []
  socketOut := []
  ackTx := UdpAck.empty cameraId
  flow := UdpFlowState.new clientId cameraId
  threadStream := []
  socketIn := []
  broken := none
  ended := none

/-- When the receive timeout runs out: it is set anew for every packet. -/
def recvTimeout (s : UdpPayloadInner ρ α) : Instant :=
  (s.heard.getLast?.map Prod.fst).getD s.established + timeOut

/-! ## The task of the socket -/

/-- Read the next packet. -/
def next (crates : UdpCrates ρ) (s : UdpPayloadInner ρ α) (now : Instant) : UdpPayloadInner ρ α :=
  match s.inner with
  | [] => s
  | (addr, rd) :: inner =>
    match BcUdpCodex.decodeEof crates () rd with
    | (_, _, .ok none) => { s with inner }
    | (_, rd, .ok (some packet)) =>
      -- The timeout is set anew, whoever sent the packet.
      let s := { s with inner := (addr, rd) :: inner, heard := s.heard ++ [(now, addr)] }
      if s.socketOut.length < socketOutCap then
        { s with socketOut := s.socketOut ++ [(packet, addr)] }
      -- `try_send` fails if the queue is full, and that is the end of the task.
      else { s with broken := some .dropReceiverSendFailed }
    | (_, _, .error e) => { s with broken := some (.codec e) }

/-- Look at the timer. -/
def checkTimeout (s : UdpPayloadInner ρ α) (now : Instant) : UdpPayloadInner ρ α :=
  if s.recvTimeout ≤ now then { s with broken := some .bcUdpTimeout } else s

/-! ## The application's side -/

/-- Pass packets on to the socket, unless its task has ended. -/
def feed (s : UdpPayloadInner ρ α) (packets : List UdpData) : UdpPayloadInner ρ α :=
  -- Without packets, nothing is sent that could fail.
  if packets ≠ [] ∧ s.broken.isSome then { s with ended := some .dropSender }
  else { s with socketIn := s.socketIn ++ packets.map .data }

/-- Update the acknowledgement that is sent. -/
def updateAck (s : UdpPayloadInner ρ α) : UdpPayloadInner ρ α :=
  match s.flow.buildSendAck with
  | some ack => { s with ackTx := ack }
  | none => { s with ended := some .buildSendAck }

/-- Pass the payloads that are complete on to the application. -/
def deliver (s : UdpPayloadInner ρ α) : UdpPayloadInner ρ α :=
  if s.ended.isSome then s
  else
    let (flow, payloads) := s.flow.drainContiguous
    { s with flow, threadStream := s.threadStream ++ payloads }

/-- A packet of the camera. -/
def onPacket (s : UdpPayloadInner ρ α) (now : Instant) : BcUdp ρ → UdpPayloadInner ρ α
  | .discovery _ => s
  | .ack ack =>
    if ack.connectionId = s.flow.clientId then { s with flow := s.flow.handleAck ack now } else s
  | .data data =>
    match s.flow.handleData data with
    | (flow, true) => updateAck { s with flow }
    | (flow, false) => { s with flow }

/-- A turn of `run` that takes a packet. -/
def receive [DecidableEq α] (s : UdpPayloadInner ρ α) (now : Instant) : UdpPayloadInner ρ α :=
  match s.socketOut with
  | [] => if s.broken.isSome then { s with ended := some .dropReceiverNoneReceived } else s
  | (item, addr) :: socketOut =>
    let s := { s with socketOut }
    -- Only here it matters who sent the packet.
    if addr = s.cameraAddr then (s.onPacket now item).deliver else s.deliver

/-- A turn of `run` that takes a payload of the application. -/
def send (s : UdpPayloadInner ρ α) (item : Bytes) : UdpPayloadInner ρ α :=
  let (flow, packets) := s.flow.enqueueSend item
  (feed { s with flow } packets).deliver

/-- A turn of `run` that resends. -/
def resendTick (s : UdpPayloadInner ρ α) : UdpPayloadInner ρ α :=
  let s := s.feed s.flow.resendPackets
  if s.ended.isSome then s else s.updateAck.deliver

/-- The other task sends the acknowledgement. -/
def ackTick (s : UdpPayloadInner ρ α) : UdpPayloadInner ρ α :=
  if s.broken.isSome then s else { s with socketIn := s.socketIn ++ [.ack s.ackTx] }

/-! ## Runs -/

/-- What happens: a datagram arrives, or a task takes a turn. -/
inductive Event (α : Type) where
  | arrive (addr : α) (bytes : Bytes)
  | next (now : Instant)
  | checkTimeout (now : Instant)
  | receive (now : Instant)
  | send (item : Bytes)
  | resendTick
  | ackTick

variable [DecidableEq α] (crates : UdpCrates ρ)

/-- One event of the task. After its end nothing happens. -/
def step (s : UdpPayloadInner ρ α) (event : Event α) : UdpPayloadInner ρ α :=
  if s.ended.isSome then s
  else
    match event with
    | .arrive addr bytes => { s with inner := s.inner ++ [(addr, bytes)] }
    | .next now => if s.broken.isSome then s else s.next crates now
    | .checkTimeout now => if s.broken.isSome then s else s.checkTimeout now
    | .receive now => s.receive now
    | .send item => s.send item
    | .resendTick => s.resendTick
    | .ackTick => s.ackTick

/-- A run of the task. -/
def run (s : UdpPayloadInner ρ α) (events : List (Event α)) : UdpPayloadInner ρ α :=
  events.foldl (step crates) s

end UdpPayloadInner

end Bairelay
