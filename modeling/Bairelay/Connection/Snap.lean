import Bairelay.Connection.Poller
import Bairelay.Lib.Past

/-!
# Snapshots

A client that asks the camera for a picture (`bc_protocol/snap.rs`), the poller that
passes the answer on to it, and the camera. The client subscribes to the number of
its request; the camera sends the description of the picture under that number, and
the picture itself, in chunks, under a number of its own. For these the client
subscribes to the message id once it has read the description.

The three take steps in any order (`Snapshot.step`). Commands queue up for the poller
as they are sent, and what the poller passes on waits to be received; that these
queues are bounded only holds up the sender.
-/

namespace Bairelay

/-- The element of a request for a picture, and of the reply. -/
structure Snap where
  version : String := ""
  channelId : UInt8 := 0
  logicChannel : Option UInt8 := none
  time : UInt32 := 0
  fullFrame : Option UInt32 := none
  streamType : Option String := none
  fileName : Option String := none
  pictureSize : Option UInt32 := none
  deriving DecidableEq, Repr

/-- The elements of an XML document that the codec does not look at. -/
structure Elements (σ : Type) where
  snap : Option Snap
  rest : σ
  deriving DecidableEq, Repr

/-- The message that asks for a picture. -/
def msgIdSnap : UInt32 := 109

/-- No picture is larger. -/
def maxSnapshotBytes : ℕ := 16 * 1024 * 1024

/-- Why no picture is returned. -/
inductive SnapError (σ : Type) where
  | cameraServiceUnavailable (id : UInt32) (code : UInt16)
  | unintelligibleReply (reply : Bc (Elements σ)) (why : String)
  | droppedSubscriber
  | other (why : String)
  | poll (e : PollError)
  deriving DecidableEq, Repr

/-! ## Subscriptions -/

/-- The receiving end of a subscription: its place among those requested, how many
    results were taken from it, and its number. -/
structure BcSubscription where
  place : ℕ
  taken : ℕ
  msgNum : Option UInt32
  deriving DecidableEq, Repr

namespace BcSubscription

variable {σ : Type}

/-- Whether a message may be sent; `conn.send` passes it on. -/
def send (sub : BcSubscription) (bc : Bc (Elements σ)) : Except (SnapError σ) Unit :=
  match sub.msgNum with
  | some msgNum =>
    if bc.bcMeta.msgNum.toUInt32 ≠ msgNum then .error (.other "BcSub::send msg_num mismatch")
    else .ok ()
  | none => .ok ()

/-- Receive the next result, if there is one already. -/
def recv (sub : BcSubscription) (poller : Poller (Elements σ)) :
    Option (Except (SnapError σ) (Bc (Elements σ)) × BcSubscription) :=
  match (poller.inbox sub.place)[sub.taken]? with
  | some (.ok bc) =>
    match sub.msgNum with
    | some msgNum =>
      -- The message is lost to the subscription all the same.
      if bc.bcMeta.msgNum.toUInt32 ≠ msgNum then
        some (.error (.other "BcSub::recv msg_num mismatch"), { sub with taken := sub.taken + 1 })
      else some (.ok bc, { sub with taken := sub.taken + 1 })
    | none =>
      some (.ok bc,
        { sub with taken := sub.taken + 1, msgNum := some bc.bcMeta.msgNum.toUInt32 })
  | some (.error e) => some (.error (.poll e), { sub with taken := sub.taken + 1 })
  | none => if poller.ended.isSome then some (.error .droppedSubscriber, sub) else none

end BcSubscription

/-! ## The client -/

/-- Where a client is. -/
inductive Phase (σ : Type) where
  | start
  | subscribed (subGet : BcSubscription)
  | asked (subGet : BcSubscription)
  | replied (subGet : BcSubscription) (expectedSize : UInt32)
  | installed (subGet chunkSub : BcSubscription) (expectedSize : UInt32)
  | collecting (chunkSub : BcSubscription) (expectedSize : UInt32) (result : Bytes)
  | done (result : Except (SnapError σ) Bytes)
  deriving DecidableEq, Repr

/-- The client, the poller and the camera: `turn` is the command the poller is at,
    `out` was sent to the camera, and `coming` is what the camera is yet to send. -/
structure Snapshot (σ : Type) where
  poller : Poller (Elements σ)
  turn : Option (PollCommand (Elements σ))
  queue : List (PollCommand (Elements σ))
  out : List (Bc (Elements σ))
  coming : List (Bc (Elements σ))
  phase : Phase σ

/-- What the client asks for. -/
structure SnapRequest (σ : Type) where
  channelId : UInt8
  msgNum : UInt16
  /-- The other elements of the document, all of them left out. -/
  rest : σ

variable {σ : Type}

/-- The request. -/
def SnapRequest.bc (req : SnapRequest σ) : Bc (Elements σ) where
  bcMeta :=
    { msgId := msgIdSnap
      channelId := req.channelId
      msgNum := req.msgNum
      responseCode := 0
      streamType := 0
      cls := 0x6414 }
  body := .modernMsg
    { extension := some { channelId := some req.channelId }
      payload := some (.bcXml
        { encryption := none
          loginUser := none
          rest :=
            { snap := some
                { version := "1.1"
                  channelId := req.channelId
                  logicChannel := some req.channelId
                  time := 0
                  fullFrame := some 0
                  streamType := some "main" }
              rest := req.rest } }) }

/-- The name and the size of the picture, and the message with the element taken out. -/
def takeSnap (msg : Bc (Elements σ)) : Bc (Elements σ) × Option (String × UInt32) :=
  match msg.body with
  | .modernMsg { extension := ext, payload := some (.bcXml xml) } =>
    let taken := { xml with rest := { xml.rest with snap := none } }
    ({ msg with body := .modernMsg { extension := ext, payload := some (.bcXml taken) } },
      match xml.rest.snap with
      | some { fileName := some filename, pictureSize := some expectedSize, .. } =>
        some (filename, expectedSize)
      | _ => none)
  | _ => (msg, none)

/-- The bytes of a chunk that is not the last. -/
def chunkData : BcBody (Elements σ) → Option Bytes
  | .modernMsg { extension := some ext, payload := some (.binary data) } =>
    if ext.binaryData = some 1 then some data else none
  | _ => none

/-- The bytes of the last chunk, which may have none. -/
def lastData : BcBody (Elements σ) → Option Bytes
  | .modernMsg { extension := some ext, payload } =>
    if ext.binaryData = some 1 then
      match payload with
      | some (.binary data) => some data
      | _ => some []
    else none
  | _ => none

namespace Snapshot

/-- The commands the poller is yet to handle. -/
def pending (s : Snapshot σ) : List (PollCommand (Elements σ)) := s.turn.toList ++ s.queue

/-- The place the next subscription will have among those requested. -/
def nextPlace (s : Snapshot σ) : ℕ :=
  s.poller.requests.length + s.pending.countP fun command =>
    match command with
    | .addSubscriber .. => true
    | _ => false

/-- The function returns, and its subscriptions are dropped. -/
def finish (s : Snapshot σ) (subs : List BcSubscription)
    (result : Except (SnapError σ) Bytes) : Snapshot σ :=
  { s with poller := subs.foldl (fun p sub => p.drop sub.place) s.poller, phase := .done result }

/-- The reply was received. -/
def onReply (s : Snapshot σ) (subGet : BcSubscription) (msg : Bc (Elements σ)) : Snapshot σ :=
  if msg.bcMeta.responseCode ≠ 200 then
    s.finish [subGet]
      (.error (.cameraServiceUnavailable msg.bcMeta.msgId msg.bcMeta.responseCode))
  else
    match takeSnap msg with
    | (_, some (_, expectedSize)) =>
      -- Checked before anything is collected.
      if expectedSize.toNat > maxSnapshotBytes then
        s.finish [subGet] (.error (.cameraServiceUnavailable msgIdSnap 200))
      else { s with phase := .replied subGet expectedSize }
    | (msg, none) =>
      s.finish [subGet]
        (.error (.unintelligibleReply msg "Expected Snap xml but it was not received"))

/-- A message was received on the subscription to the chunks. -/
def onChunk (req : SnapRequest σ) (s : Snapshot σ) (chunkSub : BcSubscription)
    (expectedSize : UInt32) (result : Bytes) (msg : Bc (Elements σ)) : Snapshot σ :=
  if msg.bcMeta.responseCode = 200 then
    match chunkData msg.body with
    | some data =>
      -- The bound holds for what is collected, too.
      if (result ++ data).length > maxSnapshotBytes then
        s.finish [chunkSub] (.error (.cameraServiceUnavailable msgIdSnap 200))
      else { s with phase := .collecting chunkSub expectedSize (result ++ data) }
    | none =>
      s.finish [chunkSub]
        (.error (.unintelligibleReply msg "Expected binary data but got something else"))
  -- The last chunk says so in its response code.
  else if msg.bcMeta.responseCode = 201 then
    match lastData msg.body with
    | some data =>
      -- The size was announced in the reply.
      if (result ++ data).length ≠ expectedSize.toNat then
        s.finish [chunkSub] (.error (.unintelligibleReply
          { bcMeta :=
              { msgId := msgIdSnap
                channelId := req.channelId
                msgNum := req.msgNum
                streamType := 0
                responseCode := 201
                cls := 0x6414 }
            body := .modernMsg { extension := none, payload := none } }
          "Snap truncated: chunk total did not match advertised picture_size"))
      else s.finish [chunkSub] (.ok (result ++ data))
    | none =>
      s.finish [chunkSub]
        (.error (.unintelligibleReply msg "Expected binary data but got something else"))
  else
    s.finish [chunkSub]
      (.error (.cameraServiceUnavailable msg.bcMeta.msgId msg.bcMeta.responseCode))

/-- The next step of the client, unless it waits or has returned. -/
def getSnapshot (req : SnapRequest σ) (s : Snapshot σ) : Option (Snapshot σ) :=
  match s.phase with
  | .start =>
    -- Queued before the request is sent, so that the reply finds it.
    some { s with
      queue := s.queue ++ [.addSubscriber msgIdSnap (some req.msgNum)]
      phase := .subscribed ⟨s.nextPlace, 0, some req.msgNum.toUInt32⟩ }
  | .subscribed subGet =>
    match subGet.send req.bc with
    | .error e => some (s.finish [subGet] (.error e))
    | .ok () => some { s with out := s.out ++ [req.bc], phase := .asked subGet }
  | .asked subGet =>
    match subGet.recv s.poller with
    | none => none
    | some (.error e, subGet) => some (s.finish [subGet] (.error e))
    | some (.ok msg, subGet) => some (s.onReply subGet msg)
  | .replied subGet expectedSize =>
    -- Only now, so chunks that the poller has handled by then are lost.
    some { s with
      queue := s.queue ++ [.addSubscriber msgIdSnap none]
      phase := .installed subGet ⟨s.nextPlace, 0, none⟩ expectedSize }
  | .installed subGet chunkSub expectedSize =>
    -- The subscription to the reply is dropped only now.
    some { s with
      poller := s.poller.drop subGet.place
      phase := .collecting chunkSub expectedSize [] }
  | .collecting chunkSub expectedSize result =>
    match chunkSub.recv s.poller with
    | none => none
    | some (.error e, chunkSub) => some (s.finish [chunkSub] (.error e))
    | some (.ok msg, chunkSub) => some (s.onChunk req chunkSub expectedSize result msg)
  | .done _ => none

/-- Who takes the next step: a message of the camera arrives, the poller takes a
    command or handles it, or the client goes on. -/
inductive Act where
  | arrive
  | take
  | handle
  | client
  deriving DecidableEq, Repr

/-- The next step, if it can be taken. The camera answers once it was asked. -/
def step (req : SnapRequest σ) (s : Snapshot σ) : Act → Option (Snapshot σ)
  | .arrive =>
    match s.out, s.coming with
    | _ :: _, bc :: coming => some { s with queue := s.queue ++ [.bc (.ok bc)], coming }
    | _, _ => none
  | .take =>
    match s.poller.ended, s.turn, s.queue with
    | none, none, command :: queue =>
      -- The poller cleans up before it looks at the command.
      some { s with poller := s.poller.cleanUp, turn := some command, queue }
    | _, _, _ => none
  | .handle =>
    match s.turn with
    | some command => some { s with poller := s.poller.handle command, turn := none }
    | none => none
  | .client => s.getSnapshot req

/-- Before anything happened, on a connection in use. -/
def init (poller : Poller (Elements σ)) (coming : List (Bc (Elements σ))) : Snapshot σ where
  poller := poller
  turn := none
  queue := []
  out := []
  coming := coming
  phase := .start

/-- The call after some steps, if all of them can be made. -/
def run (req : SnapRequest σ) (s : Snapshot σ) (acts : List Act) : Option (Snapshot σ) :=
  acts.foldlM (step req) s

end Snapshot

end Bairelay
