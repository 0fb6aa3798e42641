import Bairelay.Lib.Streaming
import Bairelay.Udp.Flow

/-!
# Reading datagrams

The packets of the UDP transport (`bcudp/model.rs`) and their parser
(`bcudp/de.rs`). The payload of a discovery packet is XML, encrypted with a key
made from the id of the transmission, with a checksum of what is encrypted.

* `BcUdp.decrypt_decrypt`: the cipher is its own inverse;
* `BcUdp.deserialize_streams`: what follows a packet does not matter to it.
-/

namespace Bairelay

open Streaming Parser

/-! ## The packets -/

/-- What the two sides tell each other outside of the data: `ρ` are the documents
    that the transport does not look at. -/
inductive UdpXml (ρ : Type) where
  | c2dHb (cid did : Int32)
  | d2cHb (cid did : Int32)
  | d2cDisc (cid did : Int32)
  | r2cDisc (sid : UInt32)
  | other (rest : ρ)
  deriving DecidableEq

/-- The XML of the discovery, with the id of its transmission. -/
structure UdpDiscovery (ρ : Type) where
  tid : UInt32
  payload : UdpXml ρ
  deriving DecidableEq

/-- A packet of the transport. -/
inductive BcUdp (ρ : Type) where
  | discovery (payload : UdpDiscovery ρ)
  | ack (payload : UdpAck)
  | data (payload : UdpData)
  deriving DecidableEq

/-- The crates that the format rests on: the hasher of `crc32fast`, by its initial
    value, and `quick_xml`. -/
structure UdpCrates (ρ : Type) where
  crc32 : UInt32 → Bytes → UInt32
  /-- The element of a document. -/
  writeXml : UdpXml ρ → Option Bytes
  /-- The document of a `P2P` element. -/
  readXml : Bytes → Option (UdpXml ρ)

/-- In front of the discovery. -/
def magicHeaderUdpNego : UInt32 := 0x2a87cf3a

/-- In front of acknowledgements. -/
def magicHeaderUdpAck : UInt32 := 0x2a87cf20

/-- In front of data. -/
def magicHeaderUdpData : UInt32 := 0x2a87cf10

/-- The cap on the size of a payload. -/
def maxBcudpPayload : UInt32 := 65535

variable {ρ : Type} (crates : UdpCrates ρ)

/-- The checksum is not the standard one: it starts from zero, and its end is not
    negated. -/
def calcCrc (payload : Bytes) : UInt32 := crates.crc32 0xffffffff payload ^^^ 0xffffffff

/-- Read the XML, if it is some. -/
def UdpXml.tryParse (s : Bytes) : Option (UdpXml ρ) := crates.readXml s

namespace BcUdp

/-! ## The cipher -/

/-- The key of the discovery, in words. -/
def xmlKey : List UInt32 :=
  [0x1f2d3c4b, 0x5a6c7f8d, 0x38172e4b, 0x8271635a, 0x863f1a2b, 0xa5c6f7d8, 0x8371e1b4, 0x17f2d3a5]

/-- The bytes of the key of this offset. -/
def keyBytes (offset : UInt32) : Bytes := xmlKey.flatMap fun i => leBytes 4 (i + offset).toNat

/-- The cycled key, combined with the buffer byte by byte. -/
def decrypt (offset : UInt32) (buf : Bytes) : Bytes :=
  buf.mapIdx fun i byte =>
    (keyBytes offset).getD (i % (keyBytes offset).length) 0 ^^^ byte

/-- The key stream is added again. -/
def encrypt (offset : UInt32) (buf : Bytes) : Bytes := decrypt offset buf

@[simp]
theorem length_decrypt (offset : UInt32) (buf : Bytes) :
    (decrypt offset buf).length = buf.length := List.length_mapIdx

/-- The cipher is its own inverse, at the same offset. -/
theorem decrypt_decrypt (offset : UInt32) (buf : Bytes) :
    decrypt offset (decrypt offset buf) = buf := by
  refine List.ext_getElem (by simp) fun i _ _ => ?_
  simp only [decrypt, List.getElem_mapIdx]
  rw [← UInt8.xor_assoc, UInt8.xor_self, UInt8.zero_xor]

end BcUdp

/-! ## The parser -/

/-- A signed word. -/
def leI32 : Parser Int32 := leU32 >>= fun n => pure n.toInt32

/-- The trace of an error raised by hand. -/
def udpMakeError (text : String) (kind : ErrorKind) : List Streaming.Frame :=
  [.kind kind, .context text]

/-- A discovery: the checksum is compared before anything is decrypted. -/
def udpDisc : Parser (UdpDiscovery ρ) := do
  let payloadSize ← context "DISC: Missing payload size or exceeds cap"
    (leU32.verify fun n => n ≤ maxBcudpPayload)
  let _unknownA ← context "DISC: Unable to verify UnknowA" (leU32.verify fun x => x = 1)
  let tid ← context "DISC: Missing TID" leU32
  let checksum ← context "DISC: Missing checksum" leU32
  let encDataSlice ← take payloadSize.toNat
  if checksum ≠ calcCrc crates encDataSlice then fail (udpMakeError "DISC: CRC mismatch" .verify)
  else match UdpXml.tryParse crates (BcUdp.decrypt tid encDataSlice) with
    | none => fail (udpMakeError "DISC: Unable to decode UDPXml" .mapRes)
    | some payload => pure { tid, payload }

/-- The truth map of an acknowledgement, if there is one. -/
def udpAckPayload (payloadSize : UInt32) : Parser Bytes :=
  if 0 < payloadSize then take payloadSize.toNat else pure []

/-- An acknowledgement. Group ids other than the two that are known are refused. -/
def udpAck : Parser UdpAck := do
  let connectionId ← context "ACK: Missing connect ID" leI32
  let _unknownA ← context "ACK: Unable to verify UnknowA" (leU32.verify fun x => x = 0)
  let groupId ← context "ACK: Unable to verify UnknowB"
    (leU32.verify fun x => x = 0 || x = 0xffffffff)
  let packetId ← context "Missing packet_id" leU32
  let maybeLatency ← context "ACK: Missing Maybe Latency" leU32
  let payloadSize ← context "ACK: Missing payload_size or exceeds cap"
    (leU32.verify fun n => n ≤ maxBcudpPayload)
  let payload ← udpAckPayload payloadSize
  pure { connectionId, groupId, packetId, maybeLatency, payload }

/-- Data, with its length in front. -/
def udpData : Parser UdpData := do
  let connectionId ← context "DATA: Missing connection_id" leI32
  let _unknownA ← context "DATA: Unable to verify UnownA" (leU32.verify fun x => x = 0)
  let packetId ← context "DATA: Missing packet_id" leU32
  let payloadSize ← context "DATA: Missing payload_size or exceeds cap"
    (leU32.verify fun n => n ≤ maxBcudpPayload)
  let payload ← take payloadSize.toNat
  pure { connectionId, packetId, payload }

/-- What follows this magic. -/
def bcudpBody (magic : UInt32) : Parser (BcUdp ρ) :=
  if magic = magicHeaderUdpNego then udpDisc crates >>= fun payload => pure (.discovery payload)
  else if magic = magicHeaderUdpAck then udpAck >>= fun payload => pure (.ack payload)
  else if magic = magicHeaderUdpData then udpData >>= fun payload => pure (.data payload)
  else fail (udpMakeError "BcUdp magic dispatch mismatch (verify and match diverged)" .switch)

/-- A datagram: its magic says which of the three it is. -/
def bcudp : Parser (BcUdp ρ) := do
  let magic ← context "Magic is invalid" (leU32.verify fun x =>
    x = magicHeaderUdpNego || x = magicHeaderUdpAck || x = magicHeaderUdpData)
  bcudpBody crates magic

/-- Read a packet off the front of the buffer. If that is not possible, the buffer
    stays as it is. -/
def BcUdp.deserialize : Parser (BcUdp ρ) := bcudp crates

/-! ## Streaming -/

theorem leI32_streams : Streams leI32 := streams_leU32.bind fun _ => streams_pure _

/-- A discovery is not judged before it is complete. -/
theorem udpDisc_streams : Streams (udpDisc crates) :=
  ((streams_leU32.verify _).context _).bind fun _ =>
  ((streams_leU32.verify _).context _).bind fun _ =>
  (streams_leU32.context _).bind fun tid => (streams_leU32.context _).bind fun _ =>
  (streams_take _).bind fun encDataSlice => Streams.ite (streams_fail _) (by
    cases UdpXml.tryParse crates (BcUdp.decrypt tid encDataSlice) with
    | none => exact streams_fail _
    | some payload => exact streams_pure _)

theorem udpAck_streams : Streams udpAck :=
  (leI32_streams.context _).bind fun _ => ((streams_leU32.verify _).context _).bind fun _ =>
  ((streams_leU32.verify _).context _).bind fun _ =>
  (streams_leU32.context _).bind fun _ => (streams_leU32.context _).bind fun _ =>
  ((streams_leU32.verify _).context _).bind fun _ =>
  ((streams_take _).ite (streams_pure _)).bind fun _ => streams_pure _

theorem udpData_streams : Streams udpData :=
  (leI32_streams.context _).bind fun _ => ((streams_leU32.verify _).context _).bind fun _ =>
  (streams_leU32.context _).bind fun _ => ((streams_leU32.verify _).context _).bind fun _ =>
  (streams_take _).bind fun _ => streams_pure _

/-- More bytes behind a packet do not change how it is read. -/
theorem BcUdp.deserialize_streams : Streams (deserialize crates) :=
  ((streams_leU32.verify _).context _).bind fun _ =>
  ((udpDisc_streams crates).bind fun _ => streams_pure _).ite <|
  (udpAck_streams.bind fun _ => streams_pure _).ite <|
  (udpData_streams.bind fun _ => streams_pure _).ite (streams_fail _)

end Bairelay
