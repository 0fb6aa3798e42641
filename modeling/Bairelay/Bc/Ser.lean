import Bairelay.Bc.Model
import Bairelay.Lib.Streaming

/-!
# Writing messages

The serialiser of `bc/ser.rs`: the body first, encrypted with the protocol it is
given, and then the header, which announces its length and where in it the
payload starts.
-/

namespace Bairelay

open Streaming

/-- What writing a message fails with. -/
inductive GenError where
  | customError (code : ℕ)
  deriving DecidableEq, Repr

/-- The header as it is sent. -/
def bcHeaderBytes (header : BcHeader) : Bytes :=
  leBytes 4 magicHeader.toNat ++
  leBytes 4 header.msgId.toNat ++
  leBytes 4 header.bodyLen.toNat ++
  leBytes 1 header.channelId.toNat ++
  leBytes 1 header.streamType.toNat ++
  leBytes 2 header.msgNum.toNat ++
  leBytes 2 header.responseCode.toNat ++
  leBytes 2 header.cls.toNat ++
  header.payloadOffset.elim [] fun offset => leBytes 4 offset.toNat

/-- A legacy login has 1836 bytes: the name and the password, and zeros. -/
def bcLegacy : LegacyMsg → Except GenError Bytes
  | .loginMsg username password =>
    if username.utf8ByteSize ≠ 32 ∨ password.utf8ByteSize ≠ 32 then .error (.customError 0)
    else .ok (username.toUTF8.data.toList ++ password.toUTF8.data.toList ++ List.replicate 1772 0)
  | .loginUpgrade => .ok []
  | .unknownMsg => .error (.customError 1)

variable {ρ : Type} (crates : Crates ρ)

/-- An extension is encrypted from the offset of its own message on. -/
def bcExtBytes (encOffset : UInt32) (xmlBytes : Bytes) (protocol : EncryptionProtocol) : Bytes :=
  protocol.encrypt crates.aes encOffset xmlBytes

/-- Only XML is encrypted. -/
def bcPayloadBytes (encOffset : UInt32) (payloadBytes : Bytes) (isXml : Bool)
    (protocol : EncryptionProtocol) : Bytes :=
  if isXml then protocol.encrypt crates.aes encOffset payloadBytes else payloadBytes

/-- The extension as XML, not encrypted yet. -/
def extensionBytes : Option Extension → Except GenError (Option Bytes)
  | some ext => match ext.serialize crates with
    | some bytes => .ok (some bytes)
    | none => .error (.customError 2)
  | none => .ok none

/-- The payload as XML or as it is, not encrypted yet. -/
def payloadBytes : Option (BcPayloads ρ) → Except GenError (Option Bytes)
  | some (.bcXml xml) => match xml.serialize crates with
    | some bytes => .ok (some bytes)
    | none => .error (.customError 3)
  | some (.binary data) => .ok (some data)
  | none => .ok none

/-- Whether a payload is encrypted as XML is. -/
def payloadIsXml : Option (BcPayloads ρ) → Bool
  | some (.bcXml _) => true
  | _ => false

/-- The body of a message, and the offset of the payload for the header. -/
def bodyBuf (bcMeta : BcMeta) (protocol : EncryptionProtocol) :
    BcBody ρ → Except GenError (Bytes × Option UInt32)
  | .modernMsg modern => do
    let extBytes ← extensionBytes crates modern.extension
    let payload ← payloadBytes crates modern.payload
    let extBuf := extBytes.elim [] fun bytes =>
      bcExtBytes crates bcMeta.channelId.toUInt32 bytes protocol
    let payloadOffset :=
      if hasPayloadOffset bcMeta.cls then
        some (if modern.extension.isSome then UInt32.ofNat extBuf.length else 0)
      else none
    let payloadBuf := payload.elim [] fun bytes =>
      bcPayloadBytes crates bcMeta.channelId.toUInt32 bytes (payloadIsXml modern.payload) protocol
    pure (extBuf ++ payloadBuf, payloadOffset)
  | .legacyMsg legacy => do
    let buf ← bcLegacy legacy
    pure (buf, none)

/-- A message as bytes. -/
def Bc.serialize (bc : Bc ρ) (protocol : EncryptionProtocol) : Except GenError Bytes := do
  let (body, payloadOffset) ← bodyBuf crates bc.bcMeta protocol bc.body
  let header := BcHeader.fromMeta bc.bcMeta (UInt32.ofNat body.length) payloadOffset
  pure (bcHeaderBytes header ++ body)

end Bairelay
