import Bairelay.Bc.De
import Bairelay.Bc.Ser
import Bairelay.Lib.Incremental

/-!
# The message codec

The codec of `bc/codex.rs`, which keeps the context between messages: a login
reply sets the protocol, a signed login arms a session key for its reply, and an
extension switches its conversation to binary mode or back.

* `decode_lawful`: a call that asks for more input leaves the codec and the
  buffer as they were, and any other one does not depend on the input behind;
* `decode_chunks`: so how the stream is cut into chunks makes no difference.
-/

namespace Bairelay

open Streaming Parser Incremental

/-- What the codec fails with. -/
inductive CodecError where
  | nomError (trace : List Frame)
  | unknownEncryption (encryptionProtocolByte : UInt16)
  | gen (e : GenError)
  deriving DecidableEq, Repr

/-- The context, and the session key of a signed login waiting for its reply. -/
structure BcCodex where
  context : BcContext
  pendingSessionAes : Option (UInt16 × AesBlock × AesBlock)
  deriving DecidableEq

namespace BcCodex

/-- A codec that has not talked to anybody yet. -/
def new (credentials : Credentials) : BcCodex := ⟨.new credentials, none⟩

variable {ρ : Type} (crates : Crates ρ)

/-! ## Encoding -/

/-- The session key of a signed login: a `LoginUser` with a public key. -/
def signedLoginAes (item : Bc ρ) : Option (Option (AesBlock × AesBlock)) :=
  match item.body with
  | .modernMsg ⟨_, some (.bcXml xml)⟩ =>
    (xml.loginUser.filter fun lu => lu.publicKey.isSome).map LoginUser.sessionAes
  | _ => none

/-- A signed login pins the context to `bcEncrypt`, and arms the session key for
    the reply to it. -/
def armLogin (codex : BcCodex) (item : Bc ρ) : BcCodex :=
  match signedLoginAes item with
  | some sessionAes =>
    { context := codex.context.setEncrypted .bcEncrypt
      pendingSessionAes := sessionAes.map fun (key, iv) => (item.bcMeta.msgNum, key, iv) }
  | none => codex

/-- The protocol a message is written with: during login it does not go higher
    than `bcEncrypt`. -/
def encProtocol (codex : BcCodex) (item : Bc ρ) : EncryptionProtocol :=
  if item.bcMeta.msgId = 1 then codex.context.encryptionProtocol.atLogin
  else codex.context.encryptionProtocol

/-- The bytes to append for a message. -/
def encode (codex : BcCodex) (item : Bc ρ) : BcCodex × Except CodecError Bytes :=
  let codex := codex.armLogin item
  (codex, (item.serialize crates (codex.encProtocol item)).mapError .gen)

/-! ## Decoding -/

/-- The reply to the signed login disarms its session key, and applies it if the
    camera accepted the login. -/
def resolveLogin (codex : BcCodex) (bcMeta : BcMeta) : BcCodex :=
  match codex.pendingSessionAes with
  | some (msgNum, key, iv) =>
    if bcMeta.msgId = 1 ∧ bcMeta.msgNum = msgNum then
      { context :=
          if bcMeta.responseCode = 200 then codex.context.setEncrypted (.fullAesWithIv key iv)
          else codex.context
        pendingSessionAes := none }
    else codex
  | none => codex

/-- The nonce of a login reply, if it is to set the protocol. -/
def replyNonce (bc : Bc ρ) : Option String :=
  match bc.body with
  | .modernMsg ⟨_, some (.bcXml xml)⟩ =>
    if bc.bcMeta.msgId = 1 ∧ bc.bcMeta.responseCode >>> 8 = 0xdd then
      xml.encryption.map Encryption.nonce
    else none
  | _ => none

/-- A login reply sets the protocol. -/
def negotiate (codex : BcCodex) (bc : Bc ρ) : Except CodecError BcCodex :=
  match replyNonce bc with
  | none => .ok codex
  | some nonce =>
    let encryptionProtocolByte := bc.bcMeta.responseCode &&& 0xff
    let set protocol := { codex with context := codex.context.setEncrypted protocol }
    if encryptionProtocolByte = 0x00 then .ok (set .unencrypted)
    else if encryptionProtocolByte = 0x01 then .ok (set .bcEncrypt)
    else if encryptionProtocolByte = 0x02 then
      .ok (set (.mkAes (codex.context.credentials.makeAeskey crates nonce)))
    else if encryptionProtocolByte = 0x12 then
      .ok (set (.mkFullAes (codex.context.credentials.makeAeskey crates nonce)))
    else .error (.unknownEncryption encryptionProtocolByte)

/-- An extension switches its conversation to binary mode, or back. -/
def switchBinMode (codex : BcCodex) (bc : Bc ρ) : BcCodex :=
  match bc.body with
  | .modernMsg ⟨some { binaryData := some onOff, .. }, _⟩ =>
    if onOff = 0 then { codex with context := codex.context.binaryOff bc.bcMeta.msgNum }
    else { codex with context := codex.context.binaryOn bc.bcMeta.msgNum }
  | _ => codex

/-- A call of the decoder. A message of an unknown protocol is taken off the
    buffer before the call fails. -/
def decode : Decoder BcCodex UInt8 (Bc ρ) CodecError := fun codex src =>
  match Bc.deserialize crates codex.context src with
  | .incomplete _ => (codex, src, .ok none)
  | .error trace => (codex, src, .error (.nomError trace))
  | .done rest bc =>
    let codex := codex.resolveLogin bc.bcMeta
    match codex.negotiate crates bc with
    | .error e => (codex, rest, .error e)
    | .ok codex => (codex.switchBinMode bc, rest, .ok (some bc))

/-! ## Chunks -/

variable {crates}

/-- While bytes are missing nothing is consumed, and the context stays. -/
theorem decode_waits {codex codex' : BcCodex} {src src' : Bytes}
    (h : decode crates codex src = (codex', src', .ok none)) : codex' = codex ∧ src' = src := by
  rw [decode] at h
  split at h
  · obtain ⟨rfl, rfl, -⟩ := h
    exact ⟨rfl, rfl⟩
  · simp at h
  · dsimp only at h
    split at h <;> simp at h

/-- Bytes that come later do not change what was decoded, or why it failed. -/
theorem decode_append {codex codex' : BcCodex} {src src' : Bytes}
    {r : Except CodecError (Option (Bc ρ))} (h : decode crates codex src = (codex', src', r))
    (hr : r ≠ .ok none) (more : Bytes) :
    decode crates codex (src ++ more) = (codex', src' ++ more, r) := by
  rw [decode] at h ⊢
  split at h
  · obtain ⟨-, -, rfl⟩ := h
    exact absurd rfl hr
  · next he =>
    obtain ⟨rfl, rfl, rfl⟩ := h
    rw [(Bc.deserialize_streams crates _).error he more]
  · next hd =>
    rw [(Bc.deserialize_streams crates _).done hd more]
    dsimp only at h ⊢
    split at h
    all_goals
      obtain ⟨rfl, rfl, rfl⟩ := h
      rfl

/-- A message that is decoded takes at least one byte, so that a stream of them ends. -/
theorem decode_progress {codex codex' : BcCodex} {src src' : Bytes} {bc : Bc ρ}
    (h : decode crates codex src = (codex', src', .ok (some bc))) : src'.length < src.length := by
  rw [decode] at h
  split at h
  · simp at h
  · simp at h
  · next hd =>
    obtain ⟨_, header, -, -, hlen⟩ := Bc.length_of_deserialize hd
    have hpos : 0 < headerLen header.cls := by rw [headerLen]; split <;> decide
    dsimp only at h
    split at h
    · simp at h
    · obtain ⟨-, rfl, -⟩ := h
      omega

theorem decode_lawful : Lawful (decode crates) where
  idle _ := rfl
  waits := decode_waits
  append := decode_append
  progress := decode_progress

/-- However the stream is cut into chunks, the messages, the error if there is
    one, and the codec in the end are the same; after each chunk, the decoder is
    called until it asks for more input or fails. A call that asks for more input
    leaves the codec and the buffer as they were. -/
theorem decode_chunks (codex : BcCodex) (chunks : List Bytes) :
    let cut := chunks.foldl (feed (decode crates)) (Run.start codex)
    let whole := feed (decode crates) (Run.start codex) chunks.flatten
    (cut.items = whole.items ∧ cut.error = whole.error ∧ cut.state = whole.state) ∧
      (∀ (codex : BcCodex) (src : Bytes), let r := drain (decode crates) codex src
        r.error = none → decode crates r.state r.buf = (r.state, r.buf, .ok none)) ∧
      ∀ (codex codex' : BcCodex) (src src' : Bytes),
        decode crates codex src = (codex', src', .ok none) → codex' = codex ∧ src' = src := by
  have hlawful : Lawful (decode crates) := decode_lawful
  have h := hlawful.foldl_feed codex chunks
  exact ⟨⟨h.items, h.error, h.state⟩, hlawful.decode_drain, fun _ _ _ _ => decode_waits⟩

end BcCodex

end Bairelay
