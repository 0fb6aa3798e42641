import Bairelay.Bc.Model
import Bairelay.Lib.Streaming

/-!
# Reading messages

The parser of `bc/de.rs`: a header, and a body that is an extension and a
payload for the modern classes of messages, and the two fields of a login for
the legacy class.

* `Bc.deserialize_streams`: what follows a message does not matter to it;
* `bcHeader_reads`, `bcBody_reads`: how many bytes each part takes;
* `Bc.deserialize_length_iff`: a message takes the length its header announces,
  unless it is of the legacy class. The body of a legacy message is not skipped
  by its length: of a login its two fields are taken, of any other one nothing.
-/

namespace Bairelay

open Streaming Parser

/-- A header that announces a longer body is an error, before anything of it is read. -/
def maxBcBodyLen : UInt32 := 8 * 1024 * 1024

/-- The length of the header, by class. -/
def headerLen (cls : UInt16) : ℕ := if hasPayloadOffset cls then 24 else 20

/-- The header of a message. The magic is accepted in both byte orders; whether a payload offset
    follows depends on the class. -/
def bcHeader : Parser BcHeader := do
  let _magic ← context "Magic invalid"
    (leU32.verify fun x => x = magicHeader || x = magicHeaderRev)
  let msgId ← context "MsgID missing" leU32
  let bodyLen ← context "BodyLen missing or exceeds cap" (leU32.verify fun n => n ≤ maxBcBodyLen)
  let channelId ← context "ChannelID missing" leU8
  let streamType ← context "StreamType missing" leU8
  let msgNum ← context "MsgNum missing" leU16
  let (responseCode, cls) ← context "ResponseCode missing"
    (leU16 >>= fun responseCode => leU16 >>= fun cls => pure (responseCode, cls))
  let payloadOffset ← context "Payload Offset is missing" (cond (hasPayloadOffset cls) leU32)
  pure { bodyLen, msgId, channelId, streamType, msgNum, responseCode, cls, payloadOffset }

/-- 32 bytes of text. -/
def hex32 : Parser String := (take 32).mapRes fun slice => String.fromUTF8? ⟨slice.toArray⟩

/-- The login of a client without XML: the hashes of the user name and the password, in hex. -/
def bcLegacyLoginMsg : Parser LegacyMsg := do
  let username ← hex32
  let password ← hex32
  pure (.loginMsg username password)

/-- The trace of an error raised by hand. -/
def makeError (text : String) (kind : ErrorKind) : List Frame := [.kind kind, .context text]

section Modern

variable {ρ : Type} (crates : Crates ρ) (ctx : BcContext) (header : BcHeader)

/-- The extension, if there is one: always under the protocol of the context. -/
def bcExtension (extBuf : Bytes) : Parser (Option Extension) :=
  if 0 < extBuf.length then
    match Extension.tryParse crates
      (ctx.encryptionProtocol.decrypt crates.aes header.channelId.toUInt32 extBuf) with
    | none => fail (makeError "Unable to parse Extension XML" .mapRes)
    | some parsed => pure (some parsed)
  else pure none

/-- Whether the extension announces a binary payload, and if so how much of it
    is encrypted. -/
def binaryMode : Option Extension → Bool × Option UInt32
  | some ext => if ext.binaryData = some 1 then (true, ext.encryptLen) else (false, none)
  | none => (false, none)

/-- The protocol of the payload: a login reply with `0xdd` is setting it, and
    during login it does not go higher than `bcEncrypt`. -/
def payloadProtocol : EncryptionProtocol :=
  if header.msgId = 1 then
    if (header.responseCode >>> 8) &&& 0xff = 0xdd then
      if header.responseCode &&& 0xff = 0x00 then .unencrypted else .bcEncrypt
    else ctx.encryptionProtocol.atLogin
  else ctx.encryptionProtocol

/-- A binary payload: as it is, or under full AES its decrypted part. -/
def binaryPayload (encryptedLen : Option UInt32) (payloadBuf processedPayloadBuf : Bytes) : Bytes :=
  match ctx.encryptionProtocol, encryptedLen with
  | .fullAes _ _, some encryptedLen =>
    processedPayloadBuf.take (min encryptedLen.toNat processedPayloadBuf.length)
  | _, _ => payloadBuf

/-- The payload, if there is one: binary if the conversation is in binary mode or
    the extension says so, and XML otherwise. -/
def bcPayload (extension : Option Extension) (payloadBuf : Bytes) :
    Parser (Option (BcPayloads ρ)) :=
  if 0 < payloadBuf.length then
    let processedPayloadBuf :=
      (payloadProtocol ctx header).decrypt crates.aes header.channelId.toUInt32 payloadBuf
    let (inBinary, encryptedLen) := binaryMode extension
    if header.msgNum ∈ ctx.inBinMode ∨ inBinary then
      pure (some (.binary (binaryPayload ctx encryptedLen payloadBuf processedPayloadBuf)))
    else
      match BcXml.tryParse crates processedPayloadBuf with
      | none => fail (makeError "Unable to parse Payload XML" .mapRes)
      | some xml => pure (some (.bcXml xml))
  else pure none

/-- Without an offset of the payload, all of the body is payload. -/
def bcModernMsg : Parser (ModernMsg ρ) :=
  let extLen := header.payloadOffset.getD 0
  if header.bodyLen < extLen then fail (makeError "payload_offset > body_len" .verify)
  else do
    let extBuf ← take extLen.toNat
    let payloadLen := header.bodyLen - extLen
    let payloadBuf ← take payloadLen.toNat
    let extension ← bcExtension crates ctx header extBuf
    let payload ← bcPayload crates ctx header extension payloadBuf
    pure { extension, payload }

/-- The body, by the class and the id that the header gives. -/
def bcBody : Parser (BcBody ρ) :=
  if header.isModern then bcModernMsg crates ctx header >>= fun body => pure (.modernMsg body)
  else if header.msgId = msgIdLogin then bcLegacyLoginMsg >>= fun body => pure (.legacyMsg body)
  else pure (.legacyMsg .unknownMsg)

/-- Read a message off the front of the buffer. If that is not possible, the
    buffer stays as it is. -/
def Bc.deserialize : Parser (Bc ρ) := do
  let header ← bcHeader
  let body ← bcBody crates ctx header
  pure { bcMeta := header.toMeta, body }

/-! ## Streaming -/

/-- A header that is incomplete is not yet an error. -/
theorem bcHeader_streams : Streams bcHeader :=
  ((streams_leU32.verify _).context _).bind fun _ =>
  (streams_leU32.context _).bind fun _ =>
  ((streams_leU32.verify _).context _).bind fun _ =>
  (streams_leU8.context _).bind fun _ =>
  (streams_leU8.context _).bind fun _ =>
  (streams_leU16.context _).bind fun _ =>
  ((streams_leU16.bind fun _ => streams_leU16.bind fun _ => streams_pure _).context _).bind
    fun _ =>
  ((streams_leU32.cond _).context _).bind fun _ => streams_pure _

theorem hex32_streams : Streams hex32 := (streams_take 32).mapRes _

theorem bcExtension_streams (extBuf : Bytes) : Streams (bcExtension crates ctx header extBuf) := by
  rw [bcExtension]
  refine Streams.ite ?_ (streams_pure _)
  split
  · exact streams_fail _
  · exact streams_pure _

theorem bcPayload_streams (extension : Option Extension) (payloadBuf : Bytes) :
    Streams (bcPayload crates ctx header extension payloadBuf) := by
  rw [bcPayload]
  refine Streams.ite (Streams.ite (streams_pure _) ?_) (streams_pure _)
  split
  · exact streams_fail _
  · exact streams_pure _

/-- A modern message is read at once: its header says how long it is. -/
theorem bcModernMsg_streams : Streams (bcModernMsg crates ctx header) :=
  Streams.ite (streams_fail _)
    ((streams_take _).bind fun extBuf => (streams_take _).bind fun payloadBuf =>
      (bcExtension_streams crates ctx header extBuf).bind fun extension =>
        (bcPayload_streams crates ctx header extension payloadBuf).bind fun _ => streams_pure _)

/-- No body is judged before all of it is there. -/
theorem bcBody_streams : Streams (bcBody crates ctx header) :=
  Streams.ite ((bcModernMsg_streams crates ctx header).bind fun _ => streams_pure _)
    (Streams.ite
      ((hex32_streams.bind fun _ => hex32_streams.bind fun _ => streams_pure _).bind
        fun _ => streams_pure _)
      (streams_pure _))

/-- More bytes behind a message do not change how it is read. -/
theorem Bc.deserialize_streams : Streams (deserialize crates ctx) :=
  bcHeader_streams.bind fun header =>
    (bcBody_streams crates ctx header).bind fun _ => streams_pure _

/-! ## Framing -/

/-- A header takes as many bytes as its class has. -/
theorem bcHeader_reads : Reads bcHeader fun n header => n = headerLen header.cls := by
  have hpair : Reads (leU16 >>= fun responseCode => leU16 >>= fun cls => pure (responseCode, cls))
      fun n _ => n = 4 :=
    reads_leU16.bind fun _ _ h => reads_leU16.bind fun _ _ h' =>
      (reads_pure _).mono fun _ _ h'' => by omega
  exact ((reads_leU32.verify _).context _).bind fun _ _ h₁ =>
    (reads_leU32.context _).bind fun _ _ h₂ =>
    ((reads_leU32.verify _).context _).bind fun _ _ h₃ =>
    (reads_leU8.context _).bind fun _ _ h₄ =>
    (reads_leU8.context _).bind fun _ _ h₅ =>
    (reads_leU16.context _).bind fun _ _ h₆ =>
    (hpair.context _).bind fun _ x h₇ =>
    ((reads_leU32.cond _).context _).bind fun _ _ h₈ =>
    (reads_pure _).mono fun _ header h => by
      obtain ⟨rfl, rfl⟩ := h
      dsimp only at h₈ ⊢
      rw [headerLen]
      split at h₈ <;> simp_all

/-- What the body of a message of this header takes. -/
def bodyBytes : ℕ :=
  if header.isModern then header.bodyLen.toNat
  else if header.msgId = msgIdLogin then 64
  else 0

/-- The extension is read from bytes that were taken before, and takes none of its own. -/
theorem bcExtension_reads (extBuf : Bytes) :
    Reads (bcExtension crates ctx header extBuf) fun n _ => n = 0 := by
  rw [bcExtension]
  split
  · split
    · exact reads_fail _ _
    · exact (reads_pure _).mono fun _ _ h => h.1
  · exact (reads_pure _).mono fun _ _ h => h.1

theorem bcPayload_reads (extension : Option Extension) (payloadBuf : Bytes) :
    Reads (bcPayload crates ctx header extension payloadBuf) fun n _ => n = 0 := by
  rw [bcPayload]
  split
  · dsimp only
    split
    · exact (reads_pure _).mono fun _ _ h => h.1
    · split
      · exact reads_fail _ _
      · exact (reads_pure _).mono fun _ _ h => h.1
  · exact (reads_pure _).mono fun _ _ h => h.1

/-- The extension and the payload are what the body is cut into. -/
theorem bcModernMsg_reads :
    Reads (bcModernMsg crates ctx header) fun n _ => n = header.bodyLen.toNat := by
  rw [bcModernMsg]
  dsimp only
  split
  · exact reads_fail _ _
  next hle =>
    have hlen := UInt32.toNat_sub_of_le _ _ (UInt32.not_lt.1 hle)
    have hle := UInt32.le_iff_toNat_le.1 (UInt32.not_lt.1 hle)
    refine (reads_take _).bind fun _ extBuf h₁ => (reads_take _).bind fun _ payloadBuf h₂ =>
      (bcExtension_reads crates ctx header extBuf).bind fun _ extension h₃ =>
        (bcPayload_reads crates ctx header extension payloadBuf).bind fun _ _ h₄ =>
          (reads_pure _).mono fun _ _ h₅ => by omega

theorem bcLegacyLoginMsg_reads : Reads bcLegacyLoginMsg fun n _ => n = 64 := by
  have hhex : Reads hex32 fun n _ => n = 32 := ((reads_take 32).mono fun _ _ h => h.1).mapRes _
  exact hhex.bind fun _ _ h => hhex.bind fun _ _ h' => (reads_pure _).mono fun _ _ h'' => by omega

/-- A body takes the bytes that its header announces, whatever becomes of them. -/
theorem bcBody_reads : Reads (bcBody crates ctx header) fun n _ => n = bodyBytes header := by
  rw [bcBody, bodyBytes]
  split
  · exact (bcModernMsg_reads crates ctx header).bind fun _ _ h =>
      (reads_pure _).mono fun _ _ h' => by omega
  · split
    · exact bcLegacyLoginMsg_reads.bind fun _ _ h => (reads_pure _).mono fun _ _ h' => by omega
    · exact (reads_pure _).mono fun _ _ h => h.1

variable {crates ctx}

/-- A message takes the bytes of its header and those of its body. -/
theorem Bc.length_of_deserialize {buf rest : Bytes} {bc : Bc ρ}
    (h : deserialize crates ctx buf = .done rest bc) :
    ∃ body header, bcHeader buf = .done body header ∧ bc.bcMeta = header.toMeta ∧
      buf.length = headerLen header.cls + bodyBytes header + rest.length := by
  obtain ⟨body, header, hheader, h⟩ := bind_eq_done.1 h
  obtain ⟨rest', b, hbody, h⟩ := bind_eq_done.1 h
  obtain ⟨rfl, rfl⟩ := Outcome.done.inj h
  obtain ⟨n, hn, rfl⟩ := bcHeader_reads _ _ _ hheader
  obtain ⟨k, hk, rfl⟩ := bcBody_reads crates ctx header _ _ _ hbody
  exact ⟨body, header, hheader, rfl, by omega⟩

/-- A message takes exactly what its header announces if it is of a modern class,
    or a legacy message whose body happens to be as long as what is parsed of it. -/
theorem Bc.deserialize_length_iff {buf rest body : Bytes} {bc : Bc ρ} {header : BcHeader}
    (h : deserialize crates ctx buf = .done rest bc) (hheader : bcHeader buf = .done body header) :
    buf.length = headerLen header.cls + header.bodyLen.toNat + rest.length ↔
      header.cls ≠ 0x6514 ∨ header.msgId = msgIdLogin ∧ header.bodyLen = 64 ∨
        header.msgId ≠ msgIdLogin ∧ header.bodyLen = 0 := by
  obtain ⟨body', header', hheader', -, hlen⟩ := length_of_deserialize h
  obtain ⟨-, rfl⟩ := Outcome.done.inj (hheader'.symm.trans hheader)
  have hiff : buf.length = headerLen header'.cls + header'.bodyLen.toNat + rest.length ↔
      header'.bodyLen.toNat = bodyBytes header' := by omega
  rw [hiff, bodyBytes]
  by_cases hmodern : header'.cls = 0x6514
  · rw [if_neg (by simp [BcHeader.isModern, hmodern])]
    by_cases hlogin : header'.msgId = msgIdLogin
    · rw [if_pos hlogin]
      simpa [hmodern, hlogin] using UInt32.toNat_inj (b := 64)
    · rw [if_neg hlogin]
      simpa [hmodern, hlogin] using UInt32.toNat_inj (b := 0)
  · rw [if_pos (by simp [BcHeader.isModern, hmodern])]
    simp [hmodern]

end Modern

/-- Crates that know two documents: a body without elements, and the extension
    announcing a binary payload. -/
def sampleCrates : Crates Unit where
  aes := ⟨fun _ _ buf => buf, fun _ _ buf => buf⟩
  md5 _ := Vector.replicate 16 0
  writeExtension ext :=
    if ext = { binaryData := some 1 } then some
      "<Extension version=\"1.1\"><binaryData>1</binaryData></Extension>".toUTF8.data.toList
    else none
  readExtension buf :=
    if buf = xmlDecl ++
      "<Extension version=\"1.1\"><binaryData>1</binaryData></Extension>".toUTF8.data.toList
    then some { binaryData := some 1 } else none
  writeBody xml := if xml = ⟨none, none, ()⟩ then some "<body/>".toUTF8.data.toList else none
  readBody buf :=
    if buf = xmlDecl ++ "<body/>".toUTF8.data.toList then some ⟨none, none, ()⟩ else none

/-- A picture of three bytes, in a conversation in binary mode. -/
def sampleChunk : Bytes :=
  [0xf0, 0xde, 0xbc, 0x0a, 3, 0, 0, 0, 3, 0, 0, 0, 0, 0, 5, 0, 200, 0, 0x14, 0x66, 7, 8, 9]

/-- Behind a picture of three bytes one byte of the next message is left. -/
theorem Bc.deserialize_length_sampleChunk :
    ∃ bc, deserialize sampleCrates ((BcContext.new ⟨"admin", none⟩).binaryOn 5)
        (sampleChunk ++ [0xf0]) = .done [0xf0] bc ∧
      (sampleChunk ++ [0xf0]).length =
        headerLen 0x6614 + (3 : UInt32).toNat + [(0xf0 : UInt8)].length := by
  have h : deserialize sampleCrates ((BcContext.new ⟨"admin", none⟩).binaryOn 5)
      (sampleChunk ++ [0xf0]) = .done [0xf0]
        ⟨⟨3, 0, 0, 200, 5, 0x6614⟩, .modernMsg ⟨none, some (.binary [7, 8, 9])⟩⟩ := by
    decide +kernel
  have hheader : bcHeader (sampleChunk ++ [0xf0]) = .done [7, 8, 9, 0xf0]
      ⟨3, 3, 0, 0, 5, 200, 0x6614, none⟩ := by
    decide +kernel
  exact ⟨_, h, (deserialize_length_iff h hheader).2 (.inl (by decide))⟩

/-- The part of a legacy login that is parsed: its body is announced to have
    `1836` bytes, of which the first 64 hold the name and the password. -/
def legacyLogin : Bytes :=
  [0xf0, 0xde, 0xbc, 0x0a, 1, 0, 0, 0, 0x2c, 0x07, 0, 0, 0, 0, 0, 0, 0, 0, 0x14, 0x65] ++
    List.replicate 32 0x61 ++ List.replicate 32 0x62

/-- The 1772 zeros that end a legacy login are left in the buffer. -/
theorem Bc.deserialize_legacyLogin_ne :
    ∃ bc body header,
      deserialize sampleCrates (.new ⟨"admin", none⟩) (legacyLogin ++ List.replicate 1772 0) =
          .done (List.replicate 1772 0) bc ∧
        bcHeader (legacyLogin ++ List.replicate 1772 0) = .done body header ∧
        (legacyLogin ++ List.replicate 1772 0).length ≠ headerLen header.cls +
          header.bodyLen.toNat + (List.replicate 1772 (0 : UInt8)).length := by
  have h : deserialize sampleCrates (.new ⟨"admin", none⟩) legacyLogin =
      .done [] ⟨⟨1, 0, 0, 0, 0, 0x6514⟩, .legacyMsg (.loginMsg
        "aaaaaaaaaaaaaaaaaaaaaaaaaaaaaaaa" "bbbbbbbbbbbbbbbbbbbbbbbbbbbbbbbb")⟩ := by
    decide +kernel
  have hheader : bcHeader legacyLogin = .done (List.replicate 32 0x61 ++ List.replicate 32 0x62)
      ⟨1836, 1, 0, 0, 0, 0, 0x6514, none⟩ := by
    decide +kernel
  refine ⟨_, _, _, (deserialize_streams _ _).done h _, bcHeader_streams.done hheader _, ?_⟩
  rw [List.length_append, List.length_replicate]
  decide +kernel

end Bairelay
