import Bairelay.Bc.Codex

/-!
# Encoding and decoding agree

What `BcCodex.encode` writes for a modern message, `Bc.deserialize` reads back
(`deserialize_encode`), if both sides choose the same cipher. Each of them
chooses on its own, for the extension and for the payload; `SameCipher` says
when the choices agree. They do not always:

* a peer in binary mode reads every payload of the conversation as binary, and
  a login reply with `0xdd` is read with the protocol it announces, whatever the
  context (`deserialize_encode_ne`);
* a signed login pins the encoder, but not its peer, to `bcEncrypt`.

The case analysis over the choices is in `SameCipher.payloadProtocol_eq`.
-/

namespace Bairelay

open Streaming Parser

/-! ## The documents -/

theorem length_le_flatMap_encodeNewline (buf : Bytes) :
    buf.length ≤ (buf.flatMap encodeNewline).length := by
  induction buf with
  | nil => exact Nat.le_refl 0
  | cons b buf ih =>
    have hb : 1 ≤ (encodeNewline b).length := by
      rw [encodeNewline]
      split_ifs <;> simp
    rw [List.flatMap_cons, List.length_append, List.length_cons]
    omega

theorem length_le_encodeCertchainNewlines (buf : Bytes) :
    buf.length ≤ (encodeCertchainNewlines buf).length := by
  rw [encodeCertchainNewlines]
  split
  · exact Nat.le_refl _
  · dsimp only
    split
    · exact Nat.le_refl _
    · next start _ _ relClose _ =>
      have hinner := length_le_flatMap_encodeNewline
        ((buf.take (start + certChainOpen.length + relClose)).drop (start + certChainOpen.length))
      simp only [List.length_append, List.length_take, List.length_drop] at hinner ⊢
      omega

variable {ρ : Type} {crates : Crates ρ}

/-- A document starts with the declaration, so it is not empty. -/
theorem Extension.serialize_ne_nil {ext : Extension} {bytes : Bytes}
    (h : ext.serialize crates = some bytes) : 0 < bytes.length := by
  obtain ⟨element, -, rfl⟩ := Option.map_eq_some_iff.1 h
  rw [List.length_append]
  exact Nat.add_pos_left (by decide) _

theorem BcXml.serialize_ne_nil {xml : BcXml ρ} {bytes : Bytes}
    (h : xml.serialize crates = some bytes) : 0 < bytes.length := by
  obtain ⟨element, -, rfl⟩ := Option.map_eq_some_iff.1 h
  refine lt_of_lt_of_le ?_ (length_le_encodeCertchainNewlines _)
  rw [List.length_append]
  exact Nat.add_pos_left (by decide) _

/-! ## The header and the body -/

/-- A header is read back from its bytes, where the body is not too long and the offset goes with
    the class. -/
theorem bcHeader_yields {header : BcHeader} (hlen : header.bodyLen ≤ maxBcBodyLen)
    (hoffset : header.payloadOffset.isSome = hasPayloadOffset header.cls) :
    Yields bcHeader (bcHeaderBytes header) header := by
  have hcond : Yields (cond (hasPayloadOffset header.cls) leU32)
      (header.payloadOffset.elim [] fun offset => leBytes 4 offset.toNat)
      header.payloadOffset := by
    rw [← hoffset]
    cases header.payloadOffset with
    | none => exact yields_pure none
    | some offset => exact (yields_leU32 offset).bind_pure some
  have hpair := (yields_leU16 header.responseCode).bind
    (f := fun responseCode => leU16 >>= fun cls => pure (responseCode, cls))
    ((yields_leU16 header.cls).bind_pure fun cls => (header.responseCode, cls))
  have hmagic : Yields (leU32.verify fun x => x = magicHeader || x = magicHeaderRev)
      (leBytes 4 magicHeader.toNat) magicHeader := (yields_leU32 magicHeader).verify (by decide)
  have hbodyLen : Yields (leU32.verify fun n => n ≤ maxBcBodyLen)
      (leBytes 4 header.bodyLen.toNat) header.bodyLen :=
    (yields_leU32 header.bodyLen).verify (by simpa using hlen)
  rw [bcHeaderBytes, bcHeader]
  simp only [List.append_assoc]
  refine (hmagic.context _).bind ?_
  refine ((yields_leU32 header.msgId).context _).bind ?_
  refine (hbodyLen.context _).bind ?_
  refine ((yields_leU8 header.channelId).context _).bind ?_
  refine ((yields_leU8 header.streamType).context _).bind ?_
  refine ((yields_leU16 header.msgNum).context _).bind ?_
  rw [← List.append_assoc]
  exact (hpair.context _).bind ((hcond.context _).bind_pure _)

/-- The body is cut where it was put together. -/
theorem bcModernMsg_yields {ctx : BcContext} {header : BcHeader} {msg : ModernMsg ρ}
    {extBuf payloadBuf : Bytes} (hlen : header.bodyLen.toNat = extBuf.length + payloadBuf.length)
    (hoffset : (header.payloadOffset.getD 0).toNat = extBuf.length)
    (hext : bcExtension crates ctx header extBuf = pure msg.extension)
    (hpayload : bcPayload crates ctx header msg.extension payloadBuf = pure msg.payload) :
    Yields (bcModernMsg crates ctx header) (extBuf ++ payloadBuf) msg := by
  have hle : header.payloadOffset.getD 0 ≤ header.bodyLen := UInt32.le_iff_toNat_le.2 (by omega)
  have hrest : (header.bodyLen - header.payloadOffset.getD 0).toNat = payloadBuf.length := by
    rw [UInt32.toNat_sub_of_le _ _ hle]
    omega
  rw [bcModernMsg]
  dsimp only
  rw [if_neg (UInt32.not_lt.2 hle), hoffset, hrest]
  refine (yields_take extBuf).bind ((yields_take payloadBuf).bind_nil ?_)
  rw [hext]
  exact (yields_pure msg.extension).bind_nil (hpayload ▸ (yields_pure msg.payload).bind_pure _)

/-! ## The ciphers -/

namespace BcCodex

/-- The messages to write: modern ones, whose documents are read back as what
    they are, whose binary payloads are not empty and announced, and which are
    not longer than what is accepted. -/
structure Encodable (crates : Crates ρ) (bcMeta : BcMeta) (msg : ModernMsg ρ) : Prop where
  modern : bcMeta.cls ≠ 0x6514
  offset : msg.extension.isSome → hasPayloadOffset bcMeta.cls
  extension : ∀ ext, msg.extension = some ext →
    ∃ bytes, ext.serialize crates = some bytes ∧ Extension.tryParse crates bytes = some ext
  xml : ∀ xml, msg.payload = some (.bcXml xml) →
    ∃ bytes, xml.serialize crates = some bytes ∧ BcXml.tryParse crates bytes = some xml
  binary : ∀ data, msg.payload = some (.binary data) →
    0 < data.length ∧ ∃ ext, msg.extension = some ext ∧ ext.binaryData = some 1
  length : ∀ ext payload, extensionBytes crates msg.extension = .ok ext →
    payloadBytes crates msg.payload = .ok payload →
    (ext.getD []).length + (payload.getD []).length ≤ maxBcBodyLen.toNat

/-- The peer chooses the cipher the codec chose. -/
structure SameCipher (codex : BcCodex) (peer : BcContext) (bcMeta : BcMeta)
    (msg : ModernMsg ρ) : Prop where
  /-- The peer has the protocol the codec has after writing the message. -/
  protocol : peer.encryptionProtocol =
    (codex.armLogin ⟨bcMeta, .modernMsg msg⟩).context.encryptionProtocol
  /-- A login with an extension is not sent under AES. -/
  extension : msg.extension.isSome → bcMeta.msgId = 1 → ¬peer.encryptionProtocol.IsAes
  /-- The peer does not expect a binary payload where there is XML. -/
  xml : ∀ xml, msg.payload = some (.bcXml xml) → bcMeta.msgNum ∉ peer.inBinMode ∧
    ∀ ext, msg.extension = some ext → ext.binaryData ≠ some 1
  /-- A login reply setting the protocol announces the one it is written with. -/
  reply : ∀ xml, msg.payload = some (.bcXml xml) → bcMeta.msgId = 1 →
    (bcMeta.responseCode >>> 8) &&& 0xff = 0xdd →
    (bcMeta.responseCode &&& 0xff = 0x00 ↔ peer.encryptionProtocol = .unencrypted)
  /-- Under full AES, a binary payload does not announce an encrypted part. -/
  binary : ∀ data key iv, msg.payload = some (.binary data) →
    peer.encryptionProtocol = .fullAes key iv →
    ∀ ext, msg.extension = some ext → ext.encryptLen = none

variable {codex : BcCodex} {peer : BcContext} {bcMeta : BcMeta} {msg : ModernMsg ρ}

/-- The extension is read with the protocol it was written with. -/
theorem SameCipher.encProtocol_eq (h : SameCipher codex peer bcMeta msg)
    (hext : msg.extension.isSome) :
    (codex.armLogin ⟨bcMeta, .modernMsg msg⟩).encProtocol ⟨bcMeta, .modernMsg msg⟩ =
      peer.encryptionProtocol := by
  rw [encProtocol, ← h.protocol]
  split
  · next hlogin => rw [EncryptionProtocol.atLogin, if_neg (h.extension hext hlogin)]
  · rfl

/-- An XML payload is read with the protocol it was written with. -/
theorem SameCipher.payloadProtocol_eq (h : SameCipher codex peer bcMeta msg) {xml : BcXml ρ}
    (hxml : msg.payload = some (.bcXml xml)) (bodyLen : UInt32) (payloadOffset : Option UInt32) :
    payloadProtocol peer (.fromMeta bcMeta bodyLen payloadOffset) =
      (codex.armLogin ⟨bcMeta, .modernMsg msg⟩).encProtocol ⟨bcMeta, .modernMsg msg⟩ := by
  rw [encProtocol, ← h.protocol, payloadProtocol]
  simp only [BcHeader.fromMeta_msgId, BcHeader.fromMeta_responseCode]
  by_cases hlogin : bcMeta.msgId = 1
  · rw [if_pos hlogin, if_pos hlogin]
    split
    · next hdd =>
      -- The reply announces the protocol: both sides use it.
      have hreply := h.reply xml hxml hlogin hdd
      split
      · next hzero => rw [hreply.1 hzero]; rfl
      · next hzero =>
        cases hp : peer.encryptionProtocol with
        | unencrypted => exact absurd (hreply.2 hp) hzero
        | bcEncrypt => rfl
        | aes => rfl
        | fullAes => rfl
    · rfl
  · rw [if_neg hlogin, if_neg hlogin]

/-- The extension is written, and read back. -/
theorem bcExtension_encode (haes : crates.aes.Lawful) (hmsg : Encodable crates bcMeta msg)
    (h : SameCipher codex peer bcMeta msg) :
    ∃ ext, extensionBytes crates msg.extension = .ok ext ∧
      ext.isSome = msg.extension.isSome ∧ ∀ bodyLen payloadOffset,
        bcExtension crates peer (.fromMeta bcMeta bodyLen payloadOffset)
          (ext.elim [] fun bytes => bcExtBytes crates bcMeta.channelId.toUInt32 bytes
            ((codex.armLogin ⟨bcMeta, .modernMsg msg⟩).encProtocol ⟨bcMeta, .modernMsg msg⟩)) =
          pure msg.extension := by
  cases hext : msg.extension with
  | none => exact ⟨none, rfl, rfl, fun _ _ => rfl⟩
  | some ext =>
    obtain ⟨bytes, hbytes, hparse⟩ := hmsg.extension ext hext
    refine ⟨some bytes, by simp [extensionBytes, hbytes], rfl, fun bodyLen payloadOffset => ?_⟩
    rw [h.encProtocol_eq (by rw [hext]; rfl), Option.elim_some, bcExtBytes, bcExtension, if_pos]
    · rw [BcHeader.fromMeta_channelId, EncryptionProtocol.decrypt_encrypt haes, hparse]
    · rw [EncryptionProtocol.length_encrypt haes]
      exact Extension.serialize_ne_nil hbytes

/-- The payload is written, and read back. -/
theorem bcPayload_encode (haes : crates.aes.Lawful) (hmsg : Encodable crates bcMeta msg)
    (h : SameCipher codex peer bcMeta msg) :
    ∃ payload, payloadBytes crates msg.payload = .ok payload ∧ ∀ bodyLen payloadOffset,
      bcPayload crates peer (.fromMeta bcMeta bodyLen payloadOffset) msg.extension
        (payload.elim [] fun bytes => bcPayloadBytes crates bcMeta.channelId.toUInt32 bytes
          (payloadIsXml msg.payload)
          ((codex.armLogin ⟨bcMeta, .modernMsg msg⟩).encProtocol ⟨bcMeta, .modernMsg msg⟩)) =
        pure msg.payload := by
  rcases hpayload : msg.payload with - | ⟨xml | data⟩
  · exact ⟨none, rfl, fun _ _ => rfl⟩
  · obtain ⟨bytes, hbytes, hparse⟩ := hmsg.xml xml hpayload
    refine ⟨some bytes, by simp [payloadBytes, hbytes], fun bodyLen payloadOffset => ?_⟩
    obtain ⟨hnum, hbinary⟩ := h.xml xml hpayload
    have hmode : binaryMode msg.extension = (false, none) := by
      cases hext : msg.extension with
      | none => rfl
      | some ext => rw [binaryMode, if_neg (hbinary ext hext)]
    rw [← h.payloadProtocol_eq hpayload bodyLen payloadOffset, Option.elim_some, bcPayloadBytes,
      payloadIsXml, if_pos rfl, bcPayload, if_pos]
    · dsimp only
      rw [hmode, if_neg (by simpa using hnum), BcHeader.fromMeta_channelId,
        EncryptionProtocol.decrypt_encrypt haes, hparse]
    · rw [EncryptionProtocol.length_encrypt haes]
      exact BcXml.serialize_ne_nil hbytes
  · obtain ⟨hlen, ext, hext, hbinary⟩ := hmsg.binary data hpayload
    refine ⟨some data, rfl, fun bodyLen payloadOffset => ?_⟩
    have hmode : binaryMode msg.extension = (true, ext.encryptLen) := by
      rw [hext, binaryMode, if_pos hbinary]
    have hisXml : payloadIsXml (some (.binary data : BcPayloads ρ)) = false := rfl
    rw [Option.elim_some, bcPayloadBytes, hisXml, if_neg Bool.false_ne_true, bcPayload,
      if_pos hlen]
    dsimp only
    rw [hmode, if_pos (.inr rfl)]
    -- In clear, whatever the protocol.
    have hclear : binaryPayload peer ext.encryptLen data = fun _ => data := by
      funext processed
      rw [binaryPayload]
      intro key iv n hp hn
      rw [h.binary data key iv hpayload hp ext hext] at hn
      cases hn
    rw [hclear]

/-- Encrypting does not change the length of the extension. -/
theorem length_extBuf (haes : crates.aes.Lawful) (encOffset : UInt32)
    (protocol : EncryptionProtocol) (ext : Option Bytes) :
    (ext.elim [] fun bytes => bcExtBytes crates encOffset bytes protocol).length =
      (ext.getD []).length := by
  cases ext with
  | none => rfl
  | some bytes => exact EncryptionProtocol.length_encrypt haes _ _ _

/-- Encrypting does not change the length of the payload. -/
theorem length_payloadBuf (haes : crates.aes.Lawful) (encOffset : UInt32)
    (protocol : EncryptionProtocol) (isXml : Bool) (payload : Option Bytes) :
    (payload.elim [] fun bytes => bcPayloadBytes crates encOffset bytes isXml protocol).length =
      (payload.getD []).length := by
  cases payload with
  | none => rfl
  | some bytes =>
    rw [Option.elim_some, bcPayloadBytes]
    split
    · exact EncryptionProtocol.length_encrypt haes _ _ _
    · rfl

/-- What the codec writes for a modern message, a peer that chooses the same
    cipher reads back. -/
theorem deserialize_encode (haes : crates.aes.Lawful) (hmsg : Encodable crates bcMeta msg)
    (h : SameCipher codex peer bcMeta msg) :
    ∃ bytes, (codex.encode crates ⟨bcMeta, .modernMsg msg⟩).2 = .ok bytes ∧
      ∀ rest, Bc.deserialize crates peer (bytes ++ rest) = .done rest ⟨bcMeta, .modernMsg msg⟩ := by
  obtain ⟨ext, hext, hsome, hreadExt⟩ := bcExtension_encode haes hmsg h
  obtain ⟨payload, hpayload, hreadPayload⟩ := bcPayload_encode haes hmsg h
  have hlen := hmsg.length ext payload hext hpayload
  -- The two parts of the body, as they are written.
  generalize hprotocol : (codex.armLogin ⟨bcMeta, .modernMsg msg⟩).encProtocol
    ⟨bcMeta, .modernMsg msg⟩ = protocol at hreadExt hreadPayload
  generalize hextBuf : (ext.elim [] fun bytes =>
    bcExtBytes crates bcMeta.channelId.toUInt32 bytes protocol) = extBuf at hreadExt
  generalize hpayloadBuf : (payload.elim [] fun bytes => bcPayloadBytes crates
    bcMeta.channelId.toUInt32 bytes (payloadIsXml msg.payload) protocol) = payloadBuf
    at hreadPayload
  have hextLen := length_extBuf haes bcMeta.channelId.toUInt32 protocol ext
  have hpayloadLen := length_payloadBuf haes bcMeta.channelId.toUInt32 protocol
    (payloadIsXml msg.payload) payload
  rw [hextBuf] at hextLen
  rw [hpayloadBuf] at hpayloadLen
  have hmax : maxBcBodyLen.toNat = 8 * 1024 * 1024 := by decide
  -- What the header says about them.
  let payloadOffset : Option UInt32 :=
    if hasPayloadOffset bcMeta.cls then
      some (if msg.extension.isSome then UInt32.ofNat extBuf.length else 0)
    else none
  have hsomeOffset : payloadOffset.isSome = hasPayloadOffset bcMeta.cls := by
    dsimp only [payloadOffset]
    split
    · next hcls => rw [hcls]; rfl
    · next hcls => rw [Bool.eq_false_iff.2 hcls]; rfl
  have hoffset : (payloadOffset.getD 0).toNat = extBuf.length := by
    dsimp only [payloadOffset]
    by_cases hisSome : msg.extension.isSome
    · rw [if_pos (hmsg.offset hisSome), if_pos hisSome, Option.getD_some,
        Word32.toNat_ofNat_of_lt (by omega)]
    · have hnone : ext = none := Option.not_isSome_iff_eq_none.1 (by rw [hsome]; exact hisSome)
      rw [if_neg hisSome, hextLen, hnone]
      split <;> rfl
  let header := BcHeader.fromMeta bcMeta (UInt32.ofNat (extBuf ++ payloadBuf).length) payloadOffset
  have hbodyLen : header.bodyLen.toNat = extBuf.length + payloadBuf.length := by
    rw [BcHeader.fromMeta_bodyLen, List.length_append, Word32.toNat_ofNat_of_lt (by omega)]
  have hbody : bodyBuf crates bcMeta protocol (.modernMsg msg) =
      .ok (extBuf ++ payloadBuf, payloadOffset) := by
    subst hextBuf hpayloadBuf
    rw [bodyBuf, hext, hpayload]
    rfl
  refine ⟨bcHeaderBytes header ++ (extBuf ++ payloadBuf), ?_, ?_⟩
  · rw [encode]
    dsimp only
    rw [hprotocol, Bc.serialize, hbody]
    rfl
  · have hread := bcModernMsg_yields hbodyLen hoffset (hreadExt _ _) (hreadPayload _ _)
    refine (bcHeader_yields (UInt32.le_iff_toNat_le.2 (by omega)) hsomeOffset).bind ?_
    refine Yields.bind_nil ?_ (yields_pure _)
    rw [bcBody, if_pos (by simpa [header, BcHeader.isModern] using hmsg.modern)]
    exact hread.bind_pure _

/-- The identity is a lawful cipher. -/
theorem sampleCrates_lawful : sampleCrates.aes.Lawful :=
  ⟨fun _ _ _ => rfl, fun _ _ _ => rfl⟩

/-- A body without elements. -/
def sampleBody : ModernMsg Unit := ⟨none, some (.bcXml ⟨none, none, ()⟩)⟩

/-- A body of XML may be sent in every modern class that has no extension. -/
theorem encodable_sampleBody {bcMeta : BcMeta} (h : bcMeta.cls ≠ 0x6514) :
    Encodable sampleCrates bcMeta sampleBody where
  modern := h
  offset h := nomatch h
  extension _ h := nomatch h
  xml xml h := by
    obtain rfl : ⟨none, none, ()⟩ = xml := BcPayloads.bcXml.inj (Option.some.inj h)
    exact ⟨_, rfl, by decide +kernel⟩
  binary _ h := nomatch h
  length ext payload hext hpayload := by
    obtain rfl := Except.ok.inj hext
    obtain rfl := Except.ok.inj hpayload
    decide +kernel

/-- A picture of three bytes, announced by its extension. -/
def samplePicture : ModernMsg Unit :=
  ⟨some { binaryData := some 1 }, some (.binary [7, 8, 9])⟩

/-- A picture with the extension that announces it. -/
theorem encodable_samplePicture : Encodable sampleCrates ⟨3, 2, 0, 0, 5, 0x6414⟩ samplePicture where
  modern := by decide
  offset _ := by decide
  extension ext h := by
    obtain rfl := Option.some.inj h
    exact ⟨_, rfl, by decide +kernel⟩
  xml _ h := nomatch h
  binary data h := by
    obtain rfl : [7, 8, 9] = data := BcPayloads.binary.inj (Option.some.inj h)
    exact ⟨by decide, _, rfl, rfl⟩
  length ext payload hext hpayload := by
    obtain rfl := Except.ok.inj hext
    obtain rfl := Except.ok.inj hpayload
    decide +kernel

/-- The picture comes out as it went in, with what stands behind it left over. -/
theorem deserialize_encode_samplePicture :
    ∃ bytes, ((⟨.newWithEncryption .bcEncrypt, none⟩ : BcCodex).encode sampleCrates
        ⟨⟨3, 2, 0, 0, 5, 0x6414⟩, .modernMsg samplePicture⟩).2 = .ok bytes ∧
      ∀ rest, Bc.deserialize sampleCrates (.newWithEncryption .bcEncrypt) (bytes ++ rest) =
        .done rest ⟨⟨3, 2, 0, 0, 5, 0x6414⟩, .modernMsg samplePicture⟩ :=
  deserialize_encode sampleCrates_lawful encodable_samplePicture
    { protocol := rfl
      extension := fun _ => by decide
      xml := fun _ h => nomatch h
      reply := fun _ h => nomatch h
      binary := fun _ _ _ _ h => nomatch h }

/-- A login reply announcing that it is not encrypted. -/
def sampleReply : Bc Unit := ⟨⟨1, 0, 0, 0xdd00, 0, 0x6614⟩, .modernMsg sampleBody⟩

/-- A message of the conversation `5`. -/
def sampleStatus : Bc Unit := ⟨⟨3, 0, 0, 200, 5, 0x6614⟩, .modernMsg sampleBody⟩

/-- Under one and the same protocol, a login reply announcing that it is not
    encrypted is not read back, nor is XML by a peer in binary mode. -/
theorem deserialize_encode_ne : sampleCrates.aes.Lawful ∧
    (Encodable sampleCrates sampleReply.bcMeta sampleBody ∧
      ∃ bytes, (encode sampleCrates ⟨.newWithEncryption .bcEncrypt, none⟩ sampleReply).2 =
          .ok bytes ∧
        Bc.deserialize sampleCrates (.newWithEncryption .bcEncrypt) bytes ≠
          .done [] sampleReply) ∧
    Encodable sampleCrates sampleStatus.bcMeta sampleBody ∧
      ∃ bytes, (encode sampleCrates ⟨.newWithEncryption .unencrypted, none⟩ sampleStatus).2 =
          .ok bytes ∧
        Bc.deserialize sampleCrates ((BcContext.newWithEncryption .unencrypted).binaryOn 5) bytes ≠
          .done [] sampleStatus := by
  refine ⟨sampleCrates_lawful, ⟨encodable_sampleBody (by decide), _, rfl, ?_⟩,
    encodable_sampleBody (by decide), _, rfl, ?_⟩
  · decide +kernel
  · decide +kernel

end BcCodex

end Bairelay
