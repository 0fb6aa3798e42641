import Bairelay.Bc.RoundTrip
import Bairelay.Lib.Cfb

/-!
# Partly encrypted media

Cameras with full AES encrypt the front of a media payload, and say in the extension
how much of it: the first `encryptLen` bytes, with the rest left in clear. The parser
of `bc/de.rs` decrypts the payload and takes as many bytes, so that the rest is lost.

* `bcModernMsg_whole_iff`: the payload is read as a whole exactly if all of it is
  encrypted. The payload of a login is not under AES to begin with, and is read as a whole
  only if its own protocol happens to undo the encryption.
* `bcModernMsg_take`: of any other message the encrypted part is what is read.

The cipher is AES in cipher feedback mode (`Aes.ofBlock`), which is lawful whatever the
block function is.
-/

namespace Bairelay

open Streaming Parser

/-! ## The cipher -/

/-- The cipher of a block function in cipher feedback mode. -/
def Aes.ofBlock (E : AesBlock → Bytes → Bytes) : Aes where
  encrypt key iv := Cfb.encrypt (E key) 16 iv.toList
  decrypt key iv := Cfb.decrypt (E key) 16 iv.toList

/-- Whatever the block function is: only its forward direction is used. -/
theorem Aes.ofBlock_lawful (E : AesBlock → Bytes → Bytes) : (Aes.ofBlock E).Lawful where
  length_encrypt key iv buf := Cfb.length_encrypt (E key) 16 iv.toList buf
  decrypt_encrypt key iv buf := Cfb.decrypt_encrypt (E key) 16 iv.toList buf

/-! ## Messages -/

section

variable {ρ : Type}

/-- A payload with its first `n` bytes encrypted. -/
def partlyEncrypted (aes : Aes) (key iv : AesBlock) (n : ℕ) (plain : Bytes) : Bytes :=
  aes.encrypt key iv (plain.take n) ++ plain.drop n

/-- What is read of a binary payload. -/
def binaryOrNone (data : Bytes) : Option (BcPayloads ρ) :=
  if data = [] then none else some (.binary data)

/-- Under full AES, the header and the extension of a message with a payload of which the
    first `n` bytes are encrypted. -/
structure AnnouncesPartly (crates : Crates ρ) (ctx : BcContext) (header : BcHeader)
    (extBuf : Bytes) (ext : Extension) (key iv : AesBlock) (n : UInt32) (plain : Bytes) : Prop where
  session : ctx.encryptionProtocol = .fullAes key iv
  offset : (header.payloadOffset.getD 0).toNat = extBuf.length
  bodyLen : header.bodyLen.toNat = extBuf.length + plain.length
  extBuf_pos : 0 < extBuf.length
  extension : Extension.tryParse crates
    (ctx.encryptionProtocol.decrypt crates.aes header.channelId.toUInt32 extBuf) = some ext
  binaryData : ext.binaryData = some 1
  encryptLen : ext.encryptLen = some n
  le : n.toNat ≤ plain.length

variable {crates : Crates ρ} {ctx : BcContext} {header : BcHeader} {extBuf : Bytes}
  {ext : Extension} {key iv : AesBlock} {n : UInt32} {plain : Bytes}

theorem length_partlyEncrypted (haes : crates.aes.Lawful) (h : n.toNat ≤ plain.length) :
    (partlyEncrypted crates.aes key iv n.toNat plain).length = plain.length := by
  rw [partlyEncrypted, List.length_append, haes.length_encrypt, List.length_take,
    List.length_drop, min_eq_left h, Nat.add_sub_cancel' h]

/-- The parser decrypts the payload, and takes as many bytes as are encrypted. -/
theorem AnnouncesPartly.yields (haes : crates.aes.Lawful)
    (h : AnnouncesPartly crates ctx header extBuf ext key iv n plain) :
    Yields (bcModernMsg crates ctx header)
      (extBuf ++ partlyEncrypted crates.aes key iv n.toNat plain)
      ⟨some ext, if plain = [] then none else some (.binary
        (((payloadProtocol ctx header).decrypt crates.aes header.channelId.toUInt32
          (partlyEncrypted crates.aes key iv n.toNat plain)).take n.toNat))⟩ := by
  have hlen : (partlyEncrypted crates.aes key iv n.toNat plain).length = plain.length :=
    length_partlyEncrypted haes h.le
  refine bcModernMsg_yields (h.bodyLen.trans (by rw [hlen])) h.offset ?_ ?_
  · rw [bcExtension, if_pos h.extBuf_pos, h.extension]
  · rw [bcPayload, hlen]
    by_cases hplain : plain = []
    · rw [if_neg (by rw [hplain]; exact lt_irrefl 0), if_pos hplain]
    · have hmode : binaryMode (some ext) = (true, some n) := by
        rw [binaryMode, if_pos h.binaryData, h.encryptLen]
      rw [if_pos (List.length_pos_iff.2 hplain), if_neg hplain, hmode]
      dsimp only
      rw [if_pos (.inr rfl), binaryPayload.eq_def, h.session]
      dsimp only
      rw [← List.take_eq_take_min]

/-- The payload of a login is not under AES. -/
theorem payloadProtocol_login (hsession : ctx.encryptionProtocol = .fullAes key iv)
    (hlogin : header.msgId = 1) : ¬(payloadProtocol ctx header).IsAes := by
  rw [payloadProtocol, if_pos hlogin, hsession]
  split
  · split <;> exact id
  · exact id

/-- Media is read with the session key where one was agreed on for it. -/
theorem payloadProtocol_media (hsession : ctx.encryptionProtocol = .fullAes key iv)
    (hmedia : header.msgId ≠ 1) : payloadProtocol ctx header = .fullAes key iv := by
  rw [payloadProtocol, if_neg hmedia, hsession]

theorem length_decrypt_of_not_isAes {protocol : EncryptionProtocol} (h : ¬protocol.IsAes)
    (aes : Aes) (offset : UInt32) (buf : Bytes) :
    (protocol.decrypt aes offset buf).length = buf.length := by
  cases protocol with
  | unencrypted => rfl
  | bcEncrypt => exact List.length_mapIdx
  | aes | fullAes => exact absurd trivial h

/-- What is encrypted as a whole. -/
theorem partlyEncrypted_length (aes : Aes) (key iv : AesBlock) (plain : Bytes) :
    partlyEncrypted aes key iv plain.length plain = aes.encrypt key iv plain := by
  rw [partlyEncrypted, List.take_length, List.drop_length, List.append_nil]

/-- Decrypting the front of the payload gives the plaintext if that is all of it, and its
    protocol undoes AES. -/
theorem take_decrypt_eq_iff (haes : crates.aes.Lawful)
    (h : AnnouncesPartly crates ctx header extBuf ext key iv n plain) :
    ((payloadProtocol ctx header).decrypt crates.aes header.channelId.toUInt32
        (partlyEncrypted crates.aes key iv n.toNat plain)).take n.toNat = plain ↔
      n.toNat = plain.length ∧ (header.msgId = 1 →
        (payloadProtocol ctx header).decrypt crates.aes header.channelId.toUInt32
          (crates.aes.encrypt key iv plain) = plain) := by
  constructor
  · intro heq
    have hle : plain.length ≤ n.toNat := by
      rw [← heq]
      exact List.length_take_le ..
    have hn : n.toNat = plain.length := le_antisymm h.le hle
    refine ⟨hn, fun hlogin => ?_⟩
    rw [hn, partlyEncrypted_length, List.take_of_length_le] at heq
    · exact heq
    · rw [length_decrypt_of_not_isAes (payloadProtocol_login h.session hlogin),
        haes.length_encrypt]
  · rintro ⟨hn, hlogin⟩
    have hplain : (payloadProtocol ctx header).decrypt crates.aes header.channelId.toUInt32
        (crates.aes.encrypt key iv plain) = plain := by
      by_cases hmsg : header.msgId = 1
      · exact hlogin hmsg
      · rw [payloadProtocol_media h.session hmsg]
        exact haes.decrypt_encrypt key iv plain
    rw [hn, partlyEncrypted_length, hplain, List.take_length]

/-- The payload is read as a whole exactly if all of it is encrypted (and, of a login, if
    its protocol undoes AES). -/
theorem bcModernMsg_whole_iff (haes : crates.aes.Lawful)
    (h : AnnouncesPartly crates ctx header extBuf ext key iv n plain) :
    Yields (bcModernMsg crates ctx header)
        (extBuf ++ partlyEncrypted crates.aes key iv n.toNat plain)
        ⟨some ext, binaryOrNone plain⟩ ↔
      n.toNat = plain.length ∧ (header.msgId = 1 →
        (payloadProtocol ctx header).decrypt crates.aes header.channelId.toUInt32
          (crates.aes.encrypt key iv plain) = plain) := by
  rw [← take_decrypt_eq_iff haes h]
  have hread := h.yields haes
  constructor
  · intro hwhole
    -- One message is read, not two.
    have heq := (hwhole []).symm.trans (hread [])
    simp only [Outcome.done.injEq, ModernMsg.mk.injEq, true_and, binaryOrNone] at heq
    by_cases hplain : plain = []
    · have hn : n.toNat = 0 := Nat.le_zero.1 (h.le.trans_eq (by rw [hplain, List.length_nil]))
      rw [hn, List.take_zero, hplain]
    · rw [if_neg hplain, if_neg hplain] at heq
      exact (BcPayloads.binary.inj (Option.some.inj heq)).symm
  · intro heq
    rwa [heq] at hread

/-- Of a message other than a login, what is read is the encrypted part. -/
theorem bcModernMsg_take {E : AesBlock → Bytes → Bytes} (haes : crates.aes = Aes.ofBlock E)
    (h : AnnouncesPartly crates ctx header extBuf ext key iv n plain) (hmsg : header.msgId ≠ 1) :
    Yields (bcModernMsg crates ctx header)
      (extBuf ++ partlyEncrypted crates.aes key iv n.toNat plain)
      ⟨some ext, if plain = [] then none else some (.binary (plain.take n.toNat))⟩ := by
  have hlawful : crates.aes.Lawful := haes ▸ Aes.ofBlock_lawful E
  have hfront : (crates.aes.decrypt key iv
      (partlyEncrypted crates.aes key iv n.toNat plain)).take n.toNat = plain.take n.toNat := by
    have htake : (partlyEncrypted crates.aes key iv n.toNat plain).take n.toNat =
        crates.aes.encrypt key iv (plain.take n.toNat) := by
      rw [partlyEncrypted, List.take_append_of_le_length, List.take_of_length_le]
      all_goals rw [hlawful.length_encrypt, List.length_take, min_eq_left h.le]
    calc (crates.aes.decrypt key iv (partlyEncrypted crates.aes key iv n.toNat plain)).take n.toNat
        = crates.aes.decrypt key iv
            ((partlyEncrypted crates.aes key iv n.toNat plain).take n.toNat) := by
          rw [haes]
          exact Cfb.take_decrypt (E key) 16 iv.toList _ _
      _ = plain.take n.toNat := by rw [htake, hlawful.decrypt_encrypt]
  have hread := h.yields hlawful
  rw [payloadProtocol_media h.session hmsg] at hread
  exact hfront ▸ hread

end

/-! ## A message of a session -/

/-- `<Extension version="1.1"><binaryData>1</binaryData><encryptLen>2</encryptLen></Extension>`
    behind the declaration. -/
def encryptLenXml : Bytes := xmlDecl ++ (
  "<Extension version=\"1.1\"><binaryData>1</binaryData><encryptLen>2</encryptLen></Extension>"
  ).toUTF8.data.toList

/-- AES-128 under the key of zeros, for the blocks met in the encryption of
    `encryptLenXml`. -/
def zeroKeyBlocks : List (Bytes × Bytes) := [
  ([48, 49, 50, 51, 52, 53, 54, 55, 56, 57, 97, 98, 99, 100, 101, 102],
   [20, 245, 254, 116, 105, 102, 242, 146, 101, 28, 34, 136, 187, 255, 70, 9]),
  ([40, 202, 134, 25, 5, 70, 132, 247, 23, 111, 75, 231, 213, 194, 100, 56],
   [157, 151, 37, 26, 37, 171, 238, 79, 124, 70, 52, 238, 145, 129, 252, 158]),
  ([179, 167, 7, 58, 64, 197, 141, 32, 24, 47, 90, 137, 172, 163, 169, 202],
   [191, 19, 186, 76, 57, 45, 113, 170, 78, 64, 237, 208, 127, 231, 18, 108]),
  ([249, 62, 130, 110, 6, 19, 77, 239, 54, 52, 136, 190, 12, 142, 125, 2],
   [127, 199, 150, 225, 163, 143, 110, 14, 245, 146, 28, 7, 224, 255, 134, 164]),
  ([95, 177, 243, 147, 208, 230, 1, 96, 200, 176, 45, 41, 209, 221, 184, 152],
   [135, 233, 100, 96, 75, 10, 138, 57, 147, 90, 54, 189, 220, 117, 71, 194]),
  ([229, 128, 10, 1, 57, 115, 206, 88, 231, 59, 8, 140, 224, 90, 37, 171],
   [213, 165, 50, 27, 26, 79, 93, 95, 92, 135, 165, 194, 78, 22, 128, 159]),
  ([187, 196, 64, 98, 94, 46, 41, 62, 98, 187, 192, 172, 45, 100, 249, 239],
   [254, 56, 176, 85, 171, 161, 44, 43, 72, 216, 250, 150, 61, 202, 211, 164]),
  ([138, 116, 213, 59, 149, 147, 16, 4, 45, 182, 153, 228, 68, 186, 167, 232],
   [18, 130, 123, 61, 202, 39, 41, 26, 9, 98, 84, 25, 5, 26, 179, 165])]

/-- A key for the sample. -/
def zeroKey : AesBlock := Vector.replicate 16 0

/-- Crates that know one document, and AES for it. -/
def encryptLenCrates : Crates Unit where
  aes := .ofBlock fun _ block => (zeroKeyBlocks.lookup block).getD block
  md5 _ := Vector.replicate 16 0
  writeExtension _ := none
  readExtension buf :=
    if buf = encryptLenXml then some { binaryData := some 1, encryptLen := some 2 } else none
  writeBody _ := none
  readBody _ := none

/-- The session, after login. -/
def zeroKeySession : BcContext := .newWithEncryption (.mkFullAes zeroKey)

/-- A message of a video stream, with so many bytes of payload. -/
def videoHeader (payloadLen : UInt32) : BcHeader :=
  ⟨127 + payloadLen, 3, 0, 0, 5, 200, 0x6414, some 127⟩

/-- The extension of the sample as it is sent: extensions are encrypted as a whole. -/
def encryptedExtension : Bytes := encryptLenCrates.aes.encrypt zeroKey iv encryptLenXml

/-- The sample says that two bytes of its payload are encrypted. -/
theorem encryptLenCrates_announces {plain : Bytes} {payloadLen : UInt32}
    (hlen : (127 + payloadLen).toNat = 127 + plain.length) (hle : 2 ≤ plain.length) :
    AnnouncesPartly encryptLenCrates zeroKeySession (videoHeader payloadLen) encryptedExtension
      { binaryData := some 1, encryptLen := some 2 } zeroKey iv 2 plain where
  session := rfl
  offset := show (127 : UInt32).toNat = encryptedExtension.length by decide +kernel
  bodyLen := hlen
  extBuf_pos := by decide +kernel
  extension := show encryptLenCrates.readExtension
    (encryptLenCrates.aes.decrypt zeroKey iv encryptedExtension) = _ by decide +kernel
  binaryData := rfl
  encryptLen := rfl
  le := hle

/-- With three bytes of payload, the third one is lost. -/
theorem bcModernMsg_tail :
    AnnouncesPartly encryptLenCrates zeroKeySession (videoHeader 3) encryptedExtension
        { binaryData := some 1, encryptLen := some 2 } zeroKey iv 2 [7, 8, 9] ∧
      partlyEncrypted encryptLenCrates.aes zeroKey iv 2 [7, 8, 9] = [0x13, 0xfd, 9] ∧
      bcModernMsg encryptLenCrates zeroKeySession (videoHeader 3)
          (encryptedExtension ++ [0x13, 0xfd, 9]) =
        .done [] ⟨some { binaryData := some 1, encryptLen := some 2 }, some (.binary [7, 8])⟩ :=
  ⟨encryptLenCrates_announces (by decide) (by decide), by decide +kernel, by decide +kernel⟩

/-- A payload of two bytes is read as a whole. -/
theorem bcModernMsg_whole_two :
    Yields (bcModernMsg encryptLenCrates zeroKeySession (videoHeader 2))
      (encryptedExtension ++ partlyEncrypted encryptLenCrates.aes zeroKey iv 2 [7, 8])
      ⟨some { binaryData := some 1, encryptLen := some 2 }, binaryOrNone [7, 8]⟩ :=
  (bcModernMsg_whole_iff (Aes.ofBlock_lawful _)
    (encryptLenCrates_announces (by decide) (by decide))).2
    ⟨rfl, fun h => absurd h (by decide)⟩

end Bairelay
