import Bairelay.Basic

/-!
# Encryption of Baichuan messages

The encryption modes a camera may negotiate at login (`bc/crypto.rs`). The
AES-128-CFB cipher is the one of the `aes` and `cfb-mode` crates, a parameter
here (`Aes`); `Aes.Lawful` is what is known of it.

* `decrypt_encrypt`: under every protocol, decrypting undoes encrypting.
-/

namespace Bairelay

/-- An AES-128 key or initialisation vector. -/
abbrev AesBlock := Vector UInt8 16

/-- The AES-128-CFB cipher, by key and initialisation vector. -/
structure Aes where
  encrypt : AesBlock → AesBlock → Bytes → Bytes
  decrypt : AesBlock → AesBlock → Bytes → Bytes

/-- The stream cipher keeps lengths, and its two directions are inverse. -/
structure Aes.Lawful (aes : Aes) : Prop where
  length_encrypt : ∀ key iv buf, (aes.encrypt key iv buf).length = buf.length
  decrypt_encrypt : ∀ key iv buf, aes.decrypt key iv (aes.encrypt key iv buf) = buf

/-- The key of `BCEncrypt`, the same for all cameras. -/
def xmlKey : Vector UInt8 8 := #v[0x1F, 0x2D, 0x3C, 0x4B, 0x5A, 0x69, 0x78, 0xFF]

/-- The constant initialisation vector, `0123456789abcdef` in ASCII. -/
def iv : AesBlock :=
  #v[0x30, 0x31, 0x32, 0x33, 0x34, 0x35, 0x36, 0x37, 0x38, 0x39, 0x61, 0x62, 0x63, 0x64, 0x65, 0x66]

/-- The encryption modes supported by the cameras; the media stream is encrypted
    under `fullAes` only. -/
inductive EncryptionProtocol where
  | unencrypted
  | bcEncrypt
  | aes (key iv : AesBlock)
  | fullAes (key iv : AesBlock)
  deriving DecidableEq, Repr

/-- The cycled key from position `offset`, combined with the buffer byte by byte. -/
def bcEncryptBytes (offset : UInt32) (buf : Bytes) : Bytes :=
  buf.mapIdx fun i b => b ^^^ xmlKey[(offset.toNat % 8 + i) % 8] ^^^ offset.toUInt8

namespace EncryptionProtocol

/-- AES with the constant initialisation vector. -/
def mkAes (key : AesBlock) : EncryptionProtocol := .aes key Bairelay.iv

/-- Full AES with the constant initialisation vector. -/
def mkFullAes (key : AesBlock) : EncryptionProtocol := .fullAes key Bairelay.iv

/-- The protocol of a session key that is used for media as well. -/
def fullAesWithIv (key iv : AesBlock) : EncryptionProtocol := .fullAes key iv

/-- The two modes resting on AES. -/
def IsAes : EncryptionProtocol → Prop
  | .aes _ _ | .fullAes _ _ => True
  | .unencrypted | .bcEncrypt => False

instance : DecidablePred IsAes
  | .aes _ _ | .fullAes _ _ => .isTrue trivial
  | .unencrypted | .bcEncrypt => .isFalse id

/-- During login the encryption does not go higher than `bcEncrypt`, since the
    nonce has not been exchanged yet. -/
def atLogin (protocol : EncryptionProtocol) : EncryptionProtocol :=
  if protocol.IsAes then .bcEncrypt else protocol

variable (cipher : Aes)

/-- Decrypt the data; the offset comes from the header of the packet. -/
def decrypt : EncryptionProtocol → UInt32 → Bytes → Bytes
  | .unencrypted, _, buf => buf
  | .bcEncrypt, offset, buf => bcEncryptBytes offset buf
  | .aes key iv, _, buf | .fullAes key iv, _, buf => cipher.decrypt key iv buf

/-- Encrypt the data; the offset comes from the header of the packet. -/
def encrypt : EncryptionProtocol → UInt32 → Bytes → Bytes
  | .unencrypted, offset, buf => decrypt cipher .unencrypted offset buf
  | .bcEncrypt, offset, buf => decrypt cipher .bcEncrypt offset buf
  | .aes key iv, _, buf | .fullAes key iv, _, buf => cipher.encrypt key iv buf

/-- The key stream cancels itself: decryption is encryption at the same offset. -/
theorem bcEncryptBytes_bcEncryptBytes (offset : UInt32) (buf : Bytes) :
    bcEncryptBytes offset (bcEncryptBytes offset buf) = buf := by
  refine List.ext_getElem (by simp [bcEncryptBytes]) fun i _ _ => ?_
  simp only [bcEncryptBytes, List.getElem_mapIdx]
  generalize xmlKey[(offset.toNat % 8 + i) % 8] = k
  -- The two keys together, twice.
  rw [UInt8.xor_assoc buf[i] k, UInt8.xor_assoc _ k, UInt8.xor_assoc buf[i], UInt8.xor_self,
    UInt8.xor_zero]

variable {cipher}

/-- No protocol makes a message longer, so the lengths in a header are those of the clear text. -/
@[simp]
theorem length_encrypt (hcipher : cipher.Lawful) (protocol : EncryptionProtocol) (offset : UInt32)
    (buf : Bytes) : (protocol.encrypt cipher offset buf).length = buf.length := by
  cases protocol with
  | unencrypted => rfl
  | bcEncrypt => exact List.length_mapIdx
  | aes key iv => exact hcipher.length_encrypt key iv buf
  | fullAes key iv => exact hcipher.length_encrypt key iv buf

/-- Decrypting undoes encrypting. -/
theorem decrypt_encrypt (hcipher : cipher.Lawful) (protocol : EncryptionProtocol)
    (offset : UInt32) (buf : Bytes) :
    protocol.decrypt cipher offset (protocol.encrypt cipher offset buf) = buf := by
  cases protocol with
  | unencrypted => rfl
  | bcEncrypt => exact bcEncryptBytes_bcEncryptBytes offset buf
  | aes key iv => exact hcipher.decrypt_encrypt key iv buf
  | fullAes key iv => exact hcipher.decrypt_encrypt key iv buf

end EncryptionProtocol

end Bairelay
