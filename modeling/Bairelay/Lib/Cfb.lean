import Mathlib

/-!
# Cipher feedback

The stream cipher that a block function gives in cipher feedback mode: each byte is
combined with a byte of the key stream, and each full block of ciphertext is fed to the
block function for the key stream of the next block. Both directions feed back the
ciphertext, so that they go through the same states.

* `decrypt_encrypt`: decrypting undoes encrypting, whatever the block function is.
* `take_decrypt`: the front of a text is decrypted without what follows.
-/

namespace Cfb

/-- The key stream of the current block, and the ciphertext of the block so far. -/
structure State where
  keyStream : List UInt8
  block : List UInt8

/-- The byte of the key stream for the next byte of the text. -/
def State.byte (s : State) : UInt8 := s.keyStream.getD s.block.length 0

variable (E : List UInt8 → List UInt8) (size : ℕ)

/-- The state at the beginning of a text. -/
def start (iv : List UInt8) : State := ⟨E iv, []⟩

/-- The state behind a byte of ciphertext. -/
def State.feed (s : State) (c : UInt8) : State :=
  if s.block.length + 1 = size then ⟨E (s.block ++ [c]), []⟩ else ⟨s.keyStream, s.block ++ [c]⟩

/-- Encrypt from some state on. The cipher text is fed back. -/
def encryptFrom (s : State) : List UInt8 → List UInt8
  | [] => []
  | p :: text => (p ^^^ s.byte) :: encryptFrom (s.feed E size (p ^^^ s.byte)) text

/-- Decrypt from some state on. What is fed back is the cipher text that is read. -/
def decryptFrom (s : State) : List UInt8 → List UInt8
  | [] => []
  | c :: text => (c ^^^ s.byte) :: decryptFrom (s.feed E size c) text

/-- Encrypt a text from the start. -/
def encrypt (iv text : List UInt8) : List UInt8 := encryptFrom E size (start E iv) text

/-- Decrypt a text from the start. -/
def decrypt (iv text : List UInt8) : List UInt8 := decryptFrom E size (start E iv) text

/-- A byte of text becomes one byte of cipher text. -/
theorem length_encrypt (iv text : List UInt8) : (encrypt E size iv text).length = text.length := by
  have hfrom (s : State) : (encryptFrom E size s text).length = text.length := by
    induction text generalizing s with
    | nil => rfl
    | cons p text ih => rw [encryptFrom, List.length_cons, ih, List.length_cons]
  exact hfrom _

/-- Decryption inverts encryption, whatever the block function is. -/
theorem decrypt_encrypt (iv text : List UInt8) :
    decrypt E size iv (encrypt E size iv text) = text := by
  have hfrom (s : State) : decryptFrom E size s (encryptFrom E size s text) = text := by
    induction text generalizing s with
    | nil => rfl
    | cons p text ih =>
      rw [encryptFrom, decryptFrom, ih, UInt8.xor_assoc, UInt8.xor_self, UInt8.xor_zero]
  exact hfrom _

/-- A part of the cipher text is decrypted without what follows it. -/
theorem take_decrypt (iv text : List UInt8) (n : ℕ) :
    (decrypt E size iv text).take n = decrypt E size iv (text.take n) := by
  have hfrom (s : State) :
      (decryptFrom E size s text).take n = decryptFrom E size s (text.take n) := by
    induction text generalizing s n with
    | nil => rw [List.take_nil, decryptFrom, List.take_nil]
    | cons c text ih =>
      cases n with
      | zero => rfl
      | succ n => rw [decryptFrom, List.take_succ_cons, ih, List.take_succ_cons, decryptFrom]
  exact hfrom _

end Cfb
