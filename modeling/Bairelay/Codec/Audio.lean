import Bairelay.Basic

/-!
# Audio codecs

What the translator needs of audio: the ADTS header of an AAC packet and the
configuration announced for it (`rtsp/codec/aac.rs`), the IMA ADPCM decoder
(`rtsp/transcode/adpcm.rs`), decimation (`rtsp/transcode/resample.rs`) and
G.711 µ-law (`rtsp/codec/g711.rs`).

A table index out of bounds panics; here it is `none`. A block whose header is
accepted never gets there (`AdpcmDecoder.decodeBlock_isSome`).
-/

namespace Bairelay

/-! ## AAC -/

/-- The sampling frequencies of MPEG-4, by their index. -/
def sampleRates : List UInt32 :=
  [96000, 88200, 64000, 48000, 44100, 32000, 24000, 22050, 16000, 12000, 11025, 8000, 7350]

/-- The index of a sampling frequency, if it is a standard one. -/
def sampleRateIndex (hz : UInt32) : Option UInt8 :=
  (sampleRates.findIdx? (· = hz)).map UInt8.ofNat

/-- An upper-case hexadecimal digit. -/
def hexDigit (n : UInt8) : Char :=
  Char.ofNat (if n < 10 then 0x30 + n.toNat else 0x37 + n.toNat)

/-- A byte as two upper-case hexadecimal digits. -/
def hexByte (b : UInt8) : String := String.ofList [hexDigit (b >>> 4), hexDigit (b &&& 0x0f)]

/-- The `AudioSpecificConfig` for the SDP: object type, sampling frequency and
    channels. -/
def buildAudioSpecificConfigHex (aot : UInt8) (sampleRate : UInt32) (channels : UInt8) :
    Option String :=
  if ¬(1 ≤ aot ∧ aot ≤ 29) then none
  else do
    let srIdx ← sampleRateIndex sampleRate
    if channels = 0 ∨ 7 < channels then none
    else
      let bits : UInt32 := ((aot.toUInt32 &&& 0x1f) <<< 11) |||
        ((srIdx.toUInt32 &&& 0x0f) <<< 7) ||| ((channels.toUInt32 &&& 0x0f) <<< 3)
      some (hexByte (bits >>> 8).toUInt8 ++ hexByte bits.toUInt8)

/-- What is used of the header of an ADTS frame. -/
structure AdtsHeader where
  aot : UInt8
  sampleRate : UInt32
  channels : UInt8
  frameLength : ℕ
  aacFrames : UInt8
  deriving DecidableEq, Repr

/-- The length of an ADTS header without a checksum. -/
def adtsHeaderLen : ℕ := 7

/-- The payload type of AAC, of the dynamic range. -/
def aacPayloadType : UInt8 := 97

/-- The header of an ADTS frame. Its CRC, if it has one, is not looked at. -/
def parseAdts : Bytes → Option AdtsHeader
  | b0 :: b1 :: b2 :: b3 :: b4 :: b5 :: b6 :: _ =>
    -- The sync word, twelve bits of it.
    if b0 ≠ 0xff ∨ b1 &&& 0xf0 ≠ 0xf0 then none
    else
      let profile := (b2 >>> 6) &&& 0x03
      let srIdx := (b2 >>> 2) &&& 0x0f
      let channels := ((b2 &&& 0x01) <<< 2) ||| ((b3 >>> 6) &&& 0x03)
      let frameLength :=
        ((b3.toNat &&& 0x03) <<< 11) ||| (b4.toNat <<< 3) ||| ((b5.toNat >>> 5) &&& 0x07)
      -- The length counts the header as well.
      if frameLength < adtsHeaderLen then none
      else do
        let sampleRate ← sampleRates[srIdx.toNat]?
        some {
          aot := profile + 1
          sampleRate
          channels
          frameLength
          -- The field counts the frames behind the first.
          aacFrames := (b6 &&& 0x03) + 1 }
  | _ => none

/-- The samples of an access unit, by object type. -/
def aacSamplesPerAu (aot : UInt8) : Option UInt32 :=
  if aot = 2 then some 1024
  else if aot = 5 ∨ aot = 29 then some 2048
  else none

/-! ## ADPCM -/

/-- The step sizes of IMA ADPCM. -/
def stepTable : List ℤ :=
  [7, 8, 9, 10, 11, 12, 13, 14, 16, 17, 19, 21, 23, 25, 28, 31, 34, 37, 41, 45, 50, 55, 60, 66,
    73, 80, 88, 97, 107, 118, 130, 143, 157, 173, 190, 209, 230, 253, 279, 307, 337, 371, 408, 449,
    494, 544, 598, 658, 724, 796, 876, 963, 1060, 1166, 1282, 1411, 1552, 1707, 1878, 2066, 2272,
    2499, 2749, 3024, 3327, 3660, 4026, 4428, 4871, 5358, 5894, 6484, 7132, 7845, 8630, 9493,
    10442, 11487, 12635, 13899, 15289, 16818, 18500, 20350, 22385, 24623, 27086, 29794, 32767]

/-- How the index of the step moves with a nibble. -/
def indexTable : List ℤ := [-1, -1, -1, -1, 2, 4, 6, 8, -1, -1, -1, -1, 2, 4, 6, 8]

/-- Why a block is refused. -/
inductive AdpcmError where
  | tooShort
  | invalidStepIndex (index : UInt8)
  deriving DecidableEq, Repr

/-- The running predictor and the index of the step. -/
structure AdpcmDecoder where
  predictor : ℤ
  stepIndex : ℤ
  deriving DecidableEq, Repr

/-- The value of `n` between two bounds. -/
def clamp (lo hi n : ℤ) : ℤ := max lo (min hi n)

namespace AdpcmDecoder

/-- A decoder starts at zero. -/
def new : AdpcmDecoder := ⟨0, 0⟩

/-- Decode a nibble; `none` if a table is indexed out of bounds. A negative index
    is a huge one after the cast. -/
def decodeNibble (d : AdpcmDecoder) (nibble : UInt8) : Option (AdpcmDecoder × Int16) := do
  let nibble := nibble &&& 0x0f
  let step ← if d.stepIndex < 0 then none else stepTable[d.stepIndex.toNat]?
  let diff := step / 8 + (if nibble &&& 4 ≠ 0 then step else 0) +
    (if nibble &&& 2 ≠ 0 then step / 2 else 0) + (if nibble &&& 1 ≠ 0 then step / 4 else 0)
  let predictor :=
    clamp (-32768) 32767 (if nibble &&& 8 ≠ 0 then d.predictor - diff else d.predictor + diff)
  let index ← indexTable[nibble.toNat]?
  some (⟨predictor, clamp 0 88 (d.stepIndex + index)⟩, Int16.ofInt predictor)

/-- Decode bytes, the low nibble of each of them first. -/
def decodeBytes (d : AdpcmDecoder) : Bytes → Option (AdpcmDecoder × List Int16)
  | [] => some (d, [])
  | b :: rest => do
    let (d, low) ← d.decodeNibble (b &&& 0x0f)
    let (d, high) ← d.decodeNibble ((b >>> 4) &&& 0x0f)
    let (d, samples) ← d.decodeBytes rest
    some (d, low :: high :: samples)

/-- Decode a block: a header with the first sample and the index of the step, and
    the data. A refused block has already overwritten the state. -/
def decodeBlock (d : AdpcmDecoder) :
    Bytes → Option (AdpcmDecoder × Except AdpcmError (List Int16))
  | b0 :: b1 :: b2 :: _ :: data =>
    if data = [] then some (d, .error .tooShort)
    else
      let first := Int16.ofInt (b0.toNat + 256 * b1.toNat)
      let d : AdpcmDecoder := ⟨first.toInt, b2.toNat⟩
      if 88 < b2 then some (d, .error (.invalidStepIndex b2))
      else do
        let (d, samples) ← d.decodeBytes data
        some (d, .ok (first :: samples))
  | _ => some (d, .error .tooShort)

/-- The index of the step is one of the table. -/
def Wf (d : AdpcmDecoder) : Prop := 0 ≤ d.stepIndex ∧ d.stepIndex ≤ 88

/-- A nibble is decoded, and the index stays within the tables. -/
theorem decodeNibble_of_wf {d : AdpcmDecoder} (hd : d.Wf) (nibble : UInt8) :
    ∃ d' sample, d.decodeNibble nibble = some (d', sample) ∧ d'.Wf := by
  obtain ⟨hlo, hhi⟩ := hd
  have hstep : d.stepIndex.toNat < stepTable.length := by
    have : stepTable.length = 89 := rfl
    omega
  have hindex : (nibble &&& 0x0f).toNat < indexTable.length := by
    have : indexTable.length = 16 := rfl
    rw [UInt8.toNat_and]
    exact lt_of_le_of_lt Nat.and_le_right (by decide)
  simp only [decodeNibble, if_neg (not_lt.2 hlo), List.getElem?_eq_getElem hstep,
    List.getElem?_eq_getElem hindex, Option.bind_eq_bind, Option.bind_some]
  refine ⟨_, _, rfl, ?_⟩
  simp only [Wf, clamp]
  omega

/-- Decoding the data of a block stays within the tables. -/
theorem decodeBytes_of_wf {d : AdpcmDecoder} (hd : d.Wf) (data : Bytes) :
    ∃ d' samples, d.decodeBytes data = some (d', samples) ∧ d'.Wf := by
  induction data generalizing d with
  | nil => exact ⟨d, [], rfl, hd⟩
  | cons b data ih =>
    obtain ⟨d₁, low, hlow, hd₁⟩ := decodeNibble_of_wf hd (b &&& 0x0f)
    obtain ⟨d₂, high, hhigh, hd₂⟩ := decodeNibble_of_wf hd₁ ((b >>> 4) &&& 0x0f)
    obtain ⟨d₃, samples, hrest, hd₃⟩ := ih hd₂
    refine ⟨d₃, low :: high :: samples, ?_, hd₃⟩
    simp only [decodeBytes, hlow, hhigh, hrest, Option.bind_eq_bind, Option.bind_some]

/-- Decoding a block does not index out of bounds, whatever came before. -/
theorem decodeBlock_isSome (d : AdpcmDecoder) (block : Bytes) : (d.decodeBlock block).isSome := by
  rw [decodeBlock.eq_def]
  split
  · next b0 b1 b2 _ data =>
    split
    · rfl
    · dsimp only
      split
      · rfl
      · next hb2 =>
        have hwf : Wf ⟨(Int16.ofInt (b0.toNat + 256 * b1.toNat)).toInt, b2.toNat⟩ := by
          have hle : b2.toNat ≤ 88 := UInt8.le_iff_toNat_le.1 (UInt8.not_lt.1 hb2)
          exact ⟨Int.natCast_nonneg _, show (b2.toNat : ℤ) ≤ 88 by exact_mod_cast hle⟩
        obtain ⟨d', samples, h, -⟩ := decodeBytes_of_wf hwf data
        rw [h]
        rfl
  · rfl

end AdpcmDecoder

/-! ## Decimation and G.711 -/

/-- From 16 kHz to 8 kHz: the averages of pairs of samples, without an odd last
    one. -/
def decimate16To8 : List Int16 → List Int16
  | a :: b :: rest => Int16.ofInt ((a.toInt + b.toInt + 1) / 2) :: decimate16To8 rest
  | _ => []

/-- The static payload type of PCMU. -/
def g711PayloadType : UInt8 := 0

/-- The exponent of a biased sample, at most `exp`. -/
def log2Exp : (exp : ℕ) → UInt16 → ℕ
  | 0, _ => 0
  | exp + 1, val => if val &&& 0x4000 ≠ 0 then exp + 1 else log2Exp exp (val <<< 1)

/-- A sample in µ-law. -/
def encodeSample (pcm : Int16) : UInt8 :=
  let sign : UInt8 := if pcm < 0 then 0x80 else 0x00
  let sample := if pcm < 0 then -max pcm.toInt (-32635) else min pcm.toInt 32635
  let biased := (min (sample + 0x84) 32767).toNat
  let exponent := log2Exp 7 (UInt16.ofNat biased)
  let mantissa := UInt8.ofNat ((biased >>> (exponent + 3)) &&& 0x0f)
  ~~~(sign ||| UInt8.ofNat (exponent <<< 4) ||| mantissa)

/-- Every sample is encoded on its own. -/
def g711Encode (pcm : List Int16) : Bytes := pcm.map encodeSample

end Bairelay
