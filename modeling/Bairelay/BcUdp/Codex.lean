import Bairelay.BcUdp.Ser
import Bairelay.Lib.Incremental

/-!
# The datagram codec

The codec of `bcudp/codex.rs`: the packets with which the relay or the camera
ends the connection are errors of it.

* `BcUdp.roundTrip`: encoding and decoding are inverse, and a part of an encoding
  is not enough to decode anything.
-/

namespace Bairelay

open Streaming Parser Incremental

/-- What the codec fails with. -/
inductive UdpCodecError where
  | nomError (trace : List Streaming.Frame)
  | relayTerminate
  | cameraTerminate
  | bytesRemaining
  deriving DecidableEq, Repr

namespace BcUdpCodex

variable {ρ : Type} (crates : UdpCrates ρ)

/-- Every datagram is written on its own. -/
def encode (item : BcUdp ρ) : Except GenError Bytes := item.serialize crates

/-- What the codec makes of a packet. -/
def received : BcUdp ρ → Except UdpCodecError (Option (BcUdp ρ))
  | .discovery ⟨_, .r2cDisc _⟩ => .error .relayTerminate
  | .discovery ⟨_, .d2cDisc _ _⟩ => .error .cameraTerminate
  | bc => .ok (some bc)

/-- A call of the decoder. -/
def decode (src : Bytes) : Bytes × Except UdpCodecError (Option (BcUdp ρ)) :=
  if src = [] then (src, .ok none)
  else
    match BcUdp.deserialize crates src with
    | .done rest bc => (rest, received bc)
    | .incomplete _ => (src, .ok none)
    | .error trace => (src, .error (.nomError trace))

/-- The call for a whole datagram, which is the default of `Decoder`: nothing may
    be left of it. -/
def decodeEof : Decoder Unit UInt8 (BcUdp ρ) UdpCodecError := fun _ src =>
  match decode crates src with
  | (rest, .ok none) => ((), rest, if rest = [] then .ok none else .error .bytesRemaining)
  | (rest, r) => ((), rest, r)

end BcUdpCodex

variable {ρ : Type} {crates : UdpCrates ρ}

/-- A packet within the cap has an encoding, which is decoded to the packet, taking
    every byte of it; of a part of the encoding nothing is decoded, but more input
    is asked for. And an acknowledgement or a data packet that is accepted is
    encoded as the bytes that were taken for it. -/
theorem BcUdp.roundTrip
    (hxml : ∀ (xml : UdpXml ρ) (bytes : Bytes), xml.serialize crates = some bytes →
      UdpXml.tryParse crates bytes = some xml) :
    (∀ v : BcUdp ρ, v.Fits crates →
      ∃ bytes, v.serialize crates = .ok bytes ∧ deserialize crates bytes = .done [] v ∧
        BcUdpCodex.decode crates bytes = ([], BcUdpCodex.received v) ∧
        ∀ pre, pre <+: bytes → pre ≠ bytes →
          (∃ needed, deserialize crates pre = .incomplete needed) ∧
            BcUdpCodex.decode crates pre = (pre, .ok none)) ∧
      ∀ (buf rest : Bytes) (v : BcUdp ρ), deserialize crates buf = .done rest v →
        v.IsTransport → ∃ bytes, v.serialize crates = .ok bytes ∧ buf = bytes ++ rest := by
  refine ⟨fun v hv => ?_, fun buf rest v h hv => serialize_deserialize h hv⟩
  obtain ⟨bytes, hbytes, hyields⟩ := deserialize_serialize hxml hv
  have hdone : deserialize crates bytes = .done [] v := by
    have h := hyields []
    rwa [List.append_nil] at h
  have hne : bytes ≠ [] := by
    rintro rfl
    exact nomatch hdone
  refine ⟨bytes, hbytes, hdone, by rw [BcUdpCodex.decode, if_neg hne, hdone], ?_⟩
  intro pre hpre hne
  obtain ⟨needed, hneeded⟩ := hyields.incomplete (deserialize_streams crates) hpre hne
  refine ⟨⟨needed, hneeded⟩, ?_⟩
  rw [BcUdpCodex.decode]
  split
  · rfl
  · rw [hneeded]

/-- The CRC-32 of `crc32fast`, which negates the value it starts from and the one
    it ends with. -/
def sampleCrc32 (init : UInt32) (buf : Bytes) : UInt32 :=
  let step (crc : UInt32) (_ : ℕ) : UInt32 :=
    if crc &&& 1 = 1 then (crc >>> 1) ^^^ 0xedb88320 else crc >>> 1
  let hash := buf.foldl (fun crc byte => (List.range 8).foldl step (crc ^^^ byte.toUInt32))
    (init ^^^ 0xffffffff)
  hash ^^^ 0xffffffff

/-- Crates that know two documents, the ones with which a connection ends. -/
def sampleUdpCrates : UdpCrates Unit where
  crc32 := sampleCrc32
  writeXml xml :=
    if xml = .d2cDisc 7 8 then
      some "<D2C_DISC><cid>7</cid><did>8</did></D2C_DISC>".toUTF8.data.toList
    else if xml = .r2cDisc 9 then some "<R2C_DISC><sid>9</sid></R2C_DISC>".toUTF8.data.toList
    else none
  readXml buf :=
    if buf = "<P2P><D2C_DISC><cid>7</cid><did>8</did></D2C_DISC></P2P>".toUTF8.data.toList then
      some (.d2cDisc 7 8)
    else if buf = "<P2P><R2C_DISC><sid>9</sid></R2C_DISC></P2P>".toUTF8.data.toList then
      some (.r2cDisc 9)
    else none

/-- The sample's reader and writer of XML agree. -/
theorem sampleUdpCrates_invertible (xml : UdpXml Unit) (bytes : Bytes)
    (h : xml.serialize sampleUdpCrates = some bytes) :
    UdpXml.tryParse sampleUdpCrates bytes = some xml := by
  obtain ⟨element, helement, rfl⟩ := Option.map_eq_some_iff.1 h
  dsimp only [sampleUdpCrates] at helement
  split_ifs at helement with hd2c hr2c
  · obtain rfl := Option.some.inj helement
    subst hd2c
    decide +kernel
  · obtain rfl := Option.some.inj helement
    subst hr2c
    decide +kernel

/-- A camera that says goodbye is read back, and ends the stream of datagrams with an error. -/
theorem BcUdp.roundTrip_d2cDisc :
    ∃ bytes, serialize sampleUdpCrates (.discovery ⟨87, .d2cDisc 7 8⟩) = .ok bytes ∧
      deserialize sampleUdpCrates bytes = .done [] (.discovery ⟨87, .d2cDisc 7 8⟩) ∧
      BcUdpCodex.decode sampleUdpCrates bytes = ([], .error .cameraTerminate) := by
  have hfits : Fits sampleUdpCrates (.discovery ⟨87, .d2cDisc 7 8⟩) :=
    ⟨"<P2P><D2C_DISC><cid>7</cid><did>8</did></D2C_DISC></P2P>".toUTF8.data.toList,
      by decide +kernel, by decide +kernel⟩
  obtain ⟨bytes, hbytes, hdone, hdecode, -⟩ := (roundTrip sampleUdpCrates_invertible).1 _ hfits
  exact ⟨bytes, hbytes, hdone, hdecode⟩

end Bairelay
