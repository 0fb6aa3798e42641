import Bairelay.BcUdp.De
import Bairelay.Bc.Ser

/-!
# Writing datagrams

The serialiser of `bcudp/ser.rs`, and how it and the parser fit together.

* `BcUdp.deserialize_serialize`: what is written is read back, and exactly that;
* `BcUdp.serialize_deserialize`: an acknowledgement or a data packet that is
  accepted is written as the bytes it was read from.
-/

namespace Bairelay

open Streaming Parser

/-- The length as it is written, unless that would cut it off. -/
def lenAsU32 (len : ℕ) : Except GenError UInt32 :=
  if len ≤ 0xffffffff then .ok (UInt32.ofNat len) else .error (.customError 5)

variable {ρ : Type} (crates : UdpCrates ρ)

/-- A document inside of its `P2P` element, without a declaration. -/
def UdpXml.serialize (xml : UdpXml ρ) : Option Bytes :=
  (crates.writeXml xml).map fun element =>
    "<P2P>".toUTF8.data.toList ++ element ++ "</P2P>".toUTF8.data.toList

/-- The header of a discovery, with the checksum of what is encrypted. -/
def bcudpDiscBytes (payload : UdpDiscovery ρ) (xmlPayload : Bytes) (xmlLen : UInt32) : Bytes :=
  leBytes 4 magicHeaderUdpNego.toNat ++
  leBytes 4 xmlLen.toNat ++
  leBytes 4 1 ++
  leBytes 4 payload.tid.toNat ++
  leBytes 4 (calcCrc crates xmlPayload).toNat ++
  xmlPayload

/-- The header of an acknowledgement. -/
def bcudpAckBytes (payload : UdpAck) (binaryPayload : Bytes) (binLen : UInt32) : Bytes :=
  leBytes 4 magicHeaderUdpAck.toNat ++
  leBytes 4 payload.connectionId.toUInt32.toNat ++
  leBytes 4 0 ++
  leBytes 4 payload.groupId.toNat ++
  leBytes 4 payload.packetId.toNat ++
  leBytes 4 payload.maybeLatency.toNat ++
  leBytes 4 binLen.toNat ++
  binaryPayload

/-- The header of data. -/
def bcudpDataBytes (payload : UdpData) (binaryPayload : Bytes) (binLen : UInt32) : Bytes :=
  leBytes 4 magicHeaderUdpData.toNat ++
  leBytes 4 payload.connectionId.toUInt32.toNat ++
  leBytes 4 0 ++
  leBytes 4 payload.packetId.toNat ++
  leBytes 4 binLen.toNat ++
  binaryPayload

namespace BcUdp

/-- A packet as bytes. -/
def serialize : BcUdp ρ → Except GenError Bytes
  | .discovery payload =>
    match payload.payload.serialize crates with
    | none => .error (.customError 4)
    | some xmlBytes => do
      let xmlPayload := encrypt payload.tid xmlBytes
      let xmlLen ← lenAsU32 xmlPayload.length
      pure (bcudpDiscBytes crates payload xmlPayload xmlLen)
  | .ack payload => do
    let binLen ← lenAsU32 payload.payload.length
    pure (bcudpAckBytes payload payload.payload binLen)
  | .data payload => do
    let binLen ← lenAsU32 payload.payload.length
    pure (bcudpDataBytes payload payload.payload binLen)

/-! ## Reading back -/

/-- The payload as it is transported, and the packets whose payload is within the
    cap: of the acknowledgements, those of the two known groups. -/
def Fits : BcUdp ρ → Prop
  | .discovery payload =>
    ∃ xmlBytes, payload.payload.serialize crates = some xmlBytes ∧ xmlBytes.length ≤ 65535
  | .ack payload =>
    (payload.groupId = 0 ∨ payload.groupId = 0xffffffff) ∧ payload.payload.length ≤ 65535
  | .data payload => payload.payload.length ≤ 65535

/-- The packets other than those of the discovery. -/
def IsTransport : BcUdp ρ → Prop
  | .discovery _ => False
  | .ack _ | .data _ => True

end BcUdp

/-- A payload of half a word's length can be written. -/
theorem lenAsU32_of_le {len : ℕ} (h : len ≤ 65535) : lenAsU32 len = .ok (UInt32.ofNat len) :=
  if_pos (by omega)

theorem toNat_ofNat_of_le {len : ℕ} (h : len ≤ 65535) : (UInt32.ofNat len).toNat = len := by
  rw [UInt32.toNat_ofNat']
  exact Nat.mod_eq_of_lt (by omega)

theorem leI32_yields (n : Int32) : Yields leI32 (leBytes 4 n.toUInt32.toNat) n := by
  have h := (yields_leU32 n.toUInt32).bind_pure UInt32.toInt32
  rwa [Int32.toInt32_toUInt32] at h

/-- The cap of a payload lets through what can be written. -/
theorem payloadSize_yields {len : ℕ} (h : len ≤ 65535) :
    Yields (leU32.verify fun n => n ≤ maxBcudpPayload) (leBytes 4 (UInt32.ofNat len).toNat)
      (UInt32.ofNat len) := by
  have hle : UInt32.ofNat len ≤ maxBcudpPayload := by
    rw [UInt32.le_iff_toNat_le, toNat_ofNat_of_le h]
    exact h
  exact (yields_leU32 _).verify (by simpa using hle)

theorem zero_yields : Yields (leU32.verify fun x => x = 0) (leBytes 4 0) 0 :=
  (yields_leU32 0).verify (by decide)

theorem udpDisc_yields {payload : UdpDiscovery ρ} {xmlBytes : Bytes}
    (hlen : xmlBytes.length ≤ 65535)
    (hxml : UdpXml.tryParse crates xmlBytes = some payload.payload) :
    ∃ bytes, bcudpDiscBytes crates payload (BcUdp.encrypt payload.tid xmlBytes)
          (UInt32.ofNat (BcUdp.encrypt payload.tid xmlBytes).length) =
        leBytes 4 magicHeaderUdpNego.toNat ++ bytes ∧ Yields (udpDisc crates) bytes payload := by
  have hone : Yields (leU32.verify fun x => x = 1) (leBytes 4 1) 1 :=
    (yields_leU32 1).verify (by decide)
  have henc : (BcUdp.encrypt payload.tid xmlBytes).length ≤ 65535 := by
    rwa [BcUdp.encrypt, BcUdp.length_decrypt]
  have hdec : BcUdp.decrypt payload.tid (BcUdp.encrypt payload.tid xmlBytes) = xmlBytes :=
    BcUdp.decrypt_decrypt _ _
  rw [bcudpDiscBytes, udpDisc]
  simp only [List.append_assoc]
  refine ⟨_, rfl, ?_⟩
  refine ((payloadSize_yields henc).context _).bind ?_
  refine (hone.context _).bind ?_
  refine ((yields_leU32 payload.tid).context _).bind ?_
  refine ((yields_leU32 _).context _).bind ?_
  refine (yields_take_of_length (toNat_ofNat_of_le henc).symm).bind_nil ?_
  rw [if_neg (not_not.2 rfl), hdec, hxml]
  exact yields_pure payload

/-- The bits of an acknowledgement are read back, none if there are none. -/
theorem udpAckPayload_yields {payload : Bytes} (hlen : payload.length ≤ 65535) :
    Yields (udpAckPayload (UInt32.ofNat payload.length)) payload payload := by
  rw [udpAckPayload]
  split
  · exact yields_take_of_length (toNat_ofNat_of_le hlen).symm
  · next hpos =>
    have hnil : payload = [] := by
      rw [UInt32.lt_iff_toNat_lt, toNat_ofNat_of_le hlen] at hpos
      exact List.eq_nil_of_length_eq_zero (by simpa using hpos)
    rw [hnil]
    exact yields_pure []

/-- An acknowledgement of a known group is read back. -/
theorem udpAck_yields {payload : UdpAck}
    (hgroup : payload.groupId = 0 ∨ payload.groupId = 0xffffffff)
    (hlen : payload.payload.length ≤ 65535) :
    ∃ bytes, bcudpAckBytes payload payload.payload (UInt32.ofNat payload.payload.length) =
        leBytes 4 magicHeaderUdpAck.toNat ++ bytes ∧ Yields udpAck bytes payload := by
  have hgroupId : Yields (leU32.verify fun x => x = 0 || x = 0xffffffff)
      (leBytes 4 payload.groupId.toNat) payload.groupId :=
    (yields_leU32 _).verify (by simpa using hgroup)
  rw [bcudpAckBytes, udpAck]
  simp only [List.append_assoc]
  refine ⟨_, rfl, ?_⟩
  refine ((leI32_yields payload.connectionId).context _).bind ?_
  refine (zero_yields.context _).bind ?_
  refine (hgroupId.context _).bind ?_
  refine ((yields_leU32 payload.packetId).context _).bind ?_
  refine ((yields_leU32 payload.maybeLatency).context _).bind ?_
  refine ((payloadSize_yields hlen).context _).bind ?_
  exact (udpAckPayload_yields hlen).bind_pure _

theorem udpData_yields {payload : UdpData} (hlen : payload.payload.length ≤ 65535) :
    ∃ bytes, bcudpDataBytes payload payload.payload (UInt32.ofNat payload.payload.length) =
        leBytes 4 magicHeaderUdpData.toNat ++ bytes ∧ Yields udpData bytes payload := by
  rw [bcudpDataBytes, udpData]
  simp only [List.append_assoc]
  refine ⟨_, rfl, ?_⟩
  refine ((leI32_yields payload.connectionId).context _).bind ?_
  refine (zero_yields.context _).bind ?_
  refine ((yields_leU32 payload.packetId).context _).bind ?_
  refine ((payloadSize_yields hlen).context _).bind ?_
  exact (yields_take_of_length (toNat_ofNat_of_le hlen).symm).bind_pure _

variable {crates}

/-- A packet within the cap is written, and what is written is read back, whatever
    follows it. -/
theorem BcUdp.deserialize_serialize
    (hxml : ∀ (xml : UdpXml ρ) (bytes : Bytes), xml.serialize crates = some bytes →
      UdpXml.tryParse crates bytes = some xml)
    {v : BcUdp ρ} (h : v.Fits crates) :
    ∃ bytes, v.serialize crates = .ok bytes ∧ Yields (deserialize crates) bytes v := by
  -- The magic of the serialiser is accepted, and chooses the parser of the kind.
  have hbind : ∀ {magic : UInt32} {bytes : Bytes},
      magic = magicHeaderUdpNego ∨ magic = magicHeaderUdpAck ∨ magic = magicHeaderUdpData →
      Yields (bcudpBody crates magic) bytes v →
      Yields (deserialize crates) (leBytes 4 magic.toNat ++ bytes) v :=
    fun {magic} {_} hmagic hbody =>
      (((yields_leU32 magic).verify (by simpa [or_assoc] using hmagic)).context _).bind hbody
  cases v with
  | discovery payload =>
    obtain ⟨xmlBytes, hser, hlen⟩ := h
    obtain ⟨bytes, hbytes, hp⟩ := udpDisc_yields crates hlen (hxml _ _ hser)
    have henc : (encrypt payload.tid xmlBytes).length ≤ 65535 := by
      rwa [encrypt, length_decrypt]
    refine ⟨_, ?_, hbind (.inl rfl) (hp.bind_pure BcUdp.discovery)⟩
    rw [serialize, hser, ← hbytes]
    dsimp only
    rw [lenAsU32_of_le henc]
    rfl
  | ack payload =>
    obtain ⟨bytes, hbytes, hp⟩ := udpAck_yields h.1 h.2
    refine ⟨_, ?_, hbind (.inr (.inl rfl)) (hp.bind_pure BcUdp.ack)⟩
    rw [serialize, lenAsU32_of_le h.2, ← hbytes]
    rfl
  | data payload =>
    obtain ⟨bytes, hbytes, hp⟩ := udpData_yields h
    refine ⟨_, ?_, hbind (.inr (.inr rfl)) (hp.bind_pure BcUdp.data)⟩
    rw [serialize, lenAsU32_of_le h, ← hbytes]
    rfl

/-! ## Writing back -/

theorem leI32_eq_done {buf rest : Bytes} {v : Int32} :
    leI32 buf = .done rest v ↔ buf = leBytes 4 v.toUInt32.toNat ++ rest := by
  rw [leI32, bind_eq_done]
  constructor
  · rintro ⟨mid, n, hn, h⟩
    obtain ⟨rfl, rfl⟩ := Outcome.done.inj h
    rw [leU32_eq_done.1 hn, UInt32.toUInt32_toInt32]
  · rintro rfl
    exact ⟨rest, v.toUInt32, leU32_eq_done.2 rfl, by rw [Int32.toInt32_toUInt32]; rfl⟩

/-- The bits of an acknowledgement are as many as the header says. -/
theorem udpAckPayload_eq_done {payloadSize : UInt32} {buf rest bytes : Bytes}
    (h : udpAckPayload payloadSize buf = .done rest bytes) :
    buf = bytes ++ rest ∧ bytes.length = payloadSize.toNat := by
  rw [udpAckPayload] at h
  split at h
  · exact take_eq_done.1 h
  · next hpos =>
    obtain ⟨rfl, rfl⟩ := Outcome.done.inj h
    have hzero : payloadSize.toNat = 0 := by
      rw [UInt32.lt_iff_toNat_lt, UInt32.toNat_zero] at hpos
      omega
    exact ⟨rfl, hzero.symm⟩

/-- A size that is accepted is the length of what it announces. -/
theorem payloadSize_eq {payloadSize : UInt32} {bytes : Bytes}
    (hsize : decide (payloadSize ≤ maxBcudpPayload) = true)
    (hlen : bytes.length = payloadSize.toNat) :
    payloadSize = UInt32.ofNat bytes.length ∧ bytes.length ≤ 65535 := by
  refine ⟨by rw [hlen, UInt32.ofNat_toNat], ?_⟩
  rw [hlen]
  exact UInt32.le_iff_toNat_le.1 (of_decide_eq_true hsize)

/-- An acknowledgement that was read is written as the same bytes. -/
theorem udpAck_eq_done {buf rest : Bytes} {payload : UdpAck} (h : udpAck buf = .done rest payload) :
    leBytes 4 magicHeaderUdpAck.toNat ++ buf =
        bcudpAckBytes payload payload.payload (UInt32.ofNat payload.payload.length) ++ rest ∧
      payload.payload.length ≤ 65535 := by
  simp only [udpAck, bind_eq_done, context_eq_done, verify_eq_done, leI32_eq_done,
    leU32_eq_done] at h
  obtain ⟨_, connectionId, rfl, _, unknownA, ⟨rfl, hunknown⟩, _, groupId, ⟨rfl, -⟩, _, packetId,
    rfl, _, maybeLatency, rfl, _, payloadSize, ⟨rfl, hsize⟩, _, bytes, hbytes, h⟩ := h
  obtain ⟨rfl, hlen⟩ := udpAckPayload_eq_done hbytes
  obtain ⟨rfl, rfl⟩ := Outcome.done.inj h
  obtain rfl := of_decide_eq_true hunknown
  obtain ⟨hpayload, hcap⟩ := payloadSize_eq hsize hlen
  refine ⟨?_, hcap⟩
  rw [bcudpAckBytes, ← hpayload]
  simp only [List.append_assoc, UInt32.toNat_zero]

/-- Data that was read is written as the same bytes. -/
theorem udpData_eq_done {buf rest : Bytes} {payload : UdpData}
    (h : udpData buf = .done rest payload) :
    leBytes 4 magicHeaderUdpData.toNat ++ buf =
        bcudpDataBytes payload payload.payload (UInt32.ofNat payload.payload.length) ++ rest ∧
      payload.payload.length ≤ 65535 := by
  simp only [udpData, bind_eq_done, context_eq_done, verify_eq_done, leI32_eq_done,
    leU32_eq_done, take_eq_done] at h
  obtain ⟨_, connectionId, rfl, _, unknownA, ⟨rfl, hunknown⟩, _, packetId, rfl,
    _, payloadSize, ⟨rfl, hsize⟩, _, bytes, ⟨rfl, hlen⟩, h⟩ := h
  obtain ⟨rfl, rfl⟩ := Outcome.done.inj h
  obtain rfl := of_decide_eq_true hunknown
  obtain ⟨hpayload, hcap⟩ := payloadSize_eq hsize hlen
  refine ⟨?_, hcap⟩
  rw [bcudpDataBytes, ← hpayload]
  simp only [List.append_assoc, UInt32.toNat_zero]

/-- An acknowledgement or a data packet that is accepted is written as the bytes it
    was read from. -/
theorem BcUdp.serialize_deserialize {buf rest : Bytes} {v : BcUdp ρ}
    (h : deserialize crates buf = .done rest v) (hv : v.IsTransport) :
    ∃ bytes, v.serialize crates = .ok bytes ∧ buf = bytes ++ rest := by
  obtain ⟨mid, magic, hmagic, hbody⟩ := bind_eq_done.1 h
  obtain rfl := leU32_eq_done.1 (verify_eq_done.1 (context_eq_done.1 hmagic)).1
  dsimp only [bcudpBody] at hbody
  split_ifs at hbody with hnego hack hdata
  · obtain ⟨_, payload, -, hbody⟩ := bind_eq_done.1 hbody
    obtain ⟨-, rfl⟩ := Outcome.done.inj hbody
    exact absurd hv id
  · obtain ⟨_, payload, hpayload, hbody⟩ := bind_eq_done.1 hbody
    obtain ⟨rfl, rfl⟩ := Outcome.done.inj hbody
    obtain ⟨hbuf, hlen⟩ := udpAck_eq_done hpayload
    subst hack
    exact ⟨_, by rw [serialize, lenAsU32_of_le hlen]; rfl, hbuf⟩
  · obtain ⟨_, payload, hpayload, hbody⟩ := bind_eq_done.1 hbody
    obtain ⟨rfl, rfl⟩ := Outcome.done.inj hbody
    obtain ⟨hbuf, hlen⟩ := udpData_eq_done hpayload
    subst hdata
    exact ⟨_, by rw [serialize, lenAsU32_of_le hlen]; rfl, hbuf⟩
  · exact nomatch hbody

end Bairelay
