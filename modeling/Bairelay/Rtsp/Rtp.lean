import Bairelay.Basic
import Bairelay.Lib.Streaming

/-!
# RTP packets

The packets a track is sent in, and the counters that number them (`rtsp/rtp.rs`). The
packets are written by the `rtp-types` crate, a parameter here (`RtpTypes`);
`RtpTypes.Lawful` is what is known of it: it writes the fixed header of RFC 3550 in
front of the payload.

* `RtpPacket.parse?_bytes`: what is written can be read;
* `RtpTypes.buildPacket_eq`: what is built are the bytes of the packet asked for;
* `sequenceNumber_stamp`: payloads stamped in a row are numbered consecutively.
-/

namespace Bairelay

open Streaming

/-- A packet of version 2, without padding, extension and contributing sources. -/
structure RtpPacket where
  payloadType : UInt8
  sequenceNumber : UInt16
  timestamp : UInt32
  ssrc : UInt32
  marker : Bool
  payload : Bytes
  deriving DecidableEq, Repr

namespace RtpPacket

/-- The length of the fixed header. -/
def headerLen : ℕ := 12

/-- The bytes of a packet, as RFC 3550 lays them out. -/
def bytes (packet : RtpPacket) : Bytes :=
  0x80 :: (packet.payloadType ||| if packet.marker then 0x80 else 0) ::
    (beBytes 2 packet.sequenceNumber.toNat ++ (beBytes 4 packet.timestamp.toNat ++
      (beBytes 4 packet.ssrc.toNat ++ packet.payload)))

/-- Read the bytes of a packet, as RFC 3550 lays them out. -/
def parse? : Bytes → Option RtpPacket
  | b :: b' :: rest =>
    if b ≠ 0x80 ∨ rest.length < 10 then none
    else some {
      payloadType := b' &&& 0x7f
      sequenceNumber := UInt16.ofNat (beValue (rest.take 2))
      timestamp := UInt32.ofNat (beValue ((rest.drop 2).take 4))
      ssrc := UInt32.ofNat (beValue ((rest.drop 6).take 4))
      marker := b' &&& 0x80 ≠ 0
      payload := rest.drop 10 }
  | _ => none

theorem length_bytes (packet : RtpPacket) :
    packet.bytes.length = headerLen + packet.payload.length := by
  simp only [bytes, headerLen, List.length_cons, List.length_append, length_beBytes]
  omega

/-- The second byte holds the payload type, of seven bits, and the marker. -/
theorem second_byte (payloadType : UInt8) (marker : Bool) (h : payloadType < 0x80) :
    (payloadType ||| if marker then 0x80 else 0) &&& 0x7f = payloadType ∧
      decide ((payloadType ||| if marker then 0x80 else 0) &&& 0x80 ≠ 0) = marker := by
  revert marker h
  revert payloadType
  exact forall_byte (by decide +kernel)

theorem ofNat_beValue16 (n : UInt16) : UInt16.ofNat (beValue (beBytes 2 n.toNat)) = n := by
  have hn : n.toNat < 256 ^ 2 := n.toNat_lt
  rw [beValue_beBytes, Nat.mod_eq_of_lt hn, UInt16.ofNat_toNat]

theorem ofNat_beValue32 (n : UInt32) : UInt32.ofNat (beValue (beBytes 4 n.toNat)) = n := by
  have hn : n.toNat < 256 ^ 4 := n.toNat_lt
  rw [beValue_beBytes, Nat.mod_eq_of_lt hn, UInt32.ofNat_toNat]

/-- What is written can be read. -/
theorem parse?_bytes {packet : RtpPacket} (h : packet.payloadType < 0x80) :
    parse? packet.bytes = some packet := by
  obtain ⟨payloadType, sequenceNumber, timestamp, ssrc, marker, payload⟩ := packet
  obtain ⟨htype, hmarker⟩ := second_byte payloadType marker h
  have hlen : ¬(beBytes 2 sequenceNumber.toNat ++
      (beBytes 4 timestamp.toNat ++ (beBytes 4 ssrc.toNat ++ payload))).length < 10 := by
    simp only [List.length_append, length_beBytes]
    omega
  have hcheck := not_or.2 ⟨not_not.2 (Eq.refl (0x80 : UInt8)), hlen⟩
  simp only [bytes, parse?]
  rw [if_neg hcheck, htype, hmarker]
  have hdrop : ∀ width n k, width ≤ k → (beBytes width n).drop k = [] := by
    intro width n k hk
    exact List.drop_eq_nil_of_le (by rwa [length_beBytes])
  simp [List.drop_append, hdrop, ofNat_beValue16, ofNat_beValue32]

end RtpPacket

/-! ## The crate -/

/-- The builder of the `rtp-types` crate: the size a packet takes, and the buffer with
    the packet written into it. -/
structure RtpTypes where
  calculateSize : RtpPacket → Option ℕ
  writeInto : RtpPacket → Bytes → Option Bytes

/-- A packet whose payload type has seven bits, as it should, and that would fit a
    datagram is written as RFC 3550 has it, into a buffer of its size. -/
structure RtpTypes.Lawful (rtp : RtpTypes) : Prop where
  calculateSize : ∀ packet : RtpPacket, packet.payloadType < 0x80 → packet.bytes.length < 2 ^ 16 →
    rtp.calculateSize packet = some packet.bytes.length
  writeInto : ∀ packet : RtpPacket, packet.payloadType < 0x80 → packet.bytes.length < 2 ^ 16 →
    ∀ buf : Bytes, buf.length = packet.bytes.length → rtp.writeInto packet buf = some packet.bytes

/-- A crate that writes packets of any size, into any buffer that is large enough. -/
def rfc3550 : RtpTypes where
  calculateSize packet := if packet.payloadType < 0x80 then some packet.bytes.length else none
  writeInto packet buf :=
    if packet.payloadType < 0x80 ∧ packet.bytes.length ≤ buf.length then
      some (packet.bytes ++ buf.drop packet.bytes.length)
    else none

/-- The fixed header of a packet as the crate writes it. -/
theorem rfc3550_lawful : rfc3550.Lawful where
  calculateSize packet htype _ := if_pos htype
  writeInto packet htype _ buf hbuf := by
    have hdrop : buf.drop packet.bytes.length = [] := List.drop_eq_nil_of_le hbuf.le
    refine (if_pos ⟨htype, hbuf.ge⟩).trans ?_
    rw [hdrop, List.append_nil]

namespace RtpTypes

variable (rtp : RtpTypes)

/-- The bytes of a packet, or none at all if the crate refuses it. -/
def buildPacket (payloadType : UInt8) (sequenceNumber : UInt16) (timestamp ssrc : UInt32)
    (marker : Bool) (payload : Bytes) : Bytes :=
  let builder : RtpPacket := ⟨payloadType, sequenceNumber, timestamp, ssrc, marker, payload⟩
  match rtp.calculateSize builder with
  -- An error is logged; to the receiver, it is a lost packet.
  | none => []
  | some size => (rtp.writeInto builder (List.replicate size 0)).getD []

variable {rtp}

/-- A packet is built if its type has seven bits and it is not too long. -/
theorem buildPacket_eq (hrtp : rtp.Lawful) {payloadType : UInt8} (sequenceNumber : UInt16)
    (timestamp ssrc : UInt32) (marker : Bool) {payload : Bytes} (htype : payloadType < 0x80)
    (hlen : RtpPacket.headerLen + payload.length < 2 ^ 16) :
    rtp.buildPacket payloadType sequenceNumber timestamp ssrc marker payload =
      RtpPacket.bytes ⟨payloadType, sequenceNumber, timestamp, ssrc, marker, payload⟩ := by
  have hlen' : (RtpPacket.bytes
      ⟨payloadType, sequenceNumber, timestamp, ssrc, marker, payload⟩).length < 2 ^ 16 := by
    rwa [RtpPacket.length_bytes]
  rw [buildPacket, hrtp.calculateSize _ htype hlen']
  dsimp only
  rw [hrtp.writeInto _ htype hlen' _ List.length_replicate]
  rfl

end RtpTypes

/-! ## Counters -/

/-- The source of a track and the number of its next packet. -/
structure RtpCounters where
  ssrc : UInt32
  seq : UInt16
  deriving DecidableEq, Repr

namespace RtpCounters

/-- The number of the next packet, which goes round. -/
def nextSeq (counters : RtpCounters) : UInt16 × RtpCounters :=
  (counters.seq, { counters with seq := counters.seq + 1 })

/-- The counters some packets later. -/
def advance (counters : RtpCounters) (n : ℕ) : RtpCounters :=
  { counters with seq := counters.seq + UInt16.ofNat n }

@[simp]
theorem advance_zero (counters : RtpCounters) : counters.advance 0 = counters := by
  simp [advance]

theorem advance_add (counters : RtpCounters) (m n : ℕ) :
    counters.advance (m + n) = (counters.advance m).advance n := by
  simp only [advance, UInt16.ofNat_add, UInt16.add_assoc]

theorem nextSeq_snd (counters : RtpCounters) : counters.nextSeq.2 = counters.advance 1 := rfl

end RtpCounters

/-- The packets for some payloads in a row, each with its marker. -/
def stamp (payloadType : UInt8) (timestamp : UInt32) (counters : RtpCounters) :
    List (Bool × Bytes) → List RtpPacket
  | [] => []
  | (marker, payload) :: rest =>
    ⟨payloadType, counters.seq, timestamp, counters.ssrc, marker, payload⟩ ::
      stamp payloadType timestamp (counters.advance 1) rest

variable {payloadType : UInt8} {timestamp : UInt32} {counters : RtpCounters}

theorem stamp_append (l l' : List (Bool × Bytes)) :
    stamp payloadType timestamp counters (l ++ l') = stamp payloadType timestamp counters l ++
      stamp payloadType timestamp (counters.advance l.length) l' := by
  induction l generalizing counters with
  | nil => rw [List.nil_append, stamp, List.nil_append, List.length_nil, RtpCounters.advance_zero]
  | cons p l ih =>
    rw [List.cons_append, stamp, stamp, ih, List.cons_append, List.length_cons, Nat.add_comm,
      RtpCounters.advance_add]

@[simp]
theorem length_stamp (l : List (Bool × Bytes)) :
    (stamp payloadType timestamp counters l).length = l.length := by
  induction l generalizing counters with
  | nil => rfl
  | cons p l ih => rw [stamp, List.length_cons, List.length_cons, ih]

@[simp]
theorem payload_stamp (l : List (Bool × Bytes)) :
    (stamp payloadType timestamp counters l).map (·.payload) = l.map Prod.snd := by
  induction l generalizing counters with
  | nil => rfl
  | cons p l ih => rw [stamp, List.map_cons, ih, List.map_cons]

/-- The marker of a packet is that of its payload. -/
theorem marker_getElem_stamp {l : List (Bool × Bytes)} {i : ℕ} (hi : i < l.length)
    (hi' : i < (stamp payloadType timestamp counters l).length) :
    (stamp payloadType timestamp counters l)[i].marker = l[i].1 := by
  induction l generalizing counters i with
  | nil => nomatch hi
  | cons p l ih =>
    cases i with
    | zero => rfl
    | succ i => exact ih (Nat.lt_of_succ_lt_succ hi) (Nat.lt_of_succ_lt_succ hi')

/-- The packets are numbered consecutively. -/
theorem sequenceNumber_stamp (l : List (Bool × Bytes)) :
    (stamp payloadType timestamp counters l).map (·.sequenceNumber) =
      (List.range l.length).map fun i => (counters.advance i).seq := by
  induction l generalizing counters with
  | nil => rfl
  | cons p l ih =>
    have hadvance : ∀ i, ((counters.advance 1).advance i).seq = (counters.advance (i + 1)).seq := by
      intro i
      rw [Nat.add_comm, RtpCounters.advance_add]
    rw [stamp, List.map_cons, ih, List.length_cons, List.range_succ_eq_map, List.map_cons,
      List.map_map]
    simp only [hadvance, RtpCounters.advance_zero]
    rfl

theorem mem_stamp {l : List (Bool × Bytes)} {packet : RtpPacket}
    (h : packet ∈ stamp payloadType timestamp counters l) :
    packet.payloadType = payloadType ∧ packet.timestamp = timestamp ∧
      packet.ssrc = counters.ssrc ∧ (packet.marker, packet.payload) ∈ l := by
  induction l generalizing counters with
  | nil => nomatch h
  | cons p l ih =>
    rw [stamp, List.mem_cons] at h
    rcases h with rfl | h
    · exact ⟨rfl, rfl, rfl, List.mem_cons_self⟩
    · obtain ⟨htype, htimestamp, hssrc, hmem⟩ := ih h
      exact ⟨htype, htimestamp, hssrc, List.mem_cons_of_mem _ hmem⟩

end Bairelay
