import Bairelay.Rtsp.Packetizer

/-!
# From packets to access units

What a receiver makes of the packets of a video track: the payloads are read by RFC 6184
for H.264 and by RFC 7798 for H.265, as far as single NAL units and fragmentation units
go, and the NAL units put together from them.

* `receive_dispatch`: the packets of a frame give back its NAL units.
-/

namespace Bairelay

open Fragment

/-! ## Reading payloads -/

/-- The header of a NAL unit, from the indicator of its fragments and their header. -/
def H264.nalHeader (b fu : UInt8) : UInt8 := (b &&& 0xe0) ||| (fu &&& 0x1f)

/-- What a payload carries by RFC 6184: a NAL unit of a type up to 23, or a slice of one
    in a fragmentation unit of type A, whose indicator has all of the header but the
    type. -/
def H264.readPayload : Bytes → Option (Piece UInt8)
  | [] => none
  | b :: rest =>
    let ty := b &&& 0x1f
    if 1 ≤ ty ∧ ty ≤ 23 then some (.whole (b :: rest))
    else if ty = 28 then
      match rest with
      | [] => none
      | fu :: data =>
        some (.part [nalHeader b fu] ⟨fu &&& 0x80 ≠ 0, fu &&& 0x40 ≠ 0, data⟩)
    else none

/-- The first byte of a NAL unit, from that of its fragments and their header. -/
def H265.nalHeaderByte0 (b fu : UInt8) : UInt8 := (b &&& 0x81) ||| ((fu &&& 0x3f) <<< (1 : UInt8))

/-- What a payload carries by RFC 7798: a NAL unit of a type up to 47, or a slice of one
    in a fragmentation unit, whose header has all of the header but the type. -/
def H265.readPayload : Bytes → Option (Piece UInt8)
  | b :: b' :: rest =>
    let ty := (b >>> 1) &&& 0x3f
    if ty ≤ 47 then some (.whole (b :: b' :: rest))
    else if ty = 49 then
      match rest with
      | [] => none
      | fu :: data =>
        some (.part [nalHeaderByte0 b fu, b']
          ⟨fu &&& 0x80 ≠ 0, fu &&& 0x40 ≠ 0, data⟩)
    else none
  | _ => none

/-- What is in the payload of a packet. -/
def readPayload : VideoCodec → Bytes → Option (Piece UInt8)
  | .h264 => H264.readPayload
  | .h265 => H265.readPayload

/-- The NAL units some payloads carry. -/
def depacketize (codec : VideoCodec) (payloads : List Bytes) : Option (List Bytes) :=
  (payloads.mapM (readPayload codec)).bind assemble

/-- The NAL units some packets carry. -/
def receive (codec : VideoCodec) (packets : List Bytes) : Option (List Bytes) :=
  (packets.mapM RtpPacket.parse?).bind fun packets =>
    depacketize codec (packets.map RtpPacket.payload)

/-- The bit that has to be zero in the header of a NAL unit is. -/
def forbiddenZeroBitClear : Bytes → Bool
  | [] => true
  | b :: _ => b &&& 0x80 = 0

/-! ## Reading what is sent -/

theorem mapM_eq_some {α β : Type*} {f : α → Option β} {g : α → β} {l : List α}
    (h : ∀ a ∈ l, f a = some (g a)) : l.mapM f = some (l.map g) := by
  induction l with
  | nil => rfl
  | cons a l ih =>
    rw [List.mapM_cons, h a List.mem_cons_self, ih fun a ha => h a (List.mem_cons_of_mem _ ha)]
    rfl

/-- The split header of an H.264 NAL unit. -/
theorem h264_header (b : UInt8) (first last : Bool) :
    ((b &&& 0x60) ||| H264.fuAType) &&& 0x1f = 28 ∧
      decide (fuHeader (b &&& 0x1f) first last &&& 0x80 ≠ 0) = first ∧
      decide (fuHeader (b &&& 0x1f) first last &&& 0x40 ≠ 0) = last ∧
      (b &&& 0x80 = 0 → H264.nalHeader ((b &&& 0x60) ||| H264.fuAType)
        (fuHeader (b &&& 0x1f) first last) = b) := by
  revert first last
  revert b
  exact forall_byte (by decide +kernel)

/-- The split header of an H.265 NAL unit. -/
theorem h265_header (b : UInt8) (first last : Bool) :
    (H265.fuPayloadHeaderByte0 b >>> 1) &&& 0x3f = 49 ∧
      decide (fuHeader ((b >>> 1) &&& 0x3f) first last &&& 0x80 ≠ 0) = first ∧
      decide (fuHeader ((b >>> 1) &&& 0x3f) first last &&& 0x40 ≠ 0) = last ∧
      H265.nalHeaderByte0 (H265.fuPayloadHeaderByte0 b)
        (fuHeader ((b >>> 1) &&& 0x3f) first last) = b := by
  revert first last
  revert b
  exact forall_byte (by decide +kernel)

/-- A NAL unit that is sent as it is is read as one. -/
theorem readPayload_nal {codec : VideoCodec} {nal : Bytes} (h : isDecodableNal nal codec) :
    readPayload codec nal = some (.whole nal) := by
  cases codec with
  | h264 =>
    match nal with
    | b :: rest =>
      obtain ⟨hlow, hhigh⟩ : 1 ≤ h264NalType b ∧ h264NalType b ≤ 13 := by
        simpa [isDecodableNal] using h
      exact if_pos ⟨hlow, UInt8.le_trans hhigh (by decide)⟩
  | h265 =>
    match nal with
    | b :: b' :: rest =>
      have htype : h265NalType b ≤ 47 := by
        have hty := (Bool.and_eq_true_iff.1 h).1
        simp only [Bool.or_eq_true, Bool.and_eq_true, decide_eq_true_eq] at hty
        rcases hty with (hty | ⟨-, hty⟩) | ⟨-, hty⟩ <;> exact UInt8.le_trans hty (by decide)
      exact if_pos htype

/-- The payload of a slice is read as one, with the header of the NAL unit if the bit
    that has to be zero is. -/
theorem readPayload_fuPayload (codec : VideoCodec) (nal : Bytes) (s : Slice UInt8)
    (hlen : codec.nalHeaderLen ≤ nal.length) :
    ∃ header, readPayload codec (fuPayload (fuIndicator codec nal) (fuNalType codec nal) s) =
        some (.part header s) ∧
      (forbiddenZeroBitClear nal → header = nal.take codec.nalHeaderLen) := by
  obtain ⟨first, last, data⟩ := s
  cases codec with
  | h264 =>
    cases nal with
    | nil => exact absurd hlen (by decide)
    | cons b rest =>
      obtain ⟨htype, hfirst, hlast, hheader⟩ := h264_header b first last
      refine ⟨[H264.nalHeader ((b &&& 0x60) ||| H264.fuAType) (fuHeader (b &&& 0x1f) first last)],
        ?_, fun hclear => ?_⟩
      · simp only [readPayload, fuPayload, fuIndicator, fuNalType, List.cons_append,
          List.nil_append, H264.readPayload, htype, hfirst, hlast]
        rfl
      · rw [hheader (by simpa [forbiddenZeroBitClear] using hclear)]
        rfl
  | h265 =>
    obtain _ | ⟨b, _ | ⟨b', rest⟩⟩ := nal
    · exact absurd hlen (by decide)
    · exact absurd hlen (Nat.not_succ_le_self 1)
    · obtain ⟨htype, hfirst, hlast, hheader⟩ := h265_header b first last
      refine ⟨[b, b'], ?_, fun _ => rfl⟩
      simp only [readPayload, fuPayload, fuIndicator, fuNalType, List.cons_append, List.nil_append,
        H265.readPayload, htype, hheader, hfirst, hlast]
      rfl

/-- What a NAL unit is sent as. -/
def nalPieces (codec : VideoCodec) (mtu : ℕ) (nal : Bytes) : List (Piece UInt8) :=
  if nal.length + 12 ≤ mtu then [.whole nal]
  else
    (slices (mtu - 14 - codec.nalHeaderLen) true (nal.drop codec.nalHeaderLen)).map
      (.part (nal.take codec.nalHeaderLen))

variable {codec : VideoCodec} {mtu : ℕ}

/-- What is sent for a NAL unit is read as it was meant. -/
theorem mapM_nalPayloads (hmtu : 15 < mtu) {nal : Bytes} (hnal : isDecodableNal nal codec)
    (hclear : forbiddenZeroBitClear nal) :
    (nalPayloads codec mtu nal).mapM (readPayload codec) = some (nalPieces codec mtu nal) := by
  rw [nalPayloads, nalPieces]
  split
  · rw [List.mapM_cons, readPayload_nal hnal]
    rfl
  next hlen =>
    have hbody := length_body codec hmtu hlen
    rw [List.length_drop] at hbody
    rw [List.mapM_map]
    refine mapM_eq_some fun s _ => ?_
    obtain ⟨header, hread, hheader⟩ := readPayload_fuPayload codec nal s (by omega)
    rw [Function.comp_apply, hread, hheader hclear]

/-- A NAL unit is put together again. -/
theorem assemble_nalPieces (hmtu : 15 < mtu) (nal : Bytes) (pieces : List (Piece UInt8)) :
    assemble (nalPieces codec mtu nal ++ pieces) = (assemble pieces).map (nal :: ·) := by
  rw [nalPieces]
  split
  · exact assemble_whole nal
  next hlen =>
    rw [assemble_slices (length_body codec hmtu hlen), List.take_append_drop]

/-- What is packetized is put together again, at any size of packets that has room for the
    headers. -/
theorem depacketize_nalPayloads (hmtu : 15 < mtu) {nals : List Bytes}
    (hnals : ∀ nal ∈ nals, isDecodableNal nal codec ∧ forbiddenZeroBitClear nal) :
    depacketize codec (nals.flatMap (nalPayloads codec mtu)) = some nals := by
  have hread : (nals.flatMap (nalPayloads codec mtu)).mapM (readPayload codec) =
      some (nals.flatMap (nalPieces codec mtu)) := by
    induction nals with
    | nil => rfl
    | cons nal nals ih =>
      obtain ⟨hnal, hclear⟩ := hnals nal List.mem_cons_self
      rw [List.flatMap_cons, List.mapM_append, mapM_nalPayloads hmtu hnal hclear,
        ih fun nal' hnal' => hnals nal' (List.mem_cons_of_mem _ hnal')]
      rfl
  have hassemble : assemble (nals.flatMap (nalPieces codec mtu)) = some nals := by
    clear hnals hread
    induction nals with
    | nil => rfl
    | cons nal nals ih => rw [List.flatMap_cons, assemble_nalPieces hmtu, ih, Option.map_some]
  rw [depacketize, hread, Option.bind_some, hassemble]

/-- What is received are the payloads that were stamped. -/
theorem receive_stamp (timestamp : UInt32) (counters : RtpCounters)
    (payloads : List (Bool × Bytes)) :
    receive codec ((stamp codec.payloadType timestamp counters payloads).map RtpPacket.bytes) =
      depacketize codec (payloads.map Prod.snd) := by
  have hparse : ((stamp codec.payloadType timestamp counters payloads).map
      RtpPacket.bytes).mapM RtpPacket.parse? =
        some (stamp codec.payloadType timestamp counters payloads) := by
    rw [List.mapM_map, mapM_eq_some (g := id), List.map_id]
    intro packet hpacket
    refine RtpPacket.parse?_bytes ?_
    rw [(mem_stamp hpacket).1]
    exact payloadType_lt codec
  rw [receive, hparse, Option.bind_some, payload_stamp]

/-- The packets of a video frame give back its NAL units, whatever the counters. -/
theorem receive_dispatch {rtp : RtpTypes} (hrtp : rtp.Lawful) (codec : VideoCodec)
    (nals : List Bytes) (pts90khz : UInt32) (keyframe accessUnitEnd : Bool)
    (counters : RtpCounters)
    (hnals : ∀ nal ∈ nals, isDecodableNal nal codec ∧ forbiddenZeroBitClear nal) :
    ∃ packets counters', dispatch rtp (.video codec nals pts90khz keyframe accessUnitEnd) counters =
        some (packets, counters') ∧
      receive codec packets = some nals := by
  refine ⟨_, _, dispatch_video hrtp codec nals keyframe accessUnitEnd, ?_⟩
  rw [receive_stamp, map_snd_mark, depacketize_nalPayloads (by decide) hnals]

/-- The NAL units of an H.265 key frame, the first of which has to be cut. -/
def sampleNals : List Bytes :=
  [0x26 :: 0x01 :: List.replicate 3000 0xab, [0x28, 0x01, 0xff]]

/-- Three NAL units come through, with the sequence number going round. -/
theorem receive_dispatch_sampleNals : ∃ packets counters',
    dispatch rfc3550 (.video .h265 sampleNals 9000 true true) ⟨7, 65535⟩ =
        some (packets, counters') ∧
      receive .h265 packets = some sampleNals :=
  receive_dispatch rfc3550_lawful .h265 sampleNals 9000 true true ⟨7, 65535⟩ (by decide +kernel)

end Bairelay
