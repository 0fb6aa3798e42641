import Bairelay.Media.Frame
import Bairelay.Codec.Audio
import Bairelay.Lib.Fragment
import Bairelay.Rtsp.Rtp

/-!
# From frames to packets

How the frames of a stream become packets (`rtsp/server/packetizer.rs`). A NAL unit
that fits a packet is sent as it is; another one is cut into fragmentation units, by
the rules of H.264 (`rtsp/codec/h264.rs`) or H.265 (`rtsp/codec/h265.rs`). Audio goes
in one packet for each frame. A failed assertion is `none`.

What is sent for a video frame is the same as stamping, one after the other, the
payloads of its NAL units (`nalPayloads`), the last one marked: `dispatch_video`.
-/

namespace Bairelay

open Fragment

variable (rtp : RtpTypes)

/-! ## Fragmentation units -/

/-- The header of a fragmentation unit: the type of the NAL unit, and whether it starts
    and ends here. -/
def fuHeader (nalType : UInt8) (isFirst isLast : Bool) : UInt8 :=
  (nalType ||| if isFirst then 0x80 else 0) ||| if isLast then 0x40 else 0

/-- The loop of both codecs, over the part of a NAL unit after its header, from an
    offset on. The `indicator` stands in front of every fragment. -/
def fragmentLoop (payloadType : UInt8) (indicator : Bytes) (nalType : UInt8) (body : Bytes)
    (timestamp90khz : UInt32) (markerOnLast : Bool) (maxFragmentPayload : ℕ)
    (hmax : 0 < maxFragmentPayload) (offset : ℕ) (counters : RtpCounters) :
    List Bytes × RtpCounters :=
  if offset < body.length then
    let stop := min (offset + maxFragmentPayload) body.length
    let isFirst := offset = 0
    let isLast := stop = body.length
    let payload :=
      indicator ++ fuHeader nalType isFirst isLast :: (body.drop offset).take (stop - offset)
    let (seq, counters) := counters.nextSeq
    let marker := isLast && markerOnLast
    let packet := rtp.buildPacket payloadType seq timestamp90khz counters.ssrc marker payload
    let (packets, counters) := fragmentLoop payloadType indicator nalType body timestamp90khz
      markerOnLast maxFragmentPayload hmax stop counters
    (packet :: packets, counters)
  else ([], counters)
termination_by body.length - offset

namespace H264

/-- Of the dynamic range. -/
def payloadType : UInt8 := 96

/-- Room for a packet in an Ethernet frame with some headers. -/
def defaultMtu : ℕ := 1400

/-- The type of fragmentation units. -/
def fuAType : UInt8 := 28

/-- Send a NAL unit in one packet. -/
def packetizeSingle (nal : Bytes) (counters : RtpCounters) (timestamp90khz : UInt32)
    (marker : Bool) : Bytes × RtpCounters :=
  let (seq, counters) := counters.nextSeq
  (rtp.buildPacket payloadType seq timestamp90khz counters.ssrc marker nal, counters)

theorem fragment_pos {mtu : ℕ} (h : ¬mtu ≤ 14) : 0 < mtu - 12 - 2 := by
  omega

/-- Send a NAL unit in fragmentation units of type A. The header of the NAL unit is
    split: the indicator has its importance, the header of the unit its type. -/
def packetizeFuA (nal : Bytes) (counters : RtpCounters) (timestamp90khz : UInt32)
    (markerOnLast : Bool) (mtu : ℕ) : Option (List Bytes × RtpCounters) :=
  match nal with
  | nalHeader :: b :: body =>
    -- There is no room for the headers: an error is logged, and nothing is sent.
    if hmtu : mtu ≤ 14 then some ([], counters)
    else
      -- The bit that has to be zero is dropped.
      let nri := nalHeader &&& 0x60
      let nalType := nalHeader &&& 0x1f
      some (fragmentLoop rtp payloadType [nri ||| fuAType] nalType (b :: body) timestamp90khz
        markerOnLast (mtu - 12 - 2) (fragment_pos hmtu) 0 counters)
  | _ => none

end H264

namespace H265

/-- Of the dynamic range. -/
def payloadType : UInt8 := 96

/-- Room for a packet in an Ethernet frame with some headers. -/
def defaultMtu : ℕ := 1400

/-- The type of fragmentation units. -/
def fuType : UInt8 := 49

/-- The first byte of a NAL unit with its type replaced. -/
def fuPayloadHeaderByte0 (b : UInt8) : UInt8 := (b &&& 0x81) ||| (fuType <<< (1 : UInt8))

/-- Send a NAL unit in one packet. -/
def packetizeSingle (nal : Bytes) (counters : RtpCounters) (timestamp90khz : UInt32)
    (marker : Bool) : Bytes × RtpCounters :=
  let (seq, counters) := counters.nextSeq
  (rtp.buildPacket payloadType seq timestamp90khz counters.ssrc marker nal, counters)

theorem fragment_pos {mtu : ℕ} (h : ¬mtu ≤ 15) : 0 < mtu - 12 - 2 - 1 := by
  omega

/-- Send a NAL unit in fragmentation units. Its type is moved to the header of the unit,
    and the header of the NAL unit is kept but for that. -/
def packetizeFu (nal : Bytes) (counters : RtpCounters) (timestamp90khz : UInt32)
    (markerOnLast : Bool) (mtu : ℕ) : Option (List Bytes × RtpCounters) :=
  match nal with
  | b :: b' :: body =>
    -- As for H.264, where the headers are a byte shorter.
    if hmtu : mtu ≤ 15 then some ([], counters)
    else
      let origType : UInt8 := (b >>> 1) &&& 0x3f
      some (fragmentLoop rtp payloadType [fuPayloadHeaderByte0 b, b'] origType body timestamp90khz
        markerOnLast (mtu - 12 - 2 - 1) (fragment_pos hmtu) 0 counters)
  | _ => none

end H265

/-- Both codecs have one. -/
def VideoCodec.payloadType : VideoCodec → UInt8
  | .h264 => H264.payloadType
  | .h265 => H265.payloadType

theorem payloadType_lt (codec : VideoCodec) : codec.payloadType < 0x80 := by
  cases codec <;> decide

/-- The size of packets a codec aims at. -/
def VideoCodec.defaultMtu : VideoCodec → ℕ
  | .h264 => H264.defaultMtu
  | .h265 => H265.defaultMtu

/-! ## Dispatch -/

/-- Send a NAL unit, in one packet if it fits. -/
def packetizeNal (codec : VideoCodec) (mtu : ℕ) (nal : Bytes) (counters : RtpCounters)
    (timestamp90khz : UInt32) (marker : Bool) : Option (List Bytes × RtpCounters) :=
  match codec with
  | .h264 =>
    if nal.length + 12 ≤ mtu then
      let (packet, counters) := H264.packetizeSingle rtp nal counters timestamp90khz marker
      some ([packet], counters)
    else H264.packetizeFuA rtp nal counters timestamp90khz marker mtu
  | .h265 =>
    if nal.length + 12 ≤ mtu then
      let (packet, counters) := H265.packetizeSingle rtp nal counters timestamp90khz marker
      some ([packet], counters)
    else H265.packetizeFu rtp nal counters timestamp90khz marker mtu

/-- Send the NAL units of a frame, from the one at index `i` on. -/
def dispatchNals (codec : VideoCodec) (pts90khz : UInt32) (accessUnitEnd : Bool)
    (lastIndex : ℕ) : (i : ℕ) → List Bytes → RtpCounters → Option (List Bytes × RtpCounters)
  | _, [], counters => some ([], counters)
  | i, nal :: nals, counters => do
    let marker := accessUnitEnd && i == lastIndex
    let (packets, counters) ← packetizeNal rtp codec H264.defaultMtu nal counters pts90khz marker
    let (rest, counters) ←
      dispatchNals codec pts90khz accessUnitEnd lastIndex (i + 1) nals counters
    return (packets ++ rest, counters)

/-- An AAC access unit after its header: the length, of 13 bits. -/
def buildAuHbrPayload (au : Bytes) : Bytes :=
  0x00 :: 0x10 :: (Streaming.beBytes 2 (UInt16.ofNat au.length <<< 3).toNat ++ au)

/-- A frame of sound is one packet. -/
def dispatchAudio (payload : AudioPayload) (pts : UInt32) (counters : RtpCounters) :
    List Bytes × RtpCounters :=
  match payload with
  | .aac auData _ _ =>
    let body := buildAuHbrPayload auData
    let (seq, counters) := counters.nextSeq
    ([rtp.buildPacket aacPayloadType seq pts counters.ssrc true body], counters)
  | .g711Ulaw samples =>
    let (seq, counters) := counters.nextSeq
    ([rtp.buildPacket g711PayloadType seq pts counters.ssrc true samples], counters)

/-- The packets of a frame. The size is that of H.264 for both codecs. -/
def dispatch (frame : Frame) (counters : RtpCounters) : Option (List Bytes × RtpCounters) :=
  match frame with
  | .video codec nals pts90khz _ accessUnitEnd =>
    dispatchNals rtp codec pts90khz accessUnitEnd (nals.length - 1) 0 nals counters
  | .audio payload pts => some (dispatchAudio rtp payload pts counters)

/-! ## What is sent -/

/-- The payload a slice of a NAL unit is sent in. -/
def fuPayload (indicator : Bytes) (nalType : UInt8) (s : Slice UInt8) : Bytes :=
  indicator ++ fuHeader nalType s.first s.last :: s.data

/-- The length of the header of a NAL unit. -/
def VideoCodec.nalHeaderLen : VideoCodec → ℕ
  | .h264 => 1
  | .h265 => 2

/-- What stands in front of the fragments of a NAL unit. -/
def fuIndicator : VideoCodec → Bytes → Bytes
  | .h264, b :: _ => [(b &&& 0x60) ||| H264.fuAType]
  | .h265, b :: b' :: _ => [H265.fuPayloadHeaderByte0 b, b']
  | _, _ => []

/-- The indicator is no longer than the header it replaces. -/
theorem length_fuIndicator_le (codec : VideoCodec) (nal : Bytes) :
    (fuIndicator codec nal).length ≤ codec.nalHeaderLen := by
  match codec, nal with
  | .h264, [] | .h265, [] | .h265, [_] => exact Nat.zero_le _
  | .h264, _ :: _ | .h265, _ :: _ :: _ => exact le_rfl

/-- The type that is put into the header of the fragments of a NAL unit. -/
def fuNalType : VideoCodec → Bytes → UInt8
  | .h264, b :: _ => b &&& 0x1f
  | .h265, b :: _ => (b >>> 1) &&& 0x3f
  | _, [] => 0

/-- The payloads a NAL unit is sent in. -/
def nalPayloads (codec : VideoCodec) (mtu : ℕ) (nal : Bytes) : List Bytes :=
  if nal.length + 12 ≤ mtu then [nal]
  else
    (slices (mtu - 14 - codec.nalHeaderLen) true (nal.drop codec.nalHeaderLen)).map
      (fuPayload (fuIndicator codec nal) (fuNalType codec nal))

/-- A NAL unit that does not fit is longer than a fragment without its header, too. -/
theorem length_body (codec : VideoCodec) {mtu : ℕ} {nal : Bytes} (hmtu : 15 < mtu)
    (hlen : ¬nal.length + 12 ≤ mtu) :
    mtu - 14 - codec.nalHeaderLen + 1 < (nal.drop codec.nalHeaderLen).length := by
  rw [List.length_drop]
  cases codec <;> simp only [VideoCodec.nalHeaderLen] <;> omega

/-- Every NAL unit has a packet, even an empty one. -/
theorem nalPayloads_ne_nil {codec : VideoCodec} {mtu : ℕ} {nal : Bytes} (hmtu : 15 < mtu) :
    nalPayloads codec mtu nal ≠ [] := by
  rw [nalPayloads]
  split
  · exact List.cons_ne_nil _ _
  next hlen =>
    have hbody := length_body codec hmtu hlen
    rw [Ne, List.map_eq_nil_iff, slices_eq_nil]
    exact List.ne_nil_of_length_pos (by omega)

theorem isEmpty_flatMap_nalPayloads {codec : VideoCodec} {mtu : ℕ} (hmtu : 15 < mtu)
    (nals : List Bytes) : (nals.flatMap (nalPayloads codec mtu)).isEmpty = nals.isEmpty := by
  rw [Bool.eq_iff_iff, List.isEmpty_iff, List.isEmpty_iff, List.flatMap_eq_nil_iff,
    List.eq_nil_iff_forall_not_mem]
  exact forall₂_congr fun nal _ => iff_false_intro (nalPayloads_ne_nil hmtu)

/-- The last NAL unit is the one none is after. -/
theorem beq_lastIndex {i lastIndex : ℕ} {nals : List Bytes}
    (h : lastIndex + 1 = i + (nals.length + 1)) : (i == lastIndex) = nals.isEmpty := by
  rw [Bool.eq_iff_iff, beq_iff_eq, List.isEmpty_iff, ← List.length_eq_zero_iff]
  omega

/-- The packets for some payloads in a row, and the counters after them. -/
def emit (payloadType : UInt8) (timestamp : UInt32) (counters : RtpCounters)
    (payloads : List (Bool × Bytes)) : List Bytes × RtpCounters :=
  ((stamp payloadType timestamp counters payloads).map RtpPacket.bytes,
    counters.advance payloads.length)

section

variable {rtp} (hrtp : rtp.Lawful) {payloadType : UInt8} {timestamp : UInt32}
  {counters : RtpCounters}

theorem emit_nil : emit payloadType timestamp counters [] = ([], counters) := by
  rw [emit, List.length_nil, RtpCounters.advance_zero]
  rfl

/-- What is sent in two parts has its sequence numbers in a row. -/
theorem emit_append (payloads payloads' : List (Bool × Bytes)) :
    emit payloadType timestamp counters (payloads ++ payloads') =
      ((emit payloadType timestamp counters payloads).1 ++
        (emit payloadType timestamp (counters.advance payloads.length) payloads').1,
      (emit payloadType timestamp (counters.advance payloads.length) payloads').2) := by
  rw [emit, stamp_append, List.map_append, List.length_append, RtpCounters.advance_add]
  rfl

include hrtp

/-- Building a packet and going on is what emitting its payload first is. -/
theorem emit_cons {marker : Bool} {payload : Bytes} (htype : payloadType < 0x80)
    (hsize : RtpPacket.headerLen + payload.length < 2 ^ 16) (payloads : List (Bool × Bytes)) :
    emit payloadType timestamp counters ((marker, payload) :: payloads) =
      (rtp.buildPacket payloadType counters.nextSeq.1 timestamp counters.nextSeq.2.ssrc marker
          payload :: (emit payloadType timestamp counters.nextSeq.2 payloads).1,
        (emit payloadType timestamp counters.nextSeq.2 payloads).2) := by
  rw [RtpTypes.buildPacket_eq hrtp _ _ _ _ htype hsize, RtpCounters.nextSeq_snd, emit, stamp,
    List.map_cons, List.length_cons, Nat.add_comm, RtpCounters.advance_add]
  rfl

/-- An iteration of the loop cuts off a slice. -/
theorem fragmentLoop_eq {indicator : Bytes} {nalType : UInt8} {body : Bytes}
    {markerOnLast : Bool} {maxFragmentPayload : ℕ} {hmax : 0 < maxFragmentPayload} {offset : ℕ}
    (htype : payloadType < 0x80)
    (hsize : RtpPacket.headerLen + (indicator.length + 1 + maxFragmentPayload) < 2 ^ 16) :
    fragmentLoop rtp payloadType indicator nalType body timestamp markerOnLast
        maxFragmentPayload hmax offset counters =
      emit payloadType timestamp counters
        ((slices (maxFragmentPayload - 1) (offset = 0) (body.drop offset)).map fun s =>
          (s.last && markerOnLast, fuPayload indicator nalType s)) := by
  -- On what is left of the body, like the loop.
  induction hlen : body.length - offset using Nat.strong_induction_on
    generalizing offset counters with
  | _ len ih =>
    rw [fragmentLoop]
    split
    next hoffset =>
      have hstop : decide (min (offset + maxFragmentPayload) body.length = 0) = false :=
        decide_eq_false (by omega)
      have hslice := slices_drop hmax hoffset (offset = 0)
      have hdata := length_data_le (hslice ▸ List.mem_cons_self)
      rw [hslice, List.map_cons, emit_cons hrtp htype ?_]
      · dsimp only
        rw [ih _ (by omega) rfl, hstop]
        rfl
      · rw [fuPayload, List.length_append, List.length_cons]
        omega
    next hoffset =>
      rw [List.drop_eq_nil_of_le (not_lt.1 hoffset), slices_nil]
      exact emit_nil.symm

/-- Fragments that fill the packets carry the payloads of the NAL unit. -/
theorem fragmentLoop_nal {codec : VideoCodec} {nal : Bytes} {marker : Bool} {mtu : ℕ}
    {maxFragmentPayload : ℕ} {hmax : 0 < maxFragmentPayload}
    (hfill : maxFragmentPayload + 13 + codec.nalHeaderLen = mtu) (hmtu : mtu < 2 ^ 16)
    (hlen : ¬nal.length + 12 ≤ mtu) :
    fragmentLoop rtp codec.payloadType (fuIndicator codec nal) (fuNalType codec nal)
        (nal.drop codec.nalHeaderLen) timestamp marker maxFragmentPayload hmax 0 counters =
      emit codec.payloadType timestamp counters (mark marker (nalPayloads codec mtu nal)) := by
  have hslice : maxFragmentPayload - 1 = mtu - 14 - codec.nalHeaderLen := by omega
  have hindicator := length_fuIndicator_le codec nal
  have hsize : RtpPacket.headerLen + ((fuIndicator codec nal).length + 1 + maxFragmentPayload) <
      2 ^ 16 := by
    rw [RtpPacket.headerLen]
    omega
  rw [fragmentLoop_eq hrtp (payloadType_lt codec) hsize, marked_slices, hslice, List.drop_zero,
    nalPayloads, if_neg hlen]
  rfl

/-- The fragments of H.264 are the payloads of the NAL unit. -/
theorem packetizeFuA_eq {nal : Bytes} {marker : Bool} {mtu : ℕ} (hmtu : 15 < mtu)
    (hmtu' : mtu < 2 ^ 16) (hlen : ¬nal.length + 12 ≤ mtu) :
    H264.packetizeFuA rtp nal counters timestamp marker mtu =
      some (emit H264.payloadType timestamp counters
        (mark marker (nalPayloads .h264 mtu nal))) := by
  match nal with
  | [] | [_] => simp at hlen; omega
  | b :: b' :: body =>
    have hfill : mtu - 12 - 2 + 13 + VideoCodec.nalHeaderLen .h264 = mtu := by
      rw [VideoCodec.nalHeaderLen]
      omega
    rw [H264.packetizeFuA, dif_neg (by omega)]
    exact congrArg some (fragmentLoop_nal hrtp hfill hmtu' hlen)

theorem packetizeFu_eq {nal : Bytes} {marker : Bool} {mtu : ℕ} (hmtu : 15 < mtu)
    (hmtu' : mtu < 2 ^ 16) (hlen : ¬nal.length + 12 ≤ mtu) :
    H265.packetizeFu rtp nal counters timestamp marker mtu =
      some (emit H265.payloadType timestamp counters
        (mark marker (nalPayloads .h265 mtu nal))) := by
  match nal with
  | [] | [_] => simp at hlen; omega
  | b :: b' :: body =>
    have hfill : mtu - 12 - 2 - 1 + 13 + VideoCodec.nalHeaderLen .h265 = mtu := by
      rw [VideoCodec.nalHeaderLen]
      omega
    rw [H265.packetizeFu, dif_neg (by omega)]
    exact congrArg some (fragmentLoop_nal hrtp hfill hmtu' hlen)

/-- Both codecs send the payloads of a NAL unit, the last one marked if it is asked
    for. -/
theorem packetizeNal_eq {codec : VideoCodec} {nal : Bytes} {marker : Bool} {mtu : ℕ}
    (hmtu : 15 < mtu) (hmtu' : mtu < 2 ^ 16) :
    packetizeNal rtp codec mtu nal counters timestamp marker =
      some (emit codec.payloadType timestamp counters
        (mark marker (nalPayloads codec mtu nal))) := by
  by_cases hlen : nal.length + 12 ≤ mtu
  · have hsize : RtpPacket.headerLen + nal.length < 2 ^ 16 := by
      rw [RtpPacket.headerLen]
      omega
    have hpayloads : mark marker (nalPayloads codec mtu nal) = [(marker, nal)] := by
      rw [nalPayloads, if_pos hlen, mark]
    cases codec with
    | h264 =>
      rw [packetizeNal, if_pos hlen, hpayloads, emit_cons hrtp (by decide) hsize, emit_nil]
      rfl
    | h265 =>
      rw [packetizeNal, if_pos hlen, hpayloads, emit_cons hrtp (by decide) hsize, emit_nil]
      rfl
  · cases codec with
    | h264 =>
      rw [packetizeNal, if_neg hlen]
      exact packetizeFuA_eq hrtp hmtu hmtu' hlen
    | h265 =>
      rw [packetizeNal, if_neg hlen]
      exact packetizeFu_eq hrtp hmtu hmtu' hlen

/-- The NAL units of a frame are sent one after the other; only the last packet of the
    last one is marked. -/
theorem dispatchNals_eq {codec : VideoCodec} {accessUnitEnd : Bool} {lastIndex i : ℕ}
    {nals : List Bytes} (hlast : nals ≠ [] → lastIndex + 1 = i + nals.length) :
    dispatchNals rtp codec timestamp accessUnitEnd lastIndex i nals counters =
      some (emit codec.payloadType timestamp counters
        (mark accessUnitEnd (nals.flatMap (nalPayloads codec H264.defaultMtu)))) := by
  induction nals generalizing i counters with
  | nil => rw [dispatchNals, List.flatMap_nil, mark, emit_nil]
  | cons nal nals ih =>
    have hlast' := hlast (List.cons_ne_nil _ _)
    rw [List.length_cons] at hlast'
    rw [dispatchNals, packetizeNal_eq hrtp (by decide) (by decide)]
    simp only [Option.bind_eq_bind, Option.bind_some]
    rw [ih fun _ => by omega, List.flatMap_cons]
    rw [mark_append, isEmpty_flatMap_nalPayloads (by decide), beq_lastIndex hlast', Bool.and_comm,
      emit_append]
    rfl

/-- The payloads of the NAL units of a frame are sent one after the other; the last one
    is marked if the frame ends an access unit. -/
theorem dispatch_video (codec : VideoCodec) (nals : List Bytes) (keyframe accessUnitEnd : Bool) :
    dispatch rtp (.video codec nals timestamp keyframe accessUnitEnd) counters =
      some (emit codec.payloadType timestamp counters
        (mark accessUnitEnd (nals.flatMap (nalPayloads codec H264.defaultMtu)))) := by
  refine dispatchNals_eq hrtp fun hnals => ?_
  have hpos := List.length_pos_of_ne_nil hnals
  omega

end

end Bairelay
