import Bairelay.Rtsp.Depacketizer

/-!
# Sending a video track

What a session sends on its video track (`rtsp/server/session_task.rs`): the replay of a
cached burst, as far as the transport takes it, and then the frames that come in, all on
the same counters.

* `replayBurst_eq`: replaying a burst is dispatching its key frame, cut short after the
  NAL unit the transport refused a packet of;
* `videoTrack_wellFormed`: the packets of a track are numbered without a gap, of one time
  and source for each access unit, no larger than they should be, and marked where an
  access unit ends.
-/

namespace Bairelay

open Fragment

variable (rtp : RtpTypes) (sendRtp : ℕ → Bool)

/-! ## Replay of a burst -/

/-- Hand packets to the transport, which takes the one after `k` others if `sendRtp k`,
    up to the first it refuses: how many it took, also of those before, and whether it
    took all. -/
def sendAll : (sent : ℕ) → List Bytes → ℕ × Bool
  | sent, [] => (sent, true)
  | sent, _ :: pkts => if sendRtp sent then sendAll (sent + 1) pkts else (sent, false)

/-- What came of a replay: the packets made, how many of them the transport took, and the
    counters. -/
structure Replay where
  packets : List Bytes
  sent : ℕ
  counters : RtpCounters
  deriving DecidableEq, Repr

/-- Replay the NAL units of a key frame, from the one at index `i` on. -/
def replayNals (codec : VideoCodec) (ts : UInt32) (lastNalIdx : ℕ) :
    (i : ℕ) → List Bytes → (sent : ℕ) → RtpCounters → Option Replay
  | _, [], sent, counters => some ⟨[], sent, counters⟩
  | i, nal :: nals, sent, counters => do
    let isLastNal := i == lastNalIdx
    let (pkts, counters) ← packetizeNal rtp codec codec.defaultMtu nal counters ts isLastNal
    match sendAll sendRtp sent pkts with
    -- The counters have passed the packets that were not sent.
    | (sent, false) => return ⟨pkts, sent, counters⟩
    | (sent, true) =>
      let rest ← replayNals codec ts lastNalIdx (i + 1) nals sent counters
      return { rest with packets := pkts ++ rest.packets }

/-- Replay the key frame of a burst; parameter sets and later frames are left out. -/
def replayBurst (burst : VideoBurst) (counters : RtpCounters) : Option Replay :=
  if burst.iframeNals = [] then some ⟨[], 0, counters⟩
  else
    replayNals rtp sendRtp burst.codec burst.capturedPts90khz (burst.iframeNals.length - 1) 0
      burst.iframeNals 0 counters

/-! ## The track -/

/-- The packets of some frames, each dispatched in turn. -/
def dispatchAll : List Frame → RtpCounters → Option (List (List Bytes) × RtpCounters)
  | [], counters => some ([], counters)
  | frame :: frames, counters => do
    let (packets, counters) ← dispatch rtp frame counters
    let (rest, counters) ← dispatchAll frames counters
    return (packets :: rest, counters)

/-- The packets made for a video track: those of the burst, if one is cached, and then
    those of each of the frames. -/
def videoTrack (burst : Option VideoBurst) (frames : List Frame) (counters : RtpCounters) :
    Option (List (List Bytes) × RtpCounters) :=
  match burst with
  | none => dispatchAll rtp frames counters
  | some burst => do
    let replay ← replayBurst rtp sendRtp burst counters
    let (packets, counters) ← dispatchAll rtp frames replay.counters
    return (replay.packets :: packets, counters)

/-- The key frame of a burst up to its first `n` NAL units, as a frame. It ends the access
    unit if that is all of it. -/
def VideoBurst.keyFrame (burst : VideoBurst) (n : ℕ) : Frame :=
  .video burst.codec (burst.iframeNals.take n) burst.capturedPts90khz true
    (n == burst.iframeNals.length)

section

variable {rtp} (hrtp : rtp.Lawful) {sendRtp}

/-- A transport that takes everything takes all packets. -/
theorem sendAll_of_forall (h : ∀ k, sendRtp k) (sent : ℕ) (pkts : List Bytes) :
    (sendAll sendRtp sent pkts).2 = true := by
  induction pkts generalizing sent with
  | nil => rfl
  | cons pkt pkts ih => rw [sendAll, if_pos (h sent), ih]

theorem defaultMtu_eq (codec : VideoCodec) : codec.defaultMtu = H264.defaultMtu := by
  cases codec <;> rfl

include hrtp

/-- Some of the NAL units are replayed, and all of them if the transport takes all
    packets. -/
theorem replayNals_eq {codec : VideoCodec} {ts : UInt32} {lastNalIdx i : ℕ} {nals : List Bytes}
    {sent : ℕ} {counters : RtpCounters} (hlast : nals ≠ [] → lastNalIdx + 1 = i + nals.length) :
    ∃ n replay, replayNals rtp sendRtp codec ts lastNalIdx i nals sent counters = some replay ∧
      (replay.packets, replay.counters) = emit codec.payloadType ts counters
        (mark (n == nals.length) ((nals.take n).flatMap (nalPayloads codec H264.defaultMtu))) ∧
      n ≤ nals.length ∧ ((∀ k, sendRtp k) → n = nals.length) := by
  induction nals generalizing i sent counters with
  | nil =>
    refine ⟨0, ⟨[], sent, counters⟩, rfl, ?_, le_rfl, fun _ => rfl⟩
    rw [List.take_nil, List.flatMap_nil, mark, emit_nil]
  | cons nal nals ih =>
    have hlast' := hlast (List.cons_ne_nil _ _)
    rw [List.length_cons] at hlast'
    rw [replayNals, defaultMtu_eq, packetizeNal_eq hrtp (by decide) (by decide)]
    simp only [Option.bind_eq_bind, Option.bind_some]
    rw [beq_lastIndex hlast']
    split
    next sent' hsend =>
      -- The rest is left out.
      refine ⟨1, _, rfl, ?_, by simp, fun h => ?_⟩
      · have hflag : (1 == (nal :: nals).length) = nals.isEmpty := by
          rw [Bool.eq_iff_iff, beq_iff_eq, List.isEmpty_iff, List.length_cons]
          simp
        rw [hflag, List.take_succ_cons, List.take_zero, List.flatMap_singleton]
      · have hall := congrArg Prod.snd hsend
        rw [sendAll_of_forall h] at hall
        cases hall
    next sent' hsend =>
      obtain ⟨n, ⟨packets, sent'', counters'⟩, hreplay, hpackets, hle, hall⟩ :=
        @ih (i + 1) sent' (emit codec.payloadType ts counters
          (mark nals.isEmpty (nalPayloads codec H264.defaultMtu nal))).2 fun _ => by omega
      rw [hreplay]
      refine ⟨n + 1, _, rfl, ?_, Nat.succ_le_succ hle, fun h => congrArg Nat.succ (hall h)⟩
      have hflag : (n + 1 == (nal :: nals).length) = (n == nals.length) := by
        rw [List.length_cons, Bool.eq_iff_iff, beq_iff_eq, beq_iff_eq, Nat.add_right_cancel_iff]
      have hmarker : ((nals.take n).isEmpty && n == nals.length) = nals.isEmpty := by
        rw [Bool.eq_iff_iff, Bool.and_eq_true, List.isEmpty_iff, List.isEmpty_iff, beq_iff_eq]
        refine ⟨?_, ?_⟩
        · rintro ⟨htake, rfl⟩
          rwa [List.take_length] at htake
        · rintro rfl
          exact ⟨List.take_nil, Nat.le_zero.1 hle⟩
      rw [hflag, List.take_succ_cons, List.flatMap_cons, mark_append,
        isEmpty_flatMap_nalPayloads (by decide), hmarker, emit_append]
      obtain ⟨rfl, rfl⟩ := Prod.mk.inj hpackets
      rfl

/-- Replaying a burst is dispatching its key frame, or a part of it if the transport
    refuses a packet. -/
theorem replayBurst_eq (burst : VideoBurst) (counters : RtpCounters) :
    ∃ n replay, replayBurst rtp sendRtp burst counters = some replay ∧
      dispatch rtp (burst.keyFrame n) counters = some (replay.packets, replay.counters) ∧
      n ≤ burst.iframeNals.length ∧ ((∀ k, sendRtp k) → n = burst.iframeNals.length) := by
  by_cases hnals : burst.iframeNals = []
  · refine ⟨0, ⟨[], 0, counters⟩, if_pos hnals, ?_, Nat.zero_le _, fun _ => ?_⟩
    · rw [VideoBurst.keyFrame, List.take_zero, dispatch_video hrtp, List.flatMap_nil, mark,
        emit_nil]
    · rw [hnals, List.length_nil]
  · have hpos := List.length_pos_of_ne_nil hnals
    obtain ⟨n, replay, hreplay, hpackets, hle, hall⟩ :=
      @replayNals_eq rtp sendRtp hrtp burst.codec burst.capturedPts90khz
        (burst.iframeNals.length - 1) 0 burst.iframeNals 0 counters fun _ => by omega
    refine ⟨n, replay, ?_, ?_, hle, hall⟩
    · rw [replayBurst, if_neg hnals, hreplay]
    · rw [hpackets]
      exact dispatch_video hrtp _ _ _ _

end

/-! ## What a track has to be -/

/-- A payload that is a NAL unit, or a slice of one that is not empty and does not both
    start and end it. -/
def IsPiece (codec : VideoCodec) (payload : Bytes) : Prop :=
  readPayload codec payload = some (.whole payload) ∨
    ∃ header slice, readPayload codec payload = some (.part header slice) ∧
      slice.data ≠ [] ∧ ¬(slice.first ∧ slice.last)

/-- The packets of an access unit, as they should be. -/
structure Carries (ssrc : UInt32) (codec : VideoCodec) (nals : List Bytes) (pts90khz : UInt32)
    (accessUnitEnd : Bool) (packets : List RtpPacket) : Prop where
  nonempty : nals ≠ [] → packets ≠ []
  timestamp : ∀ packet ∈ packets, packet.timestamp = pts90khz
  ssrc : ∀ packet ∈ packets, packet.ssrc = ssrc
  size : ∀ packet ∈ packets, packet.bytes.length ≤ codec.defaultMtu
  readable : ∀ packet ∈ packets, RtpPacket.parse? packet.bytes = some packet
  fragment : ∀ packet ∈ packets, IsPiece codec packet.payload
  marker : ∀ i (hi : i < packets.length),
    packets[i].marker ↔ accessUnitEnd ∧ i + 1 = packets.length

/-- The packets of a video frame, as they should be. -/
def Frame.CarriedBy (ssrc : UInt32) : Frame → List RtpPacket → Prop
  | .video codec nals pts90khz _ accessUnitEnd, packets =>
    Carries ssrc codec nals pts90khz accessUnitEnd packets
  | .audio _ _, _ => False

/-- A video frame of NAL units that can be decoded. -/
def Frame.Decodable : Frame → Prop
  | .video codec nals _ _ _ => ∀ nal ∈ nals, isDecodableNal nal codec
  | .audio _ _ => False

instance : DecidablePred Frame.Decodable
  | .video codec nals _ _ _ =>
    inferInstanceAs (Decidable (∀ nal ∈ nals, isDecodableNal nal codec = true))
  | .audio _ _ => inferInstanceAs (Decidable False)

/-- Packets numbered consecutively, modulo `2 ^ 16`. -/
def Numbered (seq : UInt16) (packets : List RtpPacket) : Prop :=
  packets.map (·.sequenceNumber) = (List.range packets.length).map fun i => seq + UInt16.ofNat i

/-- The packets of a track, for each of its frames. -/
structure WellFormed (counters : RtpCounters) (frames : List Frame)
    (packets : List (List RtpPacket)) : Prop where
  carried : List.Forall₂ (Frame.CarriedBy counters.ssrc) frames packets
  numbered : Numbered counters.seq packets.flatten

section

variable {codec : VideoCodec} {mtu : ℕ} {nal payload : Bytes}

/-- A payload leaves room for the header of the packet. -/
theorem length_of_mem_nalPayloads (hmtu : 16 ≤ mtu) (h : payload ∈ nalPayloads codec mtu nal) :
    RtpPacket.headerLen + payload.length ≤ mtu := by
  rw [RtpPacket.headerLen]
  rw [nalPayloads] at h
  split at h
  next hlen =>
    rw [List.mem_singleton.1 h]
    omega
  next hlen =>
    obtain ⟨s, hs, rfl⟩ := List.mem_map.1 h
    have hdata := length_data_le hs
    have hindicator := length_fuIndicator_le codec nal
    rw [fuPayload, List.length_append, List.length_cons]
    cases codec <;> simp only [VideoCodec.nalHeaderLen] at hdata hindicator <;> omega

/-- Every payload is a NAL unit, an aggregate or a fragment. -/
theorem isPiece_of_mem_nalPayloads (hmtu : 15 < mtu) (hnal : isDecodableNal nal codec)
    (h : payload ∈ nalPayloads codec mtu nal) : IsPiece codec payload := by
  rw [nalPayloads] at h
  split at h
  next hlen =>
    rw [List.mem_singleton.1 h]
    exact .inl (readPayload_nal hnal)
  next hlen =>
    have hbody := length_body codec hmtu hlen
    obtain ⟨s, hs, rfl⟩ := List.mem_map.1 h
    obtain ⟨header, hread, -⟩ := readPayload_fuPayload codec nal s (by
      rw [List.length_drop] at hbody
      omega)
    exact .inr ⟨header, s, hread, data_ne_nil hs, not_first_and_last hbody hs⟩

/-- The payloads of decodable NAL units, stamped in a row, are as they should be. -/
theorem carries_stamp {nals : List Bytes} (hnals : ∀ nal ∈ nals, isDecodableNal nal codec)
    (pts90khz : UInt32) (accessUnitEnd : Bool) (counters : RtpCounters) :
    Carries counters.ssrc codec nals pts90khz accessUnitEnd
      (stamp codec.payloadType pts90khz counters
        (mark accessUnitEnd (nals.flatMap (nalPayloads codec H264.defaultMtu)))) := by
  have hmem : ∀ packet ∈ stamp codec.payloadType pts90khz counters
      (mark accessUnitEnd (nals.flatMap (nalPayloads codec H264.defaultMtu))),
      ∃ nal ∈ nals, packet.payload ∈ nalPayloads codec H264.defaultMtu nal := by
    intro packet hpacket
    obtain ⟨-, -, -, hpayload⟩ := mem_stamp hpacket
    exact List.mem_flatMap.1 (snd_mem_of_mem_mark hpayload)
  constructor
  case nonempty =>
    intro hne hnil
    rw [← List.length_eq_zero_iff, length_stamp, length_mark, List.length_eq_zero_iff,
      ← List.isEmpty_iff, isEmpty_flatMap_nalPayloads (by decide), List.isEmpty_iff] at hnil
    exact hne hnil
  case timestamp => exact fun packet hpacket => (mem_stamp hpacket).2.1
  case ssrc => exact fun packet hpacket => (mem_stamp hpacket).2.2.1
  case size =>
    intro packet hpacket
    obtain ⟨nal, -, hpayload⟩ := hmem packet hpacket
    rw [RtpPacket.length_bytes, defaultMtu_eq]
    exact length_of_mem_nalPayloads (by decide) hpayload
  case readable =>
    intro packet hpacket
    refine RtpPacket.parse?_bytes ?_
    rw [(mem_stamp hpacket).1]
    exact payloadType_lt codec
  case fragment =>
    intro packet hpacket
    obtain ⟨nal, hnal, hpayload⟩ := hmem packet hpacket
    exact isPiece_of_mem_nalPayloads (by decide) (hnals nal hnal) hpayload
  case marker =>
    intro i hi
    have hi' := hi
    rw [length_stamp] at hi'
    rw [marker_getElem_stamp hi' hi, length_stamp, length_mark]
    exact fst_getElem_mark hi'

theorem Numbered.append {counters : RtpCounters} {packets packets' : List RtpPacket}
    (h : Numbered counters.seq packets)
    (h' : Numbered (counters.advance packets.length).seq packets') :
    Numbered counters.seq (packets ++ packets') := by
  rw [Numbered] at *
  rw [List.map_append, h, h', List.length_append, List.range_add, List.map_append, List.map_map]
  simp only [RtpCounters.advance, Function.comp_def, UInt16.ofNat_add, UInt16.add_assoc]

/-- The packets of one more frame at the front. -/
theorem WellFormed.cons {counters : RtpCounters} {frame : Frame} {frames : List Frame}
    {packets : List RtpPacket} {rest : List (List RtpPacket)}
    (hcarried : frame.CarriedBy counters.ssrc packets) (hnumbered : Numbered counters.seq packets)
    (hrest : WellFormed (counters.advance packets.length) frames rest) :
    WellFormed counters (frame :: frames) (packets :: rest) where
  carried := .cons hcarried hrest.carried
  numbered := hnumbered.append hrest.numbered

end

section

variable {rtp : RtpTypes} (hrtp : rtp.Lawful)

include hrtp

/-- A call makes the packets of its frame. -/
theorem dispatch_carriedBy {frame : Frame} (hframe : frame.Decodable) (counters : RtpCounters) :
    ∃ packets, dispatch rtp frame counters =
        some (packets.map RtpPacket.bytes, counters.advance packets.length) ∧
      frame.CarriedBy counters.ssrc packets ∧ Numbered counters.seq packets := by
  match frame with
  | .video codec nals pts90khz keyframe accessUnitEnd =>
    refine ⟨_, ?_, carries_stamp hframe pts90khz accessUnitEnd counters, ?_⟩
    · rw [dispatch_video hrtp, emit, length_stamp]
    · rw [Numbered, sequenceNumber_stamp, length_stamp]
      rfl

/-- Calls in a row make the packets of their frames. -/
theorem dispatchAll_wellFormed {frames : List Frame} (hframes : ∀ frame ∈ frames, frame.Decodable)
    (counters : RtpCounters) :
    ∃ packets counters', dispatchAll rtp frames counters =
        some (packets.map (List.map RtpPacket.bytes), counters') ∧
      WellFormed counters frames packets := by
  induction frames generalizing counters with
  | nil => exact ⟨[], counters, rfl, .nil, rfl⟩
  | cons frame frames ih =>
    obtain ⟨packets, hdispatch, hcarried, hnumbered⟩ :=
      dispatch_carriedBy hrtp (hframes frame List.mem_cons_self) counters
    obtain ⟨rest, counters', hrest, hwf⟩ :=
      ih (fun frame' h => hframes frame' (List.mem_cons_of_mem _ h))
        (counters.advance packets.length)
    refine ⟨packets :: rest, counters', ?_, hwf.cons hcarried hnumbered⟩
    rw [dispatchAll, hdispatch]
    simp only [Option.bind_eq_bind, Option.bind_some]
    rw [hrest]
    rfl

/-- A replayed burst is dispatched like the frames after it. -/
theorem videoTrack_eq (sendRtp : ℕ → Bool) (burst : Option VideoBurst) (frames : List Frame)
    (counters : RtpCounters) :
    ∃ n, videoTrack rtp sendRtp burst frames counters =
        dispatchAll rtp ((burst.map (·.keyFrame n)).toList ++ frames) counters ∧
      ∀ b ∈ burst, n ≤ b.iframeNals.length ∧ ((∀ k, sendRtp k) → n = b.iframeNals.length) := by
  cases burst with
  | none => exact ⟨0, rfl, fun b hb => nomatch hb⟩
  | some burst =>
    obtain ⟨n, replay, hreplay, hdispatch, hn⟩ :=
      @replayBurst_eq rtp sendRtp hrtp burst counters
    refine ⟨n, ?_, ?_⟩
    · rw [videoTrack, hreplay, Option.map_some, Option.toList_some, List.singleton_append,
        dispatchAll, hdispatch]
      rfl
    · rintro b ⟨rfl⟩
      exact hn

/-- The packets made for a video track are well-formed, whatever the burst, the frames and
    the counters. The burst is cut short only if the transport refuses a packet. -/
theorem videoTrack_wellFormed (sendRtp : ℕ → Bool) (burst : Option VideoBurst)
    (frames : List Frame) (counters : RtpCounters)
    (hburst : ∀ b ∈ burst, ∀ nal ∈ b.iframeNals, isDecodableNal nal b.codec)
    (hframes : ∀ frame ∈ frames, frame.Decodable) :
    ∃ n packets counters', videoTrack rtp sendRtp burst frames counters =
        some (packets.map (List.map RtpPacket.bytes), counters') ∧
      WellFormed counters ((burst.map (·.keyFrame n)).toList ++ frames) packets ∧
      ∀ b ∈ burst, n ≤ b.iframeNals.length ∧ ((∀ k, sendRtp k) → n = b.iframeNals.length) := by
  obtain ⟨n, htrack, hn⟩ := videoTrack_eq hrtp sendRtp burst frames counters
  have hall : ∀ frame ∈ (burst.map (·.keyFrame n)).toList ++ frames, frame.Decodable := by
    intro frame hframe
    rcases List.mem_append.1 hframe with hframe | hframe
    · obtain ⟨b, hb, rfl⟩ := Option.mem_map.1 (Option.mem_toList.1 hframe)
      exact fun nal hnal => hburst b hb nal (List.mem_of_mem_take hnal)
    · exact hframes frame hframe
  obtain ⟨packets, counters', hpackets, hwf⟩ := dispatchAll_wellFormed hrtp hall counters
  exact ⟨n, packets, counters', htrack.trans hpackets, hwf, hn⟩

end

/-- A burst of the key frame `sampleNals`. -/
def sampleBurst : VideoBurst := ⟨.h265, [], sampleNals, [], 0, 9000⟩

/-- A frame that is a NAL unit of H.264 just too long for a packet. -/
def sampleFrame : Frame := .video .h264 [0x41 :: List.replicate 1388 0xaa] 12600 false true

/-- A burst and a frame behind it, with the sequence number going round. -/
theorem videoTrack_wellFormed_sampleBurst : ∃ n packets counters',
    videoTrack rfc3550 (fun _ => true) (some sampleBurst) [sampleFrame] ⟨7, 65535⟩ =
        some (packets.map (List.map RtpPacket.bytes), counters') ∧
      WellFormed ⟨7, 65535⟩ [sampleBurst.keyFrame n, sampleFrame] packets ∧
      ∀ b ∈ some sampleBurst, n ≤ b.iframeNals.length ∧
        ((∀ _ : ℕ, true = true) → n = b.iframeNals.length) :=
  videoTrack_wellFormed rfc3550_lawful (fun _ => true) (some sampleBurst) [sampleFrame] ⟨7, 65535⟩
    (by rintro b ⟨rfl⟩; decide +kernel) (by decide +kernel)

end Bairelay
