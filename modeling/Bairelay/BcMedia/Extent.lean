import Bairelay.Bc.De
import Bairelay.BcMedia.Codex
import Bairelay.Lib.Extent

/-!
# How far media packets extend

A video packet is 20 bytes of header after its magic, an additional header, the
payload and its padding.

* `frame_keepsExtent_iff`: key frames whose additional header has 1 to 3 bytes
  are read as if it had none, all other video packets take what they declare;
* `decode_kept_iff`: the decoder buffers whatever a header declares.
-/

namespace Bairelay

open Streaming Parser

/-! ## Video packets -/

/-- What a video packet declares to take after its magic. -/
def frameExtent (buf : Bytes) : ℕ :=
  20 + (wordAt 8 buf).toNat + (wordAt 4 buf).toNat + (padSize (wordAt 4 buf)).toNat

/-- The bytes consumed are those declared, and the data is the payload behind the
    additional header. -/
structure KeepsExtent (buf rest data : Bytes) : Prop where
  consumed : buf.length = frameExtent buf + rest.length
  payload : data = (buf.drop (20 + (wordAt 8 buf).toNat)).take (wordAt 4 buf).toNat

/-- The bytes of the additional header that a key frame skips. -/
def iframeSkipped (additionalHeaderSize : UInt32) : ℕ :=
  if 4 ≤ additionalHeaderSize then additionalHeaderSize.toNat else 0

theorem toNat_sub_four {size : UInt32} (h : 4 ≤ size) : (size - 4).toNat = size.toNat - 4 :=
  UInt32.toNat_sub_of_le _ _ h

/-- The time word, and what remains of the additional header. -/
theorem iframeSkipped_eq (additionalHeaderSize : UInt32) :
    iframeSkipped additionalHeaderSize = (if 4 ≤ additionalHeaderSize then 4 else 0) +
      if 4 < additionalHeaderSize then (additionalHeaderSize - 4).toNat else 0 := by
  rw [iframeSkipped]
  by_cases h4 : 4 ≤ additionalHeaderSize
  · have hle : 4 ≤ additionalHeaderSize.toNat := UInt32.le_iff_toNat_le.1 h4
    rw [if_pos h4, if_pos h4, toNat_sub_four h4]
    split
    · omega
    · next hlt =>
      rw [← UInt32.le_antisymm h4 (UInt32.not_lt.1 hlt)]
      rfl
  · have hlt : ¬ 4 < additionalHeaderSize := fun hlt => h4 (UInt32.le_of_lt hlt)
    rw [if_neg h4, if_neg h4, if_neg hlt]

/-- At most the additional header is skipped, and less if it has no room for the time. -/
theorem iframeSkipped_le (additionalHeaderSize : UInt32) :
    iframeSkipped additionalHeaderSize ≤ additionalHeaderSize.toNat := by
  rw [iframeSkipped]
  split
  · exact le_rfl
  · exact Nat.zero_le _

/-- The codec's name takes four bytes, whatever it says. -/
theorem take4_done {ok : String → Bool} {text : String} {buf rest : Bytes} {str : String}
    (h : context text (take4.verify ok) buf = .done rest str) :
    4 ≤ buf.length ∧ rest = buf.drop 4 := by
  obtain ⟨hstr, -⟩ := verify_eq_done.1 (context_eq_done.1 h)
  obtain ⟨bytes, hbytes, -⟩ := mapRes_eq_done.1 hstr
  obtain ⟨hlen, rfl, -⟩ := (take_drop_eq_done (Nat.zero_le _)).1 hbytes
  exact ⟨by omega, by rw [Nat.zero_add]⟩

/-- The 20 bytes behind the magic of a video packet. -/
theorem videoHeader_done {α : Type} {ok : String → Bool} {text : String} {buf rest : Bytes} {v : α}
    {p : String → UInt32 → UInt32 → UInt32 → Parser α}
    (h : (context text (take4.verify ok) >>= fun str => leU32 >>= fun payloadSize =>
      leU32 >>= fun additionalHeaderSize => leU32 >>= fun microseconds => leU32 >>= fun _ =>
        p str payloadSize additionalHeaderSize microseconds) buf = .done rest v) :
    20 ≤ buf.length ∧ ∃ str, p str (wordAt 4 buf) (wordAt 8 buf) (wordAt 12 buf) (buf.drop 20) =
      .done rest v := by
  obtain ⟨_, str, hstr, h⟩ := bind_eq_done.1 h
  obtain ⟨h4, rfl⟩ := take4_done hstr
  obtain ⟨h8, h⟩ := leU32_bind_drop h4 h
  obtain ⟨h12, h⟩ := leU32_bind_drop h8 h
  obtain ⟨h16, h⟩ := leU32_bind_drop h12 h
  obtain ⟨h20, h⟩ := leU32_bind_drop h16 h
  exact ⟨h20, str, h⟩

/-- The codec is judged at the end, and takes nothing more. -/
theorem videoTypeOf_done {str : String} {buf rest : Bytes} {videoType : VideoType}
    (h : videoTypeOf str buf = .done rest videoType) : rest = buf := by
  rw [videoTypeOf] at h
  split at h
  · exact (Outcome.done.inj h).1.symm
  · split at h
    · exact (Outcome.done.inj h).1.symm
    · exact nomatch h

/-- The payload at position `i`, its padding, and what is made of it. -/
theorem framePayload_done {α : Type} {i : ℕ} {size : UInt32} {str : String} {buf rest : Bytes}
    {v : α} {g : VideoType → Bytes → α} (hi : i ≤ buf.length)
    (h : (take size.toNat >>= fun data => take (padSize size).toNat >>= fun _ =>
      videoTypeOf str >>= fun videoType => pure (g videoType data)) (buf.drop i) = .done rest v) :
    i + size.toNat + (padSize size).toNat ≤ buf.length ∧
      rest = buf.drop (i + size.toNat + (padSize size).toNat) ∧
      ∃ videoType, v = g videoType ((buf.drop i).take size.toNat) := by
  obtain ⟨hlen, h⟩ := take_bind_drop hi h
  obtain ⟨hlen, h⟩ := take_bind_drop hlen h
  obtain ⟨_, videoType, hvideo, h⟩ := bind_eq_done.1 h
  obtain rfl := videoTypeOf_done hvideo
  obtain ⟨rfl, rfl⟩ := Outcome.done.inj h
  exact ⟨hlen, rfl, videoType, rfl⟩

/-- A frame between key frames skips its additional header and takes its padding. -/
theorem bcmediaPframe_done {buf rest : Bytes} {frame : BcMediaPframe}
    (h : bcmediaPframe buf = .done rest frame) : KeepsExtent buf rest frame.data := by
  obtain ⟨h20, str, h⟩ := videoHeader_done h
  obtain ⟨hlen, h⟩ := take_bind_drop h20 h
  obtain ⟨hlen, rfl, videoType, rfl⟩ := framePayload_done hlen h
  exact ⟨by rw [List.length_drop, frameExtent]; omega, rfl⟩

/-- What a key frame takes. -/
theorem bcmediaIframe_done {buf rest : Bytes} {frame : BcMediaIframe}
    (h : bcmediaIframe buf = .done rest frame) :
    buf.length = 20 + iframeSkipped (wordAt 8 buf) + (wordAt 4 buf).toNat +
        (padSize (wordAt 4 buf)).toNat + rest.length ∧
      frame.data = (buf.drop (20 + iframeSkipped (wordAt 8 buf))).take (wordAt 4 buf).toNat := by
  obtain ⟨h20, str, h⟩ := videoHeader_done h
  obtain ⟨_, time, htime, h⟩ := bind_eq_done.1 h
  obtain ⟨_, remained, hremained, h⟩ := bind_eq_done.1 h
  -- The time and what remains of the additional header are what is skipped of it.
  obtain ⟨htimed, rfl⟩ := (spans_leU32.cond _).of_done h20 htime
  obtain ⟨hlen, rfl⟩ := ((spans_take _).cond _).of_done htimed hremained
  simp only [decide_eq_true_eq] at hlen h
  rw [Nat.add_assoc 20, ← iframeSkipped_eq] at hlen h
  obtain ⟨hlen, rfl, videoType, rfl⟩ := framePayload_done hlen h
  exact ⟨by rw [List.length_drop]; omega, rfl⟩

/-- A key frame that is accepted takes what it declares exactly if its additional
    header is empty or has room for the time; a frame between key frames always
    does. -/
theorem frame_keepsExtent_iff (buf rest : Bytes) :
    (∀ frame : BcMediaIframe, bcmediaIframe buf = .done rest frame →
      (KeepsExtent buf rest frame.data ↔ wordAt 8 buf = 0 ∨ 4 ≤ wordAt 8 buf)) ∧
    ∀ frame : BcMediaPframe, bcmediaPframe buf = .done rest frame →
      KeepsExtent buf rest frame.data := by
  refine ⟨fun frame h => ?_, fun frame h => bcmediaPframe_done h⟩
  obtain ⟨hlen, hdata⟩ := bcmediaIframe_done h
  constructor
  · intro hkeeps
    have hskipped : iframeSkipped (wordAt 8 buf) = (wordAt 8 buf).toNat := by
      have hconsumed := hkeeps.consumed
      rw [frameExtent] at hconsumed
      omega
    rw [iframeSkipped] at hskipped
    split at hskipped
    · next h4 => exact .inr h4
    · exact .inl (UInt32.toNat_inj.1 hskipped.symm)
  · intro h
    have hskipped : iframeSkipped (wordAt 8 buf) = (wordAt 8 buf).toNat := by
      rw [iframeSkipped]
      obtain h0 | h4 := h
      · rw [h0]
        decide
      · rw [if_pos h4]
    rw [hskipped] at hlen hdata
    exact ⟨by rw [frameExtent, hlen], hdata⟩

/-- A video packet behind its magic: H264, an additional header, a payload with the padding to
    a multiple of 8, and one more byte. -/
def paddedFrame (additionalHeader payload : Bytes) : Bytes :=
  [0x48, 0x32, 0x36, 0x34] ++ [.ofNat payload.length, 0, 0, 0] ++
    [.ofNat additionalHeader.length, 0, 0, 0] ++ [0x10, 0x27, 0, 0] ++ [0, 0, 0, 0] ++
    additionalHeader ++ payload ++ List.replicate ((8 - payload.length % 8) % 8) 0 ++ [0xAA]

/-- A key frame with the time and four more bytes in its additional header, one without an
    additional header, and a frame between key frames whose additional header is one byte. -/
theorem paddedFrame_keepsExtent :
    KeepsExtent (paddedFrame [0x00, 0xe1, 0x0b, 0x5e, 1, 2, 3, 4] [0, 0, 0, 1, 0x65]) [0xAA]
      [0, 0, 0, 1, 0x65] ∧
    KeepsExtent (paddedFrame [] [0, 0, 0, 1, 0x65]) [0xAA] [0, 0, 0, 1, 0x65] ∧
    KeepsExtent (paddedFrame [9] [0, 0, 0, 1, 0x41]) [0xAA] [0, 0, 0, 1, 0x41] := by
  have htimed : bcmediaIframe
      (paddedFrame [0x00, 0xe1, 0x0b, 0x5e, 1, 2, 3, 4] [0, 0, 0, 1, 0x65]) =
        .done [0xAA] ⟨.h264, 10000, some 0x5e0be100, [0, 0, 0, 1, 0x65]⟩ := by
    decide +kernel
  have huntimed : bcmediaIframe (paddedFrame [] [0, 0, 0, 1, 0x65]) =
      .done [0xAA] ⟨.h264, 10000, none, [0, 0, 0, 1, 0x65]⟩ := by
    decide +kernel
  have hpframe : bcmediaPframe (paddedFrame [9] [0, 0, 0, 1, 0x41]) =
      .done [0xAA] ⟨.h264, 10000, [0, 0, 0, 1, 0x41]⟩ := by
    decide +kernel
  exact ⟨((frame_keepsExtent_iff _ _).1 _ htimed).2 (.inr (by decide)),
    ((frame_keepsExtent_iff _ _).1 _ huntimed).2 (.inl (by decide)),
    (frame_keepsExtent_iff _ _).2 _ hpframe⟩

/-- A video packet behind its magic: H264, no payload, an additional header of this
    size, and one more byte. -/
def emptyFrame (additionalHeaderSize : UInt8) : Bytes :=
  [0x48, 0x32, 0x36, 0x34, 0, 0, 0, 0, additionalHeaderSize, 0, 0, 0, 0, 0, 0, 0, 0, 0, 0, 0, 0xAA]

/-- The one byte of the additional header is left over. -/
theorem emptyFrame_not_keepsExtent :
    bcmediaIframe (emptyFrame 1) = .done [0xAA] ⟨.h264, 0, none, []⟩ ∧
    ¬ KeepsExtent (emptyFrame 1) [0xAA] [] := by
  refine ⟨by decide +kernel, fun h => ?_⟩
  have hconsumed := h.consumed
  have hextent : frameExtent (emptyFrame 1) = 21 := by decide
  rw [hextent] at hconsumed
  exact absurd hconsumed (by decide)

/-! ## Headers -/

/-- The header of a packet that is accepted. -/
inductive MediaHeader where
  | infoV1
  | infoV2
  | iframe (magic : UInt32) (videoType : VideoType)
      (payloadSize additionalHeaderSize microseconds unknownB : UInt32)
      (hmagic : isIframeMagic magic = true)
  | pframe (magic : UInt32) (videoType : VideoType)
      (payloadSize additionalHeaderSize microseconds unknownB : UInt32)
      (hmagic : isPframeMagic magic = true)
  | aac (payloadSize payloadSizeB : UInt16)
  | adpcm (payloadSize payloadSizeB halfBlockSize : UInt16)
      (hsize : adpcmSubHeaderSize ≤ payloadSize)

namespace MediaHeader

/-- The header of a video packet with its magic. -/
def videoBytes (magic : UInt32) (videoType : VideoType)
    (payloadSize additionalHeaderSize microseconds unknownB : UInt32) : Bytes :=
  leBytes 4 magic.toNat ++
  (vidString videoType).toUTF8.data.toList ++
  leBytes 4 payloadSize.toNat ++
  leBytes 4 additionalHeaderSize.toNat ++
  leBytes 4 microseconds.toNat ++
  leBytes 4 unknownB.toNat

/-- The header with its magic. -/
def bytes : MediaHeader → Bytes
  | infoV1 => leBytes 4 magicHeaderBcmediaInfoV1.toNat ++ leBytes 4 32
  | infoV2 => leBytes 4 magicHeaderBcmediaInfoV2.toNat ++ leBytes 4 32
  | iframe magic videoType payloadSize additionalHeaderSize microseconds unknownB _ =>
    videoBytes magic videoType payloadSize additionalHeaderSize microseconds unknownB
  | pframe magic videoType payloadSize additionalHeaderSize microseconds unknownB _ =>
    videoBytes magic videoType payloadSize additionalHeaderSize microseconds unknownB
  | aac payloadSize payloadSizeB =>
    leBytes 4 magicHeaderBcmediaAac.toNat ++
    leBytes 2 payloadSize.toNat ++
    leBytes 2 payloadSizeB.toNat
  | adpcm payloadSize payloadSizeB halfBlockSize _ =>
    leBytes 4 magicHeaderBcmediaAdpcm.toNat ++
    leBytes 2 payloadSize.toNat ++
    leBytes 2 payloadSizeB.toNat ++
    leBytes 2 magicHeaderBcmediaAdpcmData.toNat ++
    leBytes 2 halfBlockSize.toNat

/-- The bytes that follow the header. -/
def bodySize : MediaHeader → ℕ
  | infoV1 | infoV2 => 24
  | iframe _ _ payloadSize additionalHeaderSize _ _ _ =>
    iframeSkipped additionalHeaderSize + payloadSize.toNat + (padSize payloadSize).toNat
  | pframe _ _ payloadSize additionalHeaderSize _ _ _ =>
    additionalHeaderSize.toNat + payloadSize.toNat + (padSize payloadSize).toNat
  | aac payloadSize _ => payloadSize.toNat + (padSize payloadSize.toUInt32).toNat
  | adpcm payloadSize _ _ _ =>
    (payloadSize - adpcmSubHeaderSize).toNat + (padSize payloadSize.toUInt32).toNat

/-- The size of the packet. -/
def declared (header : MediaHeader) : ℕ := header.bytes.length + header.bodySize

end MediaHeader

/-- What the decoder holds when it asks for more is less than `bound`. -/
def KeepsBound (bound : ℕ) (src : Bytes) : Prop :=
  ∀ codex : BcMediaCodex, (codex.decode src).2.2 = .ok none →
    (codex.decode src).2.1.length < bound

/-- The most that a header can declare. -/
def largestDeclared : ℕ := 2 ^ 33 + 23

theorem toNat_padSize (size : UInt32) : (padSize size).toNat = (8 - size.toNat % 8) % 8 := by
  have hmod : (size % mediaPadSize).toNat = size.toNat % 8 := UInt32.toNat_mod _ _
  rw [padSize]
  split
  · next h =>
    rw [h] at hmod
    have h0 : (0 : UInt32).toNat = 0 := rfl
    omega
  · next h =>
    have hne : (size % mediaPadSize).toNat ≠ 0 := fun h0 => h (UInt32.toNat_inj.1 h0)
    have hle : size % mediaPadSize ≤ mediaPadSize := by
      rw [UInt32.le_iff_toNat_le, hmod]
      change size.toNat % 8 ≤ 8
      omega
    rw [UInt32.toNat_sub_of_le _ _ hle, hmod]
    change 8 - size.toNat % 8 = _
    omega

/-- A payload with its padding is at most 2^32 bytes long. -/
theorem payload_padSize_le (size : UInt32) : size.toNat + (padSize size).toNat ≤ 2 ^ 32 := by
  have hlt := size.toNat_lt
  rw [toNat_padSize]
  omega

/-- The codec is judged from bytes that were taken. -/
theorem videoTypeOf_needs (str : String) : Needs (videoTypeOf str) 0 :=
  (needs_pure _ 0).ite ((needs_pure _ 0).ite (needs_fail _ 0))

/-- The payload and its padding behind what was skipped. -/
theorem framePayload_needs {α : Type} (size : UInt32) (str : String) (g : VideoType → Bytes → α) :
    Needs (take size.toNat >>= fun data => take (padSize size).toNat >>= fun _ =>
      videoTypeOf str >>= fun videoType => pure (g videoType data)) (2 ^ 32) := by
  have hpad : ∀ data : Bytes, Needs (take (padSize size).toNat >>= fun _ =>
      videoTypeOf str >>= fun videoType => pure (g videoType data)) ((padSize size).toNat + 0) :=
    fun data => (fixed_take _).bind fun _ =>
      (videoTypeOf_needs str).bind_zero fun _ => needs_pure _ 0
  exact ((fixed_take size.toNat).bind hpad).mono (payload_padSize_le size)

/-- The header of a video packet, behind its magic. -/
theorem videoHeader_needs {α : Type} {ok : String → Bool} {text : String} {n : ℕ}
    {p : String → UInt32 → UInt32 → UInt32 → Parser α}
    (hp : ∀ str payloadSize additionalHeaderSize microseconds,
      Needs (p str payloadSize additionalHeaderSize microseconds) n) :
    Needs (context text (take4.verify ok) >>= fun str => leU32 >>= fun payloadSize =>
      leU32 >>= fun additionalHeaderSize => leU32 >>= fun microseconds => leU32 >>= fun _ =>
        p str payloadSize additionalHeaderSize microseconds) (20 + n) := by
  have htype : Fixed (context text (take4.verify ok)) 4 :=
    (((fixed_take 4).mapRes _).verify _).context _
  refine (htype.bind (m := 16 + n) fun str => ?_).mono (by omega)
  refine (fixed_leU32.bind (m := 12 + n) fun payloadSize => ?_).mono (by omega)
  refine (fixed_leU32.bind (m := 8 + n) fun additionalHeaderSize => ?_).mono (by omega)
  refine (fixed_leU32.bind (m := 4 + n) fun microseconds => ?_).mono (by omega)
  exact fixed_leU32.bind fun _ => hp str payloadSize additionalHeaderSize microseconds

theorem bcmediaPframe_needs : Needs bcmediaPframe (20 + (2 ^ 32 - 1 + 2 ^ 32)) := by
  refine videoHeader_needs fun str payloadSize additionalHeaderSize microseconds => ?_
  have hlt := additionalHeaderSize.toNat_lt
  exact ((fixed_take _).bind fun _ => framePayload_needs payloadSize str _).mono (by omega)

theorem bcmediaIframe_needs : Needs bcmediaIframe (20 + (2 ^ 32 - 1 + 2 ^ 32)) := by
  refine videoHeader_needs fun str payloadSize additionalHeaderSize microseconds => ?_
  have htime := fixed_leU32.cond (4 ≤ additionalHeaderSize)
  have hremained := (fixed_take (additionalHeaderSize - 4).toNat).cond (4 < additionalHeaderSize)
  simp only [decide_eq_true_eq] at htime hremained
  have hskipped := iframeSkipped_eq additionalHeaderSize
  have hle := iframeSkipped_le additionalHeaderSize
  have hlt := additionalHeaderSize.toNat_lt
  refine (htime.bind fun time => hremained.bind fun _ =>
    framePayload_needs payloadSize str _).mono ?_
  rw [← Nat.add_assoc, ← hskipped]
  omega

/-- A description of a stream has a fixed size. -/
theorem bcmediaInfo_needs (text : String) : Needs (bcmediaInfo text) 28 := by
  have hinfo : ∀ v : BcMediaInfo, Needs (leU16 >>= fun _ => (pure v : Parser BcMediaInfo)) 2 :=
    fun v => fixed_leU16.bind fun _ => needs_pure v 0
  refine ((fixed_leU32.verify _).context _).bind (m := 24) fun _ => ?_
  refine fixed_leU32.bind (m := 20) fun _ => fixed_leU32.bind (m := 16) fun _ => ?_
  refine fixed_leU8.bind (m := 15) fun _ => fixed_leU8.bind (m := 14) fun _ => ?_
  refine fixed_leU8.bind (m := 13) fun _ => fixed_leU8.bind (m := 12) fun _ => ?_
  refine fixed_leU8.bind (m := 11) fun _ => fixed_leU8.bind (m := 10) fun _ => ?_
  refine fixed_leU8.bind (m := 9) fun _ => fixed_leU8.bind (m := 8) fun _ => ?_
  refine fixed_leU8.bind (m := 7) fun _ => fixed_leU8.bind (m := 6) fun _ => ?_
  refine fixed_leU8.bind (m := 5) fun _ => fixed_leU8.bind (m := 4) fun _ => ?_
  refine fixed_leU8.bind (m := 3) fun _ => fixed_leU8.bind (m := 2) fun _ => ?_
  exact hinfo _

/-- Lengths of audio are small, but the parser only knows that they fit in a word. -/
theorem bcmediaAac_needs : Needs bcmediaAac (4 + 2 ^ 32) := by
  refine (fixed_leU16.bind (m := 2 + 2 ^ 32) fun payloadSize => ?_).mono (by omega)
  refine fixed_leU16.bind fun _ => ?_
  have hsize : payloadSize.toNat = payloadSize.toUInt32.toNat := payloadSize.toNat_toUInt32.symm
  refine Needs.mono ?_ (hsize ▸ payload_padSize_le payloadSize.toUInt32)
  exact ((spans_take _).bind fun _ => (spans_take _).bind fun _ => spans_pure _).needs

theorem bcmediaAdpcm_needs : Needs bcmediaAdpcm (8 + 2 ^ 32) := by
  refine (((fixed_leU16.verify _).context _).bind (m := 6 + 2 ^ 32) fun payloadSize => ?_).mono
    (by omega)
  refine (fixed_leU16.bind (m := 4 + 2 ^ 32) fun _ => ?_).mono (by omega)
  refine (((fixed_leU16.verify _).context _).bind (m := 2 + 2 ^ 32) fun _ => ?_).mono (by omega)
  refine fixed_leU16.bind fun _ => ?_
  have hle := payload_padSize_le payloadSize.toUInt32
  have hsize : payloadSize.toUInt32.toNat = payloadSize.toNat := payloadSize.toNat_toUInt32
  have hblock : (payloadSize - adpcmSubHeaderSize).toNat < 2 ^ 16 := UInt16.toNat_lt _
  have hpad := toNat_padSize payloadSize.toUInt32
  refine Needs.mono ((spans_take _).bind fun _ => (spans_take _).bind fun _ =>
    spans_pure _).needs ?_
  omega

/-- The parser waits for less than the most that a header can declare. -/
theorem BcMedia.deserialize_needs : Needs BcMedia.deserialize largestDeclared := by
  have hbody : ∀ magic, Needs (bcmediaBody magic) (19 + 2 ^ 33) := fun magic => by
    have hmono := fun {α : Type} {p : Parser α} {n : ℕ} (hp : Needs p n) (g : α → BcMedia)
      (hn : n ≤ 19 + 2 ^ 33) => (hp.bind_zero fun v => needs_pure (g v) 0).mono hn
    exact (hmono (bcmediaInfo_needs _) _ (by omega)).ite <|
      (hmono (bcmediaInfo_needs _) _ (by omega)).ite <|
      (hmono bcmediaIframe_needs _ (by omega)).ite <|
      (hmono bcmediaPframe_needs _ (by omega)).ite <|
      (hmono bcmediaAac_needs _ (by omega)).ite <|
      (hmono bcmediaAdpcm_needs _ (by omega)).ite (needs_fail _ _)
  have hmagic : Fixed (context "Failed to match any known bcmedia"
    (leU32.verify isBcmediaMagic)) 4 := (fixed_leU32.verify _).context _
  exact (hmagic.bind hbody).mono (by rw [largestDeclared]; omega)

/-! ## Behind a header -/

/-- The payload, its padding, and what is made of it. -/
theorem framePayload_spans {α : Type} (size : UInt32) (videoType : VideoType)
    (g : VideoType → Bytes → α) :
    Spans (take size.toNat >>= fun data => take (padSize size).toNat >>= fun _ =>
      videoTypeOf (vidString videoType) >>= fun videoType => pure (g videoType data))
      (size.toNat + (padSize size).toNat) := by
  refine (spans_take _).bind fun data => (spans_take _).bind (m := 0) fun _ => ?_
  rw [videoTypeOf_vidString]
  exact spans_pure _

/-- Behind a video header whatever its parser takes is still to come. -/
theorem videoHeader_spansBehind {α : Type} {text : String} {magic : UInt32} {n : ℕ}
    (videoType : VideoType) (payloadSize additionalHeaderSize microseconds unknownB : UInt32)
    {p : String → UInt32 → UInt32 → UInt32 → Parser α}
    (hp : Spans (p (vidString videoType) payloadSize additionalHeaderSize microseconds) n) :
    ∃ bytes, MediaHeader.videoBytes magic videoType payloadSize additionalHeaderSize microseconds
        unknownB = leBytes 4 magic.toNat ++ bytes ∧
      SpansBehind (context text (take4.verify fun x => x = "H264" || x = "H265") >>= fun str =>
        leU32 >>= fun payloadSize => leU32 >>= fun additionalHeaderSize =>
          leU32 >>= fun microseconds => leU32 >>= fun _ =>
            p str payloadSize additionalHeaderSize microseconds) bytes n := by
  refine ⟨_, by rw [MediaHeader.videoBytes]; simp only [List.append_assoc]; rfl, ?_⟩
  refine ((take4_yields videoType).context _).spansBehind ?_
  refine (yields_leU32 payloadSize).spansBehind ?_
  refine (yields_leU32 additionalHeaderSize).spansBehind ?_
  refine (yields_leU32 microseconds).spansBehind ?_
  rw [← List.append_nil (leBytes 4 unknownB.toNat)]
  exact (yields_leU32 unknownB).spansBehind hp

/-- A key frame takes what it skips, its payload and the padding. -/
theorem bcmediaIframe_spansBehind {magic : UInt32} (videoType : VideoType)
    (payloadSize additionalHeaderSize microseconds unknownB : UInt32) :
    ∃ bytes, MediaHeader.videoBytes magic videoType payloadSize additionalHeaderSize microseconds
        unknownB = leBytes 4 magic.toNat ++ bytes ∧
      SpansBehind bcmediaIframe bytes
        (iframeSkipped additionalHeaderSize + payloadSize.toNat + (padSize payloadSize).toNat) := by
  refine videoHeader_spansBehind videoType payloadSize additionalHeaderSize microseconds unknownB ?_
  rw [iframeSkipped_eq, Nat.add_assoc, Nat.add_assoc]
  have htime := spans_leU32.cond (4 ≤ additionalHeaderSize)
  have hremained := (spans_take (additionalHeaderSize - 4).toNat).cond (4 < additionalHeaderSize)
  simp only [decide_eq_true_eq] at htime hremained
  exact htime.bind fun time => hremained.bind fun _ => framePayload_spans payloadSize videoType _

/-- A frame between key frames takes the whole additional header. -/
theorem bcmediaPframe_spansBehind {magic : UInt32} (videoType : VideoType)
    (payloadSize additionalHeaderSize microseconds unknownB : UInt32) :
    ∃ bytes, MediaHeader.videoBytes magic videoType payloadSize additionalHeaderSize microseconds
        unknownB = leBytes 4 magic.toNat ++ bytes ∧
      SpansBehind bcmediaPframe bytes
        (additionalHeaderSize.toNat + payloadSize.toNat + (padSize payloadSize).toNat) := by
  refine videoHeader_spansBehind videoType payloadSize additionalHeaderSize microseconds unknownB ?_
  rw [Nat.add_assoc]
  exact (spans_take _).bind fun _ => framePayload_spans payloadSize videoType _

/-- The second length in the header of AAC is not looked at. -/
theorem bcmediaAac_spansBehind (payloadSize payloadSizeB : UInt16) :
    SpansBehind bcmediaAac (leBytes 2 payloadSize.toNat ++ leBytes 2 payloadSizeB.toNat)
      (payloadSize.toNat + (padSize payloadSize.toUInt32).toNat) := by
  rw [← List.append_nil (leBytes 2 payloadSizeB.toNat)]
  refine (yields_leU16 payloadSize).spansBehind ((yields_leU16 payloadSizeB).spansBehind ?_)
  exact (spans_take _).bind fun data => (spans_take _).bind (m := 0) fun _ => spans_pure _

/-- Of ADPCM the sub-header is part of the length that the header gives. -/
theorem bcmediaAdpcm_spansBehind (payloadSize payloadSizeB halfBlockSize : UInt16)
    (hsize : adpcmSubHeaderSize ≤ payloadSize) :
    SpansBehind bcmediaAdpcm (leBytes 2 payloadSize.toNat ++ (leBytes 2 payloadSizeB.toNat ++
        (leBytes 2 magicHeaderBcmediaAdpcmData.toNat ++ leBytes 2 halfBlockSize.toNat)))
      ((payloadSize - adpcmSubHeaderSize).toNat + (padSize payloadSize.toUInt32).toNat) := by
  rw [← List.append_nil (leBytes 2 halfBlockSize.toNat)]
  have hmagic : (decide (magicHeaderBcmediaAdpcmData = magicHeaderBcmediaAdpcmData)) = true :=
    decide_eq_true rfl
  refine (((yields_leU16 payloadSize).verify (decide_eq_true hsize)).context _).spansBehind ?_
  refine (yields_leU16 payloadSizeB).spansBehind ?_
  refine (((yields_leU16 magicHeaderBcmediaAdpcmData).verify hmagic).context _).spansBehind ?_
  refine (yields_leU16 halfBlockSize).spansBehind ?_
  exact (spans_take _).bind fun data => (spans_take _).bind (m := 0) fun _ => spans_pure _

/-- The size that a description gives of itself has to be right, so 24 bytes are left. -/
theorem bcmediaInfo_spansBehind (text : String) :
    SpansBehind (bcmediaInfo text) (leBytes 4 32) 24 := by
  have hsize : Yields (context text (leU32.verify fun x => x = 32)) (leBytes 4 32) 32 :=
    ((yields_leU32 32).verify (by decide)).context text
  rw [← List.append_nil (leBytes 4 32)]
  refine hsize.spansBehind ?_
  exact spans_leU32.bind fun _ => spans_leU32.bind fun _ => spans_leU8.bind fun _ =>
    spans_leU8.bind fun _ => spans_leU8.bind fun _ => spans_leU8.bind fun _ =>
    spans_leU8.bind fun _ => spans_leU8.bind fun _ => spans_leU8.bind fun _ =>
    spans_leU8.bind fun _ => spans_leU8.bind fun _ => spans_leU8.bind fun _ =>
    spans_leU8.bind fun _ => spans_leU8.bind fun _ => spans_leU8.bind fun _ =>
    spans_leU8.bind fun _ => spans_leU16.bind fun _ => spans_pure _

/-- Every magic of a key frame is read as one. -/
theorem bcmediaBody_iframe {magic : UInt32} (h : isIframeMagic magic = true) :
    bcmediaBody magic = bcmediaIframe >>= fun payload => pure (.iframe payload) := by
  have hne : ∀ other, isIframeMagic other = false → magic ≠ other := by
    rintro other hother rfl
    exact nomatch h.symm.trans hother
  rw [bcmediaBody, if_neg (hne _ (by decide)), if_neg (hne _ (by decide)), if_pos h]

/-- Every magic of another frame is read as one. -/
theorem bcmediaBody_pframe {magic : UInt32} (h : isPframeMagic magic = true) :
    bcmediaBody magic = bcmediaPframe >>= fun payload => pure (.pframe payload) := by
  have hne : ∀ other, isPframeMagic other = false → magic ≠ other := by
    rintro other hother rfl
    exact nomatch h.symm.trans hother
  have hiframe : ¬ isIframeMagic magic = true := by
    rw [isPframeMagic, Bool.and_eq_true, decide_eq_true_eq, decide_eq_true_eq,
      UInt32.le_iff_toNat_le] at h
    rw [isIframeMagic, Bool.and_eq_true, decide_eq_true_eq, decide_eq_true_eq,
      UInt32.le_iff_toNat_le, UInt32.le_iff_toNat_le]
    have hlast : magicHeaderBcmediaIframeLast.toNat < magicHeaderBcmediaPframe.toNat := by decide
    omega
  rw [bcmediaBody, if_neg (hne _ (by decide)), if_neg (hne _ (by decide)), if_neg hiframe,
    if_pos h]

namespace MediaHeader

/-- Behind a header that is accepted, the parser takes what was declared, and
    waits for it. -/
theorem spansBehind (header : MediaHeader) :
    SpansBehind BcMedia.deserialize header.bytes header.bodySize := by
  have hmagic : ∀ {α : Type} {magic : UInt32} {p : Parser α} {g : α → BcMedia} {bytes : Bytes}
      {n : ℕ}, isBcmediaMagic magic = true → bcmediaBody magic = (p >>= fun v => pure (g v)) →
      SpansBehind p bytes n →
      SpansBehind BcMedia.deserialize (leBytes 4 magic.toNat ++ bytes) n := by
    intro α magic p g bytes n hmagic hbody hp
    refine (((yields_leU32 magic).verify hmagic).context _).spansBehind ?_
    rw [hbody]
    refine ⟨fun h => ?_, fun h => ?_⟩
    · obtain ⟨v, hv⟩ := Spans.done hp h
      exact ⟨g v, by rw [bind_of_done hv]; rfl⟩
    · obtain ⟨needed, hv⟩ := Spans.waits hp h
      exact ⟨needed, bind_of_incomplete hv⟩
  cases header with
  | infoV1 => exact hmagic (by decide) rfl (bcmediaInfo_spansBehind _)
  | infoV2 => exact hmagic (by decide) rfl (bcmediaInfo_spansBehind _)
  | iframe magic videoType payloadSize additionalHeaderSize microseconds unknownB h =>
    obtain ⟨bytes, hbytes, hp⟩ := bcmediaIframe_spansBehind videoType payloadSize
      additionalHeaderSize microseconds unknownB
    rw [MediaHeader.bytes, hbytes]
    exact hmagic (by rw [isBcmediaMagic, h]; simp) (bcmediaBody_iframe h) hp
  | pframe magic videoType payloadSize additionalHeaderSize microseconds unknownB h =>
    obtain ⟨bytes, hbytes, hp⟩ := bcmediaPframe_spansBehind videoType payloadSize
      additionalHeaderSize microseconds unknownB
    rw [MediaHeader.bytes, hbytes]
    exact hmagic (by rw [isBcmediaMagic, h]; simp) (bcmediaBody_pframe h) hp
  | aac payloadSize payloadSizeB =>
    rw [MediaHeader.bytes, List.append_assoc]
    exact hmagic (by decide) rfl (bcmediaAac_spansBehind payloadSize payloadSizeB)
  | adpcm payloadSize payloadSizeB halfBlockSize hsize =>
    rw [MediaHeader.bytes]
    simp only [List.append_assoc]
    exact hmagic (by decide) rfl (bcmediaAdpcm_spansBehind payloadSize payloadSizeB _ hsize)

end MediaHeader

/-! ## What the decoder holds -/

/-- A decoder that waits for more keeps what it has. -/
theorem decode_of_incomplete {codex : BcMediaCodex} {src : Bytes} {needed : ℕ}
    (h : BcMedia.deserialize src = .incomplete needed) :
    codex.decode src = (codex.restored, src, .ok none) := by
  rw [BcMediaCodex.decode, h]

/-- When the decoder asks for more, either the parser does, or nothing is held. -/
theorem decode_none {codex : BcMediaCodex} {src : Bytes} (h : (codex.decode src).2.2 = .ok none) :
    (∃ needed, BcMedia.deserialize src = .incomplete needed) ∨ (codex.decode src).2.1 = [] := by
  cases hp : BcMedia.deserialize src with
  | done rest v =>
    rw [BcMediaCodex.decode, hp] at h
    cases h
  | incomplete needed => exact .inl ⟨needed, rfl⟩
  | error trace =>
    right
    rw [BcMediaCodex.decode, hp] at h ⊢
    dsimp only at h ⊢
    split at h
    · cases h
    · next hstrict =>
      rw [if_neg hstrict]
      split
      · next hsrc => exact hsrc
      · -- The rejected bytes are dropped, and the parser asks for the next magic.
        obtain ⟨needed, hidle⟩ := BcMedia.deserialize_framing.idle
        rw [decode_of_incomplete hidle]

/-- A video header has six words behind its magic and its codec. -/
theorem length_videoBytes (magic : UInt32) (videoType : VideoType)
    (payloadSize additionalHeaderSize microseconds unknownB : UInt32) :
    (MediaHeader.videoBytes magic videoType payloadSize additionalHeaderSize microseconds
      unknownB).length = 24 := by
  have hlen : (vidString videoType).toUTF8.data.toList.length = 4 := by
    cases videoType <;> decide +kernel
  simp only [MediaHeader.videoBytes, List.length_append, length_leBytes, hlen]

/-- A header is not empty, and no longer than that of video. -/
theorem MediaHeader.length_bytes (header : MediaHeader) :
    0 < header.bytes.length ∧ header.bytes.length ≤ 24 := by
  cases header <;>
    simp only [bytes, length_videoBytes, List.length_append, length_leBytes] <;> omega

/-- Some of what a header declares, and not all of it, is held. -/
theorem not_keepsBound {header : MediaHeader} {bound n : ℕ} (hn : n < header.bodySize)
    (hbound : bound ≤ header.bytes.length + n) :
    ¬ KeepsBound bound (header.bytes ++ List.replicate n 0) := by
  intro h
  obtain ⟨needed, hneeded⟩ := Spans.waits header.spansBehind
    (show (List.replicate n (0 : UInt8)).length < _ by rwa [List.length_replicate])
  have hkept := h (.new true)
  rw [decode_of_incomplete hneeded, List.length_append, List.length_replicate] at hkept
  exact absurd (hkept rfl) (Nat.not_lt.2 hbound)

/-- The header of a frame that declares as much as possible. -/
def largestHeader : MediaHeader :=
  .pframe magicHeaderBcmediaPframe .h264 0xFFFFFFFF 0xFFFFFFFF 0 0 (by decide)

theorem length_largestHeader : largestHeader.bytes.length = 24 :=
  length_videoBytes _ _ _ _ _ _

theorem bodySize_largestHeader : largestHeader.bodySize = 2 ^ 33 - 1 := by decide

theorem declared_largestHeader : largestHeader.declared = largestDeclared := by
  rw [MediaHeader.declared, length_largestHeader, bodySize_largestHeader, largestDeclared]
  omega

/-- The bound of what is held is the largest size that any header declares. -/
theorem keepsBound_iff {bound : ℕ} :
    (∀ src, KeepsBound bound src) ↔ largestDeclared ≤ bound := by
  constructor
  · intro h
    by_contra hlt
    have hlargest := declared_largestHeader
    rw [MediaHeader.declared] at hlargest
    have hpos : 0 < largestHeader.bodySize := by rw [bodySize_largestHeader]; omega
    have hlast := h (largestHeader.bytes ++ List.replicate (largestHeader.bodySize - 1) 0)
    exact not_keepsBound (by omega) (by omega) hlast
  · intro hbound src codex hnone
    obtain ⟨needed, hneeded⟩ | hheld := decode_none hnone
    · rw [decode_of_incomplete hneeded]
      exact (BcMedia.deserialize_needs _ _ hneeded).trans_le hbound
    · rw [hheld]
      exact Nat.lt_of_lt_of_le (by decide) hbound

/-- For one header it is what this one declares. -/
theorem keepsBound_behind_iff {header : MediaHeader} {bound : ℕ}
    (hheader : header.bytes.length ≤ bound) :
    (∀ body, KeepsBound bound (header.bytes ++ body)) ↔ header.declared ≤ bound := by
  rw [MediaHeader.declared]
  constructor
  · intro h
    by_contra hlt
    have hlast := h (List.replicate (bound - header.bytes.length) 0)
    exact not_keepsBound (by omega) (by omega) hlast
  · intro hbound body codex hnone
    obtain ⟨needed, hneeded⟩ | hheld := decode_none hnone
    · rw [decode_of_incomplete hneeded, List.length_append]
      have hlt := header.spansBehind.needs body needed hneeded
      omega
    · rw [hheld]
      exact header.length_bytes.1.trans_le hheader

/-- All that the decoder holds when it asks for more is less than `bound` exactly
    if no header can declare more than that; behind a header, exactly if it does
    not. -/
theorem decode_kept_iff (bound : ℕ) :
    ((∀ src, KeepsBound bound src) ↔ largestDeclared ≤ bound) ∧
    ∀ header : MediaHeader, header.bytes.length ≤ bound →
      ((∀ body, KeepsBound bound (header.bytes ++ body)) ↔ header.declared ≤ bound) :=
  ⟨keepsBound_iff, fun _ hheader => keepsBound_behind_iff hheader⟩

/-- With the bound of messages, a packet of sound is kept, and not all streams
    are. -/
theorem decode_kept_messages :
    (¬ ∀ src, KeepsBound maxBcBodyLen.toNat src) ∧
    ∀ body, KeepsBound maxBcBodyLen.toNat ((MediaHeader.aac 65535 65535).bytes ++ body) := by
  have hmax : maxBcBodyLen.toNat = 8 * 1024 * 1024 := by decide
  obtain ⟨hall, hheader⟩ := decode_kept_iff maxBcBodyLen.toNat
  refine ⟨fun h => ?_, (hheader _ ?_).2 ?_⟩
  · have hle := hall.1 h
    rw [largestDeclared] at hle
    omega
  · rw [hmax]
    decide
  · rw [hmax]
    decide

theorem MediaHeader.declared_le (header : MediaHeader) : header.declared ≤ largestDeclared := by
  have hkeeps := keepsBound_iff.2 (le_refl largestDeclared)
  have hlen : header.bytes.length ≤ largestDeclared :=
    header.length_bytes.2.trans (by rw [largestDeclared]; omega)
  exact (keepsBound_behind_iff hlen).1 fun body => hkeeps _

/-- `bound` caps what is buffered: a header that declares more is rejected as soon
    as it is read, and there are such headers. -/
structure Caps (bound : ℕ) : Prop where
  exceedable : ∃ header : MediaHeader, bound < header.declared
  rejects : ∀ header : MediaHeader, bound < header.declared →
    ∀ codex : BcMediaCodex, (codex.decode header.bytes).2.2 ≠ .ok none
  keeps : ∀ src, KeepsBound bound src

/-- No bound is a cap. In particular, neither is that of messages: with a header
    of 24 bytes, it is reached. -/
theorem not_caps :
    (¬ ∃ bound, Caps bound) ∧
    ¬ KeepsBound maxBcBodyLen.toNat
      (largestHeader.bytes ++ List.replicate (maxBcBodyLen.toNat - 24) 0) := by
  constructor
  · rintro ⟨bound, h⟩
    obtain ⟨header, hheader⟩ := h.exceedable
    have hbound := keepsBound_iff.1 h.keeps
    exact absurd (header.declared_le.trans hbound) (Nat.not_le.2 hheader)
  · have hmax : maxBcBodyLen.toNat = 8 * 1024 * 1024 := by decide
    rw [hmax]
    exact not_keepsBound (by rw [bodySize_largestHeader]; omega)
      (by rw [length_largestHeader])

end Bairelay
