import Bairelay.Media.Frame
import Bairelay.Lib.Streaming

/-!
# Reading media packets

The parser of `bcmedia/de.rs`. A packet starts with a magic that says its kind;
the payload of all but the first two kinds is padded to a multiple of 8 bytes.

* `BcMedia.deserialize_streams`: what follows a packet does not matter to it;
* `BcMedia.deserialize_progress`: a packet takes at least its magic.
-/

namespace Bairelay

open Streaming Parser

/-- `1001` as text. -/
def magicHeaderBcmediaInfoV1 : UInt32 := 0x31303031

/-- `1002` as text. -/
def magicHeaderBcmediaInfoV2 : UInt32 := 0x32303031

/-- The magics of video packets include the channel. -/
def magicHeaderBcmediaIframe : UInt32 := 0x63643030

/-- Key frames have ten magics, one for each channel. -/
def magicHeaderBcmediaIframeLast : UInt32 := 0x63643039

/-- `01dc` as text. -/
def magicHeaderBcmediaPframe : UInt32 := 0x63643130

/-- Like key frames, these have ten. -/
def magicHeaderBcmediaPframeLast : UInt32 := 0x63643139

/-- `05wb` as text. -/
def magicHeaderBcmediaAac : UInt32 := 0x62773530

/-- `01wb` as text. -/
def magicHeaderBcmediaAdpcm : UInt32 := 0x62773130

/-- In front of the data of a block. -/
def magicHeaderBcmediaAdpcmData : UInt16 := 0x0100

/-- The size payloads are padded to a multiple of. -/
def mediaPadSize : UInt32 := 8

/-- The padding of a payload. -/
def padSize (payloadSize : UInt32) : UInt32 :=
  if payloadSize % mediaPadSize = 0 then 0 else mediaPadSize - payloadSize % mediaPadSize

/-- The trace of an error of the dispatch. -/
def makeDispatchError (text : String) : List Streaming.Frame := [.kind .switch, .context text]

/-- Both kinds of information have the same layout; `text` is what to say if the
    size of the header is not the one expected. -/
def bcmediaInfo (text : String) : Parser BcMediaInfo := do
  let _headerSize ← context text (leU32.verify fun x => x = 32)
  let videoWidth ← leU32
  let videoHeight ← leU32
  let _unknown ← leU8
  let fps ← leU8
  let startYear ← leU8
  let startMonth ← leU8
  let startDay ← leU8
  let startHour ← leU8
  let startMin ← leU8
  let startSeconds ← leU8
  let endYear ← leU8
  let endMonth ← leU8
  let endDay ← leU8
  let endHour ← leU8
  let endMin ← leU8
  let endSeconds ← leU8
  let _unknownB ← leU16
  pure { videoWidth, videoHeight, fps, startYear, startMonth, startDay, startHour, startMin,
         startSeconds, endYear, endMonth, endDay, endHour, endMin, endSeconds }

/-- The older description of a stream. -/
def bcmediaInfoV1 : Parser BcMediaInfo := bcmediaInfo "Header size mismatch in BCMedia InfoV1"

/-- The newer one differs in its magic only. -/
def bcmediaInfoV2 : Parser BcMediaInfo :=
  bcmediaInfo "Failed to match headersize in BCMedia Info V2"

/-- 4 bytes of text. -/
def take4 : Parser String := (take 4).mapRes fun r => String.fromUTF8? ⟨r.toArray⟩

/-- The video type of this name. -/
def videoTypeOf (videoTypeStr : String) : Parser VideoType :=
  if videoTypeStr = "H264" then pure .h264
  else if videoTypeStr = "H265" then pure .h265
  else fail (makeDispatchError "BcMedia video_type_str mismatch (verify and match diverged)")

/-- The additional header of a key frame holds the time, and maybe more. -/
def bcmediaIframe : Parser BcMediaIframe := do
  let videoTypeStr ← context "Video Type is unrecognised in IFrame"
    (take4.verify fun x => x = "H264" || x = "H265")
  let payloadSize ← leU32
  let additionalHeaderSize ← leU32
  let microseconds ← leU32
  let _unknownB ← leU32
  let time ← cond (4 ≤ additionalHeaderSize) leU32
  let _unknownRemained ← cond (4 < additionalHeaderSize) (take (additionalHeaderSize - 4).toNat)
  let data ← take payloadSize.toNat
  let _padding ← take (padSize payloadSize).toNat
  let videoType ← videoTypeOf videoTypeStr
  pure { videoType, microseconds, time, data }

/-- A frame between key frames: the additional header is skipped, whatever it holds. -/
def bcmediaPframe : Parser BcMediaPframe := do
  let videoTypeStr ← context "Video Type is unrecognised in PFrame"
    (take4.verify fun x => x = "H264" || x = "H265")
  let payloadSize ← leU32
  let additionalHeaderSize ← leU32
  let microseconds ← leU32
  let _unknownB ← leU32
  let _additionalHeader ← take additionalHeaderSize.toNat
  let data ← take payloadSize.toNat
  let _padding ← take (padSize payloadSize).toNat
  let videoType ← videoTypeOf videoTypeStr
  pure { videoType, microseconds, data }

/-- AAC in an ADTS frame, with padding to a multiple of 8. -/
def bcmediaAac : Parser BcMediaAac := do
  let payloadSize ← leU16
  let _payloadSizeB ← leU16
  let data ← take payloadSize.toNat
  let _padding ← take (padSize payloadSize.toUInt32).toNat
  pure { data }

/-- The magic and the half-block size in front of the data. -/
def adpcmSubHeaderSize : UInt16 := 4

/-- The size of the payload includes the magic and the size of half a block. -/
def bcmediaAdpcm : Parser BcMediaAdpcm := do
  let payloadSize ← context "ADPCM payload_size shorter than sub-header"
    (leU16.verify fun n => adpcmSubHeaderSize ≤ n)
  let _payloadSizeB ← leU16
  let _magic ← context "ADPCM data magic value is invalid"
    (leU16.verify fun x => x = magicHeaderBcmediaAdpcmData)
  let _halfBlockSize ← leU16
  let blockSize := payloadSize - adpcmSubHeaderSize
  let data ← take blockSize.toNat
  let _padding ← take (padSize payloadSize.toUInt32).toNat
  pure { data }

/-- One of the ten magics of key frames. -/
def isIframeMagic (magic : UInt32) : Bool :=
  magicHeaderBcmediaIframe ≤ magic && magic ≤ magicHeaderBcmediaIframeLast

/-- One of the ten magics of other frames. -/
def isPframeMagic (magic : UInt32) : Bool :=
  magicHeaderBcmediaPframe ≤ magic && magic ≤ magicHeaderBcmediaPframeLast

/-- A magic of any variant. -/
def isBcmediaMagic (magic : UInt32) : Bool :=
  magic = magicHeaderBcmediaInfoV1 || magic = magicHeaderBcmediaInfoV2 || isIframeMagic magic ||
    isPframeMagic magic || magic = magicHeaderBcmediaAac || magic = magicHeaderBcmediaAdpcm

/-- What follows this magic. -/
def bcmediaBody (magic : UInt32) : Parser BcMedia :=
  if magic = magicHeaderBcmediaInfoV1 then bcmediaInfoV1 >>= fun payload => pure (.infoV1 payload)
  else if magic = magicHeaderBcmediaInfoV2 then
    bcmediaInfoV2 >>= fun payload => pure (.infoV2 payload)
  else if isIframeMagic magic then bcmediaIframe >>= fun payload => pure (.iframe payload)
  else if isPframeMagic magic then bcmediaPframe >>= fun payload => pure (.pframe payload)
  else if magic = magicHeaderBcmediaAac then bcmediaAac >>= fun payload => pure (.aac payload)
  else if magic = magicHeaderBcmediaAdpcm then
    bcmediaAdpcm >>= fun payload => pure (.adpcm payload)
  else fail (makeDispatchError "BcMedia magic dispatch mismatch (verify and match diverged)")

/-- A packet: the magic decides what follows. -/
def bcmedia : Parser BcMedia := do
  let magic ← context "Failed to match any known bcmedia" (leU32.verify isBcmediaMagic)
  bcmediaBody magic

/-- Read a packet off the front of the buffer. If that is not possible, the
    buffer stays as it is. -/
def BcMedia.deserialize : Parser BcMedia := bcmedia

/-! ## Streaming -/

/-- As long as the header is not complete, more is asked for. -/
theorem bcmediaInfo_streams (text : String) : Streams (bcmediaInfo text) :=
  ((streams_leU32.verify _).context _).bind fun _ =>
  streams_leU32.bind fun _ => streams_leU32.bind fun _ =>
  streams_leU8.bind fun _ => streams_leU8.bind fun _ =>
  streams_leU8.bind fun _ => streams_leU8.bind fun _ => streams_leU8.bind fun _ =>
  streams_leU8.bind fun _ => streams_leU8.bind fun _ => streams_leU8.bind fun _ =>
  streams_leU8.bind fun _ => streams_leU8.bind fun _ => streams_leU8.bind fun _ =>
  streams_leU8.bind fun _ => streams_leU8.bind fun _ => streams_leU8.bind fun _ =>
  streams_leU16.bind fun _ => streams_pure _

theorem take4_streams : Streams take4 := (streams_take 4).mapRes _

theorem videoTypeOf_streams (videoTypeStr : String) : Streams (videoTypeOf videoTypeStr) :=
  (streams_pure _).ite ((streams_pure _).ite (streams_fail _))

/-- A key frame that is cut off is never an error, only incomplete. -/
theorem bcmediaIframe_streams : Streams bcmediaIframe :=
  ((take4_streams.verify _).context _).bind fun _ =>
  streams_leU32.bind fun _ => streams_leU32.bind fun _ =>
  streams_leU32.bind fun _ => streams_leU32.bind fun _ =>
  (streams_leU32.cond _).bind fun _ => ((streams_take _).cond _).bind fun _ =>
  (streams_take _).bind fun _ => (streams_take _).bind fun _ =>
  (videoTypeOf_streams _).bind fun _ => streams_pure _

theorem bcmediaPframe_streams : Streams bcmediaPframe :=
  ((take4_streams.verify _).context _).bind fun _ =>
  streams_leU32.bind fun _ => streams_leU32.bind fun _ =>
  streams_leU32.bind fun _ => streams_leU32.bind fun _ =>
  (streams_take _).bind fun _ => (streams_take _).bind fun _ => (streams_take _).bind fun _ =>
  (videoTypeOf_streams _).bind fun _ => streams_pure _

theorem bcmediaAac_streams : Streams bcmediaAac :=
  streams_leU16.bind fun _ => streams_leU16.bind fun _ =>
  (streams_take _).bind fun _ => (streams_take _).bind fun _ => streams_pure _

theorem bcmediaAdpcm_streams : Streams bcmediaAdpcm :=
  ((streams_leU16.verify _).context _).bind fun _ =>
  streams_leU16.bind fun _ => ((streams_leU16.verify _).context _).bind fun _ =>
  streams_leU16.bind fun _ =>
  (streams_take _).bind fun _ => (streams_take _).bind fun _ => streams_pure _

/-- No packet is judged by a part of it, whatever its magic. -/
theorem bcmediaBody_streams (magic : UInt32) : Streams (bcmediaBody magic) :=
  ((bcmediaInfo_streams _).bind fun _ => streams_pure _).ite <|
  ((bcmediaInfo_streams _).bind fun _ => streams_pure _).ite <|
  (bcmediaIframe_streams.bind fun _ => streams_pure _).ite <|
  (bcmediaPframe_streams.bind fun _ => streams_pure _).ite <|
  (bcmediaAac_streams.bind fun _ => streams_pure _).ite <|
  (bcmediaAdpcm_streams.bind fun _ => streams_pure _).ite (streams_fail _)

/-- More bytes behind a packet do not change how it is read. -/
theorem BcMedia.deserialize_streams : Streams deserialize :=
  ((streams_leU32.verify _).context _).bind bcmediaBody_streams

/-- A packet takes at least its magic. -/
theorem BcMedia.deserialize_progress {buf rest : Bytes} {v : BcMedia}
    (h : deserialize buf = .done rest v) : rest.length < buf.length := by
  have hreads : Reads deserialize fun n _ => 4 ≤ n :=
    ((reads_leU32.verify _).context _).bind fun n magic hn =>
      (bcmediaBody_streams magic).reads.mono fun k _ _ => by omega
  obtain ⟨n, hlen, hn⟩ := hreads _ _ _ h
  omega

end Bairelay
