import Bairelay.Codec.Nal

/-!
# Media packets and frames

What a camera sends (`bcmedia/model.rs`), and what goes to the subscribers of a
stream: frames (`rtsp/provider.rs`), the parameters announced for them
(`rtsp/sdp.rs`), and the burst a new subscriber starts with
(`rtsp/buffer.rs`).
-/

namespace Bairelay

/-! ## What a camera sends -/

/-- The codec that a packet declares. -/
inductive VideoType where
  | h264
  | h265
  deriving DecidableEq, Repr

/-- The codec a video type stands for. -/
def VideoType.codec : VideoType → VideoCodec
  | .h264 => .h264
  | .h265 => .h265

/-- What starts a stream, and describes the data to follow. -/
structure BcMediaInfo where
  videoWidth : UInt32
  videoHeight : UInt32
  fps : UInt8
  startYear : UInt8
  startMonth : UInt8
  startDay : UInt8
  startHour : UInt8
  startMin : UInt8
  startSeconds : UInt8
  endYear : UInt8
  endMonth : UInt8
  endDay : UInt8
  endHour : UInt8
  endMin : UInt8
  endSeconds : UInt8
  deriving DecidableEq, Repr

/-- A key frame, with the time of the camera if it is given. -/
structure BcMediaIframe where
  videoType : VideoType
  microseconds : UInt32
  time : Option UInt32
  data : Bytes
  deriving DecidableEq, Repr

/-- A frame between key frames. -/
structure BcMediaPframe where
  videoType : VideoType
  microseconds : UInt32
  data : Bytes
  deriving DecidableEq, Repr

/-- A frame of AAC in ADTS. -/
structure BcMediaAac where
  data : Bytes
  deriving DecidableEq, Repr

/-- A block of ADPCM, behind its sub-header. -/
structure BcMediaAdpcm where
  data : Bytes
  deriving DecidableEq, Repr

/-- A packet of a media stream. -/
inductive BcMedia where
  | infoV1 (info : BcMediaInfo)
  | infoV2 (info : BcMediaInfo)
  | iframe (frame : BcMediaIframe)
  | pframe (frame : BcMediaPframe)
  | aac (frame : BcMediaAac)
  | adpcm (frame : BcMediaAdpcm)
  deriving DecidableEq, Repr

namespace BcMedia

/-- The codec a video packet declares. -/
def declared? : BcMedia → Option VideoCodec
  | .iframe frame => some frame.videoType.codec
  | .pframe frame => some frame.videoType.codec
  | .infoV1 _ | .infoV2 _ | .aac _ | .adpcm _ => none

/-- The timestamp of a video packet. -/
def microseconds? : BcMedia → Option UInt32
  | .iframe frame => some frame.microseconds
  | .pframe frame => some frame.microseconds
  | .infoV1 _ | .infoV2 _ | .aac _ | .adpcm _ => none

/-- The NAL units of a key frame packet. -/
def keyNals : BcMedia → List Bytes
  | .iframe frame => splitAnnexB frame.data
  | .pframe _ | .infoV1 _ | .infoV2 _ | .aac _ | .adpcm _ => []

end BcMedia

/-! ## What goes to the subscribers -/

/-- Sound as it is sent to clients. -/
inductive AudioPayload where
  | aac (auData : Bytes) (sampleRate : UInt32) (channels : UInt8)
  | g711Ulaw (samples : Bytes)
  deriving DecidableEq, Repr

/-- An access unit of video or audio. -/
inductive Frame where
  | video (codec : VideoCodec) (nals : List Bytes) (pts90khz : UInt32) (keyframe : Bool)
    (accessUnitEnd : Bool)
  | audio (payload : AudioPayload) (pts : UInt32)
  deriving DecidableEq, Repr

/-- The timestamp of a video frame. -/
def Frame.videoPts? : Frame → Option UInt32
  | .video _ _ pts90khz _ _ => some pts90khz
  | .audio _ _ => none

/-- What clients are told of the video. -/
structure VideoParams where
  codec : VideoCodec
  payloadType : UInt8
  sps : Bytes
  pps : Bytes
  vps : Option Bytes
  profileLevelId : UInt8 × UInt8 × UInt8
  deriving DecidableEq, Repr

/-- What clients are told of the sound. -/
structure AudioParams where
  codec : AudioCodec
  payloadType : UInt8
  sampleRate : UInt32
  channels : UInt8
  ascHex : Option String
  deriving DecidableEq, Repr

/-- Parameter sets, a key frame and the frames after it: what a decoder can start
    with. -/
structure VideoBurst where
  codec : VideoCodec
  parameterSets : List Bytes
  iframeNals : List Bytes
  pframeNals : List (List Bytes)
  capturedAt : Instant
  capturedPts90khz : UInt32
  deriving DecidableEq, Repr

namespace VideoBurst

/-- The cap on the size of the frames after the key frame. -/
def maxPframeBytes : ℕ := 8 * 1024 * 1024

/-- The size of some frames. -/
def pframeBytes (frames : List (List Bytes)) : ℕ :=
  (frames.map fun nals => (nals.map List.length).sum).sum

/-- Drop the oldest frames until the size, `total` at first, is within the cap. -/
def evict : (total : ℕ) → List (List Bytes) → List (List Bytes)
  | _, [] => []
  | total, nals :: frames =>
    if maxPframeBytes < total then evict (total - (nals.map List.length).sum) frames
    else nals :: frames

/-- Append a frame. The oldest ones are dropped only if the new one, counted
    twice, does not fit. -/
def appendPframe (burst : VideoBurst) (nals : List Bytes) : VideoBurst :=
  let newBytes := (nals.map List.length).sum
  let frames := burst.pframeNals ++ [nals]
  let total := pframeBytes frames
  { burst with
    pframeNals := if maxPframeBytes < total + newBytes then evict total frames else frames }

end VideoBurst

end Bairelay
