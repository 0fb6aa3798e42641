import Bairelay.Codec.Audio
import Bairelay.Rtsp.Request
import Bairelay.Rtsp.Rtp

/-!
# Where a request points

The camera and the stream a request names (`rtsp/url.rs`; `extract_path` and the track of a
`SETUP` in `rtsp/server/connection.rs`), and the `Transport` header
(`rtsp/protocol/transport.rs`). Text is kept as its bytes, as in the framing of requests.
-/

namespace Bairelay

/-- Text of the program, as bytes. -/
def utf8 (s : String) : Bytes := s.toUTF8.toList

/-- What is before and behind the first place where a pattern stands. -/
def splitOn? (pattern : Bytes) : Bytes → Option (Bytes × Bytes)
  | [] => if pattern = [] then some ([], []) else none
  | b :: rest =>
    if pattern.isPrefixOf (b :: rest) then some ([], (b :: rest).drop pattern.length)
    else (splitOn? pattern rest).map fun (front, back) => (b :: front, back)

/-- What is before and behind the last separator. -/
def rsplitOnce (sep : UInt8) (s : Bytes) : Option (Bytes × Bytes) :=
  (splitOnce sep s.reverse).map fun (back, front) => (front.reverse, back.reverse)

/-- Where the first bytes are a prefix but for the case of its letters: what follows. -/
def stripPrefixIgnoreCase (start s : Bytes) : Option Bytes :=
  if start.length ≤ s.length ∧ eqIgnoreAsciiCase (s.take start.length) start then
    some (s.drop start.length)
  else none

/-- A number of so many bits. -/
def parseUint (bits : ℕ) (s : Bytes) : Option ℕ := (parseUsize s).filter (· < 2 ^ bits)

/-! ## Paths -/

/-- The streams of a camera. -/
inductive StreamKind where
  | main
  | sub
  /-- Falls back to `sub`. -/
  | externStream
  deriving DecidableEq, Repr

/-- Which stream of which camera. -/
structure ResolvedPath where
  camera : Bytes
  stream : StreamKind
  deriving DecidableEq, Repr

/-- A stream by one of its names, in any case of letters. -/
def parseStreamSuffix (s : Bytes) : Option StreamKind :=
  let lower := s.map toAsciiLowercase
  if lower = utf8 "main" ∨ lower = utf8 "mainstream" then some .main
  else if lower = utf8 "sub" ∨ lower = utf8 "substream" then some .sub
  else if lower = utf8 "extern" ∨ lower = utf8 "externstream" then some .externStream
  else none

/-- Without the slashes at its ends. -/
def trimSlashes (path : Bytes) : Bytes :=
  ((path.dropWhile (· = 0x2f)).reverse.dropWhile (· = 0x2f)).reverse

/-- The camera and the stream of a path; the main stream if it names none. -/
def resolve (path : Bytes) : Option ResolvedPath :=
  let trimmed := trimSlashes path
  if trimmed = [] then none
  else match trimmed.splitOn 0x2f with
    | [camera] => some ⟨camera, .main⟩
    | [camera, suffix] => (parseStreamSuffix suffix).map fun stream => ⟨camera, stream⟩
    | _ => none

/-- The path of a URI: what stands behind the authority, if there is a scheme. -/
def extractPath (uri : Bytes) : Bytes :=
  match splitOn? (utf8 "://") uri with
  | some (_, after) =>
    match splitOnce 0x2f after with
    | some (_, path) => 0x2f :: path
    | none => [0x2f]
  | none => uri

/-- The path of a `SETUP` without its track, and the track: the first one if none is named. -/
def splitTrack (path : Bytes) : Bytes × ℕ :=
  let track := do
    let (base, last) ← rsplitOnce 0x2f path
    let n ← if (utf8 "trackID=").isPrefixOf last then some (last.drop 8) else none
    let track ← parseUint 32 n
    return (base, track)
  track.getD (path, 0)

/-- The kind of media of a track. -/
inductive TrackKind where
  | video
  | audio
  deriving DecidableEq, Repr

/-- What a `SETUP` asks for. -/
def setupTarget (uri : Bytes) : Option (ResolvedPath × TrackKind) :=
  let (base, track) := splitTrack (extractPath uri)
  (resolve base).map fun resolved => (resolved, if track = 0 then .video else .audio)

/-- A URI may not contradict the transport it came over. -/
def schemeMatchesTransport (uri : Bytes) (isTls : Bool) : Bool :=
  if (utf8 "rtsp://").isPrefixOf uri then !isTls
  else if (utf8 "rtsps://").isPrefixOf uri then isTls
  else true

/-! ## The `Transport` header -/

/-- What a client asks for. -/
inductive TransportSpec where
  | tcpInterleaved (channelRtp channelRtcp : UInt8)
  | udpUnicast (clientRtpPort clientRtcpPort : UInt16)
  deriving DecidableEq, Repr

/-- The error of a number that does not fit is left out of the text. -/
inductive TransportError where
  | unsupported (what : Bytes)
  | malformed (what : Bytes)
  deriving DecidableEq, Repr

/-- Two numbers of so many bits, with a dash between them. -/
def parseRange (bits : ℕ) (s : Bytes) : Except TransportError (ℕ × ℕ) := do
  let (a, b) ← match splitOnce 0x2d s with
    | some range => pure range
    | none => throw (.malformed (utf8 "not a range: " ++ s))
  match parseUint bits (trim a), parseUint bits (trim b) with
  | some a, some b => return (a, b)
  | _, _ => throw (.malformed (utf8 s!"bad u{bits}"))

/-- The channels and the ports that are named, the last of each. -/
def parseParameters : List Bytes → Option (ℕ × ℕ) × Option (ℕ × ℕ) →
    Except TransportError (Option (ℕ × ℕ) × Option (ℕ × ℕ))
  | [], named => return named
  | part :: parts, (interleaved, clientPort) =>
    if eqIgnoreAsciiCase part (utf8 "unicast") then
      parseParameters parts (interleaved, clientPort)
    else if eqIgnoreAsciiCase part (utf8 "multicast") then
      throw (.unsupported (utf8 "multicast"))
    else match stripPrefixIgnoreCase (utf8 "interleaved=") part with
      | some rest => do
        let range ← parseRange 8 rest
        parseParameters parts (some range, clientPort)
      | none =>
        match stripPrefixIgnoreCase (utf8 "client_port=") part with
        | some rest => do
          let range ← parseRange 16 rest
          parseParameters parts (interleaved, some range)
        -- Other parameters are ignored.
        | none => parseParameters parts (interleaved, clientPort)

/-- The transport that a client asks for. -/
def TransportSpec.parse (value : Bytes) : Except TransportError TransportSpec := do
  match ((trim value).splitOn 0x3b).map trim with
  -- `split` gives one part at least.
  | [] => throw (.malformed (utf8 "empty"))
  | profile :: parts =>
    let isTcp := eqIgnoreAsciiCase profile (utf8 "RTP/AVP/TCP")
    let isUdp := eqIgnoreAsciiCase profile (utf8 "RTP/AVP") ||
      eqIgnoreAsciiCase profile (utf8 "RTP/AVP/UDP")
    if !isTcp && !isUdp then throw (.unsupported profile)
    else
      let (interleaved, clientPort) ← parseParameters parts (none, none)
      -- The profile decides which parameter must be there.
      if isTcp then
        match interleaved with
        | some (rtp, rtcp) => return .tcpInterleaved (.ofNat rtp) (.ofNat rtcp)
        | none => throw (.malformed (utf8 "TCP without interleaved"))
      else
        match clientPort with
        | some (rtp, rtcp) => return .udpUnicast (.ofNat rtp) (.ofNat rtcp)
        | none => throw (.malformed (utf8 "UDP without client_port"))

/-- Where the packets of a track go: channels of the connection, or ports of the client, from
    ports of the server. -/
inductive Transport where
  | tcpInterleaved (channelRtp channelRtcp : UInt8)
  | udpUnicast (clientRtpPort clientRtcpPort serverRtpPort serverRtcpPort : UInt16)
  deriving DecidableEq, Repr

/-- Eight hexadecimal digits. -/
def hex8 (n : UInt32) : String := String.join ((Streaming.beBytes 4 n.toNat).map hexByte)

/-- The `Transport` header of the answer (`build_tcp_response`, `build_udp_response`). -/
def Transport.response (transport : Transport) (ssrc : UInt32) : Bytes :=
  match transport with
  | .tcpInterleaved channelRtp channelRtcp =>
    utf8 s!"RTP/AVP/TCP;unicast;interleaved={channelRtp}-{channelRtcp};ssrc={hex8 ssrc}"
  | .udpUnicast clientRtp clientRtcp serverRtp serverRtcp =>
    utf8 (s!"RTP/AVP;unicast;client_port={clientRtp}-{clientRtcp};" ++
      s!"server_port={serverRtp}-{serverRtcp};ssrc={hex8 ssrc}")

end Bairelay
