import Bairelay.Rtsp.Digest
import Bairelay.Rtsp.Server

/-!
# The description of a stream

The text that answers a `DESCRIBE` (`rtsp/sdp.rs`), line by line, and what a client reads in
it: the media sections, each with its control attribute.

* `mediaSections_build`: the sections are those of the tracks, numbered in their order.

The encoding of Base64 is a parameter, and gives text on one line, as are the address of the
server, the id and the name of the description.
-/

namespace Bairelay

/-- Text on one line. -/
abbrev Line := { s : Bytes // IsLine s }

/-- The ends of the lines are put behind them. -/
def crlfLines (lines : List Bytes) : Bytes := lines.flatMap (· ++ [0x0d, 0x0a])

/-- A number in decimal. -/
def decimal (n : ℕ) : Bytes := utf8 (toString n)

/-- What the description says besides the media. -/
structure SdpOrigin where
  serverIp : Line
  sessionId : Line
  sessionName : Line

/-- The control attribute of a track, relative to the URI of the stream. -/
def trackControl (trackId : ℕ) : Bytes := utf8 "trackID=" ++ decimal trackId

namespace Sdp

variable (base64 : Bytes → Line)

/-- The lines of the video, which end with the URI of its track. -/
def appendVideo (v : VideoParams) (trackId : ℕ) : List Bytes :=
  let payloadType := decimal v.payloadType.toNat
  let (p0, p1, p2) := v.profileLevelId
  [utf8 "m=" ++ utf8 "video" ++ 0x20 :: (utf8 "0 RTP/AVP " ++ payloadType)] ++
  (match v.codec with
  | .h264 =>
    [utf8 "a=rtpmap:" ++ (payloadType ++ utf8 " H264/90000"),
      utf8 "a=fmtp:" ++ (payloadType ++ utf8 " packetization-mode=1;profile-level-id=" ++
        hexLower [p0, p1, p2] ++ utf8 ";sprop-parameter-sets=" ++ (base64 v.sps).1 ++ utf8 "," ++
        (base64 v.pps).1)]
  | .h265 =>
    [utf8 "a=rtpmap:" ++ (payloadType ++ utf8 " H265/90000"),
      utf8 "a=fmtp:" ++ (payloadType ++ utf8 " sprop-vps=" ++
        (v.vps.elim [] fun vps => (base64 vps).1) ++ utf8 ";sprop-sps=" ++ (base64 v.sps).1 ++
        utf8 ";sprop-pps=" ++ (base64 v.pps).1)]) ++
  [utf8 "a=control:" ++ trackControl trackId]

/-- The lines of the sound. -/
def appendAudio (a : AudioParams) (trackId : ℕ) : List Bytes :=
  let payloadType := decimal a.payloadType.toNat
  [utf8 "m=" ++ utf8 "audio" ++ 0x20 :: (utf8 "0 RTP/AVP " ++ payloadType)] ++
  (match a.codec with
  | .aac =>
    [utf8 "a=rtpmap:" ++ (payloadType ++ utf8 " mpeg4-generic/" ++ decimal a.sampleRate.toNat ++
        utf8 "/" ++ decimal a.channels.toNat),
      utf8 "a=fmtp:" ++ (payloadType ++ utf8 " streamtype=5;profile-level-id=1;mode=AAC-hbr;" ++
        utf8 "sizelength=13;indexlength=3;indexdeltalength=3;config=" ++ utf8 (a.ascHex.getD ""))]
  | .g711Ulaw => [utf8 "a=rtpmap:" ++ (payloadType ++ utf8 " PCMU/8000")]) ++
  [utf8 "a=control:" ++ trackControl trackId]

/-- The lines before the first media section. -/
def sessionLines (origin : SdpOrigin) : List Bytes :=
  [utf8 "v=0",
    utf8 "o=- " ++ (origin.sessionId.1 ++ utf8 " 1 IN IP4 " ++ origin.serverIp.1),
    utf8 "s=" ++ origin.sessionName.1,
    utf8 "c=IN IP4 " ++ origin.serverIp.1,
    utf8 "t=0 0",
    utf8 "a=control:*",
    utf8 "a=range:npt=now-"]

/-- The lines of the media sections: of the video, if there is any, and of the audio. -/
def mediaLines (params : SdpParams) : List Bytes :=
  (params.video.elim [] fun v => appendVideo base64 v 0) ++
    params.audio.elim [] fun a => appendAudio a (if params.video.isSome then 1 else 0)

/-- The description, line by line. -/
def build (origin : SdpOrigin) (params : SdpParams) : Bytes :=
  crlfLines (sessionLines origin ++ mediaLines base64 params)

end Sdp

/-! ## What a client reads -/

/-- A media section: the kind of media it names, and its control attribute. -/
structure MediaSection where
  media : Bytes
  control : Option Bytes
  deriving DecidableEq, Repr

/-- A line that begins a section. -/
def isMediaLine (line : Bytes) : Bool := (utf8 "m=").isPrefixOf line

/-- The value of a control attribute. -/
def controlOf? (line : Bytes) : Option Bytes :=
  if (utf8 "a=control:").isPrefixOf line then some (line.drop 10) else none

/-- A section goes on up to the next one. -/
def mediaSections : List Bytes → List MediaSection
  | [] => []
  | line :: lines =>
    if isMediaLine line then
      ⟨(line.drop 2).takeWhile (· ≠ 0x20),
        (lines.takeWhile fun l => !isMediaLine l).findSome? controlOf?⟩ :: mediaSections lines
    else mediaSections lines

/-- The kind of a section. -/
def TrackKind.media : TrackKind → Bytes
  | .video => utf8 "video"
  | .audio => utf8 "audio"

/-- The tracks of a stream, in their order. -/
def SdpParams.tracks (params : SdpParams) : List TrackKind :=
  (params.video.elim [] fun _ => [.video]) ++ params.audio.elim [] fun _ => [.audio]

/-- What is announced of AAC is one of the configurations that can be. -/
def SdpParams.WellFormed (params : SdpParams) : Prop :=
  ∀ a ∈ params.audio, ∀ asc ∈ a.ascHex, ∃ aot sampleRate channels,
    buildAudioSpecificConfigHex aot sampleRate channels = some asc

/-! ## Lines -/

/-- A line may be put together of parts of lines. -/
theorem isLine_append {s t : Bytes} : IsLine (s ++ t) ↔ IsLine s ∧ IsLine t := by
  simp only [IsLine, List.mem_append, not_or]
  tauto

/-- A character that is no control may stand in front. -/
theorem isLine_cons {b : UInt8} {s : Bytes} (hb : 0x20 ≤ b) : IsLine (b :: s) ↔ IsLine s := by
  have hcr : (0x0d : UInt8) ≠ b := by rintro rfl; exact absurd hb (by decide)
  have hlf : (0x0a : UInt8) ≠ b := by rintro rfl; exact absurd hb (by decide)
  simp only [IsLine, List.mem_cons, hcr, hlf, false_or]

/-- Printable characters are on one line. -/
theorem isLine_utf8 {s : String} (h : ∀ c ∈ s.toList, 0x20 ≤ c.toNat ∧ c.toNat < 0x80) :
    IsLine (utf8 s) := by
  have hnot {b : UInt8} (hb : b.toNat < 0x20) : b ∉ utf8 s := by
    intro hmem
    rw [utf8_eq_flatMap] at hmem
    obtain ⟨c, hc, hchar⟩ := List.mem_flatMap.1 hmem
    obtain ⟨hge, hlt⟩ := h c hc
    have hle : c.val.toNat ≤ 0x7f := Nat.le_of_lt_succ hlt
    rw [String.utf8EncodeChar, if_pos hle] at hchar
    obtain rfl := List.mem_singleton.1 hchar
    rw [UInt8.toNat_ofNat_of_lt' (hle.trans_lt (by decide))] at hb
    exact absurd hge (Nat.not_le.2 hb)
  exact ⟨hnot (by decide), hnot (by decide)⟩

theorem isLine_decimal (n : ℕ) : IsLine (decimal n) := by
  refine isLine_utf8 fun c hc => ?_
  rw [Nat.toString_eq_repr, Nat.toList_repr] at hc
  have hdigit := Char.isDigit_iff_toNat.1
    (Nat.isDigit_of_mem_toDigits (by decide) (by decide) hc)
  exact ⟨le_trans (by decide) hdigit.1, lt_of_le_of_lt hdigit.2 (by decide)⟩

theorem isLine_hexLower (s : Bytes) : IsLine (hexLower s) := by
  have hnot {b : UInt8} (hb : isHexDigit b = false) : b ∉ hexLower s :=
    fun hmem => Bool.false_ne_true (hb.symm.trans (isHexDigit_of_mem_hexLower hmem))
  exact ⟨hnot (by decide), hnot (by decide)⟩

theorem isLine_buildAudioSpecificConfigHex {aot channels : UInt8} {sampleRate : UInt32}
    {asc : String} (h : buildAudioSpecificConfigHex aot sampleRate channels = some asc) :
    IsLine (utf8 asc) := by
  have hdigit : ∀ b : UInt8, [hexDigit (b >>> 4), hexDigit (b &&& 0x0f)].all
      fun c => 0x20 ≤ c.toNat ∧ c.toNat < 0x80 := forall_byte (by decide +kernel)
  have hbyte (b : UInt8) : ∀ c ∈ (hexByte b).toList, 0x20 ≤ c.toNat ∧ c.toNat < 0x80 := by
    rw [hexByte, String.toList_ofList]
    exact fun c hc => of_decide_eq_true (List.all_eq_true.1 (hdigit b) c hc)
  refine isLine_utf8 fun c hc => ?_
  rw [buildAudioSpecificConfigHex] at h
  split at h
  · cases h
  · obtain ⟨srIdx, -, h⟩ := Option.bind_eq_some_iff.1 h
    split at h
    · cases h
    · obtain rfl := Option.some.inj h
      rw [String.toList_append, List.mem_append] at hc
      exact hc.elim (hbyte _ c) (hbyte _ c)

/-- The lines of a description, and an empty one. -/
theorem splitCrlf_crlfLines {lines : List Bytes} (h : ∀ l ∈ lines, IsLine l) :
    splitCrlf (crlfLines lines) = lines ++ [[]] := by
  induction lines with
  | nil => rfl
  | cons line lines ih =>
    have hlines : crlfLines (line :: lines) = line ++ 0x0d :: 0x0a :: crlfLines lines := by
      simp [crlfLines]
    rw [hlines, splitCrlf_append (h line List.mem_cons_self).1,
      ih fun l hl => h l (List.mem_cons_of_mem _ hl), List.cons_append]

/-! ## The sections of a description -/

theorem utf8_mediaLine : utf8 "m=" = [0x6d, 0x3d] := by
  rw [utf8_ofList]
  rfl

theorem utf8_controlLine :
    utf8 "a=control:" = [0x61, 0x3d, 0x63, 0x6f, 0x6e, 0x74, 0x72, 0x6f, 0x6c, 0x3a] := by
  rw [utf8_ofList]
  rfl

/-- Lines in front of the first section belong to none. -/
theorem mediaSections_append {front : List Bytes} (h : ∀ l ∈ front, isMediaLine l = false)
    (rest : List Bytes) : mediaSections (front ++ rest) = mediaSections rest := by
  induction front with
  | nil => rfl
  | cons line front ih =>
    rw [List.cons_append, mediaSections, h line List.mem_cons_self, if_neg Bool.false_ne_true,
      ih fun l hl => h l (List.mem_cons_of_mem _ hl)]

/-- Whether a prefix stands there is decided in its own length. -/
theorem isPrefixOf_append_eq_false {p q : Bytes} (hpq : p.isPrefixOf q = false)
    (hqp : q.isPrefixOf p = false) (s : Bytes) : p.isPrefixOf (q ++ s) = false := by
  rw [Bool.eq_false_iff, ne_eq, List.isPrefixOf_iff_prefix] at hpq hqp ⊢
  intro h
  exact (List.prefix_or_prefix_of_prefix h (List.prefix_append q s)).elim hpq hqp

/-- A line of another kind: neither the first one of a section nor a control attribute. -/
def IsOther (line : Bytes) : Prop := isMediaLine line = false ∧ controlOf? line = none

/-- A name that is neither of the two stands in another line. -/
theorem IsOther.append {name : Bytes}
    (hmedia : (utf8 "m=").isPrefixOf name = false ∧ name.isPrefixOf (utf8 "m=") = false)
    (hcontrol : (utf8 "a=control:").isPrefixOf name = false ∧
      name.isPrefixOf (utf8 "a=control:") = false) (value : Bytes) : IsOther (name ++ value) := by
  refine ⟨isPrefixOf_append_eq_false hmedia.1 hmedia.2 value, ?_⟩
  rw [controlOf?, isPrefixOf_append_eq_false hcontrol.1 hcontrol.2 value,
    if_neg Bool.false_ne_true]

theorem isOther_rtpmap (value : Bytes) : IsOther (utf8 "a=rtpmap:" ++ value) := by
  refine .append ?_ ?_ value
  · rw [utf8_mediaLine, utf8_ofList]
    decide
  · rw [utf8_controlLine, utf8_ofList]
    decide

theorem isOther_fmtp (value : Bytes) : IsOther (utf8 "a=fmtp:" ++ value) := by
  refine .append ?_ ?_ value
  · rw [utf8_mediaLine, utf8_ofList]
    decide
  · rw [utf8_controlLine, utf8_ofList]
    decide

/-- A section, up to its control attribute. -/
theorem mediaSections_section {media : Bytes} (hmedia : 0x20 ∉ media) (port : Bytes)
    {attributes : List Bytes} (hattributes : ∀ l ∈ attributes, IsOther l) (control : Bytes)
    (rest : List Bytes) :
    mediaSections ([utf8 "m=" ++ media ++ 0x20 :: port] ++ attributes ++
        [utf8 "a=control:" ++ control] ++ rest) = ⟨media, some control⟩ :: mediaSections rest := by
  have hline : isMediaLine (utf8 "m=" ++ media ++ 0x20 :: port) := by
    rw [List.append_assoc]
    exact List.isPrefixOf_iff_prefix.2 (List.prefix_append _ _)
  have hmem : ∀ b ∈ media, decide (b ≠ 0x20) = true :=
    fun b hb => decide_eq_true fun heq => hmedia (heq ▸ hb)
  have htake : ((utf8 "m=" ++ media ++ 0x20 :: port).drop 2).takeWhile (· ≠ 0x20) = media := by
    have hlen : (utf8 "m=").length = 2 := congrArg List.length utf8_mediaLine
    rw [List.append_assoc, List.drop_left' hlen,
      List.takeWhile_append_of_pos hmem, List.takeWhile_cons_of_neg (by decide), List.append_nil]
  have hcontrol : isMediaLine (utf8 "a=control:" ++ control) = false :=
    isPrefixOf_append_eq_false (by rw [utf8_mediaLine, utf8_controlLine]; rfl)
      (by rw [utf8_mediaLine, utf8_controlLine]; rfl) control
  have hfind : ((attributes ++ (utf8 "a=control:" ++ control) :: rest).takeWhile
      fun l => !isMediaLine l).findSome? controlOf? = some control := by
    have hnone : attributes.findSome? controlOf? = none :=
      List.findSome?_eq_none_iff.2 fun l hl => (hattributes l hl).2
    have hsome : controlOf? (utf8 "a=control:" ++ control) = some control := by
      have hlen : (utf8 "a=control:").length = 10 := congrArg List.length utf8_controlLine
      rw [controlOf?, if_pos (List.isPrefixOf_iff_prefix.2 (List.prefix_append _ _)),
        List.drop_left' hlen]
    rw [List.takeWhile_append_of_pos fun l hl => by rw [(hattributes l hl).1]; rfl,
      List.takeWhile_cons_of_pos (by rw [hcontrol]; rfl), List.findSome?_append, hnone,
      List.findSome?_cons, hsome]
    rfl
  have hskip : mediaSections (attributes ++ (utf8 "a=control:" ++ control) :: rest) =
      mediaSections rest := by
    rw [← List.singleton_append, ← List.append_assoc]
    refine mediaSections_append (fun l hl => ?_) rest
    rcases List.mem_append.1 hl with hl | hl
    · exact (hattributes l hl).1
    · rw [List.mem_singleton.1 hl, hcontrol]
  rw [List.append_assoc, List.append_assoc, List.singleton_append, List.singleton_append,
    mediaSections, if_pos hline, htake, hfind, hskip]

namespace Sdp

variable (base64 : Bytes → Line)

theorem mediaSections_appendVideo (v : VideoParams) (trackId : ℕ) (rest : List Bytes) :
    mediaSections (appendVideo base64 v trackId ++ rest) =
      ⟨utf8 "video", some (trackControl trackId)⟩ :: mediaSections rest := by
  obtain ⟨codec, payloadType, sps, pps, vps, p0, p1, p2⟩ := v
  refine mediaSections_section (by rw [utf8_ofList]; decide) _ ?_ _ rest
  cases codec with
  | h264 =>
    rintro l (_ | ⟨_, _ | ⟨_, ⟨⟩⟩⟩)
    · exact isOther_rtpmap _
    · exact isOther_fmtp _
  | h265 =>
    rintro l (_ | ⟨_, _ | ⟨_, ⟨⟩⟩⟩)
    · exact isOther_rtpmap _
    · exact isOther_fmtp _

theorem mediaSections_appendAudio (a : AudioParams) (trackId : ℕ) (rest : List Bytes) :
    mediaSections (appendAudio a trackId ++ rest) =
      ⟨utf8 "audio", some (trackControl trackId)⟩ :: mediaSections rest := by
  obtain ⟨codec, payloadType, sampleRate, channels, ascHex⟩ := a
  refine mediaSections_section (by rw [utf8_ofList]; decide) _ ?_ _ rest
  cases codec with
  | aac =>
    rintro l (_ | ⟨_, _ | ⟨_, ⟨⟩⟩⟩)
    · exact isOther_rtpmap _
    · exact isOther_fmtp _
  | g711Ulaw =>
    rintro l (_ | ⟨_, ⟨⟩⟩)
    exact isOther_rtpmap _

theorem isLine_appendVideo (v : VideoParams) (trackId : ℕ) :
    ∀ l ∈ appendVideo base64 v trackId, IsLine l := by
  obtain ⟨codec, payloadType, sps, pps, vps, p0, p1, p2⟩ := v
  have hvps : IsLine (vps.elim [] fun vps => (base64 vps).1) := by
    cases vps with
    | none => exact (by decide : IsLine [])
    | some vps => exact (base64 vps).2
  cases codec with
  | h264 =>
    simp only [appendVideo, trackControl, List.cons_append, List.nil_append, List.forall_mem_cons,
      List.not_mem_nil, false_imp_iff, implies_true,
      isLine_append, isLine_cons (show (0x20 : UInt8) ≤ 0x20 by decide), isLine_decimal,
      isLine_hexLower, (base64 sps).2, (base64 pps).2, and_true, true_and]
    and_intros <;> (rw [utf8_ofList]; decide)
  | h265 =>
    simp only [appendVideo, trackControl, List.cons_append, List.nil_append, List.forall_mem_cons,
      List.not_mem_nil, false_imp_iff, implies_true,
      isLine_append, isLine_cons (show (0x20 : UInt8) ≤ 0x20 by decide), isLine_decimal,
      hvps, (base64 sps).2, (base64 pps).2, and_true, true_and]
    and_intros <;> (rw [utf8_ofList]; decide)

/-- Everything about sound does, if the configuration of AAC does. -/
theorem isLine_appendAudio {a : AudioParams} (h : ∀ asc ∈ a.ascHex, IsLine (utf8 asc))
    (trackId : ℕ) : ∀ l ∈ appendAudio a trackId, IsLine l := by
  obtain ⟨codec, payloadType, sampleRate, channels, ascHex⟩ := a
  have hasc : IsLine (utf8 (ascHex.getD "")) := by
    cases ascHex with
    | none =>
      have hempty : (none : Option String).getD "" = String.ofList [] := rfl
      rw [hempty, utf8_ofList]
      decide
    | some asc => exact h asc rfl
  cases codec with
  | aac =>
    simp only [appendAudio, trackControl, List.cons_append, List.nil_append, List.forall_mem_cons,
      List.not_mem_nil, false_imp_iff, implies_true,
      isLine_append, isLine_cons (show (0x20 : UInt8) ≤ 0x20 by decide), isLine_decimal, hasc,
      and_true, true_and]
    and_intros <;> (rw [utf8_ofList]; decide)
  | g711Ulaw =>
    simp only [appendAudio, trackControl, List.cons_append, List.nil_append, List.forall_mem_cons,
      List.not_mem_nil, false_imp_iff, implies_true,
      isLine_append, isLine_cons (show (0x20 : UInt8) ≤ 0x20 by decide), isLine_decimal,
      and_true, true_and]
    and_intros <;> (rw [utf8_ofList]; decide)

theorem isLine_sessionLines (origin : SdpOrigin) : ∀ l ∈ sessionLines origin, IsLine l := by
  simp only [sessionLines, List.forall_mem_cons, List.not_mem_nil, false_imp_iff, implies_true,
    isLine_append, origin.serverIp.2, origin.sessionId.2, origin.sessionName.2, and_true, true_and]
  and_intros <;> (rw [utf8_ofList]; decide)

theorem isLine_mediaLines {params : SdpParams} (h : params.WellFormed) :
    ∀ l ∈ mediaLines base64 params, IsLine l := by
  intro l hl
  rcases List.mem_append.1 hl with hl | hl
  · cases hvideo : params.video with
    | none => rw [hvideo] at hl; cases hl
    | some v =>
      rw [hvideo] at hl
      exact isLine_appendVideo base64 v 0 l hl
  · cases haudio : params.audio with
    | none => rw [haudio] at hl; cases hl
    | some a =>
      rw [haudio] at hl
      refine isLine_appendAudio (fun asc hasc => ?_) _ l hl
      obtain ⟨aot, sampleRate, channels, hbuilt⟩ := h a haudio asc hasc
      exact isLine_buildAudioSpecificConfigHex hbuilt

/-- No line of the session begins a section. -/
theorem isMediaLine_sessionLines (origin : SdpOrigin) :
    ∀ l ∈ sessionLines origin, isMediaLine l = false := by
  have hother {name : Bytes} (hname : [0x6d, 0x3d].isPrefixOf name = false ∧
      name.isPrefixOf [0x6d, 0x3d] = false) (value : Bytes) :
      isMediaLine (name ++ value) = false := by
    rw [isMediaLine, utf8_mediaLine]
    exact isPrefixOf_append_eq_false hname.1 hname.2 value
  have hplain {name : Bytes} (hname : [0x6d, 0x3d].isPrefixOf name = false) :
      isMediaLine name = false := by rwa [isMediaLine, utf8_mediaLine]
  simp only [sessionLines, List.forall_mem_cons, List.not_mem_nil, false_imp_iff, implies_true,
    and_true]
  refine ⟨hplain ?_, hother ?_ _, hother ?_ _, hother ?_ _, hplain ?_, hplain ?_, hplain ?_⟩ <;>
    (rw [utf8_ofList]; decide)

/-- A client reads the tracks, numbered in their order. -/
theorem mediaSections_build (origin : SdpOrigin) {params : SdpParams} (h : params.WellFormed) :
    mediaSections (splitCrlf (build base64 origin params)) =
      params.tracks.zipIdx.map fun (kind, n) => ⟨kind.media, some (trackControl n)⟩ := by
  have hlines : ∀ l ∈ sessionLines origin ++ mediaLines base64 params, IsLine l := fun l hl =>
    (List.mem_append.1 hl).elim (isLine_sessionLines origin l) (isLine_mediaLines base64 h l)
  have hend : mediaSections [[]] = [] := by
    rw [mediaSections, isMediaLine, utf8_mediaLine]
    rfl
  rw [build, splitCrlf_crlfLines hlines, List.append_assoc,
    mediaSections_append (isMediaLine_sessionLines origin), mediaLines, SdpParams.tracks]
  cases params.video with
  | none =>
    cases params.audio with
    | none => exact hend
    | some a =>
      exact (mediaSections_appendAudio a 0 [[]]).trans (congrArg (_ :: ·) hend)
  | some v =>
    rw [Option.elim_some, List.append_assoc, mediaSections_appendVideo]
    cases params.audio with
    | none => exact congrArg (_ :: ·) hend
    | some a =>
      exact congrArg (_ :: ·) ((mediaSections_appendAudio a 1 [[]]).trans (congrArg (_ :: ·) hend))

end Sdp

end Bairelay
