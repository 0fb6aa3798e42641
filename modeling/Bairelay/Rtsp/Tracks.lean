import Bairelay.Lib.UriReference
import Bairelay.Rtsp.Sdp
import Bairelay.Rtsp.SessionOutput

/-!
# From a description to its tracks

A client that has the description of a stream sets its tracks up one by one: the URI of a
track is its control attribute, relative to `Content-Base`, and the server takes that URI
apart again (`setupTarget`).

* `setupTarget_contentBase`: put behind `Content-Base`, the control attribute names the
  stream that was described, and its track;
* `join_contentBase`: for a URI with neither a query nor a fragment in front of its path,
  that is what a relative URI means (RFC 3986);
* `setupTarget_of_describe`: so it is for whatever a `DESCRIBE` answers.

The camera is one of those that are configured, and `validate_config` has looked at their
names: there are letters, digits, `_` and `-` in them, and none of the delimiters of URIs.
-/

namespace Bairelay

/-! ## The names of cameras -/

/-- Letters, digits, underscores and hyphens. -/
def isNameByte (b : UInt8) : Bool :=
  (0x30 ≤ b && b ≤ 0x39) || (0x41 ≤ b && b ≤ 0x5a) || (0x61 ≤ b && b ≤ 0x7a) ||
    b = 0x5f || b = 0x2d

/-- The part of `validate_config` that is on the names of cameras, from the `i`-th one on. -/
def validateNames (names : List Bytes) (i : ℕ) : List CameraConfig → Except Bytes Unit
  | [] => .ok ()
  | cam :: cameras =>
    if trim cam.name = [] then .error (utf8 s!"Camera #{i}: name must not be empty")
    else if ¬cam.name.all isNameByte then
      .error (utf8 "Camera '" ++ cam.name ++ utf8 ("': name must contain only ASCII " ++
        "alphanumeric characters, underscores, and hyphens"))
    else if names.contains cam.name then
      .error (utf8 "Duplicate camera name: '" ++ cam.name ++ utf8 "'")
    else validateNames (cam.name :: names) (i + 1) cameras

theorem isNameByte_of_validateNames {names : List Bytes} {i : ℕ} {cameras : List CameraConfig}
    (h : validateNames names i cameras = .ok ()) :
    ∀ cam ∈ cameras, ∀ b ∈ cam.name, isNameByte b := by
  induction cameras generalizing names i with
  | nil => exact fun _ hcam => absurd hcam List.not_mem_nil
  | cons cam cameras ih =>
    rw [validateNames] at h
    split at h
    · cases h
    · split at h
      · cases h
      · next hbytes =>
        split at h
        · cases h
        · rw [not_not, List.all_eq_true] at hbytes
          exact List.forall_mem_cons.2 ⟨hbytes, ih h⟩

/-! ## Paths -/

theorem mem_trimSlashes {path : Bytes} {b : UInt8} (hb : b ∈ path) :
    b = 0x2f ∨ b ∈ trimSlashes path := by
  have hdrop {l : Bytes} (hl : b ∈ l) : b = 0x2f ∨ b ∈ l.dropWhile (· = 0x2f) := by
    rw [← List.takeWhile_append_dropWhile (p := (· = 0x2f)) (l := l), List.mem_append] at hl
    refine hl.imp (fun hmem => ?_) id
    have hslash := List.mem_takeWhile_imp hmem
    exact of_decide_eq_true hslash
  rcases hdrop hb with hb | hb
  · exact .inl hb
  · exact (hdrop (List.mem_reverse.2 hb)).imp id List.mem_reverse.2

theorem trimSlashes_append_slash (path : Bytes) :
    trimSlashes (path ++ [0x2f]) = trimSlashes path := by
  rw [trimSlashes, trimSlashes, List.dropWhile_append]
  split
  · next hnil =>
    rw [List.isEmpty_iff.1 hnil]
    rfl
  · rw [List.reverse_append, List.reverse_singleton, List.singleton_append,
      List.dropWhile_cons_of_pos (by decide)]

theorem resolve_append_slash (path : Bytes) : resolve (path ++ [0x2f]) = resolve path := by
  rw [resolve, resolve, trimSlashes_append_slash]

/-- The name of a stream is made of such characters. -/
theorem isNameByte_of_parseStreamSuffix {s : Bytes} {stream : StreamKind}
    (h : parseStreamSuffix s = some stream) : ∀ b ∈ s, isNameByte b := by
  have hlower (b : UInt8) (hb : isNameByte (toAsciiLowercase b)) : isNameByte b := by
    rw [toAsciiLowercase] at hb
    split at hb
    · next hupper => simp [isNameByte, hupper.1, hupper.2]
    · exact hb
  have hname {word : Bytes} (hword : word.all isNameByte) (heq : s.map toAsciiLowercase = word) :
      ∀ b ∈ s, isNameByte b := fun b hb =>
    hlower b (List.all_eq_true.1 hword _ (heq ▸ List.mem_map_of_mem hb))
  rw [parseStreamSuffix] at h
  split at h
  · next heq =>
    exact heq.elim (hname (by rw [utf8_ofList]; decide)) (hname (by rw [utf8_ofList]; decide))
  · split at h
    · next heq =>
      exact heq.elim (hname (by rw [utf8_ofList]; decide)) (hname (by rw [utf8_ofList]; decide))
    · split at h
      · next heq =>
        exact heq.elim (hname (by rw [utf8_ofList]; decide)) (hname (by rw [utf8_ofList]; decide))
      · cases h

/-- In a path that is resolved to a camera of a valid name, there is nothing but slashes and
    what names are made of. -/
theorem isNameByte_of_resolve {path : Bytes} {target : ResolvedPath}
    (h : resolve path = some target) (hname : ∀ b ∈ target.camera, isNameByte b) :
    ∀ b ∈ path, b = 0x2f ∨ isNameByte b := by
  have htrimmed : ∀ b ∈ trimSlashes path, b = 0x2f ∨ isNameByte b := by
    have hjoin := @List.intercalate_splitOn _ (trimSlashes path) _ _ (0x2f : UInt8)
    rw [resolve] at h
    split at h
    · cases h
    · split at h
      · next camera hcamera =>
        cases h
        rw [hcamera, List.intercalate_singleton] at hjoin
        exact fun b hb => .inr (hname b (hjoin ▸ hb))
      · next camera suffix hsuffix =>
        obtain ⟨stream, hstream, rfl⟩ := Option.map_eq_some_iff.1 h
        rw [hsuffix, List.intercalate_cons_cons, List.intercalate_singleton] at hjoin
        intro b hb
        rw [← hjoin, List.mem_append, List.mem_append, List.mem_singleton] at hb
        rcases hb with (hb | hb) | hb
        · exact .inr (hname b hb)
        · exact .inl hb
        · exact .inr (isNameByte_of_parseStreamSuffix hstream b hb)
      · cases h
  exact fun b hb => (mem_trimSlashes hb).elim .inl (htrimmed b)

/-! ## URIs -/

/-- What `Content-Base` says: the URI of the request, with a slash at its end. -/
def contentBase (uri : Bytes) : Bytes := if uri.getLast? = some 0x2f then uri else uri ++ [0x2f]

/-- What is split off in front stays so when more comes. -/
theorem splitOn?_append {pattern s front back : Bytes}
    (h : splitOn? pattern s = some (front, back)) (more : Bytes) :
    splitOn? pattern (s ++ more) = some (front, back ++ more) := by
  induction s generalizing front with
  | nil =>
    rw [splitOn?] at h
    split at h
    · next hpattern =>
      cases h
      cases more with
      | nil => rw [List.append_nil, splitOn?, if_pos hpattern]
      | cons b more => rw [List.nil_append, splitOn?, hpattern]; rfl
    · cases h
  | cons b s ih =>
    have hlen : pattern.length ≤ (b :: s).length := by
      have heq := congrArg List.length (splitOn?_eq_some h)
      simp only [List.length_append] at heq
      omega
    rw [splitOn?] at h
    rw [List.cons_append, splitOn?]
    split at h
    · next hstart =>
      cases h
      have hmore : pattern.isPrefixOf (b :: (s ++ more)) := List.isPrefixOf_iff_prefix.2
        ((List.isPrefixOf_iff_prefix.1 hstart).trans (List.prefix_append (b :: s) more))
      rw [if_pos hmore, ← List.cons_append, List.drop_append_of_le_length hlen]
    · next hstart =>
      obtain ⟨⟨front', back'⟩, hrest, heq⟩ := Option.map_eq_some_iff.1 h
      cases heq
      rw [if_neg, ih hrest, Option.map_some]
      -- What is there is as long as the pattern, so more of it does not help.
      intro hmore
      exact hstart (List.isPrefixOf_iff_prefix.2 (List.prefix_of_prefix_length_le
        (List.isPrefixOf_iff_prefix.1 hmore) (List.prefix_append (b :: s) more) hlen))

/-- A pattern whose first character is missing is not there. -/
theorem splitOn?_of_notMem {b : UInt8} {pattern s : Bytes} (h : b ∉ s) :
    splitOn? (b :: pattern) s = none := by
  induction s with
  | nil => rfl
  | cons c s ih =>
    obtain ⟨hb, hs⟩ := List.ne_and_not_mem_of_not_mem_cons h
    rw [splitOn?, if_neg, ih hs, Option.map_none]
    rw [List.isPrefixOf_cons_cons, beq_eq_false_iff_ne.2 hb]
    exact Bool.false_ne_true

theorem splitOnce_append_right {sep : UInt8} {s front back : Bytes}
    (h : splitOnce sep s = some (front, back)) (more : Bytes) :
    splitOnce sep (s ++ more) = some (front, back ++ more) := by
  induction s generalizing front with
  | nil => cases h
  | cons b s ih =>
    rw [splitOnce] at h
    rw [List.cons_append, splitOnce]
    split at h
    · next hb =>
      cases h
      exact if_pos hb
    · next hb =>
      obtain ⟨⟨front', back'⟩, hrest, heq⟩ := Option.map_eq_some_iff.1 h
      cases heq
      rw [if_neg hb, ih hrest, Option.map_some]

/-- Where the path of a URI that is resolved comes from: what is behind the authority, or all
    of it. -/
theorem extractPath_cases {uri : Bytes} {target : ResolvedPath}
    (h : resolve (extractPath uri) = some target) :
    (∃ front after authority path, splitOn? (utf8 "://") uri = some (front, after) ∧
        splitOnce 0x2f after = some (authority, path) ∧ extractPath uri = 0x2f :: path) ∨
      splitOn? (utf8 "://") uri = none ∧ extractPath uri = uri := by
  rw [extractPath] at h ⊢
  cases hscheme : splitOn? (utf8 "://") uri with
  | none => exact .inr ⟨rfl, rfl⟩
  | some parts =>
    obtain ⟨front, after⟩ := parts
    rw [hscheme] at h
    dsimp only at h ⊢
    cases hpath : splitOnce 0x2f after with
    | none =>
      -- There is no camera in the path of a bare authority.
      have hnone : resolve [0x2f] = none := by decide
      rw [hpath] at h
      exact absurd (hnone.symm.trans h) (Option.some_ne_none target).symm
    | some parts => exact .inl ⟨front, after, parts.1, parts.2, rfl, hpath, rfl⟩

/-- What stands behind a URI stands behind its path. -/
theorem extractPath_append {uri : Bytes} {target : ResolvedPath}
    (h : resolve (extractPath uri) = some target) (hname : ∀ b ∈ target.camera, isNameByte b)
    {more : Bytes} (hmore : 0x3a ∉ more) : extractPath (uri ++ more) = extractPath uri ++ more := by
  rcases extractPath_cases h with ⟨front, after, authority, path, hscheme, hpath, heq⟩ |
    ⟨hscheme, heq⟩
  · rw [heq, extractPath, splitOn?_append hscheme]
    dsimp only
    rw [splitOnce_append_right hpath]
    rfl
  · have hcolon : 0x3a ∉ uri ++ more := by
      intro hmem
      rcases List.mem_append.1 hmem with hmem | hmem
      · rw [heq] at h
        exact absurd (isNameByte_of_resolve h hname _ hmem) (by decide)
      · exact hmore hmem
    rw [heq, extractPath, utf8_schemeEnd, splitOn?_of_notMem hcolon]

theorem getLast?_extractPath {uri : Bytes} {target : ResolvedPath}
    (h : resolve (extractPath uri) = some target) :
    (extractPath uri).getLast? = uri.getLast? := by
  rcases extractPath_cases h with ⟨front, after, authority, path, hscheme, hpath, heq⟩ |
    ⟨-, heq⟩
  · rw [heq, splitOn?_eq_some hscheme, splitOnce_eq_some hpath, ← List.append_assoc,
      ← List.append_assoc, List.getLast?_append_cons]
  · rw [heq]

/-- The path of `Content-Base`: that of the request, but for slashes at its end. -/
theorem extractPath_contentBase {uri : Bytes} {target : ResolvedPath}
    (h : resolve (extractPath uri) = some target) (hname : ∀ b ∈ target.camera, isNameByte b)
    {control : Bytes} (hcontrol : 0x3a ∉ control) :
    ∃ path, extractPath (contentBase uri ++ control) = path ++ 0x2f :: control ∧
      resolve path = some target := by
  rw [contentBase]
  split
  · next hlast =>
    -- The path ends with the slash of the URI.
    rw [← getLast?_extractPath h] at hlast
    obtain ⟨path, hpath⟩ := List.getLast?_eq_some_iff.1 hlast
    refine ⟨path, ?_, ?_⟩
    · rw [extractPath_append h hname hcontrol, hpath, List.append_assoc, List.singleton_append]
    · rw [← resolve_append_slash, ← hpath, h]
  · refine ⟨extractPath uri, ?_, h⟩
    have hcolon : 0x3a ∉ 0x2f :: control := fun hmem =>
      (List.mem_cons.1 hmem).elim (by decide) hcontrol
    rw [List.append_assoc, List.singleton_append, extractPath_append h hname hcolon]

/-! ## The track of a `SETUP` -/

/-- The last separator is in front of what has none. -/
theorem rsplitOnce_append {sep : UInt8} {back : Bytes} (h : sep ∉ back) (front : Bytes) :
    rsplitOnce sep (front ++ sep :: back) = some (front, back) := by
  rw [rsplitOnce, List.reverse_append, List.reverse_cons, List.append_assoc,
    List.singleton_append, splitOnce_append (fun hmem => h (List.mem_reverse.1 hmem)),
    Option.map_some]
  dsimp only
  rw [List.reverse_reverse, List.reverse_reverse]

/-- The control attributes of the two tracks there can be. -/
theorem trackControl_spec {n : ℕ} (hn : n < 2) :
    (∀ b ∈ trackControl n, b = 0x3d ∨ isNameByte b) ∧
      (utf8 "trackID=").isPrefixOf (trackControl n) ∧
      parseUint 32 ((trackControl n).drop 8) = some n := by
  interval_cases n
  · decide +kernel
  · decide +kernel

theorem splitTrack_append {n : ℕ} (hn : n < 2) (path : Bytes) :
    splitTrack (path ++ 0x2f :: trackControl n) = (path, n) := by
  obtain ⟨hbytes, hstart, hparse⟩ := trackControl_spec hn
  have hslash : 0x2f ∉ trackControl n := fun hmem => absurd (hbytes _ hmem) (by decide)
  rw [splitTrack, rsplitOnce_append hslash]
  simp only [Option.bind_eq_bind, Option.bind_some, hstart, if_true, hparse]
  rfl

/-- The kind of a track, by its number. -/
def trackKind (n : ℕ) : TrackKind := if n = 0 then .video else .audio

/-- Behind `Content-Base`, the control attribute names the stream that was described. -/
theorem setupTarget_contentBase {uri : Bytes} {target : ResolvedPath}
    (h : resolve (extractPath uri) = some target) (hname : ∀ b ∈ target.camera, isNameByte b)
    {n : ℕ} (hn : n < 2) :
    setupTarget (contentBase uri ++ trackControl n) = some (target, trackKind n) := by
  have hcolon : 0x3a ∉ trackControl n :=
    fun hmem => absurd ((trackControl_spec hn).1 _ hmem) (by decide)
  obtain ⟨path, hpath, hresolve⟩ := extractPath_contentBase h hname hcolon
  rw [setupTarget, hpath, splitTrack_append hn]
  dsimp only
  rw [hresolve, Option.map_some, trackKind]

/-! ## Relative URIs -/

/-- A URI with a scheme and an authority, and neither a query nor a fragment in front of its
    path. -/
structure IsUrl (uri scheme authority path : Bytes) : Prop where
  eq : uri = scheme ++ 0x3a :: 0x2f :: 0x2f :: (authority ++ 0x2f :: path)
  scheme_ne : scheme ≠ []
  scheme : ∀ b ∈ scheme, b ≠ 0x3a ∧ b ≠ 0x2f ∧ b ≠ 0x3f ∧ b ≠ 0x23
  authority : ∀ b ∈ authority, b ≠ 0x2f ∧ b ≠ 0x3f ∧ b ≠ 0x23

theorem splitOn?_append_of_notMem {b : UInt8} {pattern s : Bytes} (h : b ∉ s) (back : Bytes) :
    splitOn? (b :: pattern) (s ++ b :: (pattern ++ back)) = some (s, back) := by
  induction s with
  | nil =>
    have hstart : (b :: pattern).isPrefixOf (b :: (pattern ++ back)) :=
      List.isPrefixOf_iff_prefix.2 (List.prefix_append (b :: pattern) back)
    rw [List.nil_append, splitOn?, if_pos hstart, ← List.cons_append, List.drop_left]
  | cons c s ih =>
    obtain ⟨hb, hs⟩ := List.ne_and_not_mem_of_not_mem_cons h
    rw [List.cons_append, splitOn?, if_neg, ih hs, Option.map_some]
    rw [List.isPrefixOf_cons_cons, beq_eq_false_iff_ne.2 hb]
    exact Bool.false_ne_true

/-- The path of a URL is what stands behind its authority. -/
theorem IsUrl.extractPath {uri scheme authority path : Bytes}
    (h : IsUrl uri scheme authority path) : extractPath uri = 0x2f :: path := by
  have hcolon : 0x3a ∉ scheme := fun hmem => (h.scheme _ hmem).1 rfl
  have hslash : 0x2f ∉ authority := fun hmem => (h.authority _ hmem).1 rfl
  have hsplit := @splitOn?_append_of_notMem 0x3a [0x2f, 0x2f] scheme hcolon
    (authority ++ 0x2f :: path)
  rw [Bairelay.extractPath, h.eq, utf8_schemeEnd]
  rw [List.cons_append, List.cons_append, List.nil_append] at hsplit
  rw [hsplit]
  dsimp only
  rw [splitOnce_append hslash]

/-- With a slash at its end, it is one as well. -/
theorem IsUrl.contentBase {uri scheme authority path : Bytes}
    (h : IsUrl uri scheme authority path) :
    ∃ path', IsUrl (contentBase uri) scheme authority path' ∧
      (∃ directory, 0x2f :: path' = directory ++ [0x2f]) ∧ ∀ b ∈ path', b = 0x2f ∨ b ∈ path := by
  rw [Bairelay.contentBase]
  split
  · next hlast =>
    have heq : uri = (scheme ++ 0x3a :: 0x2f :: 0x2f :: authority) ++ 0x2f :: path := by
      rw [h.eq, List.append_assoc]
      rfl
    rw [heq, List.getLast?_append_cons] at hlast
    exact ⟨path, h, List.getLast?_eq_some_iff.1 hlast, fun b hb => .inr hb⟩
  · refine ⟨path ++ [0x2f], { h with eq := ?_ }, ⟨0x2f :: path, rfl⟩, fun b hb => ?_⟩
    · rw [h.eq]
      simp
    · exact (List.mem_append.1 hb).symm.imp List.mem_singleton.1 id

/-- What a client makes of a control attribute is `Content-Base` with it at the end. -/
theorem join_contentBase {uri scheme authority path : Bytes}
    (hurl : IsUrl uri scheme authority path) {target : ResolvedPath}
    (h : resolve (extractPath uri) = some target) (hname : ∀ b ∈ target.camera, isNameByte b)
    {n : ℕ} (hn : n < 2) :
    UriReference.join (contentBase uri) (trackControl n) = contentBase uri ++ trackControl n := by
  obtain ⟨path', hbase, ⟨directory, hdirectory⟩, hpath'⟩ := hurl.contentBase
  have hpath : ∀ b ∈ path', b = 0x2f ∨ isNameByte b := by
    intro b hb
    refine (hpath' b hb).elim .inl fun hmem => ?_
    refine isNameByte_of_resolve h hname b ?_
    rw [hurl.extractPath]
    exact List.mem_cons_of_mem _ hmem
  have hcontrol := (trackControl_spec hn).1
  have hne : trackControl n ≠ [] := by
    intro hnil
    have hparse := (trackControl_spec hn).2.2
    rw [hnil] at hparse
    cases hparse
  rw [hbase.eq]
  refine UriReference.join_eq_append hbase.scheme_ne (fun b hb => ?_) (fun hmem => ?_) hdirectory
    (fun hmem => ?_) hne (fun b hb hmem => ?_) fun b hb hmem => ?_
  · exact ⟨(hbase.scheme b hb).1, (hbase.scheme b hb).2.1⟩
  · exact (hbase.authority _ hmem).1 rfl
  · exact absurd (hpath _ hmem) (by decide)
  · have hb' : ¬(b = 0x3d ∨ isNameByte b) := by fin_cases hb <;> decide
    exact hb' (hcontrol b hmem)
  · rw [List.mem_append, List.mem_append] at hmem
    rcases hmem with (hmem | hmem) | hmem
    · have hb' : ¬(b ≠ 0x3a ∧ b ≠ 0x2f ∧ b ≠ 0x3f ∧ b ≠ 0x23) := by fin_cases hb <;> decide
      exact hb' (hbase.scheme b hmem)
    · have hb' : ¬(b ≠ 0x2f ∧ b ≠ 0x3f ∧ b ≠ 0x23) := by fin_cases hb <;> decide
      exact hb' (hbase.authority b hmem)
    · have hb' : ¬(b = 0x2f ∨ isNameByte b) := by fin_cases hb <;> decide
      exact hb' (hpath b hmem)

/-! ## From a `DESCRIBE` to a `SETUP` -/

/-- A `DESCRIBE` that is answered with a description is of a camera that is configured. -/
theorem Server.headers_handleDescribe {config : ServerConfig} {s : Server} {r : ParsedRequest}
    {ambient : Ambient} {n : ℕ} {response : Response} {params : SdpParams}
    (h : (s.handleDescribe config r ambient).log.getLast? = some (.response n response))
    (hbody : response.body = some params) :
    ∃ target cam, resolve (Bairelay.extractPath r.uri) = some target ∧
      config.camera? target.camera = some cam ∧
      response.headers = [(utf8 "Content-Type", utf8 "application/sdp"),
        (utf8 "Content-Base", contentBase r.uri)] := by
  have hlast {s : Server} {request : ℕ} {answer : Response}
      (hrespond : (s.respond request answer).log.getLast? = some (.response n response)) :
      answer = response := by
    rw [respond, List.getLast?_concat] at hrespond
    cases hrespond
    rfl
  rw [handleDescribe] at h
  split at h
  · cases hlast h
    cases hbody
  · next target htarget =>
    split at h
    · next s' answer hauth =>
      cases hlast h
      rcases authenticated_cases config s r ambient (utf8 "DESCRIBE") with
        ⟨_, _, hauth', -⟩ | ⟨_, _, hauth', hnone⟩
      · rw [hauth'] at hauth
        cases hauth
      · rw [hauth'] at hauth
        cases hauth
        rw [hnone] at hbody
        cases hbody
    · next s' user hauth =>
      split at h
      · cases hlast h
        cases hbody
      · next s'' subscription hsubscribed =>
        obtain ⟨⟨cam, hcam, -⟩, -⟩ := subscribed_ok (congrArg Prod.snd hsubscribed)
        cases hlast h
        exact ⟨target, cam, htarget, hcam, rfl⟩

/-- With video, the number of a track gives its kind. -/
theorem SdpParams.trackKind_of_mem {params : SdpParams} (hvideo : params.video.isSome)
    {kind : TrackKind} {n : ℕ} (h : (kind, n) ∈ params.tracks.zipIdx) :
    n < 2 ∧ trackKind n = kind := by
  obtain ⟨v, hv⟩ := Option.isSome_iff_exists.1 hvideo
  rw [tracks, hv] at h
  cases haudio : params.audio with
  | none =>
    rw [haudio] at h
    obtain ⟨rfl, rfl⟩ := Prod.mk.inj (List.mem_singleton.1 h)
    exact ⟨by decide, rfl⟩
  | some a =>
    rw [haudio] at h
    rcases List.mem_cons.1 h with h | h
    · obtain ⟨rfl, rfl⟩ := Prod.mk.inj h
      exact ⟨by decide, rfl⟩
    · obtain ⟨rfl, rfl⟩ := Prod.mk.inj (List.mem_singleton.1 h)
      exact ⟨by decide, rfl⟩

/-- The control attribute of each media section that a `DESCRIBE` gives, behind the
    `Content-Base` it gives, is the URI of a `SETUP` of that kind of media, of the stream that
    was described; and if the URI of the request is one of a path, with neither a query nor a
    fragment before it, so is what the attribute means as a relative URI. -/
theorem setupTarget_of_describe {config : ServerConfig}
    (hnames : validateNames [] 0 config.cameras = .ok ()) {s : Server} {r : ParsedRequest}
    {ambient : Ambient} {n : ℕ} {response : Response} {params : SdpParams}
    (h : (s.handleDescribe config r ambient).log.getLast? = some (.response n response))
    (hbody : response.body = some params) (hparams : params.WellFormed)
    (hvideo : params.video.isSome) (base64 : Bytes → Line) (origin : SdpOrigin) :
    ∃ target base, resolve (extractPath r.uri) = some target ∧
      response.headers = [(utf8 "Content-Type", utf8 "application/sdp"),
        (utf8 "Content-Base", base)] ∧
      (mediaSections (splitCrlf (Sdp.build base64 origin params))).map MediaSection.media =
        params.tracks.map TrackKind.media ∧
      ∀ section' ∈ mediaSections (splitCrlf (Sdp.build base64 origin params)),
        ∃ kind control, section' = ⟨kind.media, some control⟩ ∧
          setupTarget (base ++ control) = some (target, kind) ∧
          ((∃ scheme authority path, IsUrl r.uri scheme authority path) →
            setupTarget (UriReference.join base control) = some (target, kind)) := by
  obtain ⟨target, cam, htarget, hcam, hheaders⟩ := Server.headers_handleDescribe h hbody
  have hname : ∀ b ∈ target.camera, isNameByte b := by
    have hmem := List.mem_of_find?_eq_some hcam
    have hfound : cam.name = target.camera := by simpa using List.find?_some hcam
    rw [← hfound]
    exact isNameByte_of_validateNames hnames cam
      (List.mem_of_mem_filter (List.mem_reverse.1 hmem))
  refine ⟨target, _, htarget, hheaders, ?_⟩
  rw [Sdp.mediaSections_build base64 origin hparams]
  refine ⟨?_, fun section' hsection => ?_⟩
  · have hfst := List.zipIdx_map_fst 0 params.tracks
    rw [← congrArg (List.map TrackKind.media) hfst, List.map_map, List.map_map]
    rfl
  · obtain ⟨⟨kind, k⟩, hmem, rfl⟩ := List.mem_map.1 hsection
    obtain ⟨hk, rfl⟩ := SdpParams.trackKind_of_mem hvideo hmem
    have hsetup := setupTarget_contentBase htarget hname hk
    refine ⟨trackKind k, trackControl k, rfl, hsetup, ?_⟩
    rintro ⟨scheme, authority, path, hurl⟩
    rw [join_contentBase hurl htarget hname hk]
    exact hsetup

/-! ### A stream of the porch -/

/-- Video, and its parameter sets in Base64. -/
def porchVideo : SdpParams where
  video := some ⟨.h264, 96, [0x67, 0x42, 0x00, 0x1f], [0x68, 0xce, 0x38, 0x80], none, 0x42, 0, 0x1f⟩

/-- The two parameter sets in Base64. -/
def porchBase64 (data : Bytes) : Line :=
  if data = [0x67, 0x42, 0x00, 0x1f] then ⟨utf8 "Z0IAHw==", by decide +kernel⟩
  else if data = [0x68, 0xce, 0x38, 0x80] then ⟨utf8 "aM44gA==", by decide +kernel⟩
  else ⟨[], by decide⟩

/-- The sender of the description. -/
def porchOrigin : SdpOrigin where
  serverIp := ⟨utf8 "192.168.1.5", by decide +kernel⟩
  sessionId := ⟨utf8 "1700000000", by decide +kernel⟩
  sessionName := ⟨utf8 "porch/main", by decide +kernel⟩

/-- A server with the stream. -/
def porchStream : Server where
  nonce := ⟨[], 0⟩
  media := { sources := [{ camera := utf8 "porch", kind := .main, sdpParams := porchVideo }] }

/-- Describe the stream under some URI. -/
def porchDescribe (uri : Bytes) : Server :=
  porchStream.handleDescribe (Server.porchServer [])
    { Server.porchRequest .describe [] with uri } { outcome := .ok 0 }

/-- The answer, with a URI for `Content-Base`. -/
def porchDescription (base : Bytes) : Response where
  status := .ok
  cseq := 1
  headers := [(utf8 "Content-Type", utf8 "application/sdp"), (utf8 "Content-Base", base)]
  body := some porchVideo

/-- With a slash in the query, the camera is found there, but a relative URI does not mean
    anything behind a query. -/
theorem setupTarget_join_query :
    (porchDescribe (utf8 "rtsp://home?x=/porch")).log.getLast? =
        some (.response 0 (porchDescription (utf8 "rtsp://home?x=/porch/"))) ∧
      resolve (extractPath (utf8 "rtsp://home?x=/porch")) = some ⟨utf8 "porch", .main⟩ ∧
      mediaSections (splitCrlf (Sdp.build porchBase64 porchOrigin porchVideo)) =
        [⟨utf8 "video", some (utf8 "trackID=0")⟩] ∧
      UriReference.join (utf8 "rtsp://home?x=/porch/") (utf8 "trackID=0") =
        utf8 "rtsp://home/trackID=0" ∧
      setupTarget (utf8 "rtsp://home/trackID=0") = none := by
  decide +kernel

/-- Video, and AAC from a microphone. -/
def porchTracks : SdpParams :=
  { porchVideo with audio := some ⟨.aac, 97, 16000, 1, some "1408"⟩ }

/-- The same with sound. -/
def heardPorch : Server :=
  { porchStream with
    media := { sources := [{ camera := utf8 "porch", kind := .main, sdpParams := porchTracks }] } }

theorem setupTarget_of_describe_porch :
    ∃ target base, resolve (extractPath (utf8 "rtsp://home/porch/MainStream")) = some target ∧
      (porchDescription (utf8 "rtsp://home/porch/MainStream/")).headers =
        [(utf8 "Content-Type", utf8 "application/sdp"), (utf8 "Content-Base", base)] ∧
      (mediaSections (splitCrlf (Sdp.build porchBase64 porchOrigin porchTracks))).map
        MediaSection.media = [utf8 "video", utf8 "audio"] ∧
      ∀ section' ∈ mediaSections (splitCrlf (Sdp.build porchBase64 porchOrigin porchTracks)),
        ∃ kind control, section' = ⟨kind.media, some control⟩ ∧
          setupTarget (base ++ control) = some (target, kind) ∧
          ((∃ scheme authority path,
              IsUrl (utf8 "rtsp://home/porch/MainStream") scheme authority path) →
            setupTarget (UriReference.join base control) = some (target, kind)) := by
  have hanswer : (heardPorch.handleDescribe (Server.porchServer [])
      { Server.porchRequest .describe [] with uri := utf8 "rtsp://home/porch/MainStream" }
      { outcome := .ok 0 }).log.getLast? = some (.response 0
        { porchDescription (utf8 "rtsp://home/porch/MainStream/") with body := porchTracks }) := by
    decide +kernel
  have hparams : porchTracks.WellFormed := by
    intro a ha asc hasc
    obtain rfl := Option.some.inj ha
    obtain rfl := Option.some.inj hasc
    exact ⟨2, 16000, 1, by decide +kernel⟩
  exact setupTarget_of_describe (by decide +kernel) hanswer rfl hparams rfl porchBase64 porchOrigin

end Bairelay
