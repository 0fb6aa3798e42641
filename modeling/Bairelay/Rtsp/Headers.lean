import Bairelay.Rtsp.Auth

/-!
# Slicing headers

The parsers of the `Authorization` and `Transport` headers (`rtsp/protocol/auth.rs`,
`rtsp/protocol/transport.rs`) once more, with the slices of strings as they are taken:
an index that is past the end or inside a character panics, and so does an `unreachable!`.
Here that is `none`, and what `some` holds is what the parsers of `Bairelay.Rtsp.Auth` and
`Bairelay.Rtsp.Url` return (`verifyDigest?_eq` and the like).

* `headers_return_iff`: which headers make them panic. The prefix of a string is taken
  for a comparison without looking where its characters end.
* `uriPath?_eq`: the slices of a URI are safe. They are taken behind ASCII characters,
  and of text in UTF-8 no character goes on behind one (`utf8_isText`).
-/

namespace Bairelay

/-! ## Characters -/

/-- A byte of a character other than its first one. -/
def isContinuation (b : UInt8) : Bool := 0x80 ≤ b && b < 0xc0

/-- A character begins here, or the text ends. -/
def isCharBoundary (s : Bytes) (i : ℕ) : Bool :=
  match s[i]? with
  | some b => i = 0 || !isContinuation b
  | none => i = s.length

/-- `&s[..i]` -/
def sliceTo? (s : Bytes) (i : ℕ) : Option Bytes :=
  if isCharBoundary s i then some (s.take i) else none

/-- `&s[i..]` -/
def sliceFrom? (s : Bytes) (i : ℕ) : Option Bytes :=
  if isCharBoundary s i then some (s.drop i) else none

/-- No character goes on behind an ASCII character. -/
def IsText (s : Bytes) : Prop := s.IsChain fun a b => a < 0x80 → isContinuation b = false

theorem IsText.infix {s t : Bytes} (h : IsText s) (hwithin : t <:+: s) : IsText t :=
  List.IsChain.infix h hwithin

/-- The bytes of a character: the first one is no continuation, and if there are more,
    none of them is ASCII. -/
theorem utf8EncodeChar_isText (c : Char) :
    IsText (String.utf8EncodeChar c) ∧
      ∀ b ∈ (String.utf8EncodeChar c).head?, isContinuation b = false := by
  have hword {lo n : ℕ} (hlo : lo ≤ n) (hn : n < 256) : UInt8.ofNat lo ≤ UInt8.ofNat n := by
    rw [UInt8.le_iff_toNat_le, UInt8.toNat_ofNat_of_lt' hn,
      UInt8.toNat_ofNat_of_lt' (hlo.trans_lt hn)]
    exact hlo
  have hfirst {n : ℕ} (hlo : 0xc0 ≤ n) (hn : n < 256) : isContinuation (UInt8.ofNat n) = false := by
    have hle := UInt8.not_lt.2 (hword hlo hn)
    rw [isContinuation, Bool.and_eq_false_iff, decide_eq_false_iff_not, decide_eq_false_iff_not]
    exact .inr hle
  have hrest {n : ℕ} (hlo : 0x80 ≤ n) (hn : n < 256) : (0x80 : UInt8) ≤ UInt8.ofNat n :=
    hword hlo hn
  have hhigh {bytes : Bytes} (h : ∀ b ∈ bytes, 0x80 ≤ b) : IsText bytes :=
    List.Pairwise.isChain (List.pairwise_of_forall_mem_list fun a ha b _ hlt =>
      absurd hlt (UInt8.not_lt.2 (h a ha)))
  have hcode := c.valid
  rw [String.utf8EncodeChar]
  split
  · next hle =>
    refine ⟨List.isChain_singleton _, fun b hb => ?_⟩
    obtain rfl := Option.some.inj hb
    rw [isContinuation, Bool.and_eq_false_iff, decide_eq_false_iff_not, UInt8.not_le,
      UInt8.lt_iff_toNat_lt, UInt8.toNat_ofNat_of_lt' (show _ < 256 by omega)]
    exact .inl (Nat.lt_succ_of_le hle)
  · split
    · refine ⟨hhigh ?_, ?_⟩
      · simp only [List.mem_cons, List.not_mem_nil, or_false, forall_eq_or_imp, forall_eq]
        exact ⟨hrest (by omega) (by omega), hrest (by omega) (by omega)⟩
      · rintro b ⟨⟩
        exact hfirst (by omega) (by omega)
    · split
      · refine ⟨hhigh ?_, ?_⟩
        · simp only [List.mem_cons, List.not_mem_nil, or_false, forall_eq_or_imp, forall_eq]
          exact ⟨hrest (by omega) (by omega), hrest (by omega) (by omega),
            hrest (by omega) (by omega)⟩
        · rintro b ⟨⟩
          exact hfirst (by omega) (by omega)
      · refine ⟨hhigh ?_, ?_⟩
        · simp only [List.mem_cons, List.not_mem_nil, or_false, forall_eq_or_imp, forall_eq]
          exact ⟨hrest (by omega) (by omega), hrest (by omega) (by omega),
            hrest (by omega) (by omega), hrest (by omega) (by omega)⟩
        · rintro b ⟨⟩
          exact hfirst (by omega) (by omega)

theorem byteArray_toList (bytes : ByteArray) : bytes.toList = bytes.data.toList := by
  have hloop (i : ℕ) (read : Bytes) :
      ByteArray.toList.loop bytes i read = read.reverse ++ bytes.data.toList.drop i := by
    fun_induction ByteArray.toList.loop bytes i read with
    | case1 i read h ih =>
      have hi : i < bytes.data.toList.length := h
      have hget : bytes.get! i = bytes.data.toList[i] := getElem!_pos bytes.data i h
      rw [ih, List.drop_eq_getElem_cons hi, List.reverse_cons, List.append_assoc, hget]
      rfl
    | case2 i read h => rw [List.drop_of_length_le (not_lt.1 h), List.append_nil]
  exact hloop 0 []

/-- The bytes of a string are those of its characters. -/
theorem utf8_eq_flatMap (s : String) : utf8 s = s.toList.flatMap String.utf8EncodeChar := by
  rw [utf8, byteArray_toList, String.toUTF8, ← String.utf8Encode_toList, List.utf8Encode]
  exact List.toList_data_toByteArray

/-- For the bytes of a literal. -/
theorem utf8_ofList (chars : List Char) :
    utf8 (String.ofList chars) = chars.flatMap String.utf8EncodeChar := by
  rw [utf8_eq_flatMap, String.toList_ofList]

theorem utf8_schemeEnd : utf8 "://" = [0x3a, 0x2f, 0x2f] := by
  rw [utf8_ofList]
  rfl

theorem length_basic : (utf8 "Basic ").length = 6 := by
  rw [utf8_ofList]
  rfl

theorem length_digest : (utf8 "Digest ").length = 7 := by
  rw [utf8_ofList]
  rfl

theorem length_unicast : (utf8 "unicast").length = 7 := by
  rw [utf8_ofList]
  rfl

theorem length_multicast : (utf8 "multicast").length = 9 := by
  rw [utf8_ofList]
  rfl

theorem length_interleaved : (utf8 "interleaved=").length = 12 := by
  rw [utf8_ofList]
  rfl

theorem length_clientPort : (utf8 "client_port=").length = 12 := by
  rw [utf8_ofList]
  rfl

theorem utf8_isText (s : String) : IsText (utf8 s) := by
  have hchars (chars : List Char) : IsText (chars.flatMap String.utf8EncodeChar) ∧
      ∀ b ∈ (chars.flatMap String.utf8EncodeChar).head?, isContinuation b = false := by
    induction chars with
    | nil => exact ⟨List.isChain_nil, by simp⟩
    | cons c chars ih =>
      obtain ⟨hchar, hfirst⟩ := utf8EncodeChar_isText c
      rw [List.flatMap_cons]
      refine ⟨List.isChain_append.2 ⟨hchar, ih.1, fun a _ b hb _ => ih.2 b hb⟩, fun b hb => ?_⟩
      rw [List.head?_append] at hb
      cases hhead : (String.utf8EncodeChar c).head? with
      | none =>
        rw [hhead, Option.none_or] at hb
        exact ih.2 b hb
      | some b' =>
        rw [hhead, Option.some_or] at hb
        exact hfirst b (hhead.trans hb)
  rw [utf8_eq_flatMap]
  exact (hchars _).1

/-- A boundary behind an ASCII character. -/
theorem isCharBoundary_of_isText {front back : Bytes} {b : UInt8} (hb : b < 0x80)
    (h : IsText (front ++ b :: back)) :
    isCharBoundary (front ++ b :: back) (front.length + 1) := by
  have hindex : (front ++ b :: back)[front.length + 1]? = back[0]? := by
    rw [List.getElem?_append_right (Nat.le_succ _), Nat.succ_sub le_rfl, Nat.sub_self]
    rfl
  rw [isCharBoundary, hindex]
  cases back with
  | nil => simp
  | cons b' back =>
    have hpair : IsText [b, b'] := h.infix ⟨front, back, by simp⟩
    have hnot : isContinuation b' = false := (List.isChain_pair.1 hpair) hb
    simp [hnot]

/-- Behind an ASCII character, the rest is a slice. -/
theorem sliceFrom?_append {front back : Bytes} {b : UInt8} (hb : b < 0x80)
    (h : IsText (front ++ b :: back)) :
    sliceFrom? (front ++ b :: back) (front.length + 1) = some back := by
  rw [sliceFrom?, if_pos (isCharBoundary_of_isText hb h), ← List.drop_drop, List.drop_left]
  rfl

/-! ## Prefixes -/

/-- `strip_prefix_ignore_case`; the answer `none` of the source is `some none`. -/
def stripPrefixIgnoreCase? (start s : Bytes) : Option (Option Bytes) :=
  if start.length ≤ s.length then do
    let front ← sliceTo? s start.length
    if eqIgnoreAsciiCase front start then (sliceFrom? s start.length).map some else some none
  else some none

/-- There are not as many bytes, or a character ends behind them. -/
def FrontEnds (n : ℕ) (s : Bytes) : Prop := s.length < n ∨ isCharBoundary s n

instance (n : ℕ) : DecidablePred (FrontEnds n) := fun _ => inferInstanceAs (Decidable (_ ∨ _))

/-- The prefix is looked for in as many bytes as it has, which have to end between characters. -/
theorem stripPrefixIgnoreCase?_eq (start s : Bytes) : stripPrefixIgnoreCase? start s =
    if FrontEnds start.length s then some (stripPrefixIgnoreCase start s) else none := by
  rw [stripPrefixIgnoreCase?, stripPrefixIgnoreCase, sliceTo?, sliceFrom?]
  by_cases hlen : start.length ≤ s.length
  · by_cases hboundary : isCharBoundary s start.length
    · have hends : FrontEnds start.length s := .inr hboundary
      rw [if_pos hlen, if_pos hboundary, if_pos hboundary, if_pos hends]
      by_cases heq : eqIgnoreAsciiCase (s.take start.length) start
      · simp [hlen, heq]
      · simp [hlen, heq]
    · have hnot : ¬FrontEnds start.length s := not_or.2 ⟨not_lt.2 hlen, hboundary⟩
      rw [if_pos hlen, if_neg hboundary, if_neg hnot]
      rfl
  · rw [if_neg hlen, if_pos (show FrontEnds _ s from .inl (not_le.1 hlen)),
      if_neg fun h => hlen h.1]

/-! ## The `Authorization` header -/

section

variable (digests : Digests)

/-- `verify_basic`, or `none` for a panic. -/
def verifyBasic? (authz : Bytes) (users : List UserCred) : Option (Except AuthError Bytes) := do
  match ← stripPrefixIgnoreCase? (utf8 "Basic ") authz with
  | none => some (throw .unknownScheme)
  | some rest =>
    match (digests.base64 (trim rest)).filter isUtf8 with
    | none => some (throw .malformed)
    | some decoded =>
      match splitOnce 0x3a decoded with
      | none => some (throw .malformed)
      | some (user, pass) =>
        match users.find? fun u => u.name = user ∧ u.password = pass with
        | some u => some (return u.name)
        | none => some (throw .badCredentials)

/-- `parse_digest_params`, or `none` for a panic. -/
def parseDigestParams? (value : Bytes) : Option (Except AuthError (Bytes → Option Bytes)) := do
  match ← stripPrefixIgnoreCase? (utf8 "Digest ") value with
  | none => some (throw .unknownScheme)
  | some rest => some do
    let params ← (splitDigestParams false [] rest).mapM fun part =>
      match splitOnce 0x3d part with
      | some (k, v) => return ((trim k).map toAsciiLowercase, trimQuotes (trim v))
      | none => throw .malformed
    return fun name => params.reverse.lookup name

/-- The slices start where something is found, or three bytes behind it. -/
def uriPath? (uri : Bytes) : Option Bytes :=
  match splitOn? (utf8 "://") uri with
  | some (scheme, _) => do
    let after ← sliceFrom? uri (scheme.length + 3)
    match splitOnce 0x2f after with
    | some (authority, _) => sliceFrom? after authority.length
    | none => some [0x2f]
  | none => some uri

/-- `verify_digest`, or `none` for a panic. -/
def verifyDigest? (authz method requestUri : Bytes) (users : List UserCred) (realm : Bytes)
    (nonceOk : Bytes → Bool) : Option (Except AuthError Bytes) := do
  match ← parseDigestParams? authz with
  | .error e => some (throw e)
  | .ok params =>
    match params (utf8 "username"), params (utf8 "nonce"), params (utf8 "uri"),
      params (utf8 "response") with
    -- The parameters that must be there.
    | some username, some nonce, some uri, some response =>
      let qop := (params (utf8 "qop")).getD []
      let nc := (params (utf8 "nc")).getD []
      let cnonce := (params (utf8 "cnonce")).getD []
      if !nonceOk nonce then some (throw .staleNonce)
      else
        let path ← uriPath? uri
        let requestPath ← uriPath? requestUri
        if path ≠ requestPath then some (throw .badCredentials)
        else
          let shown := fun user : UserCred => user.name = username ∧
            digestResponse digests user.name realm user.password method uri nonce nc cnonce qop =
              response.map toAsciiLowercase
          match users.find? fun user => shown user with
          | some user => some (return user.name)
          | none => some (throw .badCredentials)
    | _, _, _, _ => some (throw .malformed)

/-- `Basic` panics only on a cut in its own prefix. -/
theorem verifyBasic?_eq (authz : Bytes) (users : List UserCred) :
    verifyBasic? digests authz users =
      if FrontEnds 6 authz then some (verifyBasic digests authz users) else none := by
  rw [verifyBasic?, stripPrefixIgnoreCase?_eq, length_basic]
  split
  · rw [Option.bind_eq_bind, Option.bind_some, verifyBasic]
    cases stripPrefixIgnoreCase (utf8 "Basic ") authz with
    | none => rfl
    | some rest =>
      dsimp only
      cases (digests.base64 (trim rest)).filter isUtf8 with
      | none => rfl
      | some decoded =>
        dsimp only
        cases splitOnce 0x3a decoded with
        | none => rfl
        | some credentials =>
          dsimp only
          cases users.find? fun u => u.name = credentials.1 ∧ u.password = credentials.2 <;> rfl
  · rfl

theorem parseDigestParams?_eq (value : Bytes) : parseDigestParams? value =
    if FrontEnds 7 value then some (parseDigestParams value) else none := by
  rw [parseDigestParams?, stripPrefixIgnoreCase?_eq, length_digest]
  split
  · rw [Option.bind_eq_bind, Option.bind_some, parseDigestParams]
    cases stripPrefixIgnoreCase (utf8 "Digest ") value <;> rfl
  · rfl

/-! ### Pieces of text -/

theorem splitOn?_eq_some {pattern s front back : Bytes}
    (h : splitOn? pattern s = some (front, back)) : s = front ++ (pattern ++ back) := by
  induction s generalizing front with
  | nil =>
    rw [splitOn?] at h
    split at h
    · next hpattern =>
      cases h
      rw [hpattern]
      rfl
    · cases h
  | cons b s ih =>
    rw [splitOn?] at h
    split at h
    · next hstart =>
      cases h
      exact (List.prefix_iff_eq_append.1 (List.isPrefixOf_iff_prefix.1 hstart)).symm
    · obtain ⟨⟨front', back'⟩, hrest, heq⟩ := Option.map_eq_some_iff.1 h
      cases heq
      rw [ih hrest]
      rfl

/-- The slices of a URI are safe, and give its path. -/
theorem uriPath?_eq {uri : Bytes} (h : IsText uri) : uriPath? uri = some (uriPath uri) := by
  rw [uriPath?, uriPath]
  cases hscheme : splitOn? (utf8 "://") uri with
  | none => rfl
  | some parts =>
    obtain ⟨scheme, after⟩ := parts
    have huri : uri = (scheme ++ [0x3a, 0x2f]) ++ 0x2f :: after := by
      rw [splitOn?_eq_some hscheme, utf8_schemeEnd]
      simp
    have hafter : sliceFrom? uri (scheme.length + 3) = some after := by
      rw [huri] at h ⊢
      have hslice := sliceFrom?_append (by decide) h
      rwa [List.length_append] at hslice
    dsimp only
    rw [hafter, Option.bind_eq_bind, Option.bind_some]
    cases hpath : splitOnce 0x2f after with
    | none => rfl
    | some parts =>
      obtain ⟨authority, path⟩ := parts
      dsimp only
      have hindex : after[authority.length]? = some 0x2f := by
        rw [splitOnce_eq_some hpath, List.getElem?_append_right le_rfl, Nat.sub_self]
        rfl
      have hboundary : isCharBoundary after authority.length := by
        rw [isCharBoundary, hindex]
        exact Bool.or_eq_true_iff.2 (.inr rfl)
      rw [sliceFrom?, if_pos hboundary, splitOnce_eq_some hpath, List.drop_left]

theorem dropAll_suffix (strings : List Bytes) (fuel : ℕ) (s : Bytes) :
    dropAll strings fuel s <:+ s := by
  induction fuel generalizing s with
  | zero => exact List.suffix_rfl
  | succ fuel ih =>
    rw [dropAll]
    split
    · next w _ => exact (ih _).trans (List.drop_suffix w.length s)
    · exact List.suffix_rfl

theorem trim_isInfix (s : Bytes) : trim s <:+: s := by
  have hend : trim s <+: trimStart s := by
    rw [trim, trimEnd]
    exact List.reverse_suffix.1 (by rw [List.reverse_reverse]; exact dropAll_suffix _ _ _)
  exact hend.isInfix.trans (dropAll_suffix whitespace s.length s).isInfix

theorem trimQuotes_isInfix (s : Bytes) : trimQuotes s <:+: s := by
  have hend : trimQuotes s <+: s.dropWhile (· = 0x22) := by
    rw [trimQuotes]
    exact List.reverse_suffix.1 (by rw [List.reverse_reverse]; exact List.dropWhile_suffix _)
  exact hend.isInfix.trans (List.dropWhile_suffix _).isInfix

theorem infix_of_mem_splitDigestParams {inQuotes : Bool} {cur s part : Bytes}
    (h : part ∈ splitDigestParams inQuotes cur s) : part <:+: cur ++ s := by
  induction s generalizing inQuotes cur with
  | nil =>
    rw [splitDigestParams] at h
    split at h
    · cases h
    · rw [List.mem_singleton.1 h, List.append_nil]
  | cons ch s ih =>
    have hcons : cur ++ ch :: s = cur ++ [ch] ++ s := by rw [List.append_assoc]; rfl
    rw [splitDigestParams] at h
    split at h
    · exact hcons ▸ ih h
    · split at h
      · rcases List.mem_cons.1 h with rfl | h
        · exact (List.prefix_append _ _).isInfix
        · exact (ih h).trans ⟨cur ++ [ch], [], by rw [hcons, List.append_nil]; rfl⟩
      · exact hcons ▸ ih h

/-- What is made of the elements of a list, all of them without an error. -/
theorem exists_of_mem_mapM {α β ε : Type} {f : α → Except ε β} {l : List α} {out : List β}
    (h : l.mapM f = .ok out) {b : β} (hb : b ∈ out) : ∃ a ∈ l, f a = .ok b := by
  induction l generalizing out with
  | nil =>
    cases h
    cases hb
  | cons a l ih =>
    rw [List.mapM_cons] at h
    cases ha : f a with
    | error e =>
      rw [ha] at h
      cases h
    | ok b' =>
      cases hl : l.mapM f with
      | error e =>
        rw [ha, hl] at h
        cases h
      | ok out' =>
        rw [ha, hl] at h
        cases h
        rcases List.mem_cons.1 hb with rfl | hb
        · exact ⟨a, List.mem_cons_self, ha⟩
        · obtain ⟨a', ha', hf⟩ := ih hl hb
          exact ⟨a', List.mem_cons_of_mem _ ha', hf⟩

/-- The values of the parameters stand in the header. -/
theorem infix_of_parseDigestParams {value : Bytes} {params : Bytes → Option Bytes}
    (h : parseDigestParams value = .ok params) {name v : Bytes} (hv : params name = some v) :
    v <:+: value := by
  rw [parseDigestParams, stripPrefixIgnoreCase] at h
  split at h
  · cases h
  · next rest hrest =>
    have hsuffix : rest <:+: value := by
      split at hrest
      · cases hrest
        exact (List.drop_suffix _ value).isInfix
      · cases hrest
    dsimp only [bind, Except.bind] at h
    split at h
    · cases h
    · next out hout =>
      cases h
      obtain ⟨front, back, hfound, -⟩ := List.lookup_eq_some_iff.1 hv
      have hmem : (name, v) ∈ out := by
        rw [← List.mem_reverse, hfound]
        exact List.mem_append_right _ List.mem_cons_self
      obtain ⟨part, hpart, hsplit⟩ := exists_of_mem_mapM hout hmem
      have hpart' := infix_of_mem_splitDigestParams hpart
      rw [List.nil_append] at hpart'
      split at hsplit
      · next k v' hsplit' =>
        cases hsplit
        have hvalue : v' <:+: part := ⟨k ++ [0x3d], [], by rw [splitOnce_eq_some hsplit']; simp⟩
        exact ((((trimQuotes_isInfix _).trans (trim_isInfix v')).trans hvalue).trans hpart').trans
          hsuffix
      · cases hsplit

/-- A digest panics only on a cut in the prefix of its header: URIs are cut next to ASCII
    characters. -/
theorem verifyDigest?_eq {authz requestUri : Bytes} (hauthz : IsText authz)
    (hrequestUri : IsText requestUri) (method : Bytes) (users : List UserCred) (realm : Bytes)
    (nonceOk : Bytes → Bool) : verifyDigest? digests authz method requestUri users realm nonceOk =
      if FrontEnds 7 authz then
        some (verifyDigest digests authz method requestUri users realm nonceOk)
      else none := by
  rw [verifyDigest?, parseDigestParams?_eq]
  split
  · rw [Option.bind_eq_bind, Option.bind_some, verifyDigest]
    cases hparams : parseDigestParams authz with
    | error e => rfl
    | ok params =>
      dsimp only [bind, Except.bind]
      cases params (utf8 "username") with
      | none => rfl
      | some username =>
        cases params (utf8 "nonce") with
        | none => rfl
        | some nonce =>
          cases huri : params (utf8 "uri") with
          | none => rfl
          | some uri =>
            cases params (utf8 "response") with
            | none => rfl
            | some response =>
              have huriText := hauthz.infix (infix_of_parseDigestParams hparams huri)
              dsimp only
              rw [uriPath?_eq huriText, uriPath?_eq hrequestUri, Option.bind_some,
                Option.bind_some, digestUriPathsMatch]
              cases nonceOk nonce with
              | false => rfl
              | true =>
                by_cases hpath : uriPath uri = uriPath requestUri
                · simp only [hpath, ne_eq, not_true_eq_false, decide_true, Bool.not_true,
                    Bool.false_eq_true, if_false]
                  generalize users.find? _ = found
                  cases found <;> rfl
                · simp only [hpath, ne_eq, not_false_eq_true, decide_false, Bool.not_false,
                    Bool.not_true, Bool.false_eq_true, if_false, if_true]
  · rfl

end

/-! ## The `Transport` header -/

/-- The channels and the ports that are named, the last of each. -/
def parseParameters? : List Bytes → Option (ℕ × ℕ) × Option (ℕ × ℕ) →
    Option (Except TransportError (Option (ℕ × ℕ) × Option (ℕ × ℕ)))
  | [], named => some (return named)
  | part :: parts, (interleaved, clientPort) =>
    if eqIgnoreAsciiCase part (utf8 "unicast") then
      parseParameters? parts (interleaved, clientPort)
    else if eqIgnoreAsciiCase part (utf8 "multicast") then
      some (throw (.unsupported (utf8 "multicast")))
    else do
      match ← stripPrefixIgnoreCase? (utf8 "interleaved=") part with
      | some rest =>
        match parseRange 8 rest with
        | .ok range => parseParameters? parts (some range, clientPort)
        | .error e => some (throw e)
      | none =>
        match ← stripPrefixIgnoreCase? (utf8 "client_port=") part with
        | some rest =>
          match parseRange 16 rest with
          | .ok range => parseParameters? parts (interleaved, some range)
          | .error e => some (throw e)
        | none => parseParameters? parts (interleaved, clientPort)

/-- `TransportSpec::parse`, or `none` for a panic. -/
def TransportSpec.parse? (value : Bytes) : Option (Except TransportError TransportSpec) :=
  match ((trim value).splitOn 0x3b).map trim with
  | [] => some (throw (.malformed (utf8 "empty")))
  | profile :: parts =>
    let isTcp := eqIgnoreAsciiCase profile (utf8 "RTP/AVP/TCP")
    let isUdp := eqIgnoreAsciiCase profile (utf8 "RTP/AVP") ||
      eqIgnoreAsciiCase profile (utf8 "RTP/AVP/UDP")
    if !isTcp && !isUdp then some (throw (.unsupported profile))
    else do
      match ← parseParameters? parts (none, none) with
      | .error e => some (throw e)
      | .ok (interleaved, clientPort) =>
        if isTcp then
          match interleaved with
          | some (rtp, rtcp) => some (return .tcpInterleaved (.ofNat rtp) (.ofNat rtcp))
          | none => some (throw (.malformed (utf8 "TCP without interleaved")))
        else if isUdp then
          match clientPort with
          | some (rtp, rtcp) => some (return .udpUnicast (.ofNat rtp) (.ofNat rtcp))
          | none => some (throw (.malformed (utf8 "UDP without client_port")))
        -- `unreachable!()`
        else none

/-- A parameter behind which the others are not looked at. -/
def isRejected (part : Bytes) : Bool :=
  eqIgnoreAsciiCase part (utf8 "multicast") ||
    match stripPrefixIgnoreCase (utf8 "interleaved=") part with
    | some rest => !(parseRange 8 rest).isOk
    | none =>
      match stripPrefixIgnoreCase (utf8 "client_port=") part with
      | some rest => !(parseRange 16 rest).isOk
      | none => false

/-- Of the parameters that are looked at, none has a character that goes on behind
    `interleaved=` or `client_port=`, which are of one length. -/
def parametersEnd : List Bytes → Bool
  | [] => true
  | part :: parts => decide (FrontEnds 12 part) && (isRejected part || parametersEnd parts)

/-- The profiles that are served. -/
def isProfile (profile : Bytes) : Bool :=
  eqIgnoreAsciiCase profile (utf8 "RTP/AVP/TCP") || eqIgnoreAsciiCase profile (utf8 "RTP/AVP") ||
    eqIgnoreAsciiCase profile (utf8 "RTP/AVP/UDP")

/-- The same of a header; without a profile that is served, no parameter is looked at. -/
def transportEnds (value : Bytes) : Bool :=
  match ((trim value).splitOn 0x3b).map trim with
  | [] => true
  | profile :: parts => !isProfile profile || parametersEnd parts

/-- Texts that differ in case only are of one length. -/
theorem length_of_eqIgnoreAsciiCase {s t : Bytes} (h : eqIgnoreAsciiCase s t) :
    s.length = t.length := by
  rw [← @List.length_map _ _ s toAsciiLowercase, of_decide_eq_true h, List.length_map]

/-- Too short a parameter names no channels and no ports. -/
theorem isRejected_of_length_lt {part : Bytes} (h : part.length < 12) :
    isRejected part = eqIgnoreAsciiCase part (utf8 "multicast") := by
  have hinterleaved : stripPrefixIgnoreCase (utf8 "interleaved=") part = none := by
    rw [stripPrefixIgnoreCase, length_interleaved]
    exact if_neg fun hstrip => absurd hstrip.1 (not_le.2 h)
  have hclientPort : stripPrefixIgnoreCase (utf8 "client_port=") part = none := by
    rw [stripPrefixIgnoreCase, length_clientPort]
    exact if_neg fun hstrip => absurd hstrip.1 (not_le.2 h)
  rw [isRejected, hinterleaved, hclientPort]
  simp

/-- Parameters panic only on a cut in one of the four prefixes. -/
theorem parseParameters?_eq (parts : List Bytes) (named : Option (ℕ × ℕ) × Option (ℕ × ℕ)) :
    parseParameters? parts named =
      if parametersEnd parts then some (parseParameters parts named) else none := by
  induction parts generalizing named with
  | nil => rfl
  | cons part parts ih =>
    obtain ⟨interleaved, clientPort⟩ := named
    rw [parseParameters?, parseParameters, parametersEnd]
    by_cases hunicast : eqIgnoreAsciiCase part (utf8 "unicast")
    · have hlen : part.length = 7 :=
        (length_of_eqIgnoreAsciiCase hunicast).trans length_unicast
      have hmulticast : eqIgnoreAsciiCase part (utf8 "multicast") = false :=
        Bool.eq_false_iff.2 fun hmulticast => by
          have hlen' := (length_of_eqIgnoreAsciiCase hmulticast).trans length_multicast
          omega
      have hrejected := (isRejected_of_length_lt (by omega)).trans hmulticast
      have hends : FrontEnds 12 part := .inl (by omega)
      rw [if_pos hunicast, if_pos hunicast, ih]
      simp only [hends, hrejected, decide_true, Bool.true_and, Bool.false_or]
    · rw [if_neg hunicast, if_neg hunicast]
      by_cases hmulticast : eqIgnoreAsciiCase part (utf8 "multicast")
      · have hlen : part.length = 9 :=
          (length_of_eqIgnoreAsciiCase hmulticast).trans length_multicast
        have hrejected := (isRejected_of_length_lt (by omega)).trans hmulticast
        have hends : FrontEnds 12 part := .inl (by omega)
        simp only [hmulticast, hends, hrejected, decide_true, Bool.true_and, Bool.true_or, if_true]
      · rw [if_neg hmulticast, if_neg hmulticast, stripPrefixIgnoreCase?_eq,
          stripPrefixIgnoreCase?_eq, length_interleaved, length_clientPort]
        by_cases hends : FrontEnds 12 part
        · simp only [hends, if_true, decide_true, Bool.true_and, Option.bind_eq_bind,
            Option.bind_some]
          rw [isRejected, Bool.eq_false_iff.2 hmulticast, Bool.false_or]
          -- A range that is malformed ends the loop, and so do no other parameters.
          cases stripPrefixIgnoreCase (utf8 "interleaved=") part with
          | some rest =>
            change _ = if !(parseRange 8 rest).isOk || parametersEnd parts then _ else _
            dsimp only
            cases parseRange 8 rest with
            | error e => rfl
            | ok range => exact ih (some range, clientPort)
          | none =>
            dsimp only
            cases stripPrefixIgnoreCase (utf8 "client_port=") part with
            | some rest =>
              change _ = if !(parseRange 16 rest).isOk || parametersEnd parts then _ else _
              dsimp only
              cases parseRange 16 rest with
              | error e => rfl
              | ok range => exact ih (interleaved, some range)
            | none => exact ih (interleaved, clientPort)
        · simp only [hends, decide_false, Bool.false_and, Bool.false_eq_true, if_false,
            Option.bind_eq_bind, Option.bind_none]

theorem TransportSpec.parse?_eq (value : Bytes) : TransportSpec.parse? value =
    if transportEnds value then some (TransportSpec.parse value) else none := by
  rw [TransportSpec.parse?, transportEnds, TransportSpec.parse]
  cases ((trim value).splitOn 0x3b).map trim with
  | nil => rfl
  | cons profile parts =>
    dsimp only
    change _ = if !isProfile profile || parametersEnd parts then _ else _
    rw [parseParameters?_eq]
    cases hprofile : isProfile profile with
    | false =>
      rw [isProfile, Bool.or_assoc, Bool.or_eq_false_iff] at hprofile
      rw [hprofile.1, hprofile.2]
      rfl
    | true =>
      rw [isProfile, Bool.or_assoc] at hprofile
      cases parametersEnd parts with
      | false =>
        rw [← Bool.not_or, hprofile]
        rfl
      | true =>
        rw [← Bool.not_or, hprofile]
        cases parseParameters parts (none, none) with
        | error e => rfl
        | ok named =>
          obtain ⟨interleaved, clientPort⟩ := named
          cases htcp : eqIgnoreAsciiCase profile (utf8 "RTP/AVP/TCP") with
          | true => cases interleaved <;> rfl
          | false =>
            rw [htcp, Bool.false_or] at hprofile
            simp only [hprofile, Option.bind_eq_bind]
            cases clientPort <;> rfl

/-! ## Which headers panic -/

/-- The slices behind a prefix are the only ones that go wrong. A header is answered just
    when no character goes on behind as many bytes as the prefix it is compared with. -/
theorem headers_return_iff (digests : Digests) (authz transport requestUri : String)
    (method realm : Bytes) (users : List UserCred) (nonceOk : Bytes → Bool) :
    ((verifyBasic? digests (utf8 authz) users).isSome ↔ FrontEnds 6 (utf8 authz)) ∧
      ((parseDigestParams? (utf8 authz)).isSome ↔ FrontEnds 7 (utf8 authz)) ∧
      ((verifyDigest? digests (utf8 authz) method (utf8 requestUri) users realm nonceOk).isSome ↔
        FrontEnds 7 (utf8 authz)) ∧
      ((TransportSpec.parse? (utf8 transport)).isSome ↔ transportEnds (utf8 transport)) := by
  refine ⟨?_, ?_, ?_, ?_⟩
  · rw [verifyBasic?_eq]
    exact Option.isSome_ite
  · rw [parseDigestParams?_eq]
    exact Option.isSome_ite
  · rw [verifyDigest?_eq digests (utf8_isText authz) (utf8_isText requestUri)]
    exact Option.isSome_ite
  · rw [TransportSpec.parse?_eq]
    exact Option.isSome_ite

/-- The length of the prefix is looked at, and not where the characters of the header end:
    here the last byte of the prefix is the first one of a letter. -/
theorem headers_panic :
    verifyBasic? ⟨some, id⟩ (utf8 "Basicé") [] = none ∧
      parseDigestParams? (utf8 "Digesté") = none ∧
      verifyDigest? ⟨some, id⟩ (utf8 "Digesté") (utf8 "PLAY") (utf8 "/cam") [] [] (fun _ => true) =
        none ∧
      TransportSpec.parse? (utf8 "RTP/AVP;unicast;destinationé") = none := by
  have hbasic : ¬FrontEnds 6 (utf8 "Basicé") := by decide +kernel
  have hdigest : ¬FrontEnds 7 (utf8 "Digesté") := by decide +kernel
  have htransport : ¬transportEnds (utf8 "RTP/AVP;unicast;destinationé") := by decide +kernel
  rw [verifyBasic?_eq, parseDigestParams?_eq,
    verifyDigest?_eq _ (utf8_isText "Digesté") (utf8_isText "/cam"), TransportSpec.parse?_eq]
  exact ⟨if_neg hbasic, if_neg hdigest, if_neg hdigest, if_neg htransport⟩

end Bairelay
