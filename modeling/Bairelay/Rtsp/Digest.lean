import Bairelay.Rtsp.Headers

/-!
# Digest authentication

What it takes to be taken for a user by the digest of a request (`rtsp/protocol/auth.rs`).
The hash is a parameter, and so is that no two texts have the same one.

* `digestResponse_inj`: the response determines the name, realm and password as one text,
  and the method and URI as another: hashes are written without colons.
* `parseDigestParams_printDigest`: the parameters that are printed are read back, whatever
  their order and whatever stands in quotes.
* `authenticate_digest`: a client that knows the password gets in, nobody else does, and
  what lets it in is good for one method and path only.
-/

namespace Bairelay

/-! ## Hashes -/

/-- A hexadecimal digit, with its letters in lower case. -/
def isHexDigit (b : UInt8) : Bool := (0x30 ≤ b && b ≤ 0x39) || (0x61 ≤ b && b ≤ 0x66)

theorem isHexDigit_of_mem_hexLower {s : Bytes} {d : UInt8} (h : d ∈ hexLower s) :
    isHexDigit d := by
  have hbyte : ∀ b : UInt8, (hexLower [b]).all isHexDigit := forall_byte (by decide +kernel)
  obtain ⟨b, -, hb⟩ := List.mem_flatMap.1 h
  refine List.all_eq_true.1 (hbyte b) d ?_
  rwa [hexLower, List.flatMap_singleton]

theorem colon_notMem_hexLower (s : Bytes) : (0x3a : UInt8) ∉ hexLower s :=
  fun hmem => absurd (isHexDigit_of_mem_hexLower hmem) (by decide)

theorem hexLower_map_toAsciiLowercase (s : Bytes) :
    (hexLower s).map toAsciiLowercase = hexLower s := by
  have hsame : ∀ d ∈ hexLower s, toAsciiLowercase d = id d := by
    intro d hd
    have hdigit := isHexDigit_of_mem_hexLower hd
    simp only [isHexDigit, Bool.or_eq_true, Bool.and_eq_true, decide_eq_true_eq,
      UInt8.le_iff_toNat_le] at hdigit
    rw [toAsciiLowercase, if_neg, id]
    rw [UInt8.le_iff_toNat_le, UInt8.le_iff_toNat_le]
    simp only [UInt8.reduceToNat] at hdigit ⊢
    omega
  exact (List.map_congr_left hsame).trans (List.map_id _)

/-- A text up to its first separator, and behind it. -/
theorem append_cons_inj {sep : UInt8} {front front' back back' : Bytes} (h : sep ∉ front)
    (h' : sep ∉ front') (heq : front ++ sep :: back = front' ++ sep :: back') :
    front = front' ∧ back = back' := by
  have hsplit := congrArg (splitOnce sep) heq
  rw [splitOnce_append h, splitOnce_append h'] at hsplit
  exact Prod.mk.inj (Option.some.inj hsplit)

/-- A text behind its last separator. -/
theorem back_inj {sep : UInt8} {front front' back back' : Bytes} (h : sep ∉ back)
    (h' : sep ∉ back') (heq : front ++ sep :: back = front' ++ sep :: back') : back = back' := by
  have hreverse := congrArg List.reverse heq
  rw [List.reverse_append, List.reverse_append, List.reverse_cons, List.reverse_cons,
    List.append_assoc, List.append_assoc, List.singleton_append, List.singleton_append]
    at hreverse
  exact List.reverse_inj.1 (append_cons_inj (mt List.mem_reverse.1 h)
    (mt List.mem_reverse.1 h') hreverse).1

theorem joinColons_cons_cons (a b : Bytes) (parts : List Bytes) :
    joinColons (a :: b :: parts) = a ++ 0x3a :: joinColons (b :: parts) := by
  rw [joinColons, List.intersperse_cons_cons, List.flatten_cons, List.flatten_cons]
  rfl

theorem joinColons_pair (a b : Bytes) : joinColons [a, b] = a ++ 0x3a :: b := by
  rw [joinColons_cons_cons]
  simp [joinColons]

/-- The last two parts stand behind the last two colons. -/
theorem joinColons_append (front : List Bytes) (a b : Bytes) :
    ∃ s, joinColons (front ++ [a, b]) = s ++ 0x3a :: b := by
  induction front with
  | nil => exact ⟨a, joinColons_pair a b⟩
  | cons c front ih =>
    obtain ⟨s, hs⟩ := ih
    obtain ⟨d, parts, hparts⟩ := List.exists_cons_of_ne_nil
      (List.append_ne_nil_of_right_ne_nil front (List.cons_ne_nil a [b]))
    refine ⟨c ++ 0x3a :: s, ?_⟩
    rw [List.cons_append, hparts, joinColons_cons_cons, ← hparts, hs, List.append_assoc]
    rfl

section

variable {digests : Digests}

/-- The response is the hash of two other hashes, with what else is hashed between them. -/
theorem digestResponse_inj (hmd5 : Function.Injective (md5Hex digests))
    {username realm password method uri nonce nc cnonce qop : Bytes}
    {username' realm' password' method' uri' nonce' nc' cnonce' qop' : Bytes}
    (h : digestResponse digests username realm password method uri nonce nc cnonce qop =
      digestResponse digests username' realm' password' method' uri' nonce' nc' cnonce' qop') :
    joinColons [username, realm, password] = joinColons [username', realm', password'] ∧
      joinColons [method, uri] = joinColons [method', uri'] := by
  have hjoined := hmd5 h
  constructor
  · rw [joinColons_cons_cons, joinColons_cons_cons] at hjoined
    exact hmd5 (append_cons_inj (colon_notMem_hexLower _) (colon_notMem_hexLower _) hjoined).1
  · obtain ⟨s, hs⟩ := joinColons_append
      [md5Hex digests (joinColons [username, realm, password]), nonce, nc, cnonce] qop
      (md5Hex digests (joinColons [method, uri]))
    obtain ⟨s', hs'⟩ := joinColons_append
      [md5Hex digests (joinColons [username', realm', password']), nonce', nc', cnonce'] qop'
      (md5Hex digests (joinColons [method', uri']))
    exact hmd5 (back_inj (colon_notMem_hexLower _) (colon_notMem_hexLower _)
      (hs.symm.trans (hjoined.trans hs')))

/-- Two digests of one user and realm differ by the password. -/
theorem joinColons_password {username realm password password' : Bytes}
    (h : joinColons [username, realm, password] = joinColons [username, realm, password']) :
    password = password' := by
  rw [joinColons_cons_cons, joinColons_pair, joinColons_cons_cons, joinColons_pair] at h
  exact (List.cons.inj (List.append_cancel_left
    (List.cons.inj (List.append_cancel_left h)).2)).2

/-- Two digests of one URI differ by the method. -/
theorem joinColons_method {method method' uri : Bytes}
    (h : joinColons [method, uri] = joinColons [method', uri]) : method = method' := by
  rw [joinColons_pair, joinColons_pair] at h
  exact List.append_cancel_right h

theorem digestResponse_map_toAsciiLowercase
    (username realm password method uri nonce nc cnonce qop : Bytes) :
    (digestResponse digests username realm password method uri nonce nc cnonce qop).map
        toAsciiLowercase =
      digestResponse digests username realm password method uri nonce nc cnonce qop :=
  hexLower_map_toAsciiLowercase _

end

/-! ## Printed headers -/

/-- A parameter as a client prints it, with blanks before it. -/
structure DigestParam where
  blanks : ℕ
  name : Bytes
  value : Bytes
  quoted : Bool
  deriving DecidableEq, Repr

namespace DigestParam

/-- The value, in quotes if the client likes them. -/
def printValue (p : DigestParam) : Bytes :=
  if p.quoted then 0x22 :: (p.value ++ [0x22]) else p.value

/-- A parameter, with blanks in front. -/
def print (p : DigestParam) : Bytes :=
  List.replicate p.blanks 0x20 ++ p.name ++ 0x3d :: p.printValue

/-- What the parameter says; the case of the letters of its name does not matter. -/
def entry (p : DigestParam) : Bytes × Bytes := (p.name.map toAsciiLowercase, p.value)

end DigestParam

/-- The header of a client (RFC 7616). -/
def printDigest (params : List DigestParam) : Bytes :=
  utf8 "Digest " ++ [0x2c].intercalate (params.map DigestParam.print)

/-- There is no whitespace at the ends. -/
def IsTrimmed (s : Bytes) : Prop := ∀ w ∈ whitespace, ¬w <+: s ∧ ¬w <:+ s

instance : DecidablePred IsTrimmed := fun _ => inferInstanceAs (Decidable (∀ _ ∈ _, _))

/-- In quotes stands anything but the quote; what is not quoted ends at a comma. -/
structure DigestParam.Valid (p : DigestParam) : Prop where
  name : IsTrimmed p.name ∧ ∀ b ∈ p.name, b ≠ 0x22 ∧ b ≠ 0x2c ∧ b ≠ 0x3d
  value : ∀ b ∈ p.value, b ≠ 0x22
  token : p.quoted = false → IsTrimmed p.value ∧ ∀ b ∈ p.value, b ≠ 0x2c

/-- A client that knows the password of a user signs a request. -/
structure Signs (digests : Digests) (realm : Bytes) (cred : UserCred)
    (nonce method uri nc cnonce : Bytes) (params : List DigestParam) : Prop where
  valid : ∀ p ∈ params, p.Valid
  unique : (params.map fun p => p.entry.1).Nodup
  response : (utf8 "response", digestResponse digests cred.name realm cred.password method uri
    nonce nc cnonce (utf8 "auth")) ∈ params.map DigestParam.entry
  username : (utf8 "username", cred.name) ∈ params.map DigestParam.entry
  nonce : (utf8 "nonce", nonce) ∈ params.map DigestParam.entry
  uri : (utf8 "uri", uri) ∈ params.map DigestParam.entry
  nc : (utf8 "nc", nc) ∈ params.map DigestParam.entry
  cnonce : (utf8 "cnonce", cnonce) ∈ params.map DigestParam.entry
  qop : (utf8 "qop", utf8 "auth") ∈ params.map DigestParam.entry

/-! ### Trimming -/

theorem trim_blanks {s : Bytes} (h : IsTrimmed s) (blanks : ℕ) :
    trim (List.replicate blanks 0x20 ++ s) = s := by
  have hstart : trimStart (List.replicate blanks 0x20 ++ s) = s := by
    refine dropAll_append ?_ (fun b hb => .inl (List.eq_of_mem_replicate hb)) (fun fuel => ?_)
      (by simp)
    · rintro b (rfl | rfl) s <;> rfl
    · exact dropAll_of_forall (fun w hw hstart => (h w hw).1 (List.isPrefixOf_iff_prefix.1 hstart))
        fuel
  rw [trim, hstart, trimEnd, List.reverse_eq_iff]
  refine dropAll_of_forall (fun w hw hstart => ?_) s.length
  obtain ⟨w, hmem, rfl⟩ := List.mem_map.1 hw
  exact (h w hmem).2 (List.reverse_prefix.1 (List.isPrefixOf_iff_prefix.1 hstart))

/-- Text without whitespace at its ends is left alone. -/
theorem trim_of_isTrimmed {s : Bytes} (h : IsTrimmed s) : trim s = s := trim_blanks h 0

/-- With enough fuel, no more is there to be dropped. -/
theorem not_prefix_dropAll {strings : List Bytes} (hne : ∀ w ∈ strings, w ≠ []) {fuel : ℕ}
    {s : Bytes} (hfuel : s.length ≤ fuel) : ∀ w ∈ strings, ¬w <+: dropAll strings fuel s := by
  induction fuel generalizing s with
  | zero =>
    obtain rfl := List.eq_nil_of_length_eq_zero (Nat.le_zero.1 hfuel)
    exact fun w hw hstart => hne w hw (List.prefix_nil.1 hstart)
  | succ fuel ih =>
    rw [dropAll]
    split
    · next w hw =>
      have hpos := List.length_pos_iff.2 (hne w (List.mem_of_find?_eq_some hw))
      exact ih (by rw [List.length_drop]; omega)
    · next hnone =>
      exact fun w hw hstart =>
        List.find?_eq_none.1 hnone w hw (List.isPrefixOf_iff_prefix.2 hstart)

theorem isTrimmed_trim (s : Bytes) : IsTrimmed (trim s) := by
  have hspaces : ∀ w ∈ whitespace, w ≠ [] := by decide
  intro w hw
  constructor
  · intro hstart
    have hfront : trim s <+: trimStart s := by
      rw [trim, trimEnd]
      exact List.reverse_suffix.1 (by rw [List.reverse_reverse]; exact dropAll_suffix _ _ _)
    exact not_prefix_dropAll hspaces le_rfl w hw (hstart.trans hfront)
  · intro hend
    rw [trim, trimEnd, ← List.reverse_prefix, List.reverse_reverse] at hend
    refine not_prefix_dropAll (fun w' hw' => ?_) List.length_reverse.le w.reverse
      (List.mem_map_of_mem hw) hend
    obtain ⟨w', hmem, rfl⟩ := List.mem_map.1 hw'
    exact mt List.reverse_eq_nil_iff.1 (hspaces w' hmem)

theorem trim_trim (s : Bytes) : trim (trim s) = trim s := trim_of_isTrimmed (isTrimmed_trim s)

/-- Blanks and the like are not graphic characters of ASCII. -/
theorem isTrimmed_of_graphic {s : Bytes} (h : ∀ b ∈ s, 0x20 < b ∧ b < 0x80) : IsTrimmed s := by
  have hspaces : ∀ w ∈ whitespace, ∃ b ∈ w, ¬(0x20 < b ∧ b < 0x80) := by decide
  intro w hw
  obtain ⟨b, hb, hspace⟩ := hspaces w hw
  exact ⟨fun hfront => hspace (h b (hfront.subset hb)),
    fun hback => hspace (h b (hback.subset hb))⟩

theorem isTrimmed_quoted (s : Bytes) : IsTrimmed (0x22 :: (s ++ [0x22])) := by
  have hspaces : ∀ w ∈ whitespace, w ≠ [] ∧ w.head? ≠ some 0x22 ∧ w.getLast? ≠ some 0x22 := by
    decide
  intro w hw
  obtain ⟨hne, hhead, hlast⟩ := hspaces w hw
  constructor
  · rintro ⟨t, ht⟩
    have hfirst := congrArg List.head? ht
    rw [List.head?_append_of_ne_nil _ hne] at hfirst
    exact hhead hfirst
  · rintro ⟨t, ht⟩
    have hfinal := congrArg List.getLast? ht
    rw [List.getLast?_append_of_ne_nil _ hne, ← List.cons_append, List.getLast?_concat] at hfinal
    exact hlast hfinal

/-- Trimming keeps what is not whitespace. -/
theorem mem_trim {b : UInt8} (hb : ∀ w ∈ whitespace, b ∉ w) {s : Bytes} (h : b ∈ s) :
    b ∈ trim s := by
  have hdrop {strings : List Bytes} (hb : ∀ w ∈ strings, b ∉ w) (fuel : ℕ) {s : Bytes}
      (h : b ∈ s) : b ∈ dropAll strings fuel s := by
    induction fuel generalizing s with
    | zero => exact h
    | succ fuel ih =>
      rw [dropAll]
      split
      · next w hw =>
        have hstart : w <+: s :=
          List.isPrefixOf_iff_prefix.1 (List.find?_some (p := fun w : Bytes => w.isPrefixOf s) hw)
        rw [← List.prefix_iff_eq_append.1 hstart] at h
        exact ih ((List.mem_append.1 h).resolve_left (hb w (List.mem_of_find?_eq_some hw)))
      · exact h
  rw [trim, trimEnd, List.mem_reverse]
  refine hdrop (fun w hw => ?_) _ (List.mem_reverse.2 (hdrop hb _ h))
  obtain ⟨w, hmem, rfl⟩ := List.mem_map.1 hw
  exact mt List.mem_reverse.1 (hb w hmem)

/-- Without quotes nothing is left out in front. -/
theorem dropWhile_quotes {s : Bytes} (h : ∀ b ∈ s, b ≠ 0x22) : s.dropWhile (· = 0x22) = s := by
  cases s with
  | nil => rfl
  | cons b s => exact List.dropWhile_cons_of_neg (by simpa using h b List.mem_cons_self)

theorem trimQuotes_of_notMem {s : Bytes} (h : ∀ b ∈ s, b ≠ 0x22) : trimQuotes s = s := by
  rw [trimQuotes, dropWhile_quotes h, dropWhile_quotes fun b hb => h b (List.mem_reverse.1 hb),
    List.reverse_reverse]

theorem trimQuotes_quoted {s : Bytes} (h : ∀ b ∈ s, b ≠ 0x22) :
    trimQuotes (0x22 :: (s ++ [0x22])) = s := by
  have hstart : (0x22 :: (s ++ [0x22])).dropWhile (· = 0x22) =
      (s ++ [0x22]).dropWhile (· = 0x22) := List.dropWhile_cons_of_pos rfl
  cases s with
  | nil => rfl
  | cons b s =>
    have hfront : ((b :: s) ++ [0x22]).dropWhile (· = 0x22) = (b :: s) ++ [0x22] :=
      List.dropWhile_cons_of_neg (by simpa using h b List.mem_cons_self)
    have hback : ((b :: s) ++ [0x22]).reverse.dropWhile (· = 0x22) =
        (b :: s).reverse.dropWhile (· = 0x22) := by
      rw [List.reverse_append]
      exact List.dropWhile_cons_of_pos rfl
    rw [trimQuotes, hstart, hfront, hback,
      dropWhile_quotes fun b hb => h b (List.mem_reverse.1 hb), List.reverse_reverse]

/-! ### Parsing -/

/-- Up to a comma that is not quoted, the part goes on. -/
theorem splitDigestParams_append {inQuotes : Bool} {s : Bytes}
    (h : ∀ b ∈ s, b ≠ 0x22 ∧ (inQuotes = false → b ≠ 0x2c)) (cur rest : Bytes) :
    splitDigestParams inQuotes cur (s ++ rest) = splitDigestParams inQuotes (cur ++ s) rest := by
  induction s generalizing cur with
  | nil => rw [List.nil_append, List.append_nil]
  | cons b s ih =>
    obtain ⟨hquote, hcomma⟩ := h b List.mem_cons_self
    have hgoes : ¬(b = 0x2c ∧ (!inQuotes) = true) := fun hb =>
      hcomma (by simpa using hb.2) hb.1
    rw [List.cons_append, splitDigestParams, if_neg hquote, if_neg hgoes,
      ih fun b hb => h b (List.mem_cons_of_mem _ hb), List.append_assoc]
    rfl

namespace DigestParam

variable {p : DigestParam}

/-- The name of a parameter has nothing that ends it. -/
theorem Valid.blanks_name (hp : p.Valid) :
    ∀ b ∈ List.replicate p.blanks 0x20 ++ p.name, b ≠ 0x22 ∧ b ≠ 0x2c ∧ b ≠ 0x3d := by
  intro b hb
  rcases List.mem_append.1 hb with hb | hb
  · rw [List.eq_of_mem_replicate hb]
    decide
  · exact hp.name.2 b hb

/-- A value is read as a whole, whatever stands in it. -/
theorem Valid.splitDigestParams_printValue (hp : p.Valid) (cur rest : Bytes) :
    splitDigestParams false cur (p.printValue ++ rest) =
      splitDigestParams false (cur ++ p.printValue) rest := by
  rw [printValue]
  cases hquoted : p.quoted with
  | false =>
    exact splitDigestParams_append (fun b hb => ⟨hp.value b hb, fun _ => (hp.token hquoted).2 b hb⟩)
      cur rest
  | true =>
    -- Between the quotes, commas do not count.
    have hinside : splitDigestParams true (cur ++ [0x22]) (p.value ++ 0x22 :: rest) =
        splitDigestParams true (cur ++ [0x22] ++ p.value) (0x22 :: rest) :=
      splitDigestParams_append (fun b hb => ⟨hp.value b hb, fun h => by cases h⟩) _ _
    rw [if_pos rfl, List.cons_append, List.append_assoc, List.singleton_append,
      splitDigestParams, if_pos rfl, Bool.not_false, hinside, splitDigestParams, if_pos rfl,
      Bool.not_true, List.append_assoc, List.append_assoc]
    rfl

theorem Valid.splitDigestParams_print (hp : p.Valid) (rest : Bytes) :
    splitDigestParams false [] (p.print ++ rest) = splitDigestParams false p.print rest := by
  have hname : ∀ b ∈ List.replicate p.blanks 0x20 ++ p.name ++ [0x3d],
      b ≠ 0x22 ∧ (false = false → b ≠ 0x2c) := by
    intro b hb
    rcases List.mem_append.1 hb with hb | hb
    · exact ⟨(hp.blanks_name b hb).1, fun _ => (hp.blanks_name b hb).2.1⟩
    · rw [List.mem_singleton.1 hb]
      decide
  rw [print, List.append_cons, List.append_assoc _ p.printValue, splitDigestParams_append hname,
    List.nil_append, hp.splitDigestParams_printValue]

theorem Valid.trimQuotes_printValue (hp : p.Valid) : trimQuotes (trim p.printValue) = p.value := by
  rw [printValue]
  cases hquoted : p.quoted with
  | false =>
    have htoken := (hp.token hquoted).1
    exact (congrArg trimQuotes (trim_of_isTrimmed htoken)).trans (trimQuotes_of_notMem hp.value)
  | true =>
    have htrim := trim_of_isTrimmed (isTrimmed_quoted p.value)
    exact (congrArg trimQuotes htrim).trans (trimQuotes_quoted hp.value)

theorem Valid.splitOnce_print (hp : p.Valid) :
    splitOnce 0x3d p.print = some (List.replicate p.blanks 0x20 ++ p.name, p.printValue) :=
  splitOnce_append (fun hmem => (hp.blanks_name _ hmem).2.2 rfl) p.printValue

theorem trim_print_ne_nil (p : DigestParam) : trim p.print ≠ [] := by
  have hspaces : ∀ w ∈ whitespace, (0x3d : UInt8) ∉ w := by decide
  refine List.ne_nil_of_mem (mem_trim hspaces ?_)
  rw [print]
  exact List.mem_append_right _ List.mem_cons_self

end DigestParam

theorem splitDigestParams_intercalate {params : List DigestParam} (h : ∀ p ∈ params, p.Valid) :
    splitDigestParams false [] ([0x2c].intercalate (params.map DigestParam.print)) =
      params.map DigestParam.print := by
  induction params with
  | nil => rfl
  | cons p params ih =>
    have hp := h p List.mem_cons_self
    cases params with
    | nil =>
      have hlast := hp.splitDigestParams_print []
      rw [List.append_nil, splitDigestParams, if_neg p.trim_print_ne_nil] at hlast
      rw [List.map_singleton, List.intercalate_singleton, hlast]
    | cons p' params =>
      rw [List.map_cons, List.map_cons, List.intercalate_cons_cons, List.append_assoc,
        hp.splitDigestParams_print, List.singleton_append, splitDigestParams, if_neg (by decide),
        if_pos ⟨rfl, rfl⟩, ← List.map_cons, ih fun p hp => h p (List.mem_cons_of_mem _ hp)]

theorem mapM_map_eq_ok {α β γ ε : Type} {f : β → Except ε γ} {e : α → β} {g : α → γ} {l : List α}
    (h : ∀ a ∈ l, f (e a) = .ok (g a)) : (l.map e).mapM f = .ok (l.map g) := by
  induction l with
  | nil => rfl
  | cons a l ih =>
    rw [List.map_cons, List.mapM_cons, h a List.mem_cons_self,
      ih fun a ha => h a (List.mem_cons_of_mem _ ha)]
    rfl

theorem stripPrefixIgnoreCase_append (start s : Bytes) :
    stripPrefixIgnoreCase start (start ++ s) = some s := by
  have hsame : start.length ≤ (start ++ s).length ∧
      eqIgnoreAsciiCase ((start ++ s).take start.length) start := by
    rw [List.take_left, List.length_append]
    exact ⟨Nat.le_add_right _ _, decide_eq_true rfl⟩
  rw [stripPrefixIgnoreCase, if_pos hsame, List.drop_left]

/-- The parameters that are printed are read back. -/
theorem parseDigestParams_printDigest {params : List DigestParam} (h : ∀ p ∈ params, p.Valid) :
    parseDigestParams (printDigest params) =
      .ok fun name => (params.map DigestParam.entry).reverse.lookup name := by
  rw [parseDigestParams, printDigest, stripPrefixIgnoreCase_append]
  dsimp only
  rw [splitDigestParams_intercalate h, mapM_map_eq_ok (g := DigestParam.entry) fun p hp => ?_]
  · rfl
  · rw [(h p hp).splitOnce_print]
    dsimp only
    rw [trim_blanks (h p hp).name.1, (h p hp).trimQuotes_printValue]
    rfl

/-- Where no two parameters have one name, each is found. -/
theorem lookup_of_mem {entries : List (Bytes × Bytes)} (h : (entries.map Prod.fst).Nodup)
    {name v : Bytes} (hmem : (name, v) ∈ entries) : entries.lookup name = some v := by
  obtain ⟨front, back, rfl⟩ := List.append_of_mem hmem
  refine List.lookup_eq_some_iff.2 ⟨front, back, rfl, fun p hp => bne_iff_ne.2 fun hname => ?_⟩
  rw [List.map_append, List.map_cons] at h
  exact (List.nodup_append.1 h).2.2 _ (List.mem_map_of_mem hp) _ List.mem_cons_self hname.symm

/-- What is under a name, if every name is there once. -/
theorem lookup_entry {params : List DigestParam} (h : (params.map fun p => p.entry.1).Nodup)
    {name v : Bytes} (hmem : (name, v) ∈ params.map DigestParam.entry) :
    (params.map DigestParam.entry).reverse.lookup name = some v := by
  refine lookup_of_mem ?_ (List.mem_reverse.2 hmem)
  rw [List.map_reverse, List.nodup_reverse, List.map_map]
  exact h

/-! ## Verification -/

section

variable {digests : Digests}

/-- What is verified of a header. -/
theorem verifyDigest_eq_ok_iff {authz method requestUri realm user : Bytes}
    {users : List UserCred} {nonceOk : Bytes → Bool} :
    verifyDigest digests authz method requestUri users realm nonceOk = .ok user ↔
      ∃ params nonce uri response, parseDigestParams authz = .ok params ∧
        params (utf8 "username") = some user ∧ params (utf8 "nonce") = some nonce ∧
        params (utf8 "uri") = some uri ∧ params (utf8 "response") = some response ∧
        nonceOk nonce ∧ uriPath uri = uriPath requestUri ∧
        ∃ cred ∈ users, cred.name = user ∧
          digestResponse digests cred.name realm cred.password method uri nonce
            ((params (utf8 "nc")).getD []) ((params (utf8 "cnonce")).getD [])
            ((params (utf8 "qop")).getD []) = response.map toAsciiLowercase := by
  constructor
  · intro h
    rw [verifyDigest] at h
    cases hparams : parseDigestParams authz with
    | error e =>
      rw [hparams] at h
      cases h
    | ok params =>
      rw [hparams] at h
      dsimp only [bind, Except.bind] at h
      split at h
      · next username nonce uri response husername hnonce huri hresponse =>
        split at h
        · cases h
        · next hok =>
          split at h
          · cases h
          · next hpath =>
            split at h
            · next cred hfind =>
              cases h
              have hshown := List.find?_some hfind
              simp only [decide_eq_true_eq] at hshown
              have hnamed := husername.trans (congrArg some hshown.1.symm)
              have hok : nonceOk nonce = true := by simpa using hok
              exact ⟨params, nonce, uri, response, rfl, hnamed, hnonce, huri, hresponse, hok,
                by simpa [digestUriPathsMatch] using hpath, cred,
                List.mem_of_find?_eq_some hfind, rfl, hshown.2⟩
            · cases h
      · cases h
  · rintro ⟨params, nonce, uri, response, hparams, husername, hnonce, huri, hresponse, hok, hpath,
      cred, hcred, hname, hshown⟩
    have hmatch : digestUriPathsMatch uri requestUri = true := decide_eq_true hpath
    rw [verifyDigest, hparams]
    dsimp only [bind, Except.bind]
    rw [husername, hnonce, huri, hresponse]
    dsimp only
    rw [hok, hmatch, if_neg (by decide), if_neg (by decide)]
    split
    · next cred' hfind =>
      have hshown' := List.find?_some hfind
      simp only [decide_eq_true_eq] at hshown'
      exact congrArg Except.ok hshown'.1
    · next hnone =>
      have hnot := List.find?_eq_none.1 hnone cred hcred
      simp only [decide_eq_true_eq] at hnot
      exact absurd ⟨hname, hshown⟩ hnot

/-- A request gets in by the digest in its header. -/
structure AcceptsDigest (digests : Digests) (realm : Realm) (nonce : Nonce) (authz : Bytes)
    (now : Instant) (request : ParsedRequest) (method user : Bytes) : Prop where
  authorization : request.authorization = some authz
  digest : (stripPrefixIgnoreCase (utf8 "Digest ") authz).isSome
  accepted (fresh : Bytes) :
    authenticate digests realm now nonce fresh request method = (.ok user, nonce)

/-- A header is not of both schemes. -/
theorem not_basic_of_digest {authz : Bytes}
    (h : (stripPrefixIgnoreCase (utf8 "Digest ") authz).isSome) :
    (utf8 "basic ").isPrefixOf (authz.map toAsciiLowercase) = false := by
  rw [stripPrefixIgnoreCase] at h
  split at h
  · next hfront =>
    have hlower := of_decide_eq_true hfront.2
    rw [← List.take_append_drop (utf8 "Digest ").length authz, List.map_append, hlower,
      utf8_ofList, utf8_ofList]
    rfl
  · cases h

/-- A digest is accepted if `verify_digest` accepts it with a nonce that is not stale. -/
theorem acceptsDigest_iff {realm : Realm} {nonce : Nonce} {authz : Bytes} {now : Instant}
    {request : ParsedRequest} {method user : Bytes} :
    AcceptsDigest digests realm nonce authz now request method user ↔
      request.authorization = some authz ∧
        verifyDigest digests authz method request.uri realm.users realm.realm
          (fun n => n = nonce.value ∧ !nonce.isStale now nonceTtl) = .ok user := by
  constructor
  · rintro ⟨hauthz, hdigest, haccepted⟩
    refine ⟨hauthz, ?_⟩
    have h := haccepted []
    rw [authenticate, hauthz] at h
    dsimp only at h
    rw [if_neg fun hbasic => absurd hbasic.2 (by rw [not_basic_of_digest hdigest]; decide)] at h
    split at h
    · next hverify =>
      cases h
      exact hverify
    · cases h
    · cases h
    · cases h
  · rintro ⟨hauthz, hverify⟩
    obtain ⟨params, -, -, -, hparams, -⟩ := verifyDigest_eq_ok_iff.1 hverify
    have hdigest : (stripPrefixIgnoreCase (utf8 "Digest ") authz).isSome := by
      rw [parseDigestParams] at hparams
      cases hstrip : stripPrefixIgnoreCase (utf8 "Digest ") authz with
      | none =>
        rw [hstrip] at hparams
        cases hparams
      | some rest => rfl
    refine ⟨hauthz, hdigest, fun fresh => ?_⟩
    rw [authenticate, hauthz]
    dsimp only
    rw [if_neg fun hbasic => absurd hbasic.2 (by rw [not_basic_of_digest hdigest]; decide),
      hverify]

/-- What a client signs with the password of a user is accepted. -/
theorem Signs.acceptsDigest {realm : Realm} {nonce : Nonce} {cred : UserCred} {now : Instant}
    {request : ParsedRequest} {method uri nc cnonce : Bytes} {params : List DigestParam}
    (hcred : cred ∈ realm.users) (hfresh : nonce.isStale now nonceTtl = false)
    (hpath : uriPath uri = uriPath request.uri)
    (hauthz : request.authorization = some (printDigest params))
    (h : Signs digests realm.realm cred nonce.value method uri nc cnonce params) :
    AcceptsDigest digests realm nonce (printDigest params) now request method cred.name := by
  have hlookup {name v : Bytes} (hmem : (name, v) ∈ params.map DigestParam.entry) :=
    lookup_entry h.unique hmem
  refine acceptsDigest_iff.2 ⟨hauthz, verifyDigest_eq_ok_iff.2 ⟨_, nonce.value, uri, _,
    parseDigestParams_printDigest h.valid, hlookup h.username, hlookup h.nonce, hlookup h.uri,
    hlookup h.response, by simp [hfresh], hpath, cred, hcred, rfl, ?_⟩⟩
  rw [hlookup h.nc, hlookup h.cnonce, hlookup h.qop, digestResponse_map_toAsciiLowercase]
  rfl

end

/-- A header gets a request in just when it is signed with the password of the user it names,
    and the same header is good for no other method and path. -/
theorem authenticate_digest {digests : Digests} (hmd5 : Function.Injective (md5Hex digests))
    {realm : Realm} (hnames : (realm.users.map UserCred.name).Nodup) (nonce : Nonce) :
    (∀ cred ∈ realm.users, ∀ {now request method uri nc cnonce params},
      nonce.isStale now nonceTtl = false → uriPath uri = uriPath request.uri →
      request.authorization = some (printDigest params) →
      Signs digests realm.realm cred nonce.value method uri nc cnonce params →
      AcceptsDigest digests realm nonce (printDigest params) now request method cred.name) ∧
    (∀ {authz now request method user},
      AcceptsDigest digests realm nonce authz now request method user →
      nonce.isStale now nonceTtl = false ∧
        ∃ params uri response, parseDigestParams authz = .ok params ∧
          params (utf8 "username") = some user ∧ params (utf8 "nonce") = some nonce.value ∧
          params (utf8 "uri") = some uri ∧ uriPath uri = uriPath request.uri ∧
          params (utf8 "response") = some response ∧
          ∃ cred ∈ realm.users, cred.name = user ∧
            (∀ cred' ∈ realm.users, cred'.name = user → cred' = cred) ∧
            (∀ password, digestResponse digests user realm.realm password method uri nonce.value
                ((params (utf8 "nc")).getD []) ((params (utf8 "cnonce")).getD [])
                ((params (utf8 "qop")).getD []) = response.map toAsciiLowercase ↔
              password = cred.password) ∧
            ∀ {username' realm' password' method' uri' nonce' nc' cnonce' qop'},
              digestResponse digests username' realm' password' method' uri' nonce' nc' cnonce'
                qop' = response.map toAsciiLowercase →
              joinColons [username', realm', password'] =
                joinColons [user, realm.realm, cred.password]) ∧
    ∀ {authz now request method user nonce' now' request' method' user'},
      AcceptsDigest digests realm nonce authz now request method user →
      AcceptsDigest digests realm nonce' authz now' request' method' user' →
      method = method' ∧ uriPath request.uri = uriPath request'.uri := by
  refine ⟨fun cred hcred _ _ _ _ _ _ _ hfresh hpath hauthz hsigns =>
    hsigns.acceptsDigest hcred hfresh hpath hauthz, ?_, ?_⟩
  · intro authz now request method user haccepts
    obtain ⟨params, value, uri, response, hparams, husername, hnonce, huri, hresponse, hok, hpath,
      cred, hcred, rfl, hshown⟩ := verifyDigest_eq_ok_iff.1 (acceptsDigest_iff.1 haccepts).2
    obtain ⟨rfl, hfresh⟩ : value = nonce.value ∧ nonce.isStale now nonceTtl = false := by
      simpa using hok
    refine ⟨hfresh, params, uri, response, hparams, husername, hnonce, huri, hpath,
      hresponse, cred, hcred, rfl, fun cred' hcred' hname => ?_, fun password => ⟨fun h => ?_, ?_⟩,
      fun h => (digestResponse_inj hmd5 (h.trans hshown.symm)).1⟩
    · exact List.inj_on_of_nodup_map hnames hcred' hcred hname
    · exact joinColons_password (digestResponse_inj hmd5 (h.trans hshown.symm)).1
    · rintro rfl
      exact hshown
  · intro authz now request method user nonce' now' request' method' user' haccepts haccepts'
    obtain ⟨params, _, uri, response, hparams, -, -, huri, hresponse, -, hpath, cred, -, -,
      hshown⟩ := verifyDigest_eq_ok_iff.1 (acceptsDigest_iff.1 haccepts).2
    obtain ⟨params', _, uri', response', hparams', -, -, huri', hresponse', -, hpath', cred', -, -,
      hshown'⟩ := verifyDigest_eq_ok_iff.1 (acceptsDigest_iff.1 haccepts').2
    obtain rfl : params = params' := Except.ok.inj (hparams.symm.trans hparams')
    obtain rfl : uri = uri' := Option.some.inj (huri.symm.trans huri')
    obtain rfl : response = response' := Option.some.inj (hresponse.symm.trans hresponse')
    exact ⟨joinColons_method (digestResponse_inj hmd5 (hshown.trans hshown'.symm)).2,
      hpath.symm.trans hpath'⟩

/-! ### A digest of MD5 -/

/-- The byte that two digits stand for. -/
def unhex (digits : Bytes) : UInt8 :=
  digits.foldl (fun n d => 16 * n + if d < 0x3a then d - 0x30 else d - 0x57) 0

theorem unhex_hexLower : ∀ b : UInt8, unhex (hexLower [b]) = b := forall_byte (by decide +kernel)

theorem hexLower_injective : Function.Injective hexLower := by
  intro s s' h
  induction s generalizing s' with
  | nil =>
    cases s' with
    | nil => rfl
    | cons b' s' => cases h
  | cons b s ih =>
    cases s' with
    | nil => cases h
    | cons b' s' =>
      have h : hexLower [b] ++ hexLower s = hexLower [b'] ++ hexLower s' := h
      obtain ⟨hbyte, hrest⟩ := List.append_inj h rfl
      rw [ih hrest, ← unhex_hexLower b, hbyte, unhex_hexLower]

/-- Texts with the hashes that MD5 has for them; other texts have longer ones. -/
def md5Table (input : Bytes) : Bytes :=
  if input = utf8 "alice:bairelay:wonderland" then
    [0x5d, 0x7f, 0xad, 0xf0, 0xd6, 0x29, 0x4b, 0xa9, 0x39, 0x0d, 0x50, 0x5e, 0x13, 0xda, 0xa5, 0xf2]
  else if input = utf8 "DESCRIBE:/cam1" then
    [0x56, 0x1b, 0x33, 0xf1, 0xbb, 0x41, 0x85, 0x15, 0x86, 0x46, 0x05, 0x5a, 0xe0, 0x50, 0x0e, 0xb6]
  else if input = utf8 ("5d7fadf0d6294ba9390d505e13daa5f2:abcd:00000001:c:auth:" ++
      "561b33f1bb4185158646055ae0500eb6") then
    [0x78, 0xc8, 0x04, 0x67, 0xac, 0x0d, 0xbd, 0x02, 0x88, 0x52, 0x0d, 0xfc, 0x96, 0xcd, 0xfc, 0xa2]
  else List.replicate 17 0 ++ input

/-- Different texts have different digests, among those of the table. -/
theorem md5Table_injective : Function.Injective md5Table := by
  intro input input' h
  rw [md5Table, md5Table] at h
  split_ifs at h
  -- A hash of the table, of 16 bytes, is that of its own text only.
  all_goals first
    | exact absurd h (by decide)
    | exact List.append_cancel_left h
    | exact Eq.trans (by assumption) (Eq.symm (by assumption))
    | exact absurd (congrArg List.length h) (by simp)

/-- The digests of the sample. -/
def sampleDigests : Digests := ⟨fun _ => none, md5Table⟩

/-- Two users. -/
def sampleRealm : Realm :=
  ⟨[⟨utf8 "alice", utf8 "wonderland"⟩, ⟨utf8 "bob", utf8 "builder"⟩], utf8 "bairelay", false⟩

/-- A nonce that has just been made. -/
def sampleNonce : Nonce := ⟨utf8 "abcd", 0⟩

/-- Alice's parameters, for a description. -/
def sampleParams : List DigestParam :=
  [⟨0, utf8 "username", utf8 "alice", true⟩, ⟨1, utf8 "realm", utf8 "bairelay", true⟩,
    ⟨1, utf8 "nonce", utf8 "abcd", true⟩, ⟨1, utf8 "uri", utf8 "/cam1", true⟩,
    ⟨1, utf8 "response", utf8 "78c80467ac0dbd0288520dfc96cdfca2", true⟩,
    ⟨1, utf8 "qop", utf8 "auth", false⟩, ⟨1, utf8 "nc", utf8 "00000001", false⟩,
    ⟨1, utf8 "cnonce", utf8 "c", true⟩]

/-- A request with her header. -/
def sampleRequest (method : RtspMethod) (uri : Bytes) : ParsedRequest :=
  { method, uri, cseq := 1, authorization := some (printDigest sampleParams) }

/-- A graphic character that delimits nothing. -/
def isTokenByte (b : UInt8) : Bool :=
  Nat.blt 0x20 b.toNat && Nat.blt b.toNat 0x80 && b.toNat != 0x22 && b.toNat != 0x2c &&
    b.toNat != 0x3d

/-- The characters of a token are printable, and none of the separators. -/
theorem isTokenByte_spec : ∀ b, isTokenByte b →
    (0x20 < b ∧ b < 0x80) ∧ b ≠ 0x22 ∧ b ≠ 0x2c ∧ b ≠ 0x3d := forall_byte (by decide +kernel)

theorem sample_signs : Signs sampleDigests sampleRealm.realm ⟨utf8 "alice", utf8 "wonderland"⟩
    sampleNonce.value (utf8 "DESCRIBE") (utf8 "/cam1") (utf8 "00000001") (utf8 "c")
    sampleParams where
  valid p hp := by
    have hall : sampleParams.all fun p => (p.name ++ p.value).all isTokenByte := by decide +kernel
    have hbytes := List.all_eq_true.1 (List.all_eq_true.1 hall p hp)
    have hname (b) (hb : b ∈ p.name) := isTokenByte_spec b (hbytes b (List.mem_append_left _ hb))
    have hvalue (b) (hb : b ∈ p.value) := isTokenByte_spec b (hbytes b (List.mem_append_right _ hb))
    refine ⟨⟨isTrimmed_of_graphic fun b hb => (hname b hb).1, fun b hb => (hname b hb).2⟩,
      fun b hb => (hvalue b hb).2.1, fun _ => ⟨?_, fun b hb => (hvalue b hb).2.2.1⟩⟩
    exact isTrimmed_of_graphic fun b hb => (hvalue b hb).1
  unique := by decide +kernel
  response := by decide +kernel
  username := by decide +kernel
  nonce := by decide +kernel
  uri := by decide +kernel
  nc := by decide +kernel
  cnonce := by decide +kernel
  qop := by decide +kernel

/-- Alice is let in with a digest of a path where the URI of the request has a host, and the
    same header does not let her set up the track. -/
theorem authenticate_digest_alice :
    AcceptsDigest sampleDigests sampleRealm sampleNonce (printDigest sampleParams) 0
        (sampleRequest .describe (utf8 "rtsp://host/cam1")) (utf8 "DESCRIBE") (utf8 "alice") ∧
      ¬AcceptsDigest sampleDigests sampleRealm sampleNonce (printDigest sampleParams) 0
        (sampleRequest .setup (utf8 "rtsp://host/cam1")) (utf8 "SETUP") (utf8 "alice") := by
  have hmd5 : Function.Injective (md5Hex sampleDigests) :=
    hexLower_injective.comp md5Table_injective
  obtain ⟨hcomplete, -, hbound⟩ := authenticate_digest hmd5
    (show (sampleRealm.users.map UserCred.name).Nodup by decide +kernel) sampleNonce
  have haccepts : AcceptsDigest sampleDigests sampleRealm sampleNonce (printDigest sampleParams) 0
      (sampleRequest .describe (utf8 "rtsp://host/cam1")) (utf8 "DESCRIBE") (utf8 "alice") :=
    hcomplete ⟨utf8 "alice", utf8 "wonderland"⟩ (by decide +kernel) (by decide +kernel)
      (by decide +kernel) rfl sample_signs
  exact ⟨haccepts, fun hsetup => absurd (hbound haccepts hsetup).1 (by decide +kernel)⟩

end Bairelay
