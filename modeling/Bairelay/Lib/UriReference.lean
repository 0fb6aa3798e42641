import Mathlib

/-!
# References to URIs

What a reference means in a place with a URI of its own (RFC 3986), on the bytes of both:
they are taken apart (`parse`, appendix B), the reference is put in the place of the end of
the base (`resolve`, section 5.2), and the result is put together again (`recompose`,
section 5.3).

* `join_eq_append`: the name of a file is appended to the URI of its directory, if that has
  neither a query nor a fragment.
-/

namespace UriReference

/-- The delimiters `/`, `?`, `#` and `:`, and the dot. -/
abbrev slash : UInt8 := 0x2f
abbrev question : UInt8 := 0x3f
abbrev hash : UInt8 := 0x23
abbrev colon : UInt8 := 0x3a
abbrev dot : UInt8 := 0x2e

end UriReference

/-- The five components of a reference; the path is always there. -/
structure UriReference where
  scheme : Option (List UInt8)
  authority : Option (List UInt8)
  path : List UInt8
  query : Option (List UInt8)
  fragment : Option (List UInt8)
  deriving DecidableEq, Repr

namespace UriReference

/-! ## Parsing -/

/-- What is before and behind the first delimiter, if there is one. -/
def cut (delimiter : UInt8) (s : List UInt8) : List UInt8 × Option (List UInt8) :=
  match s.dropWhile (· ≠ delimiter) with
  | [] => (s, none)
  | _ :: back => (s.takeWhile (· ≠ delimiter), some back)

/-- The scheme is what is before a colon, if no slash comes first. -/
def cutScheme (s : List UInt8) : Option (List UInt8) × List UInt8 :=
  let scheme := s.takeWhile fun b => b ≠ colon ∧ b ≠ slash
  match s.dropWhile fun b => b ≠ colon ∧ b ≠ slash with
  | delimiter :: rest =>
    if delimiter = colon ∧ scheme ≠ [] then (some scheme, rest) else (none, s)
  | [] => (none, s)

/-- The authority is what is behind two slashes, up to the next one. -/
def cutAuthority : List UInt8 → Option (List UInt8) × List UInt8
  | b :: b' :: rest =>
    if b = slash ∧ b' = slash then
      (some (rest.takeWhile (· ≠ slash)), rest.dropWhile (· ≠ slash))
    else (none, b :: b' :: rest)
  | s => (none, s)

/-- Split a reference at its delimiters, from the end. -/
def parse (s : List UInt8) : UriReference :=
  let (s, fragment) := cut hash s
  let (s, query) := cut question s
  let (scheme, s) := cutScheme s
  let (authority, path) := cutAuthority s
  { scheme, authority, path, query, fragment }

/-! ## Resolution -/

/-- Drop the last segment of a path, and the slash before it. -/
def dropSegment (path : List UInt8) : List UInt8 :=
  (path.reverse.dropWhile (· ≠ slash)).tail.reverse

/-- Move a path to the output, segment by segment, but for those that are dots. -/
def removeDotSegments (output : List UInt8) : (fuel : ℕ) → List UInt8 → List UInt8
  | 0, input => output ++ input
  | fuel + 1, input =>
    if [dot, dot, slash].isPrefixOf input then removeDotSegments output fuel (input.drop 3)
    else if [dot, slash].isPrefixOf input then removeDotSegments output fuel (input.drop 2)
    else if [slash, dot, slash].isPrefixOf input then removeDotSegments output fuel (input.drop 2)
    else if input = [slash, dot] then removeDotSegments output fuel [slash]
    else if [slash, dot, dot, slash].isPrefixOf input then
      removeDotSegments (dropSegment output) fuel (input.drop 3)
    else if input = [slash, dot, dot] then removeDotSegments (dropSegment output) fuel [slash]
    else if input = [dot] ∨ input = [dot, dot] ∨ input = [] then output
    else
      -- The next segment, with the slash before it.
      let segment := input.take 1 ++ (input.drop 1).takeWhile (· ≠ slash)
      removeDotSegments (output ++ segment) fuel (input.drop segment.length)

/-- A path without its dot segments. -/
def normalized (path : List UInt8) : List UInt8 := removeDotSegments [] (path.length + 1) path

/-- A relative path in the place of the last segment of that of the base. -/
def merge (base : UriReference) (path : List UInt8) : List UInt8 :=
  if base.authority.isSome ∧ base.path = [] then slash :: path
  else (base.path.reverse.dropWhile (· ≠ slash)).reverse ++ path

/-- The target of a reference, by the components it has. -/
def resolve (base r : UriReference) : UriReference :=
  if r.scheme.isSome then { r with path := normalized r.path }
  else if r.authority.isSome then { r with scheme := base.scheme, path := normalized r.path }
  else if r.path = [] then
    { base with query := r.query <|> base.query, fragment := r.fragment }
  else
    { r with
      scheme := base.scheme
      authority := base.authority
      path := if r.path.head? = some slash then normalized r.path
        else normalized (merge base r.path) }

/-- The components put together again. -/
def recompose (uri : UriReference) : List UInt8 :=
  (uri.scheme.elim [] fun scheme => scheme ++ [colon]) ++
    (uri.authority.elim [] fun authority => slash :: slash :: authority) ++ uri.path ++
    (uri.query.elim [] fun query => question :: query) ++
    (uri.fragment.elim [] fun fragment => hash :: fragment)

/-- What a reference means at a base. -/
def join (base r : List UInt8) : List UInt8 := (resolve (parse base) (parse r)).recompose

/-! ## Files in a directory -/

theorem cut_of_notMem {delimiter : UInt8} {s : List UInt8} (h : delimiter ∉ s) :
    cut delimiter s = (s, none) := by
  have hdrop : s.dropWhile (· ≠ delimiter) = [] :=
    List.dropWhile_eq_nil_iff.2 fun b hb => decide_eq_true fun heq => h (heq ▸ hb)
  rw [cut, hdrop]

/-- A scheme ends at the colon, if no slash comes before. -/
theorem cutScheme_append {scheme : List UInt8} (hne : scheme ≠ [])
    (h : ∀ b ∈ scheme, b ≠ colon ∧ b ≠ slash) (rest : List UInt8) :
    cutScheme (scheme ++ colon :: rest) = (some scheme, rest) := by
  have hp : ∀ b ∈ scheme, decide (b ≠ colon ∧ b ≠ slash) = true :=
    fun b hb => decide_eq_true (h b hb)
  have htake : (scheme ++ colon :: rest).takeWhile (fun b => b ≠ colon ∧ b ≠ slash) = scheme := by
    rw [List.takeWhile_append_of_pos hp, List.takeWhile_cons_of_neg (by decide), List.append_nil]
  have hdrop : (scheme ++ colon :: rest).dropWhile (fun b => b ≠ colon ∧ b ≠ slash) =
      colon :: rest := by
    rw [List.dropWhile_append_of_pos hp, List.dropWhile_cons_of_neg (by decide)]
  rw [cutScheme, htake, hdrop]
  exact if_pos ⟨rfl, hne⟩

theorem cutScheme_of_notMem {s : List UInt8} (hcolon : colon ∉ s) (hslash : slash ∉ s) :
    cutScheme s = (none, s) := by
  have hdrop : s.dropWhile (fun b => b ≠ colon ∧ b ≠ slash) = [] :=
    List.dropWhile_eq_nil_iff.2 fun b hb => decide_eq_true
      ⟨fun heq => hcolon (heq ▸ hb), fun heq => hslash (heq ▸ hb)⟩
  rw [cutScheme, hdrop]

/-- An authority stands between two slashes and the next one. -/
theorem cutAuthority_append {authority : List UInt8} (h : slash ∉ authority) (path : List UInt8) :
    cutAuthority (slash :: slash :: (authority ++ slash :: path)) =
      (some authority, slash :: path) := by
  have hp : ∀ b ∈ authority, decide (b ≠ slash) = true :=
    fun b hb => decide_eq_true fun heq => h (heq ▸ hb)
  rw [cutAuthority, if_pos ⟨rfl, rfl⟩, List.takeWhile_append_of_pos hp,
    List.dropWhile_append_of_pos hp, List.takeWhile_cons_of_neg (by decide),
    List.dropWhile_cons_of_neg (by decide), List.append_nil]

theorem cutAuthority_of_notMem {s : List UInt8} (h : slash ∉ s) : cutAuthority s = (none, s) := by
  match s with
  | [] => rfl
  | [_] => rfl
  | b :: b' :: rest =>
    have hb : b ≠ slash := fun heq => h (heq ▸ List.mem_cons_self)
    exact if_neg fun hslashes => hb hslashes.1

/-- Where there are no dots, nothing is removed. -/
theorem removeDotSegments_of_notMem {output input : List UInt8} (fuel : ℕ) (h : dot ∉ input) :
    removeDotSegments output fuel input = output ++ input := by
  induction fuel generalizing output input with
  | zero => rfl
  | succ fuel ih =>
    have hstart {s : List UInt8} (hs : dot ∈ s) : ¬s.isPrefixOf input :=
      fun hp => h ((List.isPrefixOf_iff_prefix.1 hp).subset hs)
    have hne {s : List UInt8} (hs : dot ∈ s) : input ≠ s := fun heq => h (heq ▸ hs)
    rw [removeDotSegments, if_neg (hstart (by decide)), if_neg (hstart (by decide)),
      if_neg (hstart (by decide)), if_neg (hne (by decide)), if_neg (hstart (by decide)),
      if_neg (hne (by decide))]
    by_cases hnil : input = []
    · rw [if_pos (.inr (.inr hnil)), hnil, List.append_nil]
    · rw [if_neg (by
        rintro (heq | heq | heq)
        · exact hne (by decide) heq
        · exact hne (by decide) heq
        · exact hnil heq)]
      obtain ⟨b, rest, rfl⟩ := List.exists_cons_of_ne_nil hnil
      -- The segment is what the input begins with; the rest has no dots either.
      have hsegment : (b :: rest).take 1 ++ ((b :: rest).drop 1).takeWhile (· ≠ slash) <+:
          b :: rest := List.cons_prefix_cons.2 ⟨rfl, List.takeWhile_prefix _⟩
      rw [ih fun hdot => h (List.mem_of_mem_drop hdot), List.append_assoc,
        List.prefix_iff_eq_append.1 hsegment]

theorem merge_directory {base : UriReference} {directory : List UInt8}
    (h : base.path = directory ++ [slash]) (file : List UInt8) :
    merge base file = base.path ++ file := by
  have hpath : base.path ≠ [] := by
    rw [h]
    exact List.append_ne_nil_of_right_ne_nil _ (List.cons_ne_nil _ _)
  have hdrop : (base.path.reverse.dropWhile (· ≠ slash)).reverse = base.path := by
    rw [h, List.reverse_append, List.reverse_singleton, List.singleton_append,
      List.dropWhile_cons_of_neg (by decide), List.reverse_cons, List.reverse_reverse]
  rw [merge, if_neg fun hempty => hpath hempty.2, hdrop]

/-- A name without delimiters or dots means the file of that name in the directory. -/
theorem join_eq_append {scheme authority path directory file : List UInt8}
    (hscheme : scheme ≠ []) (hcolon : ∀ b ∈ scheme, b ≠ colon ∧ b ≠ slash)
    (hauthority : slash ∉ authority) (hdirectory : slash :: path = directory ++ [slash])
    (hdot : dot ∉ path) (hfile : file ≠ [])
    (hname : ∀ b ∈ [slash, question, hash, colon, dot], b ∉ file)
    (hplain : ∀ b ∈ [question, hash], b ∉ scheme ++ authority ++ path) :
    join (scheme ++ colon :: slash :: slash :: (authority ++ slash :: path)) file =
      scheme ++ colon :: slash :: slash :: (authority ++ slash :: path) ++ file := by
  have hcut : ∀ b ∈ [question, hash],
      b ∉ scheme ++ colon :: slash :: slash :: (authority ++ slash :: path) := by
    intro b hb hmem
    have hnot := hplain b hb
    have hb : b ≠ colon ∧ b ≠ slash := by fin_cases hb <;> decide
    simp only [List.mem_append, List.mem_cons, hb.1, hb.2, false_or] at hmem hnot
    exact hnot (or_assoc.2 hmem)
  have hbase : parse (scheme ++ colon :: slash :: slash :: (authority ++ slash :: path)) =
      ⟨some scheme, some authority, slash :: path, none, none⟩ := by
    rw [parse, cut_of_notMem (hcut hash (by decide))]
    dsimp only
    rw [cut_of_notMem (hcut question (by decide))]
    dsimp only
    rw [cutScheme_append hscheme hcolon]
    dsimp only
    rw [cutAuthority_append hauthority]
  have hr : parse file = ⟨none, none, file, none, none⟩ := by
    rw [parse, cut_of_notMem (hname hash (by decide))]
    dsimp only
    rw [cut_of_notMem (hname question (by decide))]
    dsimp only
    rw [cutScheme_of_notMem (hname colon (by decide)) (hname slash (by decide))]
    dsimp only
    rw [cutAuthority_of_notMem (hname slash (by decide))]
  have hhead : file.head? ≠ some slash :=
    fun heq => hname slash (by decide) (List.mem_of_mem_head? heq)
  have hdots : dot ∉ slash :: path ++ file := by
    simp only [List.cons_append, List.mem_cons, List.mem_append, not_or]
    exact ⟨by decide, hdot, hname dot (by decide)⟩
  rw [join, hbase, hr, resolve]
  simp only [Option.isSome_none, Bool.false_eq_true, if_false, if_neg hfile, if_neg hhead]
  rw [merge_directory hdirectory, normalized, removeDotSegments_of_notMem _ hdots]
  simp [recompose]

end UriReference
