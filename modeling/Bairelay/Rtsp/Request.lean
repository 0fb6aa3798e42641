import Bairelay.Basic
import Bairelay.Lib.Incremental

/-!
# The framing of requests

How one request is sliced out of what a client has sent (`try_consume_request` in
`rtsp/server/connection.rs`): up to the blank line after the headers, and as many
bytes more as `Content-Length` says.

* `tryConsumeRequest_lawful`: it is an incremental decoder, so that it makes no
  difference how the input is cut into reads;
* `Request.tryConsumeRequest_bytes`: it takes a well-formed request as a whole.
-/

namespace Bairelay

open Incremental

/-- The most that is read into the buffer of requests. -/
def maxRequestBytes : ℕ := 64 * 1024

/-- Where the empty line is that ends the head. -/
def findDoubleCrlf : Bytes → Option ℕ
  | 13 :: 10 :: 13 :: 10 :: _ => some 0
  | _ :: rest => (findDoubleCrlf rest).map (· + 1)
  | [] => none

/-! ## Text

Text is kept as its bytes in UTF-8. All that is looked for in it but the whitespace to
be trimmed is ASCII, and so are the bytes to look for. -/

/-- Whether bytes are text. -/
def isUtf8 (s : Bytes) : Bool := (ByteArray.mk s.toArray).validateUTF8

/-- The parts between line ends. -/
def splitCrlf : Bytes → List Bytes
  | 13 :: 10 :: rest => [] :: splitCrlf rest
  | b :: rest =>
    match splitCrlf rest with
    | line :: lines => (b :: line) :: lines
    | [] => [[b]]
  | [] => [[]]

/-- What is before and behind the first separator. -/
def splitOnce (sep : UInt8) : Bytes → Option (Bytes × Bytes)
  | [] => none
  | b :: rest =>
    if b = sep then some ([], rest)
    else (splitOnce sep rest).map fun (front, back) => (b :: front, back)

/-- Letters of ASCII only. -/
def toAsciiLowercase (b : UInt8) : UInt8 := if 0x41 ≤ b ∧ b ≤ 0x5a then b + 0x20 else b

/-- Texts that differ in the case of letters of ASCII only. -/
def eqIgnoreAsciiCase (s t : Bytes) : Bool :=
  s.map toAsciiLowercase = t.map toAsciiLowercase

/-- The whitespace of Unicode, in UTF-8. -/
def whitespace : List Bytes :=
  [[0x09], [0x0a], [0x0b], [0x0c], [0x0d], [0x20], [0xc2, 0x85], [0xc2, 0xa0], [0xe1, 0x9a, 0x80],
    [0xe2, 0x80, 0x80], [0xe2, 0x80, 0x81], [0xe2, 0x80, 0x82], [0xe2, 0x80, 0x83],
    [0xe2, 0x80, 0x84], [0xe2, 0x80, 0x85], [0xe2, 0x80, 0x86], [0xe2, 0x80, 0x87],
    [0xe2, 0x80, 0x88], [0xe2, 0x80, 0x89], [0xe2, 0x80, 0x8a], [0xe2, 0x80, 0xa8],
    [0xe2, 0x80, 0xa9], [0xe2, 0x80, 0xaf], [0xe2, 0x81, 0x9f], [0xe3, 0x80, 0x80]]

/-- Drop any of some strings from the front, again and again, at most `fuel` times. -/
def dropAll (strings : List Bytes) : ℕ → Bytes → Bytes
  | 0, s => s
  | fuel + 1, s =>
    match strings.find? (·.isPrefixOf s) with
    | some w => dropAll strings fuel (s.drop w.length)
    | none => s

/-- Whitespace in front is left out. -/
def trimStart (s : Bytes) : Bytes := dropAll whitespace s.length s

/-- Whitespace at the end is left out. -/
def trimEnd (s : Bytes) : Bytes :=
  (dropAll (whitespace.map List.reverse) s.length s.reverse).reverse

/-- Whitespace at both ends is left out. -/
def trim (s : Bytes) : Bytes := trimEnd (trimStart s)

/-- A decimal digit. -/
def isDigit (b : UInt8) : Bool := 0x30 ≤ b && b ≤ 0x39

/-- The number that decimal digits stand for. -/
def digitsValue (digits : Bytes) : ℕ :=
  digits.foldl (fun n b => 10 * n + (b.toNat - 0x30)) 0

/-- A number of 64 bits, with a sign or without. -/
def parseUsize (s : Bytes) : Option ℕ :=
  let digits := match s with
    | 0x2b :: rest => rest
    | _ => s
  if digits = [] ∨ ¬digits.all isDigit then none
  else if digitsValue digits < 2 ^ 64 then some (digitsValue digits)
  else none

/-- `Content-Length` -/
def contentLength : Bytes :=
  [0x43, 0x6f, 0x6e, 0x74, 0x65, 0x6e, 0x74, 0x2d, 0x4c, 0x65, 0x6e, 0x67, 0x74, 0x68]

/-! ## Consuming a request -/

/-- What a line says of the length, if it is the header of that name. -/
def contentLengthOf? (line : Bytes) : Option (Option ℕ) := do
  let (name, value) ← splitOnce 0x3a line
  if eqIgnoreAsciiCase name contentLength then some (parseUsize (trim value)) else none

/-- The first header of that name decides, also if its value is no number. -/
def parseContentLength (headers : Bytes) : Option ℕ :=
  if ¬isUtf8 headers then none else ((splitCrlf headers).findSome? contentLengthOf?).join

/-- Slice exactly one request off the buffer: what is left of it, and the request, or
    `none` if it is not complete. -/
def tryConsumeRequest (buf : Bytes) : Bytes × Except String (Option Bytes) :=
  match findDoubleCrlf buf with
  | some pos =>
    let headEnd := pos + 4
    let bodyLen := (parseContentLength (buf.take headEnd)).getD 0
    if maxRequestBytes < bodyLen then
      (buf, .error s!"Content-Length {bodyLen} exceeds maximum {maxRequestBytes}")
    else
      let total := headEnd + bodyLen
      if 2 ^ 64 ≤ total then (buf, .error "request size overflows usize")
      else if maxRequestBytes < total then
        (buf, .error s!"request size {total} exceeds maximum {maxRequestBytes}")
      else if buf.length < total then (buf, .ok none)
      else (buf.drop total, .ok (some (buf.take total)))
  | none => (buf, .ok none)

/-- Consuming requests, as an incremental decoder. -/
def requestDecoder : Decoder Unit UInt8 Bytes String := fun _ buf => ((), tryConsumeRequest buf)

/-- The empty line stays where it is when more comes. -/
theorem findDoubleCrlf_spec {buf : Bytes} {pos : ℕ} (h : findDoubleCrlf buf = some pos) :
    pos + 4 ≤ buf.length ∧ ∀ more, findDoubleCrlf (buf ++ more) = some pos := by
  induction buf using findDoubleCrlf.induct generalizing pos with
  | case1 rest =>
    rw [findDoubleCrlf] at h
    obtain rfl := Option.some.inj h
    exact ⟨by simp, fun more => rfl⟩
  | case2 b rest hne ih =>
    rw [findDoubleCrlf] at h
    · obtain ⟨pos', hpos', rfl⟩ := Option.map_eq_some_iff.1 h
      obtain ⟨hlen, hmore⟩ := ih hpos'
      refine ⟨by rw [List.length_cons]; omega, fun more => ?_⟩
      rw [List.cons_append, findDoubleCrlf, hmore, Option.map_some]
      rintro tail rfl hrest
      -- The four bytes are in the buffer already.
      obtain _ | ⟨b₁, _ | ⟨b₂, _ | ⟨b₃, tail'⟩⟩⟩ := rest
      · simp at hlen
      · simp at hlen
      · simp at hlen
      · simp only [List.cons_append, List.cons.injEq] at hrest
        obtain ⟨rfl, rfl, rfl, -⟩ := hrest
        exact hne _ rfl rfl
    · exact hne
  | case3 => cases h

/-- What a call of the framing does, once the end of the headers is there. -/
theorem tryConsumeRequest_cases (buf : Bytes) :
    tryConsumeRequest buf = (buf, .ok none) ∨
      (∃ e, tryConsumeRequest buf = (buf, .error e) ∧
        ∀ more, tryConsumeRequest (buf ++ more) = (buf ++ more, .error e)) ∨
      ∃ total, 4 ≤ total ∧ total ≤ buf.length ∧ total ≤ maxRequestBytes ∧
        tryConsumeRequest buf = (buf.drop total, .ok (some (buf.take total))) ∧
          ∀ more, tryConsumeRequest (buf ++ more) =
            ((buf ++ more).drop total, .ok (some ((buf ++ more).take total))) := by
  have hnone : findDoubleCrlf buf = none → tryConsumeRequest buf = (buf, .ok none) := by
    intro h
    rw [tryConsumeRequest, h]
  cases hpos : findDoubleCrlf buf with
  | none => exact .inl (hnone hpos)
  | some pos =>
    obtain ⟨hlen, hmore⟩ := findDoubleCrlf_spec hpos
    -- The headers are the same, whatever follows.
    have hhead (more : Bytes) : (buf ++ more).take (pos + 4) = buf.take (pos + 4) :=
      List.take_append_of_le_length hlen
    simp only [tryConsumeRequest, hpos, hmore, hhead]
    generalize (parseContentLength (buf.take (pos + 4))).getD 0 = bodyLen
    split
    · exact .inr (.inl ⟨_, rfl, fun more => rfl⟩)
    · split
      · exact .inr (.inl ⟨_, rfl, fun more => rfl⟩)
      · split
        · exact .inr (.inl ⟨_, rfl, fun more => rfl⟩)
        · next hmax =>
          split
          · exact .inl rfl
          · next htotal =>
            refine .inr (.inr ⟨_, by omega, not_lt.1 htotal, not_lt.1 hmax, rfl, fun more => ?_⟩)
            rw [if_neg]
            rw [List.length_append]
            omega

theorem tryConsumeRequest_lawful : Lawful requestDecoder where
  idle _ := rfl
  waits {s buf s' buf'} h := by
    obtain ⟨-, h⟩ := Prod.ext_iff.1 h
    refine ⟨rfl, ?_⟩
    rcases tryConsumeRequest_cases buf with hc | ⟨e, hc, -⟩ | ⟨total, -, -, -, hc, -⟩ <;>
      simp_all [requestDecoder]
  append {s buf s' buf' r} h hr more := by
    simp only [requestDecoder, Prod.mk.injEq, true_and] at h ⊢
    rcases tryConsumeRequest_cases buf with hc | ⟨e, hc, hmore⟩ | ⟨total, -, hlen, -, hc, hmore⟩
    · rw [hc] at h
      exact absurd (Prod.ext_iff.1 h).2.symm hr
    · rw [hc] at h
      obtain ⟨rfl, rfl⟩ := Prod.mk.inj h
      exact hmore more
    · rw [hc] at h
      obtain ⟨rfl, rfl⟩ := Prod.mk.inj h
      rw [hmore, List.drop_append_of_le_length hlen, List.take_append_of_le_length hlen]
  progress {s buf s' buf' x} h := by
    simp only [requestDecoder, Prod.mk.injEq, true_and] at h
    rcases tryConsumeRequest_cases buf with hc | ⟨e, hc, -⟩ | ⟨total, hpos, hlen, -, hc, -⟩
    · rw [hc] at h
      simp at h
    · rw [hc] at h
      simp at h
    · rw [hc] at h
      obtain ⟨rfl, -⟩ := Prod.mk.inj h
      rw [List.length_drop]
      omega

/-! ## Well-formed requests -/

/-- One line of text. -/
def IsLine (s : Bytes) : Prop := 0x0d ∉ s ∧ 0x0a ∉ s

instance : DecidablePred IsLine := fun _ => inferInstanceAs (Decidable (_ ∧ _))

/-- The text of `Content-Length`: decimal digits, between blanks. -/
def Denotes (value : Bytes) (n : ℕ) : Prop :=
  ∃ front digits back, value = front ++ digits ++ back ∧
    (∀ b ∈ front, b = 0x20 ∨ b = 0x09) ∧ (∀ b ∈ back, b = 0x20 ∨ b = 0x09) ∧
      digits ≠ [] ∧ digits.all isDigit ∧ digitsValue digits = n

/-- A header as it stands in a line. -/
structure Header where
  name : Bytes
  value : Bytes
  deriving DecidableEq, Repr

namespace Header

/-- The line of a header. -/
def line (header : Header) : Bytes := header.name ++ 0x3a :: header.value

/-- Whether it gives the length of the body. -/
def isContentLength (header : Header) : Bool := eqIgnoreAsciiCase header.name contentLength

/-- The header is one line, and its name ends before the colon. -/
def WellFormed (header : Header) : Prop := IsLine header.line ∧ 0x3a ∉ header.name

instance : DecidablePred WellFormed := fun _ => inferInstanceAs (Decidable (_ ∧ _))

end Header

/-- Lines, each with its end, and a blank one after them. -/
def headBytes (lines : List Bytes) : Bytes :=
  lines.flatMap (· ++ [0x0d, 0x0a]) ++ [0x0d, 0x0a]

/-- The first line of a request. -/
def requestLine (method uri version : Bytes) : Bytes :=
  method ++ 0x20 :: (uri ++ 0x20 :: version)

/-- A well-formed request: its text is UTF-8, the length of its body is announced, and
    it is not too long. -/
structure Request where
  method : Bytes
  uri : Bytes
  version : Bytes
  headers : List Header
  body : Bytes
  isLine : IsLine (requestLine method uri version)
  isToken : 0x3a ∉ method
  wellFormed : ∀ header ∈ headers, header.WellFormed
  utf8 : isUtf8 (headBytes (requestLine method uri version :: headers.map Header.line))
  announced : match headers.filter Header.isContentLength with
    | [] => body = []
    | [header] => Denotes header.value body.length
    | _ => False
  length_le : (headBytes (requestLine method uri version :: headers.map Header.line)).length +
    body.length ≤ maxRequestBytes

namespace Request

/-- The lines of the head. -/
def lines (request : Request) : List Bytes :=
  requestLine request.method request.uri request.version :: request.headers.map Header.line

/-- The whole request. -/
def bytes (request : Request) : Bytes := headBytes request.lines ++ request.body

end Request

/-! ### The end of the headers -/

/-- The empty line is not in a line without line ends. -/
theorem findDoubleCrlf_append {s : Bytes} (h : 0x0d ∉ s) (rest : Bytes) :
    findDoubleCrlf (s ++ rest) = (findDoubleCrlf rest).map (· + s.length) := by
  induction s with
  | nil => simp
  | cons b s ih =>
    obtain ⟨hb, hs⟩ := List.ne_and_not_mem_of_not_mem_cons h
    rw [List.cons_append, findDoubleCrlf, ih hs, Option.map_map]
    · rfl
    · rintro tail rfl
      exact absurd rfl hb

/-- A line end before a line that is not blank is not the one looked for. -/
theorem findDoubleCrlf_crlf {b : UInt8} (hb : b ≠ 0x0d) (rest : Bytes) :
    findDoubleCrlf (0x0d :: 0x0a :: b :: rest) =
      (findDoubleCrlf (b :: rest)).map (· + 2) := by
  rw [findDoubleCrlf, findDoubleCrlf, Option.map_map]
  · rfl
  · rintro tail htail
    cases htail
  · rintro tail - htail
    exact hb (List.cons.inj (List.cons.inj htail).2).1

/-- The empty line is that at the end of the head. -/
theorem findDoubleCrlf_headBytes {line : Bytes} {lines : List Bytes}
    (h : ∀ l ∈ line :: lines, IsLine l ∧ l ≠ []) (more : Bytes) :
    findDoubleCrlf (headBytes (line :: lines) ++ more) =
      some ((headBytes (line :: lines)).length - 4) := by
  induction lines generalizing line with
  | nil =>
    obtain ⟨hline, -⟩ := h line List.mem_cons_self
    simp only [headBytes, List.flatMap_cons, List.flatMap_nil, List.append_assoc,
      List.nil_append, List.cons_append]
    rw [findDoubleCrlf_append hline.1]
    simp [findDoubleCrlf]
  | cons line' lines ih =>
    obtain ⟨hline, -⟩ := h line List.mem_cons_self
    obtain ⟨hline', hne⟩ := h line' (by simp)
    have hrest := ih fun l hl => h l (List.mem_cons_of_mem _ hl)
    have hhead : headBytes (line :: line' :: lines) ++ more =
        line ++ 0x0d :: 0x0a :: (headBytes (line' :: lines) ++ more) := by
      simp [headBytes]
    have hlen : 4 ≤ (headBytes (line' :: lines)).length := by
      simp only [headBytes, List.length_append, List.flatMap_cons, List.length_cons,
        List.length_nil]
      omega
    have hlen' : (headBytes (line :: line' :: lines)).length =
        line.length + 2 + (headBytes (line' :: lines)).length := by
      simp only [headBytes, List.length_append, List.flatMap_cons, List.length_cons,
        List.length_nil]
      omega
    rw [hhead, findDoubleCrlf_append hline.1]
    obtain ⟨b, rest, hb⟩ := List.exists_cons_of_ne_nil hne
    obtain ⟨tail, htail⟩ : ∃ tail, headBytes (line' :: lines) ++ more = b :: tail := by
      rw [hb]
      exact ⟨_, rfl⟩
    have hb' : b ≠ 0x0d := by
      rintro rfl
      exact hline'.1 (by rw [hb]; exact List.mem_cons_self)
    rw [htail, findDoubleCrlf_crlf hb', ← htail, hrest, Option.map_some, Option.map_some, hlen']
    congr 1
    omega

/-! ### The lines of the headers -/

theorem splitCrlf_append {line : Bytes} (h : 0x0d ∉ line) (rest : Bytes) :
    splitCrlf (line ++ 0x0d :: 0x0a :: rest) = line :: splitCrlf rest := by
  induction line with
  | nil => rw [List.nil_append, splitCrlf]
  | cons b line ih =>
    obtain ⟨hb, hline⟩ := List.ne_and_not_mem_of_not_mem_cons h
    rw [List.cons_append, splitCrlf, ih hline]
    rintro tail rfl
    exact absurd rfl hb

/-- The lines of the head, and two empty ones. -/
theorem splitCrlf_headBytes {lines : List Bytes} (h : ∀ l ∈ lines, IsLine l) :
    splitCrlf (headBytes lines) = lines ++ [[], []] := by
  induction lines with
  | nil => rfl
  | cons line lines ih =>
    have hhead : headBytes (line :: lines) = line ++ 0x0d :: 0x0a :: headBytes lines := by
      simp [headBytes]
    rw [hhead, splitCrlf_append (h line List.mem_cons_self).1,
      ih fun l hl => h l (List.mem_cons_of_mem _ hl), List.cons_append]

/-- What is in front of the separator, and behind it. -/
theorem splitOnce_append {sep : UInt8} {front : Bytes} (h : sep ∉ front) (back : Bytes) :
    splitOnce sep (front ++ sep :: back) = some (front, back) := by
  induction front with
  | nil => rw [List.nil_append, splitOnce, if_pos rfl]
  | cons b front ih =>
    obtain ⟨hb, hfront⟩ := List.ne_and_not_mem_of_not_mem_cons h
    rw [List.cons_append, splitOnce, if_neg (Ne.symm hb), ih hfront, Option.map_some]

theorem splitOnce_eq_some {sep : UInt8} {s front back : Bytes}
    (h : splitOnce sep s = some (front, back)) : s = front ++ sep :: back := by
  induction s generalizing front with
  | nil => cases h
  | cons b s ih =>
    rw [splitOnce] at h
    split at h
    · next hb =>
      obtain ⟨rfl, rfl⟩ := Prod.mk.inj (Option.some.inj h)
      rw [hb, List.nil_append]
    · obtain ⟨⟨front', back'⟩, hsplit, heq⟩ := Option.map_eq_some_iff.1 h
      obtain ⟨rfl, rfl⟩ := Prod.mk.inj heq
      rw [ih hsplit, List.cons_append]

/-! ### The value of the length -/

theorem dropAll_of_forall {strings : List Bytes} {s : Bytes}
    (h : ∀ w ∈ strings, ¬w.isPrefixOf s) (fuel : ℕ) : dropAll strings fuel s = s := by
  cases fuel with
  | zero => rfl
  | succ fuel =>
    rw [dropAll, List.find?_eq_none.2 h]

/-- A byte that no string to be dropped starts with stays. -/
theorem dropAll_cons {strings : List Bytes} {b : UInt8}
    (h : ∀ w ∈ strings, w ≠ [] ∧ w.head? ≠ some b) (s : Bytes) (fuel : ℕ) :
    dropAll strings fuel (b :: s) = b :: s := by
  refine dropAll_of_forall (fun w hw hprefix => ?_) fuel
  obtain ⟨hne, hhead⟩ := h w hw
  obtain ⟨a, w, rfl⟩ := List.exists_cons_of_ne_nil hne
  rw [List.isPrefixOf_cons_cons, Bool.and_eq_true, beq_iff_eq] at hprefix
  exact hhead (congrArg some hprefix.1)

/-- Blanks are dropped, whether from the front or from the back. -/
theorem dropAll_append {strings : List Bytes}
    (hfind : ∀ b : UInt8, b = 0x20 ∨ b = 0x09 →
      ∀ s, strings.find? (·.isPrefixOf (b :: s)) = some [b])
    {blanks s : Bytes} (h : ∀ b ∈ blanks, b = 0x20 ∨ b = 0x09)
    (hs : ∀ fuel, dropAll strings fuel s = s) {fuel : ℕ} (hfuel : blanks.length ≤ fuel) :
    dropAll strings fuel (blanks ++ s) = s := by
  induction blanks generalizing fuel with
  | nil => exact hs fuel
  | cons b blanks ih =>
    obtain ⟨fuel, rfl⟩ := Nat.exists_eq_add_of_lt hfuel
    rw [List.cons_append, dropAll, hfind b (h b List.mem_cons_self)]
    exact ih (fun b hb => h b (List.mem_cons_of_mem _ hb)) (by omega)

/-- Trimming leaves the digits. -/
theorem trim_digits {front digits back : Bytes} (hfront : ∀ b ∈ front, b = 0x20 ∨ b = 0x09)
    (hback : ∀ b ∈ back, b = 0x20 ∨ b = 0x09) (hne : digits ≠ []) (hdigits : digits.all isDigit) :
    trim (front ++ digits ++ back) = digits := by
  have hnone : ∀ b : UInt8, isDigit b →
      (∀ w ∈ whitespace, w ≠ [] ∧ w.head? ≠ some b) ∧
        ∀ w ∈ whitespace.map List.reverse, w ≠ [] ∧ w.head? ≠ some b :=
    forall_byte (by decide +kernel)
  rw [List.all_eq_true] at hdigits
  have hstart : trimStart (front ++ digits ++ back) = digits ++ back := by
    rw [trimStart, List.append_assoc]
    refine dropAll_append ?_ hfront (fun fuel => ?_) (by simp)
    · rintro b (rfl | rfl) s <;> rfl
    · obtain ⟨b, rest, rfl⟩ := List.exists_cons_of_ne_nil hne
      exact dropAll_cons (hnone b (hdigits b List.mem_cons_self)).1 _ fuel
  rw [trim, hstart, trimEnd, List.reverse_append, List.reverse_eq_iff]
  refine dropAll_append ?_ (fun b hb => hback b (List.mem_reverse.1 hb)) (fun fuel => ?_) (by simp)
  · rintro b (rfl | rfl) s <;> rfl
  · obtain ⟨b, rest, hb⟩ := List.exists_cons_of_ne_nil (mt List.reverse_eq_nil_iff.1 hne)
    rw [hb]
    refine dropAll_cons (hnone b (hdigits b ?_)).2 _ fuel
    rw [← List.mem_reverse, hb]
    exact List.mem_cons_self

theorem parseUsize_digits {digits : Bytes} (hne : digits ≠ []) (hdigits : digits.all isDigit)
    (hlt : digitsValue digits < 2 ^ 64) : parseUsize digits = some (digitsValue digits) := by
  have hsign : ∀ rest, digits ≠ 0x2b :: rest := by
    rintro rest rfl
    exact absurd (List.all_eq_true.1 hdigits _ List.mem_cons_self) (by decide)
  rw [parseUsize, if_neg (by simp [hne, hdigits]), if_pos hlt]
  exact hsign

/-- The value of `Content-Length` is what it denotes. -/
theorem Denotes.parse {value : Bytes} {n : ℕ} (h : Denotes value n) (hn : n < 2 ^ 64) :
    parseUsize (trim value) = some n := by
  obtain ⟨front, digits, back, rfl, hfront, hback, hne, hdigits, rfl⟩ := h
  rw [trim_digits hfront hback hne hdigits, parseUsize_digits hne hdigits hn]

/-- The name before a colon in a request line is no name of a header. -/
theorem requestLine_not_contentLength {method uri version name value : Bytes}
    (hmethod : 0x3a ∉ method)
    (h : splitOnce 0x3a (requestLine method uri version) = some (name, value)) :
    eqIgnoreAsciiCase name contentLength = false := by
  have hline := splitOnce_eq_some h
  -- The space after the method comes before the first colon.
  have hspace : 0x20 ∈ name := by
    rw [requestLine] at hline
    rcases List.append_eq_append_iff.1 hline with ⟨rest, rfl, hrest⟩ | ⟨rest, rfl, hrest⟩
    · cases rest with
      | nil => cases hrest
      | cons b rest =>
        obtain ⟨rfl, -⟩ := List.cons.inj hrest
        simp
    · cases rest with
      | nil => cases hrest
      | cons b rest =>
        obtain ⟨rfl, -⟩ := List.cons.inj hrest
        exact absurd (by simp) hmethod
  rw [eqIgnoreAsciiCase, decide_eq_false_iff_not]
  intro heq
  have hmem : toAsciiLowercase 0x20 ∈ contentLength.map toAsciiLowercase :=
    heq ▸ List.mem_map_of_mem hspace
  exact absurd hmem (by decide)

namespace Request

variable (request : Request)

theorem isLine_lines : ∀ l ∈ request.lines, IsLine l ∧ l ≠ [] := by
  intro l hl
  rcases List.mem_cons.1 hl with rfl | hl
  · exact ⟨request.isLine, by simp [requestLine]⟩
  · obtain ⟨header, hheader, rfl⟩ := List.mem_map.1 hl
    exact ⟨(request.wellFormed header hheader).1, by simp [Header.line]⟩

/-- The length that is read from the headers is that of the body. -/
theorem parseContentLength_headBytes :
    (parseContentLength (headBytes request.lines)).getD 0 = request.body.length := by
  have hlen : request.body.length < 2 ^ 64 := by
    have hle := request.length_le
    have hmax : maxRequestBytes < 2 ^ 64 := by decide
    omega
  -- The head splits into the lines it was made of.
  have hsplit := splitCrlf_headBytes fun l hl => (request.isLine_lines l hl).1
  -- A request line is no header, even if there is a colon in its URI.
  have hline : contentLengthOf? (requestLine request.method request.uri request.version) =
      none := by
    rw [contentLengthOf?]
    cases h : splitOnce 0x3a (requestLine request.method request.uri request.version) with
    | none => rfl
    | some p =>
      simp only [Option.bind_eq_bind, Option.bind_some]
      rw [requestLine_not_contentLength request.isToken h]
      rfl
  -- The first header of that name counts, and the others are not looked at.
  have hheaders : ∀ headers : List Header, (∀ header ∈ headers, header.WellFormed) →
      (headers.map Header.line).findSome? contentLengthOf? =
        ((headers.filter Header.isContentLength).head?).map
          fun header => parseUsize (trim header.value) := by
    intro headers hheaders
    induction headers with
    | nil => rfl
    | cons header headers ih =>
      have hrest := ih fun header hheader => hheaders header (List.mem_cons_of_mem _ hheader)
      have hsplit := splitOnce_append (hheaders header List.mem_cons_self).2 header.value
      have hheader : contentLengthOf? header.line =
          if header.isContentLength then some (parseUsize (trim header.value)) else none := by
        rw [contentLengthOf?, Header.line, hsplit]
        rfl
      rw [List.map_cons, List.findSome?_cons, hheader]
      cases hname : header.isContentLength with
      | true =>
        rw [List.filter_cons_of_pos hname]
        rfl
      | false =>
        rw [List.filter_cons_of_neg (by simp [hname]), ← hrest]
        rfl
  have hannounced := request.announced
  have htail : List.findSome? contentLengthOf? [[], []] = none := rfl
  have hutf8 : isUtf8 (headBytes request.lines) = true := request.utf8
  rw [parseContentLength, if_neg (not_not.2 hutf8), hsplit, List.findSome?_append, htail,
    Option.or_none, lines, List.findSome?_cons, hline]
  dsimp only
  rw [hheaders request.headers request.wellFormed]
  -- Without such a header there is no body; two of them are excluded.
  cases hfilter : request.headers.filter Header.isContentLength with
  | nil =>
    rw [hfilter] at hannounced
    have hbody : request.body = [] := hannounced
    rw [hbody]
    rfl
  | cons header rest =>
    cases rest with
    | nil =>
      rw [hfilter] at hannounced
      have hdenotes : Denotes header.value request.body.length := hannounced
      rw [List.head?_cons, Option.map_some, Option.join_some, hdenotes.parse hlen, Option.getD_some]
    | cons header' rest =>
      rw [hfilter] at hannounced
      exact hannounced.elim

/-- A well-formed request is taken as a whole. -/
theorem tryConsumeRequest_bytes :
    tryConsumeRequest request.bytes = ([], .ok (some request.bytes)) := by
  have hhead : 4 ≤ (headBytes request.lines).length := by
    simp only [headBytes, lines, List.flatMap_cons, List.length_append, List.length_cons,
      List.length_nil]
    omega
  have hpos : findDoubleCrlf request.bytes = some ((headBytes request.lines).length - 4) :=
    findDoubleCrlf_headBytes request.isLine_lines request.body
  have htake : request.bytes.take ((headBytes request.lines).length - 4 + 4) =
      headBytes request.lines := by
    rw [Nat.sub_add_cancel hhead, bytes, List.take_left]
  have hle : (headBytes request.lines).length + request.body.length ≤ maxRequestBytes :=
    request.length_le
  have hlen : request.bytes.length = (headBytes request.lines).length + request.body.length :=
    List.length_append
  have hmax : maxRequestBytes < 2 ^ 64 := by decide
  rw [tryConsumeRequest, hpos]
  dsimp only
  rw [htake, request.parseContentLength_headBytes, Nat.sub_add_cancel hhead, ← hlen,
    if_neg (by omega), if_neg (by omega), if_neg (by omega), if_neg (lt_irrefl _),
    List.drop_length, List.take_length]

end Request

end Bairelay
