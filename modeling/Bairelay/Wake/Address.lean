import Bairelay.Rtsp.Url

/-!
# Addresses

The addresses of hosts as they are written into the payloads of discovery packets and read
from them (`IpPort` of `bcudp/xml.rs`, `valid_addr` of `bc_protocol/connection/discovery.rs`).

* `parseIpv4_text`: an address of version 4 is read as it was written;
* `parseIpv4_text_v6`: an address of version 6 is not taken for one.
-/

namespace Bairelay

/-- `std::net::IpAddr` -/
inductive IpAddr where
  | v4 (a b c d : UInt8)
  | v6 (segments : Vector UInt16 8)
  deriving DecidableEq, Repr

/-- `std::net::SocketAddr` -/
structure SocketAddr where
  ip : IpAddr
  port : UInt16
  deriving DecidableEq, Repr

/-- An address as text, and a port. -/
structure IpPort where
  ip : Bytes
  port : UInt16
  deriving DecidableEq, Repr

namespace IpAddr

/-- The address that stands for every interface. -/
def isUnspecified : IpAddr → Bool
  | v4 a b c d => a = 0 && b = 0 && c = 0 && d = 0
  | v6 segments => segments = Vector.replicate 8 0

/-- The loopback address of the same family. -/
def localhost : IpAddr → IpAddr
  | v4 .. => v4 127 0 0 1
  | v6 _ => v6 #v[0, 0, 0, 0, 0, 0, 0, 1]

/-! ## Text -/

/-- The parts, with a separator between them. -/
def joinWith (sep : UInt8) : List Bytes → Bytes
  | [] => []
  | [part] => part
  | part :: parts => part ++ sep :: joinWith sep parts

/-- An octet in decimal. -/
def octetText (b : UInt8) : Bytes := utf8 (toString b.toNat)

/-- Four octets with dots between them. -/
def text4 (a b c d : UInt8) : Bytes :=
  joinWith 0x2e [octetText a, octetText b, octetText c, octetText d]

/-- A segment in hexadecimal, without leading zeros. -/
def hexText (n : UInt16) : Bytes := utf8 (String.ofList (Nat.toDigits 16 n.toNat))

/-- The first of the longest runs of zeros: where it starts, and how long it is. -/
def zeroRun (segments : List UInt16) : ℕ × ℕ :=
  (List.range segments.length).foldl (fun best i =>
    let len := ((segments.drop i).takeWhile (· = 0)).length
    if best.2 < len then (i, len) else best) (0, 0)

/-- The text of an IPv6 address: the longest run of zeros becomes `::`, and a mapped IPv4 address
    keeps its dots. -/
def text6 (segments : List UInt16) : Bytes :=
  let parts := segments.map hexText
  if segments.take 6 = [0, 0, 0, 0, 0, 0xffff] then
    match segments.drop 6 with
    | [high, low] => utf8 "::ffff:" ++
        text4 (high / 256).toUInt8 high.toUInt8 (low / 256).toUInt8 low.toUInt8
    | _ => []
  else
    let (start, len) := zeroRun segments
    if 1 < len then
      joinWith 0x3a (parts.take start) ++ [0x3a, 0x3a] ++ joinWith 0x3a (parts.drop (start + len))
    else joinWith 0x3a parts

/-- How an address is displayed. -/
def text : IpAddr → Bytes
  | v4 a b c d => text4 a b c d
  | v6 segments => text6 segments.toList

/-! ## Reading -/

/-- The parts between the separators. -/
def splitAll (sep : UInt8) : Bytes → List Bytes
  | [] => [[]]
  | b :: rest =>
    if b = sep then [] :: splitAll sep rest
    else match splitAll sep rest with
      | part :: parts => (b :: part) :: parts
      | [] => [[b]]

/-- At most three digits, the first of more than one not zero, for a number of eight bits. -/
def parseOctet (s : Bytes) : Option UInt8 :=
  if s = [] ∨ 3 < s.length ∨ ¬s.all isDigit ∨ 1 < s.length ∧ s.head? = some 0x30 then none
  else if digitsValue s < 256 then some (UInt8.ofNat (digitsValue s)) else none

/-- `str::parse::<Ipv4Addr>` -/
def parseIpv4 (s : Bytes) : Option IpAddr :=
  match (splitAll 0x2e s).map parseOctet with
  | [some a, some b, some c, some d] => some (v4 a b c d)
  | _ => none

/-- The decimal text of an octet is read back, and has no dot in it. -/
theorem octetText_spec (b : UInt8) : parseOctet (octetText b) = some b ∧ 0x2e ∉ octetText b := by
  revert b
  exact forall_byte (by decide +kernel)

theorem splitAll_of_not_mem {sep : UInt8} {part : Bytes} (h : sep ∉ part) :
    splitAll sep part = [part] := by
  induction part with
  | nil => rfl
  | cons b part ih =>
    obtain ⟨hb, hpart⟩ := List.ne_and_not_mem_of_not_mem_cons h
    rw [splitAll, if_neg hb.symm, ih hpart]

/-- The first part ends at the first separator. -/
theorem splitAll_append {sep : UInt8} {part : Bytes} (h : sep ∉ part) (rest : Bytes) :
    splitAll sep (part ++ sep :: rest) = part :: splitAll sep rest := by
  induction part with
  | nil => rw [List.nil_append, splitAll, if_pos rfl]
  | cons b part ih =>
    obtain ⟨hb, hpart⟩ := List.ne_and_not_mem_of_not_mem_cons h
    rw [List.cons_append, splitAll, if_neg hb.symm, ih hpart]

/-- Parts without the separator come back when they are joined and split. -/
theorem splitAll_joinWith {sep : UInt8} {parts : List Bytes} (hne : parts ≠ [])
    (h : ∀ part ∈ parts, sep ∉ part) : splitAll sep (joinWith sep parts) = parts := by
  induction parts with
  | nil => exact absurd rfl hne
  | cons part parts ih =>
    obtain ⟨hpart, hparts⟩ := List.forall_mem_cons.1 h
    cases parts with
    | nil => exact splitAll_of_not_mem hpart
    | cons part' parts =>
      rw [joinWith, splitAll_append hpart, ih (List.cons_ne_nil _ _) hparts]
      exact List.cons_ne_nil _ _

/-- What is written is read again. -/
theorem parseIpv4_text (a b c d : UInt8) : parseIpv4 (v4 a b c d).text = some (v4 a b c d) := by
  have hdots : ∀ part ∈ [octetText a, octetText b, octetText c, octetText d],
      (0x2e : UInt8) ∉ part := by
    simp [(octetText_spec _).2]
  rw [parseIpv4, text, text4, splitAll_joinWith (List.cons_ne_nil _ _) hdots]
  simp only [List.map_cons, List.map_nil, (octetText_spec _).1]

/-- A byte of the text that is not the separator stands in a part. -/
theorem exists_of_mem_splitAll {sep b : UInt8} {s : Bytes} (h : b ∈ s) (hsep : b ≠ sep) :
    ∃ part ∈ splitAll sep s, b ∈ part := by
  induction s with
  | nil => cases h
  | cons b' s ih =>
    rw [splitAll]
    rcases List.mem_cons.1 h with rfl | h
    · rw [if_neg hsep]
      split
      · exact ⟨_, List.mem_cons_self, List.mem_cons_self⟩
      · exact ⟨_, List.mem_cons_self, List.mem_cons_self⟩
    · obtain ⟨part, hpart, hb⟩ := ih h
      split
      · exact ⟨part, List.mem_cons_of_mem _ hpart, hb⟩
      · split
        · next part' parts heq =>
          rw [heq] at hpart
          rcases List.mem_cons.1 hpart with rfl | hpart
          · exact ⟨_, List.mem_cons_self, List.mem_cons_of_mem _ hb⟩
          · exact ⟨part, List.mem_cons_of_mem _ hpart, hb⟩
        · next heq =>
          rw [heq] at hpart
          cases hpart

/-- All that is read is digits and dots. -/
theorem isDigit_of_parseIpv4 {s : Bytes} {ip : IpAddr} (h : parseIpv4 s = some ip) {b : UInt8}
    (hb : b ∈ s) (hdot : b ≠ 0x2e) : isDigit b := by
  obtain ⟨part, hpart, hmem⟩ := exists_of_mem_splitAll hb hdot
  have hsome : (parseOctet part).isSome := by
    have hall : ∀ o ∈ (splitAll 0x2e s).map parseOctet, o.isSome := by
      rw [parseIpv4] at h
      split at h
      · next heq =>
        rw [heq]
        simp
      · cases h
    exact hall _ (List.mem_map_of_mem hpart)
  rw [parseOctet] at hsome
  split at hsome
  · cases hsome
  · next hno =>
    have hdigits : part.all isDigit := by_contra fun hne => hno (.inr (.inr (.inl hne)))
    exact List.all_eq_true.1 hdigits b hmem

/-- Two parts or more have a separator between them. -/
theorem mem_joinWith {sep : UInt8} {parts : List Bytes} (h : 1 < parts.length) :
    sep ∈ joinWith sep parts := by
  match parts with
  | part :: part' :: parts =>
    rw [joinWith]
    · exact List.mem_append_right _ List.mem_cons_self
    · exact List.cons_ne_nil _ _

/-- There is a colon in an address of version 6. -/
theorem colon_mem_text6 (segments : Vector UInt16 8) : 0x3a ∈ (v6 segments).text := by
  have hlen : segments.toList.length = 8 := segments.length_toList
  rw [text, text6]
  split
  · match hdrop : segments.toList.drop 6 with
    | [high, low] =>
      have hfront : (0x3a : UInt8) ∈ utf8 "::ffff:" := by decide +kernel
      exact List.mem_append_left _ hfront
    | [] | [_] | _ :: _ :: _ :: _ =>
      have hlen' := congrArg List.length hdrop
      simp [hlen] at hlen'
  · dsimp only
    split
    · simp
    · exact mem_joinWith (by rw [List.length_map, hlen]; decide)

/-- The text of an IPv6 address has a colon, and is no IPv4 address. -/
theorem parseIpv4_text_v6 (segments : Vector UInt16 8) : parseIpv4 (v6 segments).text = none := by
  cases h : parseIpv4 (v6 segments).text with
  | none => rfl
  | some ip => cases isDigit_of_parseIpv4 h (colon_mem_text6 segments) (by decide)

end IpAddr

end Bairelay
