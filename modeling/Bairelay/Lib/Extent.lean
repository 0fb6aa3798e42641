import Bairelay.Lib.Streaming

/-!
# Extents

How many bytes a streaming parser takes, and how many it waits for:

* `Spans p n`: `p` takes `n` bytes, or waits for them, and never fails;
* `Needs p n`: `p` only waits as long as there are fewer than `n` bytes;
* `Fixed p n`: whatever `p` makes of them, it takes the next `n` bytes.

`wordAt i buf` is the number at position `i` of a buffer.
-/

universe u

namespace Streaming.Parser

variable {α β : Type u} {p : Parser α} {f : α → Parser β}

/-! ## Positions -/

/-- The little-endian number in the 4 bytes at position `i`. -/
def wordAt (i : ℕ) (buf : List UInt8) : UInt32 := UInt32.ofNat (leValue ((buf.drop i).take 4))

theorem take_drop_eq_done {i n : ℕ} {buf rest bytes : List UInt8} (hi : i ≤ buf.length) :
    take n (buf.drop i) = .done rest bytes ↔
      i + n ≤ buf.length ∧ rest = buf.drop (i + n) ∧ bytes = (buf.drop i).take n := by
  rw [take]
  constructor
  · intro h
    split at h
    · next hn =>
      obtain ⟨rfl, rfl⟩ := Outcome.done.inj h
      rw [List.length_drop] at hn
      exact ⟨by omega, List.drop_drop, rfl⟩
    · cases h
  · rintro ⟨hn, rfl, rfl⟩
    rw [if_pos (by rw [List.length_drop]; omega), List.drop_drop]

theorem leU32_drop_eq_done {i : ℕ} {buf rest : List UInt8} {v : UInt32} (hi : i ≤ buf.length) :
    leU32 (buf.drop i) = .done rest v ↔
      i + 4 ≤ buf.length ∧ rest = buf.drop (i + 4) ∧ v = wordAt i buf := by
  rw [leU32, bind_eq_done]
  constructor
  · rintro ⟨mid, bytes, hbytes, h⟩
    obtain ⟨hlen, rfl, rfl⟩ := (take_drop_eq_done hi).1 hbytes
    obtain ⟨rfl, rfl⟩ := Outcome.done.inj h
    exact ⟨hlen, rfl, rfl⟩
  · rintro ⟨hlen, rfl, rfl⟩
    exact ⟨_, _, (take_drop_eq_done hi).2 ⟨hlen, rfl, rfl⟩, rfl⟩

/-- The number at a position, and what is made of it behind that. -/
theorem leU32_bind_drop {α : Type} {i : ℕ} {buf rest : List UInt8} {f : UInt32 → Parser α} {v : α}
    (hi : i ≤ buf.length) (h : (leU32 >>= f) (buf.drop i) = .done rest v) :
    i + 4 ≤ buf.length ∧ f (wordAt i buf) (buf.drop (i + 4)) = .done rest v := by
  obtain ⟨_, word, hword, hf⟩ := bind_eq_done.1 h
  obtain ⟨hlen, rfl, rfl⟩ := (leU32_drop_eq_done hi).1 hword
  exact ⟨hlen, hf⟩

/-- The next `n` bytes at a position, and what is made of them behind that. -/
theorem take_bind_drop {α : Type} {i n : ℕ} {buf rest : List UInt8} {f : List UInt8 → Parser α}
    {v : α} (hi : i ≤ buf.length) (h : (take n >>= f) (buf.drop i) = .done rest v) :
    i + n ≤ buf.length ∧ f ((buf.drop i).take n) (buf.drop (i + n)) = .done rest v := by
  obtain ⟨_, bytes, hbytes, hf⟩ := bind_eq_done.1 h
  obtain ⟨hlen, rfl, rfl⟩ := (take_drop_eq_done hi).1 hbytes
  exact ⟨hlen, hf⟩

/-! ## What a parser takes -/

/-- `p` takes `n` bytes, or waits for them, and never fails. -/
structure Spans (p : Parser α) (n : ℕ) : Prop where
  done : ∀ {buf : List UInt8}, n ≤ buf.length → ∃ v, p buf = .done (buf.drop n) v
  waits : ∀ {buf : List UInt8}, buf.length < n → ∃ needed, p buf = .incomplete needed

theorem spans_pure (v : α) : Spans (pure v : Parser α) 0 where
  done _ := ⟨v, rfl⟩
  waits h := absurd h (Nat.not_lt_zero _)

theorem spans_take (n : ℕ) : Spans (take n) n where
  done h := ⟨_, if_pos h⟩
  waits h := ⟨_, if_neg (Nat.not_le.2 h)⟩

/-- One parser takes its bytes behind the other's. -/
theorem Spans.bind {n m : ℕ} (hp : Spans p n) (hf : ∀ v, Spans (f v) m) :
    Spans (p >>= f) (n + m) where
  done {buf} h := by
    obtain ⟨v, hv⟩ := hp.done (show n ≤ buf.length by omega)
    obtain ⟨w, hw⟩ := (hf v).done (show m ≤ (buf.drop n).length by rw [List.length_drop]; omega)
    exact ⟨w, by rw [bind_of_done hv, hw, List.drop_drop]⟩
  waits {buf} h := by
    by_cases hn : n ≤ buf.length
    · obtain ⟨v, hv⟩ := hp.done hn
      obtain ⟨needed, hw⟩ := (hf v).waits (show (buf.drop n).length < m by
        rw [List.length_drop]; omega)
      exact ⟨needed, by rw [bind_of_done hv, hw]⟩
    · obtain ⟨needed, hv⟩ := hp.waits (Nat.not_le.1 hn)
      exact ⟨needed, bind_of_incomplete hv⟩

theorem spans_leU32 : Spans leU32 4 := (spans_take 4).bind fun _ => spans_pure _

theorem spans_leU16 : Spans leU16 2 := (spans_take 2).bind fun _ => spans_pure _

theorem spans_leU8 : Spans leU8 1 := (spans_take 1).bind fun _ => spans_pure _

/-- What is there on a condition takes its bytes on this condition. -/
theorem Spans.cond {n : ℕ} (hp : Spans p n) (present : Bool) :
    Spans (cond present p) (if present then n else 0) := by
  cases present with
  | false => exact spans_pure none
  | true => exact hp.bind fun v => spans_pure (some v)

/-- Where a parser has come to, if it is done. -/
theorem Spans.of_done {n i : ℕ} {buf rest : List UInt8} {v : α} (hp : Spans p n)
    (hi : i ≤ buf.length) (h : p (buf.drop i) = .done rest v) :
    i + n ≤ buf.length ∧ rest = buf.drop (i + n) := by
  by_cases hlen : n ≤ (buf.drop i).length
  · obtain ⟨w, hw⟩ := hp.done hlen
    obtain ⟨rfl, -⟩ := Outcome.done.inj (h.symm.trans hw)
    rw [List.length_drop] at hlen
    exact ⟨by omega, List.drop_drop⟩
  · obtain ⟨needed, hw⟩ := hp.waits (Nat.not_le.1 hlen)
    exact nomatch h.symm.trans hw

/-- Behind `bytes`, `p` takes `n` bytes. -/
def SpansBehind (p : Parser α) (bytes : List UInt8) (n : ℕ) : Prop :=
  Spans (fun buf => p (bytes ++ buf)) n

/-- Behind nothing, a parser takes what it takes. -/
theorem Spans.behind {n : ℕ} (hp : Spans p n) : SpansBehind p [] n := hp

/-- The bytes of a first parser stand in front of those of a second. -/
theorem Yields.spansBehind {bytes bytes' : List UInt8} {v : α} {n : ℕ} (hp : Yields p bytes v)
    (hf : SpansBehind (f v) bytes' n) : SpansBehind (p >>= f) (bytes ++ bytes') n where
  done h := by
    obtain ⟨w, hw⟩ := Spans.done hf h
    exact ⟨w, by rw [List.append_assoc, bind_of_done (hp _), hw]⟩
  waits h := by
    obtain ⟨needed, hw⟩ := Spans.waits hf h
    exact ⟨needed, by rw [List.append_assoc, bind_of_done (hp _), hw]⟩

/-! ## What a parser waits for -/

/-- `p` only waits as long as there are fewer than `n` bytes. -/
def Needs (p : Parser α) (n : ℕ) : Prop :=
  ∀ buf needed, p buf = .incomplete needed → buf.length < n

theorem needs_pure (v : α) (n : ℕ) : Needs (pure v : Parser α) n := fun _ _ h => nomatch h

theorem needs_fail (trace : List Frame) (n : ℕ) : Needs (fail trace : Parser α) n :=
  fun _ _ h => nomatch h

/-- A parser that takes so much never waits for more than that. -/
theorem Spans.needs {n : ℕ} (hp : Spans p n) : Needs p n := by
  intro buf needed h
  by_contra hlen
  obtain ⟨v, hv⟩ := hp.done (Nat.not_lt.1 hlen)
  exact nomatch h.symm.trans hv

theorem Needs.mono {n m : ℕ} (hp : Needs p n) (hnm : n ≤ m) : Needs p m :=
  fun buf needed h => (hp buf needed h).trans_le hnm

/-- The bound does not depend on the text of an error. -/
theorem Needs.context {n : ℕ} (hp : Needs p n) (text : String) : Needs (context text p) n := by
  intro buf needed h
  rw [Parser.context] at h
  split at h
  · cases h
  · exact hp _ _ h

/-- A parser that chooses between two needs what either needs. -/
theorem Needs.ite {c : Prop} [Decidable c] {q : Parser α} {n : ℕ} (hp : Needs p n)
    (hq : Needs q n) : Needs (if c then p else q) n := by
  split
  · exact hp
  · exact hq

/-- What follows is decided without waiting. -/
theorem Needs.bind_zero {n : ℕ} (hp : Needs p n) (hf : ∀ v, Needs (f v) 0) :
    Needs (p >>= f) n := by
  intro buf needed h
  change Parser.bind p f buf = _ at h
  rw [Parser.bind] at h
  split at h
  · exact absurd (hf _ _ _ h) (Nat.not_lt_zero _)
  · next hv => exact hp _ _ hv
  · cases h

theorem Needs.verify {n : ℕ} (hp : Needs p n) (ok : α → Bool) : Needs (p.verify ok) n :=
  hp.bind_zero fun v => (needs_pure v 0).ite (needs_fail _ 0)

/-- A conversion of the value needs nothing more. -/
theorem Needs.mapRes {n : ℕ} (hp : Needs p n) (g : α → Option β) : Needs (p.mapRes g) n :=
  hp.bind_zero fun v => by
    cases g v
    · exact needs_fail _ 0
    · exact needs_pure _ 0

/-! ## Parsers of a fixed width -/

/-- `p` takes `n` bytes, or waits for them, or fails. -/
structure Fixed (p : Parser α) (n : ℕ) : Prop where
  reads : Reads p fun k _ => k = n
  needs : Needs p n

theorem fixed_take (n : ℕ) : Fixed (take n) n :=
  ⟨(reads_take n).mono fun _ _ h => h.1, (spans_take n).needs⟩

theorem fixed_leU32 : Fixed leU32 4 := ⟨reads_leU32, spans_leU32.needs⟩

theorem fixed_leU16 : Fixed leU16 2 := ⟨reads_leU16, spans_leU16.needs⟩

theorem fixed_leU8 : Fixed leU8 1 := ⟨reads_leU8, spans_leU8.needs⟩

namespace Fixed

variable {n m : ℕ}

theorem context (hp : Fixed p n) (text : String) : Fixed (context text p) n :=
  ⟨hp.reads.context text, hp.needs.context text⟩

theorem verify (hp : Fixed p n) (ok : α → Bool) : Fixed (p.verify ok) n :=
  ⟨hp.reads.verify ok, hp.needs.verify ok⟩

theorem mapRes (hp : Fixed p n) (g : α → Option β) : Fixed (p.mapRes g) n :=
  ⟨hp.reads.mapRes g, hp.needs.mapRes g⟩

/-- What follows waits for its bytes behind those. -/
theorem bind (hp : Fixed p n) (hf : ∀ v, Needs (f v) m) : Needs (p >>= f) (n + m) := by
  intro buf needed h
  change Parser.bind p f buf = _ at h
  rw [Parser.bind] at h
  split at h
  · next hv =>
    obtain ⟨k, hlen, rfl⟩ := hp.reads _ _ _ hv
    have hrest := hf _ _ _ h
    omega
  · next hv => exact (hp.needs _ _ hv).trans_le (Nat.le_add_right n m)
  · cases h

/-- The extent of what is there on a condition. -/
theorem cond (hp : Fixed p n) (present : Bool) :
    Fixed (cond present p) (if present then n else 0) := by
  refine ⟨hp.reads.cond present, ?_⟩
  cases present with
  | false => exact needs_pure none 0
  | true => exact hp.bind fun v => needs_pure (some v) 0

end Fixed

end Streaming.Parser
