import Mathlib

/-!
# Streaming parsers

A streaming parser reads values off the front of a buffer that may still be
growing. It ends in one of three ways: with a value and the rest of the buffer,
asking for more bytes, or with an error.

Three judgements about a parser, each with a rule for every combinator:

* `Streams p`: more bytes behind the buffer never change what `p` has found out,
  and `p` only takes bytes off the front;
* `Reads p post`: `post` relates every value read to the bytes it was read from;
* `Yields p bytes v`: `p` reads `v` off a buffer starting with `bytes`, and
  exactly those bytes. Composing them proves round trips.
-/

universe u

namespace Streaming

/-- What a parser objects to. -/
inductive ErrorKind where
  | verify
  | mapRes
  | switch
  deriving DecidableEq, Repr

/-- An entry of the trace of an error: its kind, or what was being parsed. -/
inductive Frame where
  | kind (k : ErrorKind)
  | context (text : String)
  deriving DecidableEq, Repr

/-- How a parser ends. -/
inductive Outcome (α : Type u) where
  | done (rest : List UInt8) (value : α)
  | incomplete (needed : ℕ)
  | error (trace : List Frame)
  deriving DecidableEq, Repr

/-- A parser of values of type `α`. -/
def Parser (α : Type u) : Type u := List UInt8 → Outcome α

namespace Parser

variable {α β : Type u}

/-- Read a value, and with it what follows. -/
def bind (p : Parser α) (f : α → Parser β) : Parser β := fun buf =>
  match p buf with
  | .done rest v => f v rest
  | .incomplete needed => .incomplete needed
  | .error trace => .error trace

instance : Monad Parser where
  pure v := fun buf => .done buf v
  bind := bind

/-- Give up. -/
def fail (trace : List Frame) : Parser α := fun _ => .error trace

/-- The next `n` bytes. -/
def take (n : ℕ) : Parser (List UInt8) := fun buf =>
  if n ≤ buf.length then .done (buf.drop n) (buf.take n) else .incomplete (n - buf.length)

/-- The first byte decides which parser reads the buffer, that byte included. -/
def peek (f : UInt8 → Parser α) : Parser α
  | [] => .incomplete 1
  | b :: buf => f b (b :: buf)

/-- Name what is being parsed, in the trace of its errors. -/
def context (text : String) (p : Parser α) : Parser α := fun buf =>
  match p buf with
  | .error trace => .error (trace ++ [.context text])
  | outcome => outcome

/-- Only accept values that are `ok`. -/
def verify (p : Parser α) (ok : α → Bool) : Parser α :=
  p >>= fun v => if ok v then pure v else fail [.kind .verify]

/-- Convert the value read, if possible. -/
def mapRes (p : Parser α) (f : α → Option β) : Parser β :=
  p >>= fun v => match f v with
    | some w => pure w
    | none => fail [.kind .mapRes]

/-- Read a value only if there is one. -/
def cond (present : Bool) (p : Parser α) : Parser (Option α) :=
  if present then p >>= fun v => pure (some v) else pure none

end Parser

/-! ## Little-endian numbers -/

/-- The number of some little-endian bytes. -/
def leValue (bytes : List UInt8) : ℕ := Nat.ofDigits 256 (bytes.map UInt8.toNat)

/-- The `width` lowest little-endian bytes of a number. -/
def leBytes : (width : ℕ) → ℕ → List UInt8
  | 0, _ => []
  | width + 1, n => UInt8.ofNat n :: leBytes width (n / 256)

@[simp]
theorem length_leBytes (width n : ℕ) : (leBytes width n).length = width := by
  induction width generalizing n with
  | zero => rfl
  | succ width ih => rw [leBytes, List.length_cons, ih]

theorem leValue_lt (bytes : List UInt8) : leValue bytes < 256 ^ bytes.length := by
  have hlength : (bytes.map UInt8.toNat).length = bytes.length := List.length_map _
  rw [leValue, ← hlength]
  refine Nat.ofDigits_lt_base_pow_length (by decide) fun d hd => ?_
  obtain ⟨byte, -, rfl⟩ := List.mem_map.1 hd
  exact byte.toNat_lt

/-- Bytes are determined by their value and their number. -/
theorem leBytes_leValue (bytes : List UInt8) : leBytes bytes.length (leValue bytes) = bytes := by
  induction bytes with
  | nil => rfl
  | cons byte bytes ih =>
    have hcons : leValue (byte :: bytes) = byte.toNat + 256 * leValue bytes := by
      rw [leValue, List.map_cons, Nat.ofDigits_cons, ← leValue]
    have hbyte := byte.toNat_lt
    have hlow : UInt8.ofNat (byte.toNat + 256 * leValue bytes) = byte := by
      rw [← UInt8.toNat_inj, UInt8.toNat_ofNat']
      omega
    have hrest : (byte.toNat + 256 * leValue bytes) / 256 = leValue bytes := by omega
    rw [List.length_cons, leBytes, hcons, hlow, hrest, ih]

theorem leValue_leBytes (width n : ℕ) : leValue (leBytes width n) = n % 256 ^ width := by
  induction width generalizing n with
  | zero => rw [leBytes, pow_zero, Nat.mod_one]; rfl
  | succ width ih =>
    have hbyte : (UInt8.ofNat n).toNat = n % 256 := UInt8.toNat_ofNat'
    rw [leBytes, leValue, List.map_cons, Nat.ofDigits_cons, ← leValue, ih, hbyte, pow_succ',
      Nat.mod_mul]

/-! ## Big-endian numbers -/

/-- The number of some big-endian bytes. -/
def beValue (bytes : List UInt8) : ℕ := leValue bytes.reverse

/-- The `width` lowest big-endian bytes of a number. -/
def beBytes (width n : ℕ) : List UInt8 := (leBytes width n).reverse

@[simp]
theorem length_beBytes (width n : ℕ) : (beBytes width n).length = width := by
  rw [beBytes, List.length_reverse, length_leBytes]

theorem beValue_beBytes (width n : ℕ) : beValue (beBytes width n) = n % 256 ^ width := by
  rw [beValue, beBytes, List.reverse_reverse, leValue_leBytes]

namespace Parser

/-- One byte. -/
def leU8 : Parser UInt8 := take 1 >>= fun bytes => pure (UInt8.ofNat (leValue bytes))

/-- Two bytes, the low one first. -/
def leU16 : Parser UInt16 := take 2 >>= fun bytes => pure (UInt16.ofNat (leValue bytes))

/-- Four bytes, the low one first. -/
def leU32 : Parser UInt32 := take 4 >>= fun bytes => pure (UInt32.ofNat (leValue bytes))

/-! ## Equations -/

variable {α β : Type u} {p : Parser α} {f : α → Parser β}

theorem pure_apply (v : α) (buf : List UInt8) : (pure v : Parser α) buf = .done buf v := rfl

/-- Two parsers are done if the second is done with what the first has left. -/
theorem bind_eq_done {buf rest : List UInt8} {w : β} :
    (p >>= f) buf = .done rest w ↔ ∃ mid v, p buf = .done mid v ∧ f v mid = .done rest w := by
  show bind p f buf = _ ↔ _
  rw [bind]
  cases p buf <;> simp

/-- After a parser that is done, the next one goes on. -/
theorem bind_of_done {buf rest : List UInt8} {v : α} (h : p buf = .done rest v) :
    (p >>= f) buf = f v rest := by
  show bind p f buf = _
  rw [bind, h]

/-- A parser that waits keeps the next one waiting. -/
theorem bind_of_incomplete {buf : List UInt8} {needed : ℕ} (h : p buf = .incomplete needed) :
    (p >>= f) buf = .incomplete needed := by
  show bind p f buf = _
  rw [bind, h]

theorem take_eq_done {n : ℕ} {buf rest bytes : List UInt8} :
    take n buf = .done rest bytes ↔ buf = bytes ++ rest ∧ bytes.length = n := by
  rw [take]
  constructor
  · intro h
    split at h
    · next hn =>
      obtain ⟨rfl, rfl⟩ := Outcome.done.inj h
      exact ⟨(List.take_append_drop n buf).symm, List.length_take_of_le hn⟩
    · exact nomatch h
  · rintro ⟨rfl, rfl⟩
    rw [if_pos (by rw [List.length_append]; omega), List.drop_left, List.take_left]

/-- Only the trace of an error is touched. -/
theorem context_eq_done {text : String} {buf rest : List UInt8} {v : α} :
    p.context text buf = .done rest v ↔ p buf = .done rest v := by
  rw [Parser.context]
  cases p buf <;> simp

theorem verify_eq_done {ok : α → Bool} {buf rest : List UInt8} {v : α} :
    p.verify ok buf = .done rest v ↔ p buf = .done rest v ∧ ok v = true := by
  rw [verify, bind_eq_done]
  constructor
  · rintro ⟨mid, w, hw, h⟩
    split at h
    · next hok =>
      obtain ⟨rfl, rfl⟩ := Outcome.done.inj h
      exact ⟨hw, hok⟩
    · exact nomatch h
  · rintro ⟨hv, hok⟩
    exact ⟨rest, v, hv, by rw [if_pos hok]; rfl⟩

theorem mapRes_eq_done {g : α → Option β} {buf rest : List UInt8} {w : β} :
    p.mapRes g buf = .done rest w ↔ ∃ v, p buf = .done rest v ∧ g v = some w := by
  rw [mapRes, bind_eq_done]
  constructor
  · rintro ⟨mid, v, hv, h⟩
    cases hw : g v with
    | none =>
      rw [hw] at h
      exact nomatch h
    | some w' =>
      rw [hw] at h
      obtain ⟨rfl, rfl⟩ := Outcome.done.inj h
      exact ⟨v, hv, hw⟩
  · rintro ⟨v, hv, hw⟩
    exact ⟨rest, v, hv, by rw [hw]; rfl⟩

theorem leU32_eq_done {buf rest : List UInt8} {v : UInt32} :
    leU32 buf = .done rest v ↔ buf = leBytes 4 v.toNat ++ rest := by
  rw [leU32, bind_eq_done]
  constructor
  · rintro ⟨mid, bytes, hbytes, h⟩
    obtain ⟨rfl, hlen⟩ := take_eq_done.1 hbytes
    obtain ⟨rfl, rfl⟩ := Outcome.done.inj h
    have hlt := leValue_lt bytes
    have hle := leBytes_leValue bytes
    rw [hlen] at hlt hle
    have hv : (UInt32.ofNat (leValue bytes)).toNat = leValue bytes := by
      rw [UInt32.toNat_ofNat']
      exact Nat.mod_eq_of_lt hlt
    rw [hv, hle]
  · rintro rfl
    have hv : UInt32.ofNat (leValue (leBytes 4 v.toNat)) = v := by
      have hmod : v.toNat % 256 ^ 4 = v.toNat := Nat.mod_eq_of_lt v.toNat_lt
      rw [leValue_leBytes, hmod, UInt32.ofNat_toNat]
    exact ⟨rest, leBytes 4 v.toNat, take_eq_done.2 ⟨rfl, length_leBytes 4 _⟩,
      congrArg (Outcome.done rest) hv⟩

/-! ## Streaming -/

/-- More bytes behind the buffer never change what `p` has found out, and `p`
    only takes bytes off the front. -/
structure Streams (p : Parser α) : Prop where
  done : ∀ {buf rest : List UInt8} {v : α}, p buf = .done rest v →
    ∀ more, p (buf ++ more) = .done (rest ++ more) v
  error : ∀ {buf : List UInt8} {trace : List Frame}, p buf = .error trace →
    ∀ more, p (buf ++ more) = .error trace
  suffix : ∀ {buf rest : List UInt8} {v : α}, p buf = .done rest v → rest <:+ buf

/-- A parser that takes nothing has its answer. -/
theorem streams_pure (v : α) : Streams (pure v : Parser α) where
  done h more := by
    obtain ⟨rfl, rfl⟩ := Outcome.done.inj h
    rfl
  error h := nomatch h
  suffix h := by
    obtain ⟨rfl, -⟩ := Outcome.done.inj h
    exact List.suffix_rfl

/-- An error is not changed by what comes later. -/
theorem streams_fail (trace : List Frame) : Streams (fail trace : Parser α) where
  done h := nomatch h
  error h _ := h
  suffix h := nomatch h

/-- As long as bytes are missing, more is waited for. -/
theorem streams_take (n : ℕ) : Streams (take n) where
  done {buf rest v} h more := by
    rw [take] at h
    split at h
    · next hn =>
      obtain ⟨rfl, rfl⟩ := Outcome.done.inj h
      rw [take, if_pos (by rw [List.length_append]; omega), List.drop_append_of_le_length hn,
        List.take_append_of_le_length hn]
    · exact nomatch h
  error h := by
    rw [take] at h
    split at h <;> exact nomatch h
  suffix h := by
    rw [take] at h
    split at h
    · obtain ⟨rfl, -⟩ := Outcome.done.inj h
      exact List.drop_suffix _ _
    · exact nomatch h

/-- Two parsers that can be fed piece by piece, one after the other. -/
theorem Streams.bind (hp : Streams p) (hf : ∀ v, Streams (f v)) : Streams (p >>= f) where
  done h more := by
    obtain ⟨mid, v, hv, hw⟩ := bind_eq_done.1 h
    rw [bind_of_done (hp.done hv more), (hf v).done hw more]
  error {buf trace} h more := by
    change Parser.bind p f buf = _ at h
    rw [Parser.bind] at h
    split at h
    · next hv => rw [bind_of_done (hp.done hv more), (hf _).error h more]
    · exact nomatch h
    · next hv =>
      obtain rfl := Outcome.error.inj h
      show Parser.bind p f _ = _
      rw [Parser.bind, hp.error hv more]
  suffix h := by
    obtain ⟨mid, v, hv, hw⟩ := bind_eq_done.1 h
    exact ((hf v).suffix hw).trans (hp.suffix hv)

theorem Streams.context (hp : Streams p) (text : String) : Streams (context text p) := by
  refine ⟨fun h more => ?_, fun {buf trace} h more => ?_, fun h => hp.suffix (context_eq_done.1 h)⟩
  · rw [context_eq_done] at h ⊢
    exact hp.done h more
  · rw [Parser.context] at h
    split at h
    · next ht => rw [Parser.context, hp.error ht more]; exact h
    · next hne => exact absurd h (hne trace)

theorem Streams.ite {c : Prop} [Decidable c] {q : Parser α} (hp : Streams p) (hq : Streams q) :
    Streams (if c then p else q) := by
  split
  · exact hp
  · exact hq

theorem Streams.peek {f : UInt8 → Parser α} (hf : ∀ b, Streams (f b)) : Streams (peek f) where
  done {buf rest v} h more := by
    cases buf with
    | nil => cases h
    | cons b buf => exact (hf b).done h more
  error {buf trace} h more := by
    cases buf with
    | nil => cases h
    | cons b buf => exact (hf b).error h more
  suffix {buf rest v} h := by
    cases buf with
    | nil => cases h
    | cons b buf => exact (hf b).suffix h

theorem Streams.verify (hp : Streams p) (ok : α → Bool) : Streams (p.verify ok) :=
  hp.bind fun v => (streams_pure v).ite (streams_fail _)

theorem Streams.mapRes (hp : Streams p) (f : α → Option β) : Streams (p.mapRes f) :=
  hp.bind fun v => by
    cases f v
    · exact streams_fail _
    · exact streams_pure _

theorem Streams.cond (hp : Streams p) (present : Bool) : Streams (cond present p) :=
  (hp.bind fun v => streams_pure (some v)).ite (streams_pure none)

theorem streams_leU8 : Streams leU8 := (streams_take 1).bind fun _ => streams_pure _

theorem streams_leU16 : Streams leU16 := (streams_take 2).bind fun _ => streams_pure _

theorem streams_leU32 : Streams leU32 := (streams_take 4).bind fun _ => streams_pure _

/-! ## What was read -/

/-- Every value read is related by `post` to the number of bytes it was read
    from. -/
def Reads (p : Parser α) (post : ℕ → α → Prop) : Prop :=
  ∀ buf rest v, p buf = .done rest v → ∃ n, buf.length = n + rest.length ∧ post n v

/-- Nothing is read for a value that is given. -/
theorem reads_pure (v : α) : Reads (pure v : Parser α) fun n w => n = 0 ∧ w = v := by
  intro buf rest w h
  obtain ⟨rfl, rfl⟩ := Outcome.done.inj h
  exact ⟨0, by omega, rfl, rfl⟩

theorem reads_fail (trace : List Frame) (post : ℕ → α → Prop) : Reads (fail trace) post :=
  fun _ _ _ h => nomatch h

theorem reads_take (n : ℕ) : Reads (take n) fun k bytes => k = n ∧ bytes.length = n := by
  intro buf rest v h
  rw [take] at h
  split at h
  · obtain ⟨rfl, rfl⟩ := Outcome.done.inj h
    exact ⟨n, by rw [List.length_drop]; omega, rfl, by rw [List.length_take]; omega⟩
  · exact nomatch h

theorem Reads.mono {post post' : ℕ → α → Prop} (hp : Reads p post)
    (h : ∀ n v, post n v → post' n v) : Reads p post' := by
  intro buf rest v hv
  obtain ⟨n, hn, hpost⟩ := hp _ _ _ hv
  exact ⟨n, hn, h n v hpost⟩

/-- What two parsers read, one after the other. -/
theorem Reads.bind {post : ℕ → α → Prop} {post' : ℕ → β → Prop} (hp : Reads p post)
    (hf : ∀ n v, post n v → Reads (f v) fun k w => post' (n + k) w) :
    Reads (p >>= f) post' := by
  intro buf rest w h
  obtain ⟨mid, v, hv, hw⟩ := bind_eq_done.1 h
  obtain ⟨n, hn, hpost⟩ := hp _ _ _ hv
  obtain ⟨k, hk, hpost'⟩ := hf n v hpost _ _ _ hw
  exact ⟨n + k, by omega, hpost'⟩

/-- Texts of errors do not matter for what is read. -/
theorem Reads.context {post : ℕ → α → Prop} (hp : Reads p post) (text : String) :
    Reads (context text p) post := by
  intro buf rest v h
  rw [Parser.context] at h
  split at h
  · exact nomatch h
  · exact hp _ _ _ h

theorem Reads.verify {post : ℕ → α → Prop} (hp : Reads p post) (ok : α → Bool) :
    Reads (p.verify ok) post :=
  hp.bind fun n v hpost => by
    split
    · refine (reads_pure v).mono ?_
      rintro k w ⟨rfl, rfl⟩
      exact hpost
    · exact reads_fail _ _

theorem Reads.mapRes {post : ℕ → Prop} (hp : Reads p fun n _ => post n) (f : α → Option β) :
    Reads (p.mapRes f) fun n _ => post n :=
  hp.bind fun n v hpost => by
    cases f v
    · exact reads_fail _ _
    · refine (reads_pure _).mono ?_
      rintro k w ⟨rfl, -⟩
      exact hpost

/-- A part that is there on a condition has its width on this condition. -/
theorem Reads.cond {width : ℕ} (hp : Reads p fun n _ => n = width) (present : Bool) :
    Reads (cond present p) fun n _ => n = if present then width else 0 := by
  rw [Parser.cond]
  split
  · refine hp.bind fun n v hn => (reads_pure (some v)).mono ?_
    rintro k w ⟨rfl, -⟩
    exact hn
  · exact (reads_pure none).mono fun n v h => h.1

/-- Something is read whenever a parser is done. -/
theorem Streams.reads (hp : Streams p) : Reads p fun _ _ => True := by
  intro buf rest v h
  have hle := (hp.suffix h).length_le
  exact ⟨buf.length - rest.length, by omega, trivial⟩

theorem reads_leUint {γ : Type} (width : ℕ) (g : List UInt8 → γ) :
    Reads (take width >>= fun bytes => pure (g bytes)) fun n _ => n = width :=
  (reads_take width).bind fun n bytes h => (reads_pure _).mono fun k v hk => by omega

theorem reads_leU8 : Reads leU8 fun n _ => n = 1 := reads_leUint 1 _

theorem reads_leU16 : Reads leU16 fun n _ => n = 2 := reads_leUint 2 _

theorem reads_leU32 : Reads leU32 fun n _ => n = 4 := reads_leUint 4 _

/-! ## Round trips -/

/-- `p` reads `v` off any buffer starting with `bytes`, and exactly those. -/
def Yields (p : Parser α) (bytes : List UInt8) (v : α) : Prop :=
  ∀ rest, p (bytes ++ rest) = .done rest v

theorem yields_pure (v : α) : Yields (pure v : Parser α) [] v := fun _ => rfl

theorem yields_take (bytes : List UInt8) : Yields (take bytes.length) bytes bytes := by
  intro rest
  rw [take, if_pos (by rw [List.length_append]; omega), List.drop_left, List.take_left]

theorem yields_take_of_length {bytes : List UInt8} {n : ℕ} (h : bytes.length = n) :
    Yields (take n) bytes bytes :=
  h ▸ yields_take bytes

/-- What two parsers give for bytes one after the other. -/
theorem Yields.bind {bytes bytes' : List UInt8} {v : α} {w : β} (hp : Yields p bytes v)
    (hf : Yields (f v) bytes' w) : Yields (p >>= f) (bytes ++ bytes') w := by
  intro rest
  rw [List.append_assoc, bind_of_done (hp _), hf rest]

/-- What follows takes no bytes. -/
theorem Yields.bind_nil {bytes : List UInt8} {v : α} {w : β} (hp : Yields p bytes v)
    (hf : Yields (f v) [] w) : Yields (p >>= f) bytes w := by
  have h := hp.bind hf
  rwa [List.append_nil] at h

theorem Yields.bind_pure {bytes : List UInt8} {v : α} (hp : Yields p bytes v) (g : α → β) :
    Yields (p >>= fun v => pure (g v)) bytes (g v) :=
  hp.bind_nil (yields_pure (g v))

/-- Texts of errors do not matter for what is given. -/
theorem Yields.context {bytes : List UInt8} {v : α} (hp : Yields p bytes v) (text : String) :
    Yields (context text p) bytes v := by
  intro rest
  rw [Parser.context, hp rest]

theorem Yields.verify {bytes : List UInt8} {v : α} (hp : Yields p bytes v) {ok : α → Bool}
    (hv : ok v = true) : Yields (p.verify ok) bytes v := by
  intro rest
  show (p >>= fun v => if ok v then pure v else fail [.kind .verify]) _ = _
  rw [bind_of_done (hp rest), if_pos hv, pure_apply]

theorem Yields.mapRes {bytes : List UInt8} {v : α} {w : β} (hp : Yields p bytes v)
    {f : α → Option β} (hv : f v = some w) : Yields (p.mapRes f) bytes w :=
  hp.bind_nil (by rw [hv]; exact yields_pure w)

theorem yields_leU8 (n : UInt8) : Yields leU8 (leBytes 1 n.toNat) n := by
  have h := (yields_take (leBytes 1 n.toNat)).bind_pure fun bytes => UInt8.ofNat (leValue bytes)
  have hn : leValue (leBytes 1 n.toNat) = n.toNat := by
    rw [leValue_leBytes]
    exact Nat.mod_eq_of_lt n.toNat_lt
  rwa [hn, UInt8.ofNat_toNat, length_leBytes] at h

/-- Two bytes are given for the number they were written from. -/
theorem yields_leU16 (n : UInt16) : Yields leU16 (leBytes 2 n.toNat) n := by
  have h := (yields_take (leBytes 2 n.toNat)).bind_pure fun bytes => UInt16.ofNat (leValue bytes)
  have hn : leValue (leBytes 2 n.toNat) = n.toNat := by
    rw [leValue_leBytes]
    exact Nat.mod_eq_of_lt n.toNat_lt
  rwa [hn, UInt16.ofNat_toNat, length_leBytes] at h

/-- Four bytes are given for the number they were written from. -/
theorem yields_leU32 (n : UInt32) : Yields leU32 (leBytes 4 n.toNat) n :=
  fun _ => leU32_eq_done.2 rfl

/-- A part of what is to be read is not enough. -/
theorem Yields.incomplete {bytes : List UInt8} {v : α} (hp : Yields p bytes v) (hs : Streams p)
    {pre : List UInt8} (hpre : pre <+: bytes) (hne : pre ≠ bytes) :
    ∃ needed, p pre = .incomplete needed := by
  obtain ⟨more, rfl⟩ := hpre
  have hdone := hp []
  rw [List.append_nil] at hdone
  match h : p pre with
  | .incomplete needed => exact ⟨needed, rfl⟩
  | .done rest w =>
    -- What is missing would be left over.
    obtain ⟨hrest, -⟩ := Outcome.done.inj ((hs.done h more).symm.trans hdone)
    obtain ⟨-, rfl⟩ := List.append_eq_nil_iff.1 hrest
    exact absurd (List.append_nil pre).symm hne
  | .error trace => exact nomatch (hs.error h more).symm.trans hdone

end Parser

end Streaming
