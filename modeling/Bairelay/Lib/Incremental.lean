import Mathlib

/-!
# Incremental decoders

A decoder is called with its state and a buffer, again and again, and takes
items off the front of the buffer. Input arrives in chunks: after each of them
the decoder is called until it asks for more input, or fails.

If a decoder is `Lawful` (it leaves everything as it was when it asks for more,
and what it does otherwise does not depend on the input behind), then how the
input is cut into chunks makes no difference (`Lawful.foldl_feed`).
-/

namespace Incremental

variable {σ τ ι ε : Type*}

/-- One call of a decoder: the state and the buffer after it, and an item, or
    `none` to ask for more input. -/
abbrev Decoder (σ τ ι ε : Type*) := σ → List τ → σ × List τ × Except ε (Option ι)

/-- What a decoder has done so far. -/
structure Run (σ τ ι ε : Type*) where
  state : σ
  buf : List τ
  items : List ι
  error : Option ε

namespace Run

/-- Nothing was done yet. -/
def start (s : σ) : Run σ τ ι ε := ⟨s, [], [], none⟩

/-- Put an item before those decoded. -/
def push (x : ι) (r : Run σ τ ι ε) : Run σ τ ι ε := { r with items := x :: r.items }

/-- Two runs are the same, but for the input left after an error. -/
structure Agrees (r r' : Run σ τ ι ε) : Prop where
  state : r.state = r'.state
  items : r.items = r'.items
  error : r.error = r'.error
  buf : r.error = none → r.buf = r'.buf

/-- The same run, with the states seen through `f`. -/
def mapState {σ' : Type*} (f : σ → σ') (r : Run σ τ ι ε) : Run σ' τ ι ε :=
  ⟨f r.state, r.buf, r.items, r.error⟩

theorem Agrees.refl (r : Run σ τ ι ε) : r.Agrees r := ⟨rfl, rfl, rfl, fun _ => rfl⟩

theorem Agrees.trans {r r' r'' : Run σ τ ι ε} (h : r.Agrees r') (h' : r'.Agrees r'') :
    r.Agrees r'' where
  state := h.state.trans h'.state
  items := h.items.trans h'.items
  error := h.error.trans h'.error
  buf hr := (h.buf hr).trans (h'.buf (h.error ▸ hr))

/-- Runs that agree and have not failed are the same. -/
theorem Agrees.eq_of_error {r r' : Run σ τ ι ε} (h : r.Agrees r') (hr : r'.error = none) :
    r = r' := by
  obtain ⟨hs, hi, he, hb⟩ := h
  cases r
  cases r'
  simp_all

/-- Runs that agree still do with one item more in front. -/
theorem Agrees.push {r r' : Run σ τ ι ε} (h : r.Agrees r') (x : ι) :
    (r.push x).Agrees (r'.push x) where
  state := h.state
  items := congrArg (x :: ·) h.items
  error := h.error
  buf := h.buf

end Run

open Run

variable (decode : Decoder σ τ ι ε)

/-- Call the decoder until it asks for more or fails, at most `fuel` times. -/
def drainLoop : ℕ → σ → List τ → Run σ τ ι ε
  | 0, s, buf => ⟨s, buf, [], none⟩
  | fuel + 1, s, buf =>
    match decode s buf with
    | (s', buf', .ok none) => ⟨s', buf', [], none⟩
    | (s', buf', .ok (some x)) => (drainLoop fuel s' buf').push x
    | (s', buf', .error e) => ⟨s', buf', [], some e⟩

/-- Call the decoder until it asks for more or fails. Every item takes some
    input, so the length of the buffer bounds the calls. -/
def drain (s : σ) (buf : List τ) : Run σ τ ι ε := drainLoop decode (buf.length + 1) s buf

/-- A chunk arrives: drain, unless the decoder already failed. -/
def feed (r : Run σ τ ι ε) (chunk : List τ) : Run σ τ ι ε :=
  match r.error with
  | some _ => r
  | none =>
    let d := drain decode r.state (r.buf ++ chunk)
    { d with items := r.items ++ d.items }

/-- What makes the cuts invisible: a call that asks for more changes nothing, and
    any other one does not depend on the input behind. -/
structure Lawful : Prop where
  idle : ∀ s, decode s [] = (s, [], .ok none)
  waits : ∀ {s buf s' buf'}, decode s buf = (s', buf', .ok none) → s' = s ∧ buf' = buf
  append : ∀ {s buf s' buf' r}, decode s buf = (s', buf', r) → r ≠ .ok none →
    ∀ more, decode s (buf ++ more) = (s', buf' ++ more, r)
  progress : ∀ {s buf s' buf' x}, decode s buf = (s', buf', .ok (some x)) →
    buf'.length < buf.length

section MapState

variable {decode} {σ' : Type*} {decode' : Decoder σ' τ ι ε} {f : σ → σ'}
  (hf : ∀ s buf, decode' (f s) buf = (f (decode s buf).1, (decode s buf).2))

include hf

/-- A map of states that the decoder respects may be applied at the end. -/
theorem drainLoop_mapState (fuel : ℕ) (s : σ) (buf : List τ) :
    drainLoop decode' fuel (f s) buf = (drainLoop decode fuel s buf).mapState f := by
  induction fuel generalizing s buf with
  | zero => rfl
  | succ fuel ih =>
    rw [drainLoop, drainLoop, hf]
    rcases decode s buf with ⟨s', buf', e | _ | x⟩
    · rfl
    · rfl
    · exact congrArg (push x) (ih s' buf')

/-- A decoder that only sees `f` of a state makes the same run. -/
theorem foldl_feed_mapState (r : Run σ τ ι ε) (chunks : List (List τ)) :
    chunks.foldl (feed decode') (r.mapState f) = (chunks.foldl (feed decode) r).mapState f := by
  have hfeed : ∀ (r : Run σ τ ι ε) chunk,
      feed decode' (r.mapState f) chunk = (feed decode r chunk).mapState f := by
    rintro ⟨s, buf, items, _ | e⟩ chunk
    · rw [feed, feed]
      dsimp only [mapState]
      rw [drain, drainLoop_mapState hf]
      rfl
    · rfl
  induction chunks generalizing r with
  | nil => rfl
  | cons chunk chunks ih => rw [List.foldl_cons, List.foldl_cons, hfeed, ih]

end MapState

variable {decode} (h : Lawful decode)

include h

/-- Enough fuel is as good as more fuel. -/
theorem Lawful.drainLoop_eq {fuel fuel' : ℕ} {s : σ} {buf : List τ} (hfuel : buf.length < fuel)
    (hfuel' : buf.length < fuel') : drainLoop decode fuel s buf = drainLoop decode fuel' s buf := by
  induction fuel generalizing fuel' s buf with
  | zero => omega
  | succ fuel ih =>
    obtain ⟨fuel', rfl⟩ := Nat.exists_eq_succ_of_ne_zero (Nat.ne_zero_of_lt hfuel')
    rw [drainLoop, drainLoop]
    split
    · rfl
    · next hd =>
      have hlt := h.progress hd
      exact congrArg (push _) (ih (by omega) (by omega))
    · rfl

/-- What was decoded first stands in front of what is decoded later. -/
theorem Lawful.drain_of_item {s s' : σ} {buf buf' : List τ} {x : ι}
    (hd : decode s buf = (s', buf', .ok (some x))) :
    drain decode s buf = (drain decode s' buf').push x := by
  have hlt := h.progress hd
  rw [drain, drainLoop, hd]
  exact congrArg (push x) (h.drainLoop_eq hlt (Nat.lt_succ_self _))

omit h in
theorem drain_of_none {s s' : σ} {buf buf' : List τ} (hd : decode s buf = (s', buf', .ok none)) :
    drain decode s buf = ⟨s', buf', [], none⟩ := by
  rw [drain, drainLoop, hd]

omit h in
theorem drain_of_error {s s' : σ} {buf buf' : List τ} {e : ε}
    (hd : decode s buf = (s', buf', .error e)) : drain decode s buf = ⟨s', buf', [], some e⟩ := by
  rw [drain, drainLoop, hd]

/-- Induction on the items taken off a buffer. -/
theorem Lawful.drain_induction {motive : σ → List τ → Prop}
    (waits : ∀ s buf, decode s buf = (s, buf, .ok none) → motive s buf)
    (item : ∀ s buf s' buf' x, decode s buf = (s', buf', .ok (some x)) → motive s' buf' →
      motive s buf)
    (failed : ∀ s buf s' buf' e, decode s buf = (s', buf', .error e) → motive s buf)
    (s : σ) (buf : List τ) : motive s buf := by
  induction hn : buf.length using Nat.strong_induction_on generalizing s buf with
  | _ n ih =>
    match hd : decode s buf with
    | (s', buf', .ok none) =>
      obtain ⟨rfl, rfl⟩ := h.waits hd
      exact waits s' buf' hd
    | (s', buf', .ok (some x)) =>
      exact item s buf s' buf' x hd (ih buf'.length (hn ▸ h.progress hd) s' buf' rfl)
    | (s', buf', .error e) => exact failed s buf s' buf' e hd

/-- Draining ends with a call that asks for more, or with an error. -/
theorem Lawful.decode_drain (s : σ) (buf : List τ) (hr : (drain decode s buf).error = none) :
    decode (drain decode s buf).state (drain decode s buf).buf =
      ((drain decode s buf).state, (drain decode s buf).buf, .ok none) := by
  induction s, buf using h.drain_induction with
  | waits s buf hd => rw [drain_of_none hd, hd]
  | item s buf s' buf' x hd ih =>
    rw [h.drain_of_item hd] at hr ⊢
    exact ih hr
  | failed s buf s' buf' e hd =>
    rw [drain_of_error hd] at hr
    exact nomatch hr

omit h in
theorem feed_push (r : Run σ τ ι ε) (x : ι) (chunk : List τ) :
    feed decode (r.push x) chunk = (feed decode r chunk).push x := by
  rw [feed, feed]
  dsimp only [push]
  split <;> rfl

/-- Draining what is there first, and then with what follows. -/
theorem Lawful.feed_drain (s : σ) (buf more : List τ) :
    (feed decode (drain decode s buf) more).Agrees (drain decode s (buf ++ more)) := by
  induction s, buf using h.drain_induction with
  | waits s buf hd =>
    rw [drain_of_none hd]
    exact .refl _
  | item s buf s' buf' x hd ih =>
    rw [h.drain_of_item hd, h.drain_of_item (h.append hd (by simp) more), feed_push]
    exact ih.push x
  | failed s buf s' buf' e hd =>
    rw [drain_of_error hd, drain_of_error (h.append hd (by simp) more)]
    exact ⟨rfl, rfl, rfl, fun he => nomatch he⟩

/-- Two chunks or one: it makes no difference. -/
theorem Lawful.feed_feed (r : Run σ τ ι ε) (chunk chunk' : List τ) :
    (feed decode (feed decode r chunk) chunk').Agrees (feed decode r (chunk ++ chunk')) := by
  obtain ⟨s, buf, items, error⟩ := r
  cases error with
  | some e => exact .refl _
  | none =>
    have hdrain := h.feed_drain s (buf ++ chunk) chunk'
    rw [List.append_assoc] at hdrain
    -- The items before the first chunk stay in front.
    induction items with
    | nil => simpa [feed] using hdrain
    | cons x items ih =>
      have hpush : (⟨s, buf, x :: items, none⟩ : Run σ τ ι ε) = push x ⟨s, buf, items, none⟩ := rfl
      rw [hpush, feed_push, feed_push, feed_push]
      exact ih.push x

/-- Feeding nothing at the start does nothing. -/
theorem Lawful.feed_start (s : σ) : feed decode (start s) [] = start s := by
  rw [feed, start]
  simp only [List.append_nil, drain, drainLoop, h.idle]

/-- However the input is cut into chunks, the run is the same. -/
theorem Lawful.foldl_feed (s : σ) (chunks : List (List τ)) :
    (chunks.foldl (feed decode) (start s)).Agrees (feed decode (start s) chunks.flatten) := by
  have hfold : ∀ (chunks : List (List τ)) (r : Run σ τ ι ε) (chunk : List τ),
      (chunks.foldl (feed decode) (feed decode r chunk)).Agrees
        (feed decode r (chunk ++ chunks.flatten)) := by
    intro chunks
    induction chunks with
    | nil =>
      intro r chunk
      rw [List.flatten_nil, List.append_nil]
      exact .refl _
    | cons next chunks ih =>
      intro r chunk
      rw [List.foldl_cons, List.flatten_cons]
      exact (ih (feed decode r chunk) next).trans (h.feed_feed r chunk _)
  have hstart := hfold chunks (start s) []
  rwa [h.feed_start, List.nil_append] at hstart

end Incremental
