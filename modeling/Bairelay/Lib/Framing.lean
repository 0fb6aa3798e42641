import Bairelay.Lib.Streaming
import Bairelay.Lib.Incremental

/-!
# Frames

A stream of frames, each read by the same parser, and two decoders for it: a
`strict` one, which fails where the parser fails, and a `clearing` one, which
drops what is buffered and goes on with what arrives next.

* `Framing.foldl_strict`: whatever the chunks, the strict decoder gives the
  frames the stream is made of;
* `Framing.clearing_iff`: what the clearing decoder gives depends on the chunks,
  unless no frame follows the part of the stream that is rejected.
-/

universe u

namespace Streaming.Parser

open Incremental

variable {α : Type u}

/-- A parser of frames: it asks for more of an empty buffer, and a frame takes
    some bytes. -/
structure Framing (p : Parser α) : Prop where
  streams : Streams p
  idle : ∃ needed, p [] = .incomplete needed
  progress : ∀ {buf rest : List UInt8} {v : α}, p buf = .done rest v → rest.length < buf.length

/-- Some frames are read off the front of a buffer, one after the other. -/
inductive Passes (p : Parser α) : List UInt8 → List α → List UInt8 → Prop
  | refl (buf : List UInt8) : Passes p buf [] buf
  | step {buf mid rest : List UInt8} {v : α} {vs : List α} (hv : p buf = .done mid v)
    (hvs : Passes p mid vs rest) : Passes p buf (v :: vs) rest

/-- Reading frames off these bytes ends with an error. -/
def Rejects (p : Parser α) (buf : List UInt8) : Prop :=
  ∃ vs rest trace, Passes p buf vs rest ∧ p rest = .error trace

/-- The buffer starts with a frame. -/
def Starts (p : Parser α) (buf : List UInt8) : Prop := ∃ rest v, p buf = .done rest v

variable (p : Parser α)

/-- The decoder that fails where the parser fails. -/
def strict : Decoder Unit UInt8 α (List Frame) := fun _ src =>
  match p src with
  | .done rest v => ((), rest, .ok (some v))
  | .incomplete _ => ((), src, .ok none)
  | .error trace => ((), src, .error trace)

/-- The decoder that drops the buffer where the parser fails. -/
def clearing : Decoder Unit UInt8 α (List Frame) := fun _ src =>
  match p src with
  | .done rest v => ((), rest, .ok (some v))
  | .incomplete _ => ((), src, .ok none)
  | .error _ => ((), [], .ok none)

/-- What dropping the buffer makes of a run that failed. -/
def dropRest (r : Run Unit UInt8 α (List Frame)) : Run Unit UInt8 α (List Frame) :=
  match r.error with
  | none => r
  | some _ => ⟨(), [], r.items, none⟩

/-- What the clearing decoder has done with the part of a stream that arrived: it
    is still in step with the frames, or it dropped something. -/
def Cleared (arrived : List UInt8) (r : Run Unit UInt8 α (List Frame)) : Prop :=
  r.error = none ∧ (∃ needed, p r.buf = .incomplete needed) ∧
    (Passes p arrived r.items r.buf ∨
      ∃ front rest trace, arrived = front ++ r.buf ∧ Passes p front r.items rest ∧
        p rest = .error trace)

variable {p}

/-- Frames that are passed one after the other. -/
theorem Passes.trans {buf mid rest : List UInt8} {vs vs' : List α} (h : Passes p buf vs mid)
    (h' : Passes p mid vs' rest) : Passes p buf (vs ++ vs') rest := by
  induction h with
  | refl buf => exact h'
  | step hv _ ih => exact .step hv (ih h')

/-- Frames are passed whatever comes behind them. -/
theorem Passes.append (hp : Streams p) {buf rest : List UInt8} {vs : List α}
    (h : Passes p buf vs rest) (more : List UInt8) : Passes p (buf ++ more) vs (rest ++ more) := by
  induction h with
  | refl buf => exact .refl _
  | step hv _ ih => exact .step (hp.done hv more) ih

/-- The frames of a buffer that was put together from them. -/
theorem Passes.of_yields {bytes : α → List UInt8} {vs : List α}
    (h : ∀ v ∈ vs, Yields p (bytes v) v) (rest : List UInt8) :
    Passes p (vs.flatMap bytes ++ rest) vs rest := by
  induction vs with
  | nil => exact .refl rest
  | cons v vs ih =>
    rw [List.flatMap_cons, List.append_assoc]
    exact .step (h v List.mem_cons_self _) (ih fun w hw => h w (List.mem_cons_of_mem _ hw))

/-- Once no frame can be read, what was read is all there is. -/
theorem Passes.unique {buf rest rest' : List UInt8} {vs vs' : List α} (h : Passes p buf vs rest)
    (h' : Passes p buf vs' rest') (hrest : ¬ Starts p rest) (hrest' : ¬ Starts p rest') :
    vs = vs' ∧ rest = rest' := by
  induction h generalizing vs' with
  | refl buf =>
    cases h' with
    | refl => exact ⟨rfl, rfl⟩
    | step hv _ => exact absurd ⟨_, _, hv⟩ hrest
  | step hv _ ih =>
    cases h' with
    | refl => exact absurd ⟨_, _, hv⟩ hrest'
    | step hv' hvs' =>
      obtain ⟨rfl, rfl⟩ := Outcome.done.inj (hv.symm.trans hv')
      obtain ⟨rfl, rfl⟩ := ih hvs' hrest
      exact ⟨rfl, rfl⟩

theorem not_starts_of_error {buf : List UInt8} {trace : List Frame} (h : p buf = .error trace) :
    ¬ Starts p buf := by
  rintro ⟨rest, v, hv⟩
  exact nomatch h.symm.trans hv

/-- Where it waits for more no frame has started yet. -/
theorem not_starts_of_incomplete {buf : List UInt8} {needed : ℕ}
    (h : p buf = .incomplete needed) : ¬ Starts p buf := by
  rintro ⟨rest, v, hv⟩
  exact nomatch h.symm.trans hv

/-- A frame that starts still does with more behind it. -/
theorem Starts.append (hp : Streams p) {buf : List UInt8} (h : Starts p buf)
    (more : List UInt8) : Starts p (buf ++ more) := by
  obtain ⟨rest, v, hv⟩ := h
  exact ⟨_, _, hp.done hv more⟩

namespace Framing

variable (hp : Framing p)

include hp

/-! ## The strict decoder -/

/-- A decoder that stops at an error can be fed piece by piece. -/
theorem strict_lawful : Lawful (strict p) where
  idle := by
    obtain ⟨needed, hidle⟩ := hp.idle
    intro _
    rw [strict, hidle]
  waits {_ buf _ buf'} h := by
    rw [strict] at h
    split at h <;> simp_all
  append {_ buf _ buf' r} h hr more := by
    rw [strict] at h ⊢
    split at h
    · next hd =>
      obtain ⟨-, rfl, rfl⟩ := h
      rw [hp.streams.done hd more]
    · obtain ⟨-, -, rfl⟩ := h
      exact absurd rfl hr
    · next he =>
      obtain ⟨-, rfl, rfl⟩ := h
      rw [hp.streams.error he more]
  progress {_ buf _ buf' v} h := by
    rw [strict] at h
    split at h
    · next hd =>
      obtain ⟨-, rfl, -⟩ := h
      exact hp.progress hd
    · simp at h
    · simp at h

/-- How the strict decoder leaves a buffer: some frames are taken off it, and the
    parser asks for more of the rest, or fails on it. -/
theorem drain_strict (buf : List UInt8) :
    ∃ vs rest, Passes p buf vs rest ∧
      ((∃ needed, p rest = .incomplete needed) ∧
          drain (strict p) () buf = ⟨(), rest, vs, none⟩ ∨
        ∃ trace, p rest = .error trace ∧
          drain (strict p) () buf = ⟨(), rest, vs, some trace⟩) := by
  -- By induction on the frames taken off the buffer.
  induction hn : buf.length using Nat.strong_induction_on generalizing buf with
  | _ n ih =>
    match hd : p buf with
    | .done mid v =>
      have hstrict : strict p () buf = ((), mid, .ok (some v)) := by rw [strict, hd]
      obtain ⟨vs, rest, hvs, hrest⟩ := ih mid.length (hn ▸ hp.progress hd) mid rfl
      refine ⟨v :: vs, rest, .step hd hvs, ?_⟩
      rw [hp.strict_lawful.drain_of_item hstrict]
      rcases hrest with ⟨hneeded, hdrain⟩ | ⟨trace, htrace, hdrain⟩
      · exact .inl ⟨hneeded, by rw [hdrain]; rfl⟩
      · exact .inr ⟨trace, htrace, by rw [hdrain]; rfl⟩
    | .incomplete needed =>
      refine ⟨[], buf, .refl buf, .inl ⟨⟨needed, hd⟩, ?_⟩⟩
      rw [drain, drainLoop, strict, hd]
    | .error trace =>
      refine ⟨[], buf, .refl buf, .inr ⟨trace, hd, ?_⟩⟩
      rw [drain, drainLoop, strict, hd]

/-- Whatever the chunks, the frames in front of a part of one are decoded. -/
theorem foldl_strict_of_incomplete {vs : List α} {rest : List UInt8} {needed : ℕ}
    {chunks : List (List UInt8)} (h : Passes p chunks.flatten vs rest)
    (hneeded : p rest = .incomplete needed) :
    chunks.foldl (feed (strict p)) (Run.start ()) = ⟨(), rest, vs, none⟩ := by
  have hagrees := hp.strict_lawful.foldl_feed () chunks
  obtain ⟨vs', rest', hvs', ⟨⟨needed', hrest⟩, hdrain⟩ | ⟨trace, hrest, hdrain⟩⟩ :=
    hp.drain_strict chunks.flatten
  · obtain ⟨rfl, rfl⟩ := h.unique hvs' (not_starts_of_incomplete hneeded)
      (not_starts_of_incomplete hrest)
    have hwhole : feed (strict p) (Run.start ()) chunks.flatten = ⟨(), rest, vs, none⟩ := by
      rw [feed, Run.start]
      dsimp only [List.nil_append]
      rw [hdrain]
    rw [hwhole] at hagrees
    exact hagrees.eq_of_error rfl
  · obtain ⟨-, rfl⟩ := h.unique hvs' (not_starts_of_incomplete hneeded) (not_starts_of_error hrest)
    cases hneeded.symm.trans hrest

/-- Whatever the chunks, the frames the stream is made of are decoded. -/
theorem foldl_strict {vs : List α} {chunks : List (List UInt8)}
    (h : Passes p chunks.flatten vs []) :
    chunks.foldl (feed (strict p)) (Run.start ()) = ⟨(), [], vs, none⟩ := by
  obtain ⟨needed, hidle⟩ := hp.idle
  exact hp.foldl_strict_of_incomplete h hidle

/-! ## The clearing decoder -/

omit hp in
/-- The clearing decoder does what the strict one does, and drops the rest where
    that fails. -/
theorem drainLoop_clearing (fuel : ℕ) (buf : List UInt8) :
    drainLoop (clearing p) fuel () buf = dropRest (drainLoop (strict p) fuel () buf) := by
  induction fuel generalizing buf with
  | zero => rfl
  | succ fuel ih =>
    rw [drainLoop, drainLoop, clearing, strict]
    cases p buf with
    | done rest v =>
      dsimp only
      rw [ih]
      rcases drainLoop (strict p) fuel () rest with ⟨_, _, _, _ | _⟩ <;> rfl
    | incomplete _ => rfl
    | error _ => rfl

/-- Draining passes the frames in front, and then waits, or throws away all that is left. -/
theorem drain_clearing (buf : List UInt8) :
    ∃ vs rest, Passes p buf vs rest ∧
      ((∃ needed, p rest = .incomplete needed) ∧
          drain (clearing p) () buf = ⟨(), rest, vs, none⟩ ∨
        (∃ trace, p rest = .error trace) ∧ drain (clearing p) () buf = ⟨(), [], vs, none⟩) := by
  have hclear : drain (clearing p) () buf = dropRest (drain (strict p) () buf) :=
    drainLoop_clearing _ buf
  obtain ⟨vs, rest, hvs, ⟨hrest, hdrain⟩ | ⟨trace, hrest, hdrain⟩⟩ := hp.drain_strict buf
  · exact ⟨vs, rest, hvs, .inl ⟨hrest, by rw [hclear, hdrain]; rfl⟩⟩
  · exact ⟨vs, rest, hvs, .inr ⟨⟨trace, hrest⟩, by rw [hclear, hdrain]; rfl⟩⟩

/-- A chunk keeps this, unless a frame is found behind what was dropped. -/
theorem cleared_feed {arrived chunk : List UInt8} {r : Run Unit UInt8 α (List Frame)}
    (h : Cleared p arrived r)
    (hlost : ∀ front tail, arrived ++ chunk = front ++ tail → Rejects p front → ¬ Starts p tail) :
    Cleared p (arrived ++ chunk) (feed (clearing p) r chunk) := by
  obtain ⟨⟨⟩, buf, items, error⟩ := r
  obtain ⟨rfl, ⟨needed, hneeded⟩, h⟩ := h
  obtain ⟨idle, hidle⟩ := hp.idle
  obtain ⟨vs, rest, hvs, hdrain⟩ := hp.drain_clearing (buf ++ chunk)
  rw [feed]
  dsimp only at h hneeded ⊢
  rcases h with hpass | ⟨front, mid, trace, rfl, hpass, hmid⟩
  · have hpass := (hpass.append hp.streams chunk).trans hvs
    rcases hdrain with ⟨hrest, hdrain⟩ | ⟨⟨trace, hrest⟩, hdrain⟩
    · rw [hdrain]
      exact ⟨rfl, hrest, .inl hpass⟩
    · rw [hdrain]
      exact ⟨rfl, ⟨idle, hidle⟩, .inr ⟨_, rest, trace, (List.append_nil _).symm, hpass, hrest⟩⟩
  · -- Nothing is read of the buffer: it follows what was dropped.
    have hstarts : ¬ Starts p (buf ++ chunk) :=
      hlost front _ (List.append_assoc _ _ _) ⟨items, mid, trace, hpass, hmid⟩
    cases hvs with
    | step hv _ => exact absurd ⟨_, _, hv⟩ hstarts
    | refl =>
      rcases hdrain with ⟨hrest, hdrain⟩ | ⟨⟨trace', hrest⟩, hdrain⟩
      · rw [hdrain, List.append_nil]
        exact ⟨rfl, hrest, .inr ⟨front, mid, trace, List.append_assoc _ _ _, hpass, hmid⟩⟩
      · rw [hdrain, List.append_nil, List.append_assoc]
        exact ⟨rfl, ⟨idle, hidle⟩, .inr ⟨_, _, trace, (List.append_nil _).symm,
          hpass.append hp.streams (buf ++ chunk), hp.streams.error hmid _⟩⟩

/-- Where the parser fails, the frames before are decoded and the rest is gone. -/
theorem drain_clearing_of_error {buf rest : List UInt8} {vs : List α} {trace : List Frame}
    (hvs : Passes p buf vs rest) (hrest : p rest = .error trace) :
    drain (clearing p) () buf = ⟨(), [], vs, none⟩ := by
  obtain ⟨vs', rest', hvs', ⟨⟨needed, hrest'⟩, -⟩ | ⟨⟨trace', hrest'⟩, hdrain⟩⟩ :=
    hp.drain_clearing buf
  · obtain ⟨-, rfl⟩ := hvs.unique hvs' (not_starts_of_error hrest) (not_starts_of_incomplete hrest')
    exact nomatch hrest.symm.trans hrest'
  · obtain ⟨rfl, -⟩ := hvs.unique hvs' (not_starts_of_error hrest) (not_starts_of_error hrest')
    exact hdrain

/-- The decoder has cleared its buffer once for each part of the stream that it rejects. -/
theorem cleared_foldl {stream : List UInt8}
    (hlost : ∀ front tail, stream = front ++ tail → Rejects p front → ¬ Starts p tail)
    (chunks : List (List UInt8)) (more : List UInt8) (h : chunks.flatten ++ more = stream) :
    Cleared p chunks.flatten (chunks.foldl (feed (clearing p)) (Run.start ())) := by
  induction chunks using List.reverseRecOn generalizing more with
  | nil =>
    obtain ⟨idle, hidle⟩ := hp.idle
    exact ⟨rfl, ⟨idle, hidle⟩, .inl (.refl [])⟩
  | append_singleton chunks chunk ih =>
    rw [List.flatten_concat] at h ⊢
    rw [List.foldl_concat]
    refine hp.cleared_feed (ih (chunk ++ more) (by rw [← h, List.append_assoc])) ?_
    intro front tail htail hfront hstarts
    refine hlost front (tail ++ more) ?_ hfront (hstarts.append hp.streams more)
    rw [← h, htail, List.append_assoc]

/-- The items of a run over a whole stream. -/
theorem items_of_cleared {stream : List UInt8} {r r' : Run Unit UInt8 α (List Frame)}
    (h : Cleared p stream r) (h' : Cleared p stream r') : r.items = r'.items := by
  have hpass : ∀ {r : Run Unit UInt8 α (List Frame)}, Cleared p stream r →
      ∃ rest, Passes p stream r.items rest ∧ ¬ Starts p rest := by
    rintro r ⟨-, ⟨needed, hneeded⟩, hr | ⟨front, rest, trace, rfl, hr, hrest⟩⟩
    · exact ⟨r.buf, hr, not_starts_of_incomplete hneeded⟩
    · exact ⟨_, hr.append hp.streams r.buf, not_starts_of_error (hp.streams.error hrest _)⟩
  obtain ⟨rest, hr, hrest⟩ := hpass h
  obtain ⟨rest', hr', hrest'⟩ := hpass h'
  exact (hr.unique hr' hrest hrest').1

/-- What the clearing decoder gives is the same for all chunks exactly if no frame
    follows a part of the stream that is rejected. -/
theorem clearing_iff (stream : List UInt8) :
    (∀ chunks chunks' : List (List UInt8), chunks.flatten = stream → chunks'.flatten = stream →
        (chunks.foldl (feed (clearing p)) (Run.start ())).items =
          (chunks'.foldl (feed (clearing p)) (Run.start ())).items) ↔
      ∀ front tail, stream = front ++ tail → Rejects p front → ¬ Starts p tail := by
  constructor
  · rintro h front tail rfl ⟨vs, rest, trace, hvs, hrest⟩ ⟨rest', v, hv⟩
    -- In one chunk the frame is dropped, and in a chunk of its own it is not.
    have hone := hp.drain_clearing_of_error (hvs.append hp.streams tail)
      (hp.streams.error hrest tail)
    have htwo := hp.drain_clearing_of_error hvs hrest
    obtain ⟨vs', rest'', hvs', hdrain⟩ := hp.drain_clearing tail
    have hitems : (drain (clearing p) () tail).items = vs' := by
      rcases hdrain with ⟨-, hdrain⟩ | ⟨-, hdrain⟩ <;> rw [hdrain]
    have hends : ¬ Starts p rest'' := by
      rcases hdrain with ⟨⟨needed, hrest''⟩, -⟩ | ⟨⟨trace, hrest''⟩, -⟩
      · exact not_starts_of_incomplete hrest''
      · exact not_starts_of_error hrest''
    have h := h [front ++ tail] [front, tail] (by simp) (by simp)
    simp only [List.foldl_cons, List.foldl_nil, feed, Run.start, List.nil_append, hone, htwo,
      hitems] at h
    cases hvs' with
    | refl => exact hends ⟨rest', v, hv⟩
    | step _ _ => simp at h
  · intro hlost chunks chunks' h h'
    have hc := hp.cleared_foldl hlost chunks [] (by rw [h, List.append_nil])
    have hc' := hp.cleared_foldl hlost chunks' [] (by rw [h', List.append_nil])
    rw [h] at hc
    rw [h'] at hc'
    exact hp.items_of_cleared hc hc'

end Framing

end Streaming.Parser
