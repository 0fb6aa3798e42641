import Bairelay.BcMedia.Ser
import Bairelay.Lib.Framing

/-!
# The media codec

The codec of `bcmedia/codex.rs`. A strict one fails at the first bytes that are
not a packet; one that is not strict drops all that is buffered and goes on.

* `decode_serialize_chunks`: what is serialised is decoded by the strict codec,
  however it is cut into chunks;
* `decode_chunks_iff`: what a codec that is not strict decodes depends on the
  chunks as soon as a packet follows bytes that are not one.
-/

namespace Bairelay

open Streaming Parser Incremental

/-- The decoder, with the number of bytes it has passed over so far. -/
structure BcMediaCodex where
  /-- Fail rather than search for the next packet. -/
  strict : Bool
  amountSkipped : ℕ
  deriving DecidableEq, Repr

namespace BcMediaCodex

/-- A decoder that has not passed over anything. -/
def new (strict : Bool) : BcMediaCodex := ⟨strict, 0⟩

/-- Encoding needs no state. -/
def encode (_codex : BcMediaCodex) (item : BcMedia) : Bytes := item.serialize

/-- The stream is in order again. -/
def restored (codex : BcMediaCodex) : BcMediaCodex :=
  if 0 < codex.amountSkipped then { codex with amountSkipped := 0 } else codex

/-- A call of the decoder. The loop goes round a second time only after the
    buffer was cleared. -/
def decode (codex : BcMediaCodex) (src : Bytes) :
    BcMediaCodex × Bytes × Except (List Streaming.Frame) (Option BcMedia) :=
  match BcMedia.deserialize src with
  | .done rest bc => (codex.restored, rest, .ok (some bc))
  | .incomplete _ => (codex.restored, src, .ok none)
  | .error trace =>
    if codex.strict then (codex, src, .error trace)
    else if _h : src = [] then (codex, src, .ok none)
    else decode { codex with amountSkipped := codex.amountSkipped + src.length } []
termination_by src.length
decreasing_by exact List.length_pos_of_ne_nil _h

end BcMediaCodex

/-- The parser of packets can be fed piece by piece. -/
theorem BcMedia.deserialize_framing : Framing BcMedia.deserialize where
  streams := BcMedia.deserialize_streams
  idle := ⟨4, rfl⟩
  progress := BcMedia.deserialize_progress

namespace BcMediaCodex

/-- A strict codec has nothing to restore. -/
theorem decode_new_true (src : Bytes) :
    decode (new true) src = (new true, (Parser.strict BcMedia.deserialize () src).2) := by
  rw [decode, Parser.strict]
  cases BcMedia.deserialize src with
  | done _ _ => rfl
  | incomplete _ => rfl
  | error _ => rfl

/-- A codec that is not strict restores the stream in the call that drops the
    buffer, so it has nothing to restore between calls either. -/
theorem decode_new_false (src : Bytes) :
    decode (new false) src = (new false, (clearing BcMedia.deserialize () src).2) := by
  obtain ⟨needed, hidle⟩ := BcMedia.deserialize_framing.idle
  rw [decode, Parser.clearing]
  cases htrace : BcMedia.deserialize src with
  | done _ _ => rfl
  | incomplete _ => rfl
  | error _ =>
    have hsrc : src ≠ [] := by
      rintro rfl
      cases htrace.symm.trans hidle
    have hpos := List.length_pos_of_ne_nil hsrc
    dsimp only
    rw [if_neg (by decide), dif_neg hsrc, decode, hidle]
    dsimp only
    rw [restored, if_pos (by dsimp only; omega)]
    rfl

/-- What is serialised is decoded by the strict codec, however it is cut into
    chunks: exactly that, with no bytes left over and no error. -/
theorem decode_serialize_chunks (items : List BcMedia) (hfits : ∀ item ∈ items, item.Fits)
    (chunks : List Bytes) (hchunks : chunks.flatten = (items.map BcMedia.serialize).flatten) :
    let run := chunks.foldl (feed decode) (Run.start (new true))
    run.items = items ∧ run.buf = [] ∧ run.error = none := by
  have hpass : ∀ items : List BcMedia, (∀ item ∈ items, item.Fits) →
      Passes BcMedia.deserialize (items.map BcMedia.serialize).flatten items [] := by
    intro items
    induction items with
    | nil => exact fun _ => .refl []
    | cons item items ih =>
      intro hfits
      rw [List.map_cons, List.flatten_cons]
      exact .step (BcMedia.deserialize_serialize (hfits item List.mem_cons_self) _)
        (ih fun item hitem => hfits item (List.mem_cons_of_mem _ hitem))
  have hrun := foldl_feed_mapState (f := fun _ => new true) (fun _ => decode_new_true)
    (Run.start ()) chunks
  rw [BcMedia.deserialize_framing.foldl_strict (hchunks ▸ hpass items hfits)] at hrun
  change chunks.foldl (feed decode) (Run.start (new true)) = _ at hrun
  dsimp only
  rw [hrun]
  exact ⟨rfl, rfl, rfl⟩

/-- A key frame with its time, sound and a frame without data. -/
def sampleMedia : List BcMedia :=
  [.iframe ⟨.h265, 123, some 456, [1, 2, 3]⟩, .aac ⟨[4, 5]⟩, .pframe ⟨.h265, 163, []⟩]

/-- Two packets written one after the other are read as such, however the bytes are cut. -/
theorem decode_serialize_sampleMedia :
    let bytes := (sampleMedia.map BcMedia.serialize).flatten
    let run := [bytes.take 5, (bytes.drop 5).take 40, (bytes.drop 5).drop 40].foldl (feed decode)
      (Run.start (new true))
    run.items = sampleMedia ∧ run.buf = [] ∧ run.error = none := by
  refine decode_serialize_chunks sampleMedia (by simp [sampleMedia, BcMedia.Fits]) _ ?_
  simp only [List.flatten_cons, List.flatten_nil, List.append_nil, List.take_append_drop]

/-! ## Chunks -/

/-- What a codec that is not strict decodes of these chunks. -/
def decoded (chunks : List Bytes) : List BcMedia :=
  (chunks.foldl (feed decode) (Run.start (new false))).items

/-- The packets that a decoder gives, over all chunks. -/
theorem decoded_eq (chunks : List Bytes) : decoded chunks =
    (chunks.foldl (feed (clearing BcMedia.deserialize)) (Run.start ())).items := by
  have hrun := foldl_feed_mapState (f := fun _ => new false) (fun _ => decode_new_false)
    (Run.start ()) chunks
  exact congrArg Run.items hrun

/-- What is decoded of a stream is the same for all chunks, and a packet behind
    rejected bytes is delivered, whether it arrives with them or after them,
    exactly if there is no such packet: the stream is not cut by any position into
    bytes that are rejected and bytes that start with a packet. -/
theorem decode_chunks_iff (stream : Bytes) :
    ((∀ chunks chunks' : List Bytes, chunks.flatten = stream → chunks'.flatten = stream →
        decoded chunks = decoded chunks') ∧
      ∀ front tail rest v, stream = front ++ tail → Rejects BcMedia.deserialize front →
        BcMedia.deserialize tail = .done rest v →
        v ∈ decoded [stream] ∧ v ∈ decoded [front, tail]) ↔
      ¬ ∃ front tail, stream = front ++ tail ∧ Rejects BcMedia.deserialize front ∧
        Starts BcMedia.deserialize tail := by
  have hiff := BcMedia.deserialize_framing.clearing_iff stream
  simp only [← decoded_eq] at hiff
  rw [hiff]
  constructor
  · rintro ⟨hlost, -⟩ ⟨front, tail, hstream, hfront, htail⟩
    exact hlost front tail hstream hfront htail
  · intro hlost
    refine ⟨fun front tail hstream hfront htail => hlost ⟨front, tail, hstream, hfront, htail⟩, ?_⟩
    intro front tail rest v hstream hfront hv
    exact absurd ⟨front, tail, hstream, hfront, rest, v, hv⟩ hlost

/-- Four bytes that are no magic, and a packet: it is decoded only if it is not in
    the chunk of these bytes. -/
theorem decoded_garbage_ne :
    decoded [[0xff, 0xff, 0xff, 0xff] ++ (BcMedia.aac ⟨[1, 2, 3, 4, 5, 6, 7, 8]⟩).serialize] = [] ∧
      decoded [[0xff, 0xff, 0xff, 0xff], (BcMedia.aac ⟨[1, 2, 3, 4, 5, 6, 7, 8]⟩).serialize] =
        [.aac ⟨[1, 2, 3, 4, 5, 6, 7, 8]⟩] := by
  rw [decoded_eq, decoded_eq]
  decide +kernel

end BcMediaCodex

end Bairelay
