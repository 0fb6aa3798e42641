import Bairelay.Codec.Audio

/-!
# A decoder over many calls

The state of an ADPCM decoder (`rtsp/transcode/adpcm.rs`) over any calls of `decode_block` and
`decode_nibble`, of which those that index a table out of bounds panic.

`usable_iff`: the decoder stays usable exactly as long as no block is refused for the index of its
step. Such a block has left the index in the decoder.
-/

namespace Bairelay.AdpcmDecoder

/-- The predictor is a sample, and the index of the step one of the table. -/
structure InRange (d : AdpcmDecoder) : Prop where
  predictor : -2 ^ 15 ≤ d.predictor ∧ d.predictor < 2 ^ 15
  stepIndex : d.Wf

/-- A decoder that is in range, and panics at nothing that may come next. -/
structure Usable (d : AdpcmDecoder) : Prop where
  inRange : d.InRange
  nibble : ∀ nibble, (d.decodeNibble nibble).isSome
  block : ∀ block, (d.decodeBlock block).isSome

/-- A call on a decoder: a whole block, or one nibble. -/
inductive Call where
  | decodeBlock (block : Bytes)
  | decodeNibble (nibble : UInt8)
  deriving DecidableEq

/-- The state after a call. -/
def step (d : AdpcmDecoder) : Call → Option AdpcmDecoder
  | .decodeBlock block => (d.decodeBlock block).map (·.1)
  | .decodeNibble nibble => (d.decodeNibble nibble).map (·.1)

/-- The state after some calls of a new decoder. -/
def run (calls : List Call) : Option AdpcmDecoder := calls.foldlM step new

/-- A block of some length, with an index of the step that is past the table. -/
def Call.BadIndex : Call → Prop
  | .decodeBlock (_ :: _ :: b2 :: _ :: _ :: _) => 88 < b2
  | _ => False

variable {d d' : AdpcmDecoder}

/-- A decoder in range stays within the tables. -/
theorem InRange.usable (h : d.InRange) : d.Usable where
  inRange := h
  nibble nibble := by
    obtain ⟨d', sample, hsome, -⟩ := decodeNibble_of_wf h.stepIndex nibble
    rw [hsome]
    rfl
  block := decodeBlock_isSome d

theorem inRange_new : new.InRange := ⟨⟨by decide, by decide⟩, ⟨by decide, by decide⟩⟩

/-- Both are clamped, whatever they were. -/
theorem decodeNibble_inRange {nibble : UInt8} {sample : Int16}
    (h : d.decodeNibble nibble = some (d', sample)) : d'.InRange := by
  rw [decodeNibble] at h
  split at h
  · cases h
  · obtain ⟨step, -, h⟩ := Option.bind_eq_some_iff.1 h
    obtain ⟨index, -, h⟩ := Option.bind_eq_some_iff.1 h
    obtain ⟨rfl, -⟩ := Prod.mk.inj (Option.some.inj h)
    refine ⟨?_, ?_⟩ <;> simp only [Wf, clamp] <;> omega

theorem decodeBytes_inRange {data : Bytes} {samples : List Int16} (hd : d.InRange)
    (h : d.decodeBytes data = some (d', samples)) : d'.InRange := by
  induction data generalizing d samples with
  | nil =>
    obtain ⟨rfl, -⟩ := Prod.mk.inj (Option.some.inj h)
    exact hd
  | cons b data ih =>
    obtain ⟨⟨d₁, low⟩, -, h₁⟩ := Option.bind_eq_some_iff.1 h
    obtain ⟨⟨d₂, high⟩, hhigh, h₂⟩ := Option.bind_eq_some_iff.1 h₁
    obtain ⟨⟨d₃, rest⟩, hrest, h₃⟩ := Option.bind_eq_some_iff.1 h₂
    obtain ⟨rfl, -⟩ := Prod.mk.inj (Option.some.inj h₃)
    exact ih (decodeNibble_inRange hhigh) hrest

/-- The first sample of a block is one of 16 bits, and its index is of the table. -/
theorem header_inRange (first : Int16) {b2 : UInt8} (h : ¬88 < b2) :
    InRange ⟨first.toInt, b2.toNat⟩ := by
  have hle : b2.toNat ≤ 88 := UInt8.le_iff_toNat_le.1 (UInt8.not_lt.1 h)
  exact ⟨⟨first.le_toInt, first.toInt_lt⟩, Int.natCast_nonneg _,
    show (b2.toNat : ℤ) ≤ 88 by exact_mod_cast hle⟩

/-- What comes of a block: with a bad index a decoder that is not in range, else one that is if it
    was before. -/
theorem step_decodeBlock {block : Bytes} (hd : d.InRange)
    (h : d.step (.decodeBlock block) = some d') :
    d'.InRange ↔ ¬(Call.decodeBlock block).BadIndex := by
  obtain ⟨⟨_, result⟩, hblock, rfl⟩ := Option.map_eq_some_iff.1 h
  rw [decodeBlock.eq_def] at hblock
  split at hblock
  · next b0 b1 b2 b3 data =>
    cases data with
    | nil =>
      rw [if_pos rfl] at hblock
      obtain ⟨rfl, -⟩ := Prod.mk.inj (Option.some.inj hblock)
      exact iff_of_true hd not_false
    | cons b data =>
      rw [if_neg (List.cons_ne_nil b data)] at hblock
      dsimp only at hblock
      split at hblock
      · next hb2 =>
        obtain ⟨rfl, -⟩ := Prod.mk.inj (Option.some.inj hblock)
        refine iff_of_false (fun hrange => ?_) (not_not.2 hb2)
        have hle : (b2.toNat : ℤ) ≤ 88 := hrange.stepIndex.2
        have hlt : 88 < b2.toNat := UInt8.lt_iff_toNat_lt.1 hb2
        omega
      · next hb2 =>
        obtain ⟨⟨d₁, samples⟩, hbytes, h₁⟩ := Option.bind_eq_some_iff.1 hblock
        obtain ⟨rfl, -⟩ := Prod.mk.inj (Option.some.inj h₁)
        exact iff_of_true (decodeBytes_inRange (header_inRange _ hb2) hbytes) hb2
  · next hshort =>
    obtain ⟨rfl, -⟩ := Prod.mk.inj (Option.some.inj hblock)
    refine iff_of_true hd fun hbad => ?_
    rw [Call.BadIndex.eq_def] at hbad
    split at hbad
    · next heq =>
      obtain rfl := Call.decodeBlock.inj heq
      exact hshort _ _ _ _ _ rfl
    · exact hbad

/-- A call of a decoder in range. -/
theorem step_of_inRange (hd : d.InRange) (call : Call) :
    ∃ d', d.step call = some d' ∧ (d'.InRange ↔ ¬call.BadIndex) := by
  cases call with
  | decodeBlock block =>
    obtain ⟨⟨d', result⟩, hblock⟩ := Option.isSome_iff_exists.1 (decodeBlock_isSome d block)
    have hstep : d.step (.decodeBlock block) = some d' := by rw [step, hblock]; rfl
    exact ⟨d', hstep, step_decodeBlock hd hstep⟩
  | decodeNibble nibble =>
    obtain ⟨d', sample, hnibble, -⟩ := decodeNibble_of_wf hd.stepIndex nibble
    exact ⟨d', by rw [step, hnibble]; rfl, iff_of_true (decodeNibble_inRange hnibble) not_false⟩

theorem run_concat (calls : List Call) (call : Call) :
    run (calls ++ [call]) = (run calls).bind (step · call) := by
  rw [run, List.foldlM_append, ← run]
  simp only [List.foldlM_cons, List.foldlM_nil, bind_pure]
  rfl

/-- Every state of a run is usable, and no call panics, exactly if no block of the run has a bad
    index. -/
theorem usable_iff (calls : List Call) :
    (∀ front, front <+: calls → ∃ d, run front = some d ∧ d.Usable) ↔
      ∀ call ∈ calls, ¬call.BadIndex := by
  induction calls using List.reverseRecOn with
  | nil =>
    refine iff_of_true (fun front hfront => ?_) fun _ h => absurd h List.not_mem_nil
    rw [List.prefix_nil.1 hfront]
    exact ⟨new, rfl, inRange_new.usable⟩
  | append_singleton calls call ih =>
    rw [List.forall_mem_append, List.forall_mem_singleton, ← ih]
    have hlast : (∃ d, run calls = some d ∧ d.Usable) →
        ((∃ d, run (calls ++ [call]) = some d ∧ d.Usable) ↔ ¬call.BadIndex) := by
      rintro ⟨d, hrun, hd⟩
      obtain ⟨d', hstep, hrange⟩ := step_of_inRange hd.inRange call
      rw [run_concat, hrun, Option.bind_some, hstep, ← hrange]
      constructor
      · rintro ⟨_, heq, hd'⟩
        obtain rfl := Option.some.inj heq
        exact hd'.inRange
      · exact fun hd' => ⟨d', rfl, hd'.usable⟩
    simp only [List.prefix_concat_iff]
    constructor
    · intro h
      have hfronts : ∀ front, front <+: calls → ∃ d, run front = some d ∧ d.Usable :=
        fun front hfront => h front (.inr hfront)
      exact ⟨hfronts, (hlast (hfronts calls List.prefix_rfl)).1 (h _ (.inl rfl))⟩
    · rintro ⟨hfronts, hcall⟩ front hfront
      rcases hfront with rfl | hfront
      · exact (hlast (hfronts calls List.prefix_rfl)).2 hcall
      · exact hfronts front hfront

/-- A block is refused for the index 90, and the next nibble panics. -/
theorem refused_not_usable :
    ¬∃ d, run [.decodeBlock [0, 0, 90, 0, 0]] = some d ∧ d.Usable := by
  rintro ⟨d, hrun, hd⟩
  have hrefused : run [.decodeBlock [0, 0, 90, 0, 0]] = some ⟨0, 90⟩ := by decide
  obtain rfl := Option.some.inj (hrun.symm.trans hrefused)
  have hnibble := hd.nibble 0
  revert hnibble
  decide

end Bairelay.AdpcmDecoder
