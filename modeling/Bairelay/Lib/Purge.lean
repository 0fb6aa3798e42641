import Bairelay.Lib.Past

/-!
# Purged runs

A run compared with the one that is left when some of its events are purged. What is
to be purged may depend on the state it happens in (`hidden`), and `view` is what the
purged run should see of a state.

If every step is harmless, in that it changes the view as the step taken in the view
would, or not at all if it is hidden, the purged run ends in the view of where the run
ends (`foldl_purge`). Where harm always shows in what is observed, the runs are
observed to be the same all along if and only if every step is harmless (`forall_obs_iff`).
-/

namespace Purge

variable {σ ε ω : Type*} (step : σ → ε → σ) (hidden : σ → ε → Bool)

/-- The run without the hidden events. -/
def purge (s : σ) : List ε → List ε
  | [] => []
  | e :: es => if hidden s e then purge (step s e) es else e :: purge (step s e) es

variable {step hidden}

/-- One event more is kept unless it is hidden. -/
theorem purge_concat (s : σ) (es : List ε) (e : ε) : purge step hidden s (es ++ [e]) =
    purge step hidden s es ++ if hidden (es.foldl step s) e then [] else [e] := by
  induction es generalizing s with
  | nil => by_cases h : hidden s e <;> simp [purge, h]
  | cons e' es ih =>
    rw [List.cons_append, purge, purge, List.foldl_cons]
    split
    · exact ih _
    · rw [ih, List.cons_append]

/-- Events that are hidden as they are, in whatever state, go, and those that never
    are stay. -/
theorem filter_purge {keep : ε → Bool} {visible : ε → Bool}
    (h : ∀ s e, keep e → hidden s e = !visible e) (s : σ) (es : List ε) :
    (purge step hidden s es).filter keep = (es.filter keep).filter visible := by
  induction es generalizing s with
  | nil => rfl
  | cons e es ih =>
    rw [purge]
    by_cases hkeep : keep e
    · rw [List.filter_cons_of_pos hkeep, h s e hkeep]
      by_cases hvisible : visible e
      · rw [List.filter_cons_of_pos hvisible, ← ih (step s e), hvisible]
        exact List.filter_cons_of_pos hkeep
      · rw [List.filter_cons_of_neg hvisible, ← ih (step s e), Bool.eq_false_iff.2 hvisible]
        rfl
    · rw [List.filter_cons_of_neg hkeep, ← ih (step s e)]
      split
      · rfl
      · exact List.filter_cons_of_neg hkeep

variable {view : σ → σ} {Inv : σ → Prop} {Harmless : σ → ε → Prop} {start : σ}

section

variable (hstart : Inv start) (hinv : ∀ s e, Inv s → Inv (step s e))
  (hstep : ∀ s e, Inv s → Harmless s e →
    view (step s e) = if hidden s e then view s else step (view s) e)

include hstart hinv

/-- An invariant of single steps holds after all of them. -/
theorem inv_foldl (es : List ε) : Inv (es.foldl step start) := by
  induction es using List.reverseRecOn with
  | nil => exact hstart
  | append_singleton es e ih =>
    rw [List.foldl_append]
    exact hinv _ e ih

include hstep

/-- The purged run sees the view of the run. -/
theorem foldl_purge (es : List ε)
    (h : Past.Always (fun before e => Harmless (before.foldl step start) e) es) :
    (purge step hidden start es).foldl step (view start) = view (es.foldl step start) := by
  induction es using List.reverseRecOn with
  | nil => rfl
  | append_singleton es e ih =>
    obtain ⟨hes, he⟩ := Past.always_concat.1 h
    rw [purge_concat, List.foldl_append, ih hes, List.foldl_append]
    change _ = view (step (es.foldl step start) e)
    rw [hstep _ e (inv_foldl hstart hinv es) he]
    split <;> rfl

variable (view) in
/-- The runs are observed to be the same all along exactly if every step is harmless. -/
theorem forall_obs_iff {obs : σ → ω} (hobs : ∀ s, obs (view s) = obs s)
    (hharm : ∀ s e, Inv s →
      obs (step s e) = obs (if hidden s e then view s else step (view s) e) → Harmless s e)
    (es : List ε) :
    (∀ before, before <+: es → obs (before.foldl step start) =
        obs ((purge step hidden start before).foldl step (view start))) ↔
      Past.Always (fun before e => Harmless (before.foldl step start) e) es := by
  constructor
  · intro h
    induction es using List.reverseRecOn with
    | nil => exact Past.always_nil
    | append_singleton es e ih =>
      have hes := ih fun before hb => h before (hb.trans (List.prefix_append es [e]))
      refine Past.always_concat.2 ⟨hes, hharm _ e (inv_foldl hstart hinv es) ?_⟩
      have hlast := h (es ++ [e]) (List.prefix_refl _)
      rw [purge_concat, List.foldl_append, List.foldl_append,
        foldl_purge hstart hinv hstep es hes] at hlast
      refine hlast.trans (congrArg obs ?_)
      split <;> rfl
  · rintro h before ⟨after, rfl⟩
    have hbefore : Past.Always (fun before e => Harmless (before.foldl step start) e) before :=
      fun pre e post hpre => h pre e (post ++ after) (by rw [hpre]; simp)
    rw [foldl_purge hstart hinv hstep before hbefore, hobs]

end

end Purge
