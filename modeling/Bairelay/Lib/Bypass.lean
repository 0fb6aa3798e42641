import Mathlib

/-!
# A queue with a bypass

Tickets are issued in order. A ticket waits in a first-in first-out queue, is
turned away, or is served at once, past the queue. Tickets are served in the
order in which they are issued as long as nothing bypasses a ticket that waits.

* `Line.InOrder.step`, `Line.Wf.not_inOrder_of_overtakes`: what an action does to
  the order;
* `Tracks.inOrder_iff`: a system that acts on a queue serves in order, and will
  do so, throughout a run exactly if the run never bypasses a waiting ticket.
-/

namespace Bypass

/-- The tickets issued (their number), waiting and served. -/
structure Line where
  issued : ℕ
  waiting : List ℕ
  served : List ℕ
  deriving DecidableEq, Repr

/-- What can happen to a ticket, or, for `clear`, to all that wait. -/
inductive Action where
  | enter
  | turnAway
  | bypass
  | serve
  | clear
  deriving DecidableEq, Repr

namespace Line

/-- A step of the line, with the ticket of whoever comes numbered in order. -/
def step (l : Line) : Action → Line
  | .enter => { l with issued := l.issued + 1, waiting := l.waiting ++ [l.issued] }
  | .turnAway => { l with issued := l.issued + 1 }
  | .bypass => { l with issued := l.issued + 1, served := l.served ++ [l.issued] }
  | .serve => { l with waiting := l.waiting.drop 1, served := l.served ++ l.waiting.take 1 }
  | .clear => { l with waiting := [] }

/-- The action serves a ticket past one that waits. -/
def Overtakes (l : Line) (a : Action) : Prop := a = .bypass ∧ l.waiting ≠ []

/-- The tickets served, followed by those that will be, are in order. -/
def InOrder (l : Line) : Prop := (l.served ++ l.waiting).Pairwise (· < ·)

instance : DecidablePred InOrder := fun _ => inferInstanceAs (Decidable (List.Pairwise _ _))

/-- Only tickets that were issued are around. -/
def Wf (l : Line) : Prop := ∀ t ∈ l.served ++ l.waiting, t < l.issued

variable {l : Line}

/-- One step issues at most one ticket, and moves only tickets that were issued. -/
theorem Wf.step (h : l.Wf) (a : Action) : (l.step a).Wf := by
  intro t ht
  cases a with
  | enter =>
    rw [Line.step, ← List.append_assoc, List.mem_append, List.mem_singleton] at ht
    rcases ht with ht | rfl
    · exact Nat.lt_succ_of_lt (h t ht)
    · exact Nat.lt_succ_self _
  | turnAway => exact Nat.lt_succ_of_lt (h t ht)
  | bypass =>
    simp only [Line.step, List.mem_append, List.mem_singleton] at ht
    rcases ht with (ht | rfl) | ht
    · exact Nat.lt_succ_of_lt (h t (List.mem_append_left _ ht))
    · exact Nat.lt_succ_self _
    · exact Nat.lt_succ_of_lt (h t (List.mem_append_right _ ht))
  | serve =>
    refine h t ?_
    rwa [Line.step, List.append_assoc, List.take_append_drop] at ht
  | clear =>
    rw [Line.step, List.append_nil] at ht
    exact h t (List.mem_append_left _ ht)

/-- The next ticket goes to the end. -/
theorem Wf.pairwise_concat (h : l.Wf) (hord : l.InOrder) :
    (l.served ++ l.waiting ++ [l.issued]).Pairwise (· < ·) := by
  refine List.pairwise_append.2 ⟨hord, List.pairwise_singleton _ _, fun t ht t' ht' => ?_⟩
  obtain rfl := List.mem_singleton.1 ht'
  exact h t ht

/-- Every action keeps the order, if it does not overtake. -/
theorem InOrder.step (hord : l.InOrder) (h : l.Wf) {a : Action} (ha : ¬l.Overtakes a) :
    (l.step a).InOrder := by
  cases a with
  | enter =>
    rw [InOrder, Line.step, ← List.append_assoc]
    exact h.pairwise_concat hord
  | turnAway => exact hord
  | bypass =>
    have hnil : l.waiting = [] := by
      by_contra hne
      exact ha ⟨rfl, hne⟩
    have hconcat := h.pairwise_concat hord
    rw [hnil, List.append_nil] at hconcat
    rwa [InOrder, Line.step, hnil, List.append_nil]
  | serve =>
    rwa [InOrder, Line.step, List.append_assoc, List.take_append_drop]
  | clear =>
    rw [InOrder, Line.step, List.append_nil]
    exact hord.sublist (List.sublist_append_left _ _)

/-- A ticket that overtakes is out of order. -/
theorem Wf.not_inOrder_of_overtakes (h : l.Wf) {a : Action} (ha : l.Overtakes a) :
    ¬(l.step a).InOrder := by
  obtain ⟨rfl, hne⟩ := ha
  obtain ⟨t, ht⟩ := List.exists_mem_of_ne_nil _ hne
  intro hord
  have hlt : l.issued < t :=
    (List.pairwise_append.1 hord).2.2 l.issued (List.mem_append_right _ (List.mem_singleton_self _))
      t ht
  exact Nat.lt_asymm hlt (h t (List.mem_append_right _ ht))

end Line

/-! ## Systems -/

/-- A system whose steps act on a queue, at most once each. -/
structure Tracks {σ ε : Type*} (step : σ → ε → σ) (line : σ → Line)
    (action? : σ → ε → Option Action) : Prop where
  line_step : ∀ s e, line (step s e) = (action? s e).elim (line s) (line s).step

namespace Tracks

variable {σ ε : Type*} {step : σ → ε → σ} {line : σ → Line} {action? : σ → ε → Option Action}

/-- The step serves a ticket past one that waits. -/
def Overtakes (line : σ → Line) (action? : σ → ε → Option Action) (s : σ) (e : ε) : Prop :=
  ∃ a, action? s e = some a ∧ (line s).Overtakes a

theorem wf_run (h : Tracks step line action?) {s : σ} (hwf : (line s).Wf) (events : List ε) :
    (line (events.foldl step s)).Wf := by
  induction events generalizing s with
  | nil => exact hwf
  | cons e events ih =>
    refine ih ?_
    rw [h.line_step]
    cases action? s e with
    | none => exact hwf
    | some a => exact hwf.step a

/-- One step keeps the order exactly if it does not overtake. -/
theorem inOrder_step_iff (h : Tracks step line action?) {s : σ} (hwf : (line s).Wf)
    (hord : (line s).InOrder) (e : ε) :
    (line (step s e)).InOrder ↔ ¬Overtakes line action? s e := by
  rw [h.line_step]
  constructor
  · rintro hnext ⟨a, ha, hover⟩
    rw [ha] at hnext
    exact hwf.not_inOrder_of_overtakes hover hnext
  · intro hnot
    cases ha : action? s e with
    | none => exact hord
    | some a => exact hord.step hwf fun hover => hnot ⟨a, ha, hover⟩

/-- The order holds throughout a run exactly if no step of it overtakes. -/
theorem inOrder_iff (h : Tracks step line action?) {s : σ} (hwf : (line s).Wf)
    (hord : (line s).InOrder) (events : List ε) :
    (∀ past, past <+: events → (line (past.foldl step s)).InOrder) ↔
      ∀ past e, past ++ [e] <+: events → ¬Overtakes line action? (past.foldl step s) e := by
  constructor
  · intro hall past e hpre hover
    have hbefore := hall past ((List.prefix_append _ _).trans hpre)
    have hafter := hall (past ++ [e]) hpre
    rw [List.foldl_concat] at hafter
    exact (h.inOrder_step_iff (h.wf_run hwf past) hbefore e).1 hafter hover
  · intro hnever past
    -- Induction on the events so far, from their end.
    induction past using List.reverseRecOn with
    | nil => exact fun _ => hord
    | append_singleton past e ih =>
      intro hpre
      rw [List.foldl_concat]
      have hbefore := ih ((List.prefix_append _ _).trans hpre)
      exact (h.inOrder_step_iff (h.wf_run hwf past) hbefore e).2 (hnever past e hpre)

end Tracks

end Bypass
