import Mathlib

/-!
# Writing under a lock

Some tasks share a stream. A task writes one message after the other, and each of them in
pieces, under a lock that it takes before the first piece and releases after the last. The
stream may take a piece in parts, and between any two parts other tasks run. A stream that has
failed takes nothing any more.

* `exists_wire`: in every order of the steps, what was written is whole messages, and after
  them a part of one;
* `sent_append_queue`: of every task they are the first ones of its messages, in its order.
-/

namespace Locked

variable {τ μ β : Type*} [DecidableEq τ]

/-- Tasks in front of a lock. -/
structure State (τ μ β : Type*) where
  /-- The messages that a task has not begun. -/
  queue : τ → List μ
  /-- The task that holds the lock, and the pieces that it has still to write. -/
  holder : Option (τ × List (List β)) := none
  /-- What the stream has taken. -/
  wire : List β := []
  /-- The messages that were begun, and by which task. -/
  begun : List (τ × μ) := []
  broken : Bool := false

/-- The steps of the tasks that write. The stream may take a piece in parts. -/
inductive Event (τ : Type*) where
  /-- A task asks for the lock, to write its next message. -/
  | lock (t : τ)
  /-- The stream takes so much of the next piece. -/
  | write (n : ℕ)
  /-- The lock is released, once everything is written. -/
  | unlock
  /-- The stream fails. -/
  | fail
  deriving DecidableEq

/-- What was written of a piece is not written again. -/
def rest (n : ℕ) : List (List β) → List (List β)
  | [] => []
  | piece :: pieces => if piece.length ≤ n then pieces else piece.drop n :: pieces

variable (pieces : μ → List (List β))

/-- One step; what is not enabled changes nothing. -/
def step (s : State τ μ β) (e : Event τ) : State τ μ β :=
  if s.broken then s
  else match e with
  | .lock t =>
    match s.holder, s.queue t with
    | none, m :: later =>
      { s with queue := Function.update s.queue t later, holder := some (t, pieces m),
               begun := s.begun ++ [(t, m)] }
    | _, _ => s
  | .write n =>
    match s.holder with
    | some (t, piece :: left) =>
      { s with holder := some (t, rest n (piece :: left)), wire := s.wire ++ piece.take n }
    | _ => s
  | .unlock =>
    match s.holder with
    | some (_, []) => { s with holder := none }
    | _ => s
  | .fail => { s with broken := true }

/-- Every task with its messages before it. -/
def start (queue : τ → List μ) : State τ μ β := { queue }

/-- The stream after some steps. -/
def run (queue : τ → List μ) (events : List (Event τ)) : State τ μ β :=
  events.foldl (step pieces) (start queue)

theorem run_concat (queue : τ → List μ) (events : List (Event τ)) (e : Event τ) :
    run pieces queue (events ++ [e]) = step pieces (run pieces queue events) e :=
  List.foldl_concat ..

/-- The messages of a task that were begun. -/
def State.sent (s : State τ μ β) (t : τ) : List μ := (s.begun.filter (·.1 = t)).map Prod.snd

/-- What the holder of the lock has still to write. -/
def State.pending (s : State τ μ β) : List β :=
  match s.holder with
  | some (_, left) => left.flatten
  | none => []

/-- A task has written all its messages, and released the lock. -/
def State.Idle (s : State τ μ β) : Prop := s.holder = none ∧ ∀ t, s.queue t = []

/-- What the stream takes, and what is left of it. -/
theorem take_append_flatten_rest (n : ℕ) (piece : List β) (left : List (List β)) :
    piece.take n ++ (rest n (piece :: left)).flatten = piece ++ left.flatten := by
  rw [rest]
  split
  · next h => rw [List.take_of_length_le h]
  · rw [List.flatten_cons, ← List.append_assoc, List.take_append_drop]

/-- What a step can do. -/
inductive Steps (s : State τ μ β) : State τ μ β → Prop
  | idle : Steps s s
  | locked {t : τ} {m : μ} {later : List μ} (hfree : s.holder = none)
      (hqueue : s.queue t = m :: later) :
      Steps s { s with queue := Function.update s.queue t later, holder := some (t, pieces m),
                       begun := s.begun ++ [(t, m)] }
  | written {t : τ} {piece : List β} {left : List (List β)} (n : ℕ)
      (hholder : s.holder = some (t, piece :: left)) :
      Steps s { s with holder := some (t, rest n (piece :: left)),
                       wire := s.wire ++ piece.take n }
  | unlocked {t : τ} (hholder : s.holder = some (t, [])) : Steps s { s with holder := none }
  | failed : Steps s { s with broken := true }

/-- Every step waits, takes the lock, or writes with it. -/
theorem steps_step (s : State τ μ β) (e : Event τ) : Steps pieces s (step pieces s e) := by
  unfold step
  split
  · exact .idle
  · cases e with
    | lock t =>
      dsimp only
      split
      · next hfree hqueue => exact .locked hfree hqueue
      · exact .idle
    | write n =>
      dsimp only
      split
      · next hholder => exact .written n hholder
      · exact .idle
    | unlock =>
      dsimp only
      split
      · next hholder => exact .unlocked hholder
      · exact .idle
    | fail => exact .failed

/-- What is kept along a run from `queue`. -/
structure Inv (queue : τ → List μ) (s : State τ μ β) : Prop where
  /-- What was written and what the holder has still to write are the messages begun. -/
  wire : s.wire ++ s.pending = s.begun.flatMap fun m => (pieces m.2).flatten
  /-- The holder is the task that began the last of them. -/
  holder : ∀ t left, s.holder = some (t, left) → ∃ before m part,
    s.begun = before ++ [(t, m)] ∧ part ++ left.flatten = (pieces m).flatten
  queue : ∀ t, s.sent t ++ s.queue t = queue t

variable {pieces} {queue : τ → List μ} {s s' : State τ μ β}

theorem inv_start : Inv pieces queue (start queue) where
  wire := rfl
  holder t left h := by cases h
  queue t := rfl

/-- One step: only the task with the lock writes, and what it has written is the front of its
    messages. -/
theorem Inv.steps (h : Inv pieces queue s) (hstep : Steps pieces s s') : Inv pieces queue s' := by
  obtain ⟨hwire, hholder, hqueue⟩ := h
  cases hstep with
  | idle => exact ⟨hwire, hholder, hqueue⟩
  | failed => exact ⟨hwire, hholder, hqueue⟩
  | @locked t m later hfree hnext =>
    have hnone : s.pending = [] := by rw [State.pending, hfree]
    rw [hnone, List.append_nil] at hwire
    refine ⟨?_, ?_, ?_⟩
    · rw [State.pending, List.flatMap_append, ← hwire, List.flatMap_singleton]
    · rintro t' left h
      obtain ⟨rfl, rfl⟩ := Prod.mk.inj (Option.some.inj h)
      exact ⟨s.begun, m, [], rfl, rfl⟩
    · intro t'
      rw [← hqueue t']
      by_cases ht : t = t'
      · subst ht
        simp [State.sent, hnext]
      · simp [State.sent, ht, Function.update_of_ne (Ne.symm ht)]
  | @written t piece left n hheld =>
    have hpending : s.pending = piece ++ left.flatten := by rw [State.pending, hheld]; rfl
    obtain ⟨before, m, part, hbegun, hpart⟩ := hholder t _ hheld
    refine ⟨?_, ?_, hqueue⟩
    · dsimp only [State.pending]
      rw [List.append_assoc, take_append_flatten_rest, ← hpending, hwire]
    · rintro t' left' h
      obtain ⟨rfl, rfl⟩ := Prod.mk.inj (Option.some.inj h)
      refine ⟨before, m, part ++ piece.take n, hbegun, ?_⟩
      rw [List.append_assoc, take_append_flatten_rest, ← hpart, List.flatten_cons]
  | @unlocked t hheld =>
    have hpending : s.pending = [] := by rw [State.pending, hheld]; rfl
    rw [hpending] at hwire
    exact ⟨hwire, fun t' left h => (Option.some_ne_none _ h.symm).elim, hqueue⟩

/-- In every run the stream has whole messages, and part of the one of whoever holds the lock. -/
theorem inv_run (pieces : μ → List (List β)) (queue : τ → List μ) (events : List (Event τ)) :
    Inv pieces queue (run pieces queue events) := by
  induction events using List.reverseRecOn with
  | nil => exact inv_start
  | append_singleton events e ih =>
    rw [run_concat]
    exact ih.steps (steps_step _ _ _)

/-- Of every task, the messages begun are its first ones. -/
theorem sent_append_queue (pieces : μ → List (List β)) (queue : τ → List μ)
    (events : List (Event τ)) (t : τ) :
    (run pieces queue events).sent t ++ (run pieces queue events).queue t = queue t :=
  (inv_run pieces queue events).queue t

/-- Whole messages were written, and after them a part of one, but not all of it. -/
theorem exists_wire (pieces : μ → List (List β)) (queue : τ → List μ) (events : List (Event τ)) :
    ∃ whole part, (run pieces queue events).wire =
        whole.flatMap (fun m => (pieces m.2).flatten) ++ part ∧
      ((run pieces queue events).begun = whole ∧ part = [] ∨
        ∃ m left, (run pieces queue events).begun = whole ++ [m] ∧ left ≠ [] ∧
          part ++ left = (pieces m.2).flatten ∧ (run pieces queue events).holder ≠ none) := by
  have hinv := inv_run pieces queue events
  generalize run pieces queue events = s at hinv
  by_cases hpending : s.pending = []
  · refine ⟨s.begun, [], ?_, .inl ⟨rfl, rfl⟩⟩
    rw [List.append_nil, ← hinv.wire, hpending, List.append_nil]
  · cases hheld : s.holder with
    | none => exact absurd (by rw [State.pending, hheld]) hpending
    | some held =>
      obtain ⟨t, left⟩ := held
      have hleft : s.pending = left.flatten := by rw [State.pending, hheld]
      obtain ⟨before, m, part, hbegun, hpart⟩ := hinv.holder t left hheld
      refine ⟨before, part, ?_, .inr
        ⟨(t, m), left.flatten, hbegun, hleft ▸ hpending, hpart, Option.some_ne_none _⟩⟩
      have hwire := hinv.wire
      rw [hbegun, List.flatMap_append, List.flatMap_singleton, ← hpart, hleft,
        ← List.append_assoc] at hwire
      exact List.append_cancel_right hwire

end Locked
