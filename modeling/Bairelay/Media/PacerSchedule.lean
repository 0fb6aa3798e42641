import Bairelay.Media.Pacer

/-!
# The schedule of a pacer

The turns of `media_pacer_task`: in each, an item is taken from the queue and its target is set,
from the cursor that the turn before has left. Whatever arrives when, and however long the task is
held up:

* `scheduled_turns`: the targets depend on the items and the times at which they are taken only;
* `schedule_sound`: they follow the durations of the items, but where the cursor is moved.
-/

namespace Bairelay

variable {α : Type}

namespace Pacer

/-- What a pacer does: frames come in, are taken, and go out. -/
inductive Event (α : Type) where
  | trySend (item : PacedFrame α)
  | recv (now : Instant)
  | emit (now : Instant)
  | exit
  deriving DecidableEq, Repr

/-- One of its steps. -/
def step (config : PacerConfig) (pacer : Pacer α) : Event α → Pacer α
  | .trySend item => pacer.trySend config item
  | .recv now => pacer.recv config now
  | .emit now => (pacer.emit now).1
  | .exit => pacer.exit

/-- An item, when it was taken from the queue, and when it is to be emitted. -/
structure Turn (α : Type) where
  item : PacedFrame α
  taken : Instant
  target : Instant
  deriving DecidableEq, Repr

/-- When the item goes out: at its target, or at once if that has passed. -/
def Turn.emitAt (turn : Turn α) : Instant := max turn.target turn.taken

/-- The item that an event puts into the queue. -/
def queued? (config : PacerConfig) (pacer : Pacer α) : Event α → Option (PacedFrame α)
  | .trySend item => if pacer.Refuses config then none else some item
  | .recv _ | .emit _ | .exit => none

/-- The turn that an event begins. -/
def turn? (config : PacerConfig) (pacer : Pacer α) : Event α → Option (Turn α)
  | .recv now =>
    match pacer.exited, pacer.held, pacer.queue with
    | false, none, item :: _ => some ⟨item, now, config.nextTarget pacer.nextEmitAt now⟩
    | _, _, _ => none
  | .trySend _ | .emit _ | .exit => none

/-- The frame that an event emits. -/
def emitted? (pacer : Pacer α) : Event α → Option α
  | .emit now => (pacer.emit now).2
  | .trySend _ | .recv _ | .exit => none

/-- What the events of a run give, one after the other. -/
def collect {β : Type} (config : PacerConfig) (f : Pacer α → Event α → Option β) :
    Pacer α → List (Event α) → List β
  | _, [] => []
  | pacer, e :: events => (f pacer e).toList ++ collect config f (pacer.step config e) events

/-- The frames that were let in, in order. -/
def queued (config : PacerConfig) : Pacer α → List (Event α) → List (PacedFrame α) :=
  collect config (queued? config)

/-- The turns of the task, one for each frame it has taken. -/
def turns (config : PacerConfig) : Pacer α → List (Event α) → List (Turn α) :=
  collect config (turn? config)

/-- The frames that went out. -/
def emitted (config : PacerConfig) : Pacer α → List (Event α) → List α :=
  collect config emitted?

variable {config : PacerConfig} {pacer : Pacer α} {events : List (Event α)} {e : Event α}

/-! ## The order of the queue -/

/-- What is collected may be mapped before or after. -/
theorem collect_map {β γ : Type} (config : PacerConfig) (f : Pacer α → Event α → Option β)
    (h : β → γ) (pacer : Pacer α) (events : List (Event α)) :
    collect config (fun pacer e => (f pacer e).map h) pacer events =
      (collect config f pacer events).map h := by
  induction events generalizing pacer with
  | nil => rfl
  | cons e events ih => rw [collect, collect, ih, List.map_append, Option.toList_map]

/-- Nothing is taken or emitted when the task is gone. -/
theorem step_exit (config : PacerConfig) (pacer : Pacer α) (e : Event α) :
    pacer.exit.step config e = pacer.exit ∧ turn? config pacer.exit e = none ∧
      emitted? pacer.exit e = none := by
  cases e with
  | trySend item =>
    refine ⟨?_, rfl, rfl⟩
    rw [step, trySend, if_pos (.inl rfl)]
  | recv now => exact ⟨rfl, rfl, rfl⟩
  | emit now => exact ⟨rfl, rfl, rfl⟩
  | exit => exact ⟨rfl, rfl, rfl⟩

theorem collect_exit {β : Type} {f : Pacer α → Event α → Option β}
    (hf : ∀ pacer e, f (exit pacer) e = none) (pacer : Pacer α) (events : List (Event α)) :
    collect config f pacer.exit events = [] := by
  induction events with
  | nil => rfl
  | cons e events ih => rw [collect, hf, (step_exit config pacer e).1, ih, Option.toList_none,
      List.append_nil]

/-- If each event takes from the front of what is there, then so does a run, from what is there and
    what comes in. -/
theorem collect_prefix_of_step {β : Type} {f g : Pacer α → Event α → Option β}
    {rest : Pacer α → List β}
    (hstep : ∀ pacer e, e ≠ .exit → (f pacer e).toList ++ rest (pacer.step config e) =
      rest pacer ++ (g pacer e).toList)
    (hexit : ∀ pacer, f pacer .exit = none) (hf : ∀ pacer e, f (exit pacer) e = none)
    (pacer : Pacer α) (events : List (Event α)) :
    collect config f pacer events <+: rest pacer ++ collect config g pacer events := by
  induction events generalizing pacer with
  | nil => exact List.nil_prefix
  | cons e events ih =>
    rw [collect, collect]
    by_cases he : e = .exit
    · -- What was waiting is lost.
      rw [he, hexit, step, collect_exit hf]
      exact List.nil_prefix
    · rw [← List.append_assoc, ← hstep pacer e he, List.append_assoc]
      exact (List.prefix_append_right_inj _).2 (ih _)

/-- The task takes an item, and begins a turn with it, or nothing changes. -/
theorem recv_cases (config : PacerConfig) (pacer : Pacer α) (now : Instant) :
    (∃ item queue, pacer.held = none ∧ pacer.queue = item :: queue ∧
      turn? config pacer (.recv now) =
        some ⟨item, now, config.nextTarget pacer.nextEmitAt now⟩ ∧
      pacer.step config (.recv now) = { pacer with
        queue, held := some (item, config.nextTarget pacer.nextEmitAt now) }) ∨
    turn? config pacer (.recv now) = none ∧ pacer.step config (.recv now) = pacer := by
  rw [step, recv, turn?]
  cases hexited : pacer.exited with
  | true => exact .inr ⟨rfl, rfl⟩
  | false =>
    cases hheld : pacer.held with
    | some held => exact .inr ⟨rfl, rfl⟩
    | none =>
      cases hqueue : pacer.queue with
      | nil => exact .inr ⟨rfl, rfl⟩
      | cons item queue => exact .inl ⟨item, queue, rfl, rfl, rfl, rfl⟩

/-- Frames are taken in the order in which they were let in. -/
theorem turns_prefix_queued (config : PacerConfig) (pacer : Pacer α) (events : List (Event α)) :
    (turns config pacer events).map Turn.item <+: pacer.queue ++ queued config pacer events := by
  rw [turns, ← collect_map]
  refine collect_prefix_of_step (fun pacer e he => ?_) (fun pacer => rfl)
    (fun pacer e => ?_) pacer events
  · cases e with
    | exit => exact absurd rfl he
    | trySend item =>
      rw [turn?, queued?, step, trySend]
      split
      · simp
      · simp
    | emit now =>
      rw [turn?, queued?, step, emit]
      split
      · split <;> simp
      · simp
    | recv now =>
      rcases recv_cases config pacer now with
        ⟨item, queue, -, hqueue, hturn, hstep⟩ | ⟨hnone, hsame⟩
      · rw [hturn, hstep, hqueue, queued?]
        simp
      · rw [hnone, hsame, queued?]
        simp
  · rw [(step_exit config pacer e).2.1, Option.map_none]

/-- Frames go out in the order in which they were let in. -/
theorem emitted_prefix_queued (config : PacerConfig) (pacer : Pacer α) (events : List (Event α)) :
    emitted config pacer events <+:
      pacer.waiting ++ (queued config pacer events).map PacedFrame.frame := by
  rw [queued, ← collect_map]
  refine collect_prefix_of_step (fun pacer e he => ?_) (fun pacer => rfl)
    (fun pacer e => (step_exit config pacer e).2.2) pacer events
  cases e with
  | exit => exact absurd rfl he
  | trySend item =>
    rw [emitted?, queued?, step]
    by_cases hrefuses : pacer.Refuses config
    · simp [waiting_trySend_of_refuses hrefuses, hrefuses]
    · simp [waiting_trySend_of_not_refuses hrefuses, hrefuses]
  | emit now => simpa [emitted?, queued?, step] using emit_waiting pacer now
  | recv now => simp [emitted?, queued?, step, waiting_recv]

/-! ## Targets -/

/-- Each target is the next one behind the cursor, which the turn before has left. -/
def Scheduled (config : PacerConfig) : Option Instant → List (Turn α) → Prop
  | _, [] => True
  | cursor, turn :: turns => turn.target = config.nextTarget cursor turn.taken ∧
      Scheduled config (some (turn.target + turn.item.duration)) turns

/-- The cursor that the next turn finds. -/
def cursor (pacer : Pacer α) : Option Instant :=
  match pacer.held with
  | some (item, target) => some (target + item.duration)
  | none => pacer.nextEmitAt

/-- The targets of the turns follow one another by the rule of the pacer. -/
theorem scheduled_turns (config : PacerConfig) (pacer : Pacer α) (events : List (Event α)) :
    Scheduled config pacer.cursor (turns config pacer events) := by
  induction events generalizing pacer with
  | nil => trivial
  | cons e events ih =>
    have hnext := ih (pacer.step config e)
    rw [turns, collect, ← turns]
    cases e with
    | trySend item =>
      rw [turn?, Option.toList_none, List.nil_append]
      have hcursor : (pacer.step config (.trySend item)).cursor = pacer.cursor := by
        rw [step, trySend]
        split <;> rfl
      rwa [hcursor] at hnext
    | emit now =>
      rw [turn?, Option.toList_none, List.nil_append]
      have hcursor : (pacer.step config (.emit now)).cursor = pacer.cursor := by
        rw [step, emit]
        split
        · next item target hheld =>
          split
          · rw [cursor, cursor, hheld]
          · rfl
        · rfl
      rwa [hcursor] at hnext
    | exit =>
      rw [turn?, Option.toList_none, List.nil_append, step, turns,
        collect_exit fun pacer e => (step_exit config pacer e).2.1]
      trivial
    | recv now =>
      rcases recv_cases config pacer now with ⟨item, queue, hheld, -, hturn, hstep⟩ | ⟨hnone, hsame⟩
      · rw [hturn, hstep, Option.toList_some, List.singleton_append]
        rw [hstep, cursor] at hnext
        refine ⟨?_, hnext⟩
        rw [cursor, hheld]
      · rw [hnone, hsame, Option.toList_none, List.nil_append]
        rwa [hsame] at hnext

/-- The cursor is too far ahead when `b` is taken. -/
def LeadReanchor (config : PacerConfig) (a b : Turn α) : Prop :=
  b.taken + config.maxLead < a.target + a.item.duration

/-- The cursor has passed when `b` is taken, and is moved. -/
def Snap (config : PacerConfig) (a b : Turn α) : Prop :=
  config.snapOnPast = true ∧ a.target + a.item.duration < b.taken

instance (config : PacerConfig) (a b : Turn α) : Decidable (LeadReanchor config a b) :=
  inferInstanceAs (Decidable (_ < _))

variable {ts : List (Turn α)} {first a b : Turn α} {cur : Option Instant}

/-- A turn and the next one. -/
def Successive (ts : List (Turn α)) (a b : Turn α) : Prop := [a, b] <:+: ts

/-- What comes later is scheduled from some cursor on. -/
theorem Scheduled.of_append {before after : List (Turn α)}
    (h : Scheduled config cur (before ++ after)) : ∃ cur', Scheduled config cur' after := by
  induction before generalizing cur with
  | nil => exact ⟨cur, h⟩
  | cons turn before ih => exact ih h.2

theorem Scheduled.of_prefix {before after : List (Turn α)}
    (h : Scheduled config cur (before ++ after)) : Scheduled config cur before := by
  induction before generalizing cur with
  | nil => trivial
  | cons turn before ih => exact ⟨h.1, ih h.2⟩

/-- The target of a turn is that which the last turn's asks for. -/
theorem Scheduled.successive (h : Scheduled config cur ts) (hab : Successive ts a b) :
    b.target = config.nextTarget (some (a.target + a.item.duration)) b.taken := by
  obtain ⟨before, after, rfl⟩ := hab
  rw [List.append_assoc] at h
  obtain ⟨cur', h'⟩ := h.of_append
  exact h'.2.1

/-- As long as the lead is not too great, targets are a duration apart, unless one is missed. -/
theorem nextTarget_of_not_lead (hlead : ¬LeadReanchor config a b) :
    config.nextTarget (some (a.target + a.item.duration)) b.taken =
      if config.snapOnPast ∧ a.target + a.item.duration < b.taken then b.taken
      else a.target + a.item.duration := by
  rw [LeadReanchor] at hlead
  exact if_neg hlead

/-- Where the cursor is not moved, one item follows the other by its duration. -/
theorem Scheduled.target_eq (h : Scheduled config cur ts) (hab : Successive ts a b)
    (hlead : ¬LeadReanchor config a b) (hsnap : ¬Snap config a b) :
    b.target = a.target + a.item.duration := by
  rw [h.successive hab, nextTarget_of_not_lead hlead]
  exact if_neg hsnap

/-- No target is further ahead than the greatest lead. -/
theorem nextTarget_le (config : PacerConfig) (t now : ℕ) :
    config.nextTarget (some t) now ≤ now + config.maxLead := by
  rw [PacerConfig.nextTarget]
  split
  · exact Nat.le_add_right _ _
  next hlead =>
    split
    · exact Nat.le_add_right _ _
    · exact not_lt.1 hlead

/-- Where missed targets are snapped, none is in the past. -/
theorem le_nextTarget (hsnap : config.snapOnPast = true) (cur : Option Instant) (now : Instant) :
    now ≤ config.nextTarget cur now := by
  cases cur with
  | none => exact Nat.le_add_right _ _
  | some t =>
    rw [PacerConfig.nextTarget]
    split
    · exact le_rfl
    · split
      · exact le_rfl
      · next hpast => exact not_lt.1 fun hlt => hpast ⟨hsnap, hlt⟩

/-- An item that is not the first one waits for the longest lead at most. -/
theorem Scheduled.target_le {before after : List (Turn α)} {turn : Turn α}
    (h : Scheduled config cur (before ++ turn :: after)) (hne : before ≠ []) :
    turn.target ≤ turn.taken + config.maxLead := by
  obtain ⟨before, a, rfl⟩ := List.eq_nil_or_concat before |>.resolve_left hne
  have hsuccessive : Successive (before.concat a ++ turn :: after) a turn :=
    ⟨before, after, by simp⟩
  rw [h.successive hsuccessive]
  exact nextTarget_le config _ _

/-- Without snaps, the targets add up from one lead re-anchor to the next. -/
theorem Scheduled.target_eq_sum (hsnap : config.snapOnPast = false) {rest : List (Turn α)}
    (h : Scheduled config cur (first :: rest))
    (hlead : (first :: rest).IsChain fun a b => ¬LeadReanchor config a b) :
    ∀ i (hi : i < rest.length), rest[i].target =
      first.target + (((first :: rest).take (i + 1)).map (·.item.duration)).sum := by
  induction rest generalizing first cur with
  | nil => exact fun i hi => absurd hi (Nat.not_lt_zero i)
  | cons turn rest ih =>
    obtain ⟨hfirst, hrest⟩ := List.isChain_cons_cons.1 hlead
    have hnext : turn.target = first.target + first.item.duration := by
      refine h.target_eq ⟨[], rest, rfl⟩ hfirst fun hs => ?_
      rw [Snap, hsnap] at hs
      cases hs.1
    intro i hi
    cases i with
    | zero => simpa using hnext
    | succ i =>
      rw [List.getElem_cons_succ, ih h.2 hrest i (Nat.lt_of_succ_lt_succ hi), hnext,
        List.take_succ_cons, List.map_cons, List.sum_cons]
      exact Nat.add_assoc _ _ _

/-- With snaps, an item goes out at its target. -/
theorem Scheduled.emitAt_eq (hsnap : config.snapOnPast = true) {before after : List (Turn α)}
    {turn : Turn α} (h : Scheduled config cur (before ++ turn :: after)) :
    turn.emitAt = turn.target := by
  obtain ⟨cur', h'⟩ := h.of_append
  rw [Turn.emitAt, max_eq_left]
  rw [h'.1]
  exact le_nextTarget hsnap _ _

/-- With snaps, two items are not closer than the duration of the first one. -/
theorem Scheduled.spaced (hsnap : config.snapOnPast = true) (h : Scheduled config cur ts)
    (hab : Successive ts a b) (hlead : ¬LeadReanchor config a b) :
    a.emitAt + a.item.duration ≤ b.emitAt := by
  have htarget := h.successive hab
  obtain ⟨before, after, rfl⟩ := hab
  rw [List.append_assoc] at h
  have ha : a.emitAt = a.target :=
    @Scheduled.emitAt_eq _ _ _ hsnap before (b :: after) a h
  rw [ha, Turn.emitAt, htarget, nextTarget_of_not_lead hlead]
  refine le_trans ?_ (le_max_left _ _)
  split
  · next hpast => exact hpast.2.le
  · exact le_rfl

/-- The turns of a task from its start on. -/
def schedule (config : PacerConfig) (events : List (Event α)) : List (Turn α) :=
  turns config {} events

/-- The schedule of a pacer, for any items and any times at which they are sent, taken and
    emitted. -/
theorem schedule_sound (config : PacerConfig) (events : List (Event α)) :
    ((schedule config events).map Turn.item <+: queued config {} events ∧
      emitted config {} events <+: (queued config {} events).map PacedFrame.frame) ∧
    (∀ a b, Successive (schedule config events) a b → ¬LeadReanchor config a b →
      ¬Snap config a b → b.target = a.target + a.item.duration) ∧
    (∀ before turn after, schedule config events = before ++ turn :: after →
      (before = [] → turn.target = turn.taken + config.initialLatency) ∧
      (before ≠ [] → turn.target ≤ turn.taken + config.maxLead)) ∧
    (config.snapOnPast = false → ∀ first rest, first :: rest <:+: schedule config events →
      ((first :: rest).IsChain fun a b => ¬LeadReanchor config a b) →
      ∀ i (hi : i < rest.length), rest[i].target =
        first.target + (((first :: rest).take (i + 1)).map (·.item.duration)).sum) ∧
    (config.snapOnPast = true → ∀ a b, Successive (schedule config events) a b →
      ¬LeadReanchor config a b → a.emitAt + a.item.duration ≤ b.emitAt) := by
  have h : Scheduled config none (schedule config events) := scheduled_turns config {} events
  refine ⟨⟨turns_prefix_queued config {} events, emitted_prefix_queued config {} events⟩,
    fun a b => h.target_eq, fun before turn after hturns => ?_, ?_,
    fun hsnap a b => h.spaced hsnap⟩
  · rw [hturns] at h
    refine ⟨?_, h.target_le⟩
    rintro rfl
    exact h.1
  · rintro hsnap first rest ⟨before, after, hturns⟩ hlead
    rw [← hturns, List.append_assoc] at h
    obtain ⟨cur', h'⟩ := h.of_append
    exact Scheduled.target_eq_sum hsnap h'.of_prefix hlead

/-- A second item comes after a break, and a third one right behind it. -/
def afterBreak : List (Event ℕ) :=
  [.trySend ⟨1, 20⟩, .recv 0, .emit 500000000, .trySend ⟨2, 20⟩, .recv 900000000,
    .emit 900000000, .trySend ⟨3, 20⟩, .recv 900000001]

theorem schedule_afterBreak :
    (schedule .audio afterBreak).map Turn.target = [500000000, 900000000, 900000020] ∧
      900000000 + 20 ≤ Turn.emitAt (⟨⟨3, 20⟩, 900000001, 900000020⟩ : Turn ℕ) :=
  ⟨by decide, (schedule_sound .audio afterBreak).2.2.2.2 rfl ⟨⟨2, 20⟩, 900000000, 900000000⟩ _
    ⟨[⟨⟨1, 20⟩, 0, 500000000⟩], [], by decide⟩ (by decide)⟩

end Pacer

end Bairelay
