import Bairelay.Basic

/-!
# Pacing

A camera delivers frames in bursts. The pacer of `stream_source.rs` takes them
from a bounded queue and emits each at its target, one duration after the target
of the previous one: the schedule is absolute, so that delays do not add up.

The task is a sequence of steps that other tasks interleave with: it takes an
item (`recv`) and holds it until its target, then it emits it (`emit`). What it
has not emitted is `waiting`, in order; every step keeps that order.
-/

namespace Bairelay

/-- The parameters of a pacer and its queue. -/
structure PacerConfig where
  queue : ℕ
  maxLead : Duration
  initialLatency : Duration
  snapOnPast : Bool
  deriving DecidableEq, Repr

/-- `audio_pacer_task`. -/
def PacerConfig.audio : PacerConfig where
  queue := 200
  maxLead := Duration.ofMillis 2000
  initialLatency := Duration.ofMillis 500
  snapOnPast := true

/-- `video_pacer_task`. -/
def PacerConfig.video : PacerConfig where
  queue := 300
  maxLead := Duration.ofMillis 3000
  initialLatency := Duration.ofMillis 1500
  snapOnPast := false

/-- Where the cursor lands for the next item. The first item waits for the initial
    latency; a cursor too far ahead snaps back; one in the past stands unless the
    pacer is to snap, and the items it owes are emitted at once. -/
def PacerConfig.nextTarget (config : PacerConfig) (cursor : Option Instant) (now : Instant) :
    Instant :=
  match cursor with
  | some t =>
    if now + config.maxLead < t then now
    else if config.snapOnPast ∧ t < now then now
    else t
  | none => now + config.initialLatency

variable {α : Type}

/-- An item queued for paced emission. -/
structure PacedFrame (α : Type) where
  frame : α
  duration : Duration
  deriving DecidableEq, Repr

/-- `media_pacer_task` and the queue it reads: the items sent and not taken, the one
    held until its target, and the cursor. -/
structure Pacer (α : Type) where
  queue : List (PacedFrame α) := []
  held : Option (PacedFrame α × Instant) := none
  nextEmitAt : Option Instant := none
  exited : Bool := false
  deriving DecidableEq, Repr

namespace Pacer

/-- Whether the queue takes no item: it is full, or the task is gone. -/
def Refuses (config : PacerConfig) (pacer : Pacer α) : Prop :=
  pacer.exited ∨ config.queue ≤ pacer.queue.length

instance (config : PacerConfig) (pacer : Pacer α) : Decidable (pacer.Refuses config) :=
  inferInstanceAs (Decidable (_ ∨ _))

/-- Send an item, dropping it if the queue takes none. -/
def trySend (config : PacerConfig) (pacer : Pacer α) (item : PacedFrame α) : Pacer α :=
  if pacer.Refuses config then pacer else { pacer with queue := pacer.queue ++ [item] }

/-- Take the next item, and set its target. -/
def recv (config : PacerConfig) (pacer : Pacer α) (now : Instant) : Pacer α :=
  match pacer.exited, pacer.held, pacer.queue with
  | false, none, item :: queue =>
    { pacer with queue, held := some (item, config.nextTarget pacer.nextEmitAt now) }
  | _, _, _ => pacer

/-- Emit the item held, if its target has come. -/
def emit (pacer : Pacer α) (now : Instant) : Pacer α × Option α :=
  match pacer.held with
  | some (item, target) =>
    if target ≤ now then
      ({ pacer with held := none, nextEmitAt := some (target + item.duration) }, some item.frame)
    else (pacer, none)
  | none => (pacer, none)

/-- The task is cancelled. What waits is lost. -/
def exit (pacer : Pacer α) : Pacer α := { pacer with queue := [], held := none, exited := true }

/-- What was sent and not emitted. -/
def waiting (pacer : Pacer α) : List α :=
  pacer.held.toList.map (·.1.frame) ++ pacer.queue.map (·.frame)

variable {config : PacerConfig} {pacer : Pacer α}

theorem waiting_trySend_of_refuses (h : pacer.Refuses config) (item : PacedFrame α) :
    (pacer.trySend config item).waiting = pacer.waiting := by
  rw [trySend, if_pos h]

theorem waiting_trySend_of_not_refuses (h : ¬pacer.Refuses config) (item : PacedFrame α) :
    (pacer.trySend config item).waiting = pacer.waiting ++ [item.frame] := by
  rw [trySend, if_neg h, waiting, waiting, List.map_append, List.append_assoc]
  rfl

/-- Taking a frame to pace it leaves it waiting. -/
theorem waiting_recv (config : PacerConfig) (pacer : Pacer α) (now : Instant) :
    (pacer.recv config now).waiting = pacer.waiting := by
  rw [recv]
  split
  · next item queue hexited hheld hqueue =>
    rw [waiting, waiting, hheld, hqueue]
    rfl
  · rfl

/-- What is emitted is the first of what waits. -/
theorem emit_waiting (pacer : Pacer α) (now : Instant) :
    (pacer.emit now).2.toList ++ (pacer.emit now).1.waiting = pacer.waiting := by
  rw [emit]
  split
  · next item target hheld =>
    split
    · rw [waiting, waiting, hheld]
      rfl
    · rfl
  · rfl

theorem waiting_exit (pacer : Pacer α) : pacer.exit.waiting = [] := rfl

end Pacer

end Bairelay
