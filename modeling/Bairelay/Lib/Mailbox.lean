import Mathlib

/-!
# Mailboxes

A channel with room for so many messages, seen from its receiving end: what waits in it, and
what was taken from it. A message that finds no room is dropped by the sender (`trySend`), and
so is one for a receiver that is gone.

* `contents_trySend`, `contents_take`: what was ever let in is what was taken and what waits, in
  this order.
-/

/-- A channel with room for `capacity` messages. -/
@[ext]
structure Mailbox (capacity : ℕ) (μ : Type*) where
  queue : List μ
  received : List μ
  closed : Bool
  bounded : queue.length ≤ capacity

namespace Mailbox

variable {capacity : ℕ} {μ : Type*}

/-- A mailbox that nobody has written to. -/
def empty : Mailbox capacity μ := ⟨[], [], false, Nat.zero_le _⟩

/-- Everything that was let in. -/
def contents (b : Mailbox capacity μ) : List μ := b.received ++ b.queue

/-- Whether another message is let in. -/
def HasRoom (b : Mailbox capacity μ) : Prop := b.closed = false ∧ b.queue.length < capacity

instance (b : Mailbox capacity μ) : Decidable b.HasRoom := inferInstanceAs (Decidable (_ ∧ _))

/-- Put a message in, if the mailbox is open and has room; else it is lost. -/
def trySend (b : Mailbox capacity μ) (m : μ) : Mailbox capacity μ :=
  if h : b.HasRoom then
    { b with
      queue := b.queue ++ [m]
      bounded := by rw [List.length_append, List.length_singleton]; exact h.2 }
  else b

/-- The receiver takes the message that has waited longest. -/
def take (b : Mailbox capacity μ) : Mailbox capacity μ where
  queue := b.queue.tail
  received := b.received ++ b.queue.head?.toList
  closed := b.closed
  bounded := le_trans b.queue.tail_sublist.length_le b.bounded

/-- The receiver goes. -/
def close (b : Mailbox capacity μ) : Mailbox capacity μ := { b with closed := true }

@[simp]
theorem contents_empty : (empty : Mailbox capacity μ).contents = [] := rfl

@[simp]
theorem closed_empty : (empty : Mailbox capacity μ).closed = false := rfl

/-- Taking a message moves it from what waits to what was received. -/
@[simp]
theorem contents_take (b : Mailbox capacity μ) : b.take.contents = b.contents := by
  have hqueue : b.queue.head?.toList ++ b.queue.tail = b.queue := by cases b.queue <;> rfl
  rw [contents, take, contents]
  dsimp only
  rw [List.append_assoc, hqueue]

@[simp]
theorem closed_take (b : Mailbox capacity μ) : b.take.closed = b.closed := rfl

@[simp]
theorem contents_close (b : Mailbox capacity μ) : b.close.contents = b.contents := rfl

@[simp]
theorem closed_close (b : Mailbox capacity μ) : b.close.closed = true := rfl

theorem contents_trySend (b : Mailbox capacity μ) (m : μ) :
    (b.trySend m).contents = if b.HasRoom then b.contents ++ [m] else b.contents := by
  rw [trySend]
  split
  · exact (List.append_assoc ..).symm
  · rfl

@[simp]
theorem closed_trySend (b : Mailbox capacity μ) (m : μ) : (b.trySend m).closed = b.closed := by
  rw [trySend]
  split <;> rfl

@[simp]
theorem received_trySend (b : Mailbox capacity μ) (m : μ) :
    (b.trySend m).received = b.received := by
  rw [trySend]
  split <;> rfl

theorem trySend_of_closed {b : Mailbox capacity μ} (h : b.closed = true) (m : μ) :
    b.trySend m = b :=
  dif_neg fun hroom => Bool.false_ne_true (hroom.1.symm.trans h)

/-- What was received is the front of what was let in. -/
theorem received_prefix (b : Mailbox capacity μ) : b.received <+: b.contents :=
  List.prefix_append ..

end Mailbox
