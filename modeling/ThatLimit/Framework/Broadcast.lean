import Mathlib.Data.List.Basic
/-!
# A broadcast channel

Every receiver gets every message sent after it subscribed, the sender's own included. A
receiver is the number of the message it wants next. The channel keeps the latest
messages up to its capacity; a receiver that is further behind is told how many it missed.
A channel that rounds its capacity up keeps more, which shows only after that many messages.
-/

structure Channel (α : Type*) where
  capacity : Nat
  /-- The oldest first. -/
  sent : List α

namespace Channel

variable {α : Type*} {c : Channel α} {a b : α} {next next' : Nat}

def new (capacity : Nat) : Channel α := { capacity, sent := [] }

def send (c : Channel α) (a : α) : Channel α := { c with sent := c.sent ++ [a] }

/-- A new receiver. -/
def subscribe (c : Channel α) : Nat := c.sent.length

/-- What a receiver gets and what it wants next; `none` when it has to wait. -/
def recv (c : Channel α) (next : Nat) : Option (Except Nat α × Nat) :=
  if next + c.capacity < c.sent.length then
    some (.error (c.sent.length - c.capacity - next), c.sent.length - c.capacity)
  else c.sent[next]?.map fun a => (.ok a, next + 1)

@[simp] theorem mem_send : b ∈ (c.send a).sent ↔ b ∈ c.sent ∨ b = a := by
  simp [send]

theorem mem_of_recv (h : c.recv next = some (.ok a, next')) : a ∈ c.sent := by
  unfold recv at h
  split at h
  · cases h
  · obtain ⟨b, hb, heq⟩ := Option.map_eq_some_iff.mp h
    cases heq
    exact List.mem_of_getElem? hb

end Channel
