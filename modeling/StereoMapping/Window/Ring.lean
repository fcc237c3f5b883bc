/-!
# `Window.Ring` — the last entries of a stream

A ring keeps the newest entries in a fixed number of slots. Entries are addressed by steps back, 0 being the
newest; an addition to a full ring overwrites the oldest entry.

## Contents
- `wrapSlot`, `wrapIndex?`: the slot some steps before another one, exactly and in 64-bit words.
- `Ring`, `Ring.create`, `Ring.push`, `Ring.get?`, `Ring.remove`, `Ring.removeOldest`.
- `Ring.toList`: the entries, newest first.
-/

namespace StereoMapping

/-- Slot `steps` before `newest` in a circle of `capacity` slots. The remainder of a negative difference is
negative, and one turn further on is the slot. -/
def wrapSlot (newest steps capacity : Int) : Int :=
  let index := (newest - steps).tmod capacity
  if index < 0 then index + capacity else index

/-- The same in words, the difference taken as a signed one. There is no slot in an empty circle, nor where
the division by the capacity leaves the words. -/
def wrapIndex? (newest steps capacity : UInt64) : Option UInt64 :=
  let difference := newest.toInt64 - steps.toInt64
  if capacity = 0 ∨ (capacity.toInt64 = -1 ∧ difference = Int64.minValue) then none
  else
    let index := difference % capacity.toInt64
    some (if index < 0 then index + capacity.toInt64 else index).toUInt64

/-- A circle of slots. -/
structure Ring (α : Type) where
  slots : Array (Option α)
  /-- Slot of the newest entry. -/
  newest : Nat
  /-- Entries held. -/
  count : Nat

namespace Ring

variable {α : Type}

/-- The ring of some slots, without entries. -/
def create (capacity : Nat) : Ring α := ⟨Array.replicate capacity none, capacity - 1, 0⟩

def capacity (r : Ring α) : Nat := r.slots.size

/-- Slot of the entry some steps back. -/
def slot (r : Ring α) (steps : Nat) : Nat := (wrapSlot r.newest steps r.capacity).toNat

/-- What a slot holds. -/
def held (r : Ring α) (slot : Nat) : Option α := r.slots[slot]?.join

/-- Adds an entry, over the oldest one if the ring is full. -/
def push (r : Ring α) (a : α) : Ring α :=
  let newest := (r.newest + 1) % r.capacity
  { slots := r.slots.setIfInBounds newest (some a)
    newest := newest
    count := min (r.count + 1) r.capacity }

/-- Entry some steps back, if it is held. -/
def get? (r : Ring α) (steps : Nat) : Option α :=
  if steps < r.count then r.held (r.slot steps) else none

/-- Entries, newest first. -/
def toList (r : Ring α) : List α := (List.range r.count).filterMap fun steps => r.held (r.slot steps)

/-- Moves the entries newer than `steps` back by one, the oldest of them first. Slot `slot 0` is left
empty. -/
def moveBack (r : Ring α) : Nat → Ring α
  | 0 => r
  | steps + 1 =>
    let newer := r.held (r.slot steps)
    let emptied := r.slots.setIfInBounds (r.slot steps) none
    moveBack { r with slots := emptied.setIfInBounds (r.slot (steps + 1)) newer } steps

/-- Removes the entry some steps back, if it is held. Newer entries are then one step further back. -/
def remove (r : Ring α) (steps : Nat) : Ring α :=
  if r.count ≤ steps then r
  else
    let moved := r.moveBack steps
    { slots := moved.slots.setIfInBounds (r.slot 0) none
      newest := r.slot 1
      count := r.count - 1 }

/-- Removes the oldest entry, if there is one. -/
def removeOldest (r : Ring α) : Ring α := if r.count = 0 then r else r.remove (r.count - 1)

@[simp] theorem capacity_create {n : Nat} : (create n : Ring α).capacity = n := by
  simp [create, capacity]

@[simp] theorem capacity_push {r : Ring α} {a : α} : (r.push a).capacity = r.capacity := by
  simp [push, capacity]

@[simp] theorem capacity_moveBack {r : Ring α} {steps : Nat} :
    (r.moveBack steps).capacity = r.capacity := by
  induction steps generalizing r with
  | zero => rfl
  | succ n ih => rw [moveBack, ih]; simp [capacity]

@[simp] theorem capacity_remove {r : Ring α} {steps : Nat} : (r.remove steps).capacity = r.capacity := by
  unfold remove
  split
  · rfl
  · have h : (r.moveBack steps).capacity = r.capacity := capacity_moveBack
    simpa [capacity] using h

end Ring

end StereoMapping
