import StereoMapping.Window.Ring

/-!
# `Proofs.Window.Ring` — a ring is a bounded list

A ring moves its head around a circle of slots. What a client sees is simpler: the newest entries, newest
first, of which there are never more than slots. `Ring.Holds` ties the two views together, and says of the
slots that exactly those of the list are occupied: the others, up to one turn back, are empty.

## Contents
- `wrapSlot_eq_emod`: the slot as a remainder that is never negative.
- `wrapSlot_eq`: within one turn it is a difference, or a difference and a turn.
- `Ring.Holds`: the list that a ring stands for.
- `holds_create`, `Holds.push`, `Holds.get?_eq`: the operations through that list.
-/

namespace StereoMapping

/-! ## Slots -/

/-- **The slot some steps back** is the difference modulo the capacity. -/
theorem wrapSlot_eq_emod {capacity : Int} (h : 0 < capacity) (newest steps : Int) :
    wrapSlot newest steps capacity = (newest - steps) % capacity := by
  have hnonneg := Int.emod_nonneg (newest - steps) (Int.ne_of_gt h)
  have hlt := Int.emod_lt_of_pos (newest - steps) h
  have habs : ((capacity.natAbs : Nat) : Int) = capacity := Int.natAbs_of_nonneg (Int.le_of_lt h)
  unfold wrapSlot
  simp only [Int.tmod_eq_emod]
  split
  · rw [Int.natCast_zero, Int.sub_zero, if_neg (Int.not_lt.mpr hnonneg)]
  · -- the remainder of a negative difference is negative, unless there is none
    rw [habs, if_pos (by omega), Int.sub_add_cancel]

/-- Within one turn the wrapped slot is a difference, with a turn added where it would be negative. -/
theorem wrapSlot_eq {newest steps capacity : Nat} (hn : newest < capacity) (hs : steps < capacity) :
    (wrapSlot newest steps capacity).toNat
      = if steps ≤ newest then newest - steps else newest + capacity - steps := by
  rw [wrapSlot_eq_emod (by omega)]
  split
  · rw [Int.emod_eq_of_lt (by omega) (by omega)]
    omega
  · rw [← Int.add_emod_right, Int.emod_eq_of_lt (by omega) (by omega)]
    omega

namespace Ring

variable {α : Type}

theorem slot_eq {r : Ring α} {steps : Nat} (hn : r.newest < r.capacity) (hs : steps < r.capacity) :
    r.slot steps = if steps ≤ r.newest then r.newest - steps else r.newest + r.capacity - steps :=
  wrapSlot_eq hn hs

theorem slot_zero {r : Ring α} (hn : r.newest < r.capacity) : r.slot 0 = r.newest := by
  rw [slot_eq hn (Nat.zero_lt_of_lt hn), if_pos (Nat.zero_le _), Nat.sub_zero]

/-- Within one turn no slot is met twice. -/
theorem slot_inj {r : Ring α} {i j : Nat} (hn : r.newest < r.capacity) (hi : i < r.capacity)
    (hj : j < r.capacity) (h : r.slot i = r.slot j) : i = j := by
  rw [slot_eq hn hi, slot_eq hn hj] at h
  split at h <;> split at h <;> omega

/-! ## What the slots hold -/

theorem held_setIfInBounds_self {r : Ring α} {slot : Nat} {a : Option α} (h : slot < r.capacity) :
    Ring.held { r with slots := r.slots.setIfInBounds slot a } slot = a := by
  have hsize : slot < r.slots.size := h
  simp [held, hsize]

theorem held_setIfInBounds_ne {r : Ring α} {slot other : Nat} {a : Option α} (h : other ≠ slot) :
    Ring.held { r with slots := r.slots.setIfInBounds slot a } other = r.held other := by
  unfold held
  rw [Array.getElem?_setIfInBounds, if_neg (fun hc : slot = other => h hc.symm)]

/-! ## The list of a ring -/

/-- **A ring stands for a list**, newest entry first: going back from the head, the slots hold the entries of
the list, and nothing once the list has ended. -/
structure Holds (r : Ring α) (xs : List α) : Prop where
  newest_lt : r.newest < r.capacity
  count_eq : r.count = xs.length
  length_le : xs.length ≤ r.capacity
  held_eq : ∀ k < r.capacity, r.held (r.slot k) = xs[k]?

theorem holds_create {n : Nat} (h : 0 < n) : (create n : Ring α).Holds [] := by
  refine ⟨?_, rfl, Nat.zero_le _, ?_⟩
  · rw [capacity_create]
    exact Nat.sub_lt h Nat.one_pos
  · intro k _
    unfold held create
    rw [Array.getElem?_replicate, List.getElem?_nil]
    split <;> rfl

theorem Holds.get?_eq {r : Ring α} {xs : List α} (h : r.Holds xs) (k : Nat) : r.get? k = xs[k]? := by
  unfold get?
  by_cases hk : k < r.count
  · have hlen : k < xs.length := h.count_eq ▸ hk
    rw [if_pos hk, h.held_eq k (Nat.lt_of_lt_of_le hlen h.length_le)]
  · have hlen : xs.length ≤ k := h.count_eq ▸ Nat.le_of_not_lt hk
    rw [if_neg hk, List.getElem?_eq_none hlen]

/-- After an addition the slot one further back is the slot there was. -/
theorem slot_push_succ {r : Ring α} {a : α} {k : Nat} (hn : r.newest < r.capacity)
    (hk : k + 1 < r.capacity) : (r.push a).slot (k + 1) = r.slot k := by
  have hnewest : (r.push a).newest = (r.newest + 1) % r.capacity := rfl
  have hwrap : (r.newest + 1) % r.capacity = if r.newest + 1 < r.capacity then r.newest + 1 else 0 := by
    by_cases hlt : r.newest + 1 < r.capacity
    · rw [if_pos hlt, Nat.mod_eq_of_lt hlt]
    · have heq : r.newest + 1 = r.capacity := by omega
      rw [if_neg hlt, heq, Nat.mod_self]
  have hpushed : (r.push a).newest < (r.push a).capacity := by
    rw [hnewest, capacity_push]
    exact Nat.mod_lt _ (Nat.zero_lt_of_lt hn)
  rw [slot_eq hpushed (by rw [capacity_push]; exact hk), slot_eq hn (Nat.lt_of_succ_lt hk), capacity_push,
    hnewest, hwrap]
  split <;> split <;> split <;> omega

/-- **An addition conses.** The list of a full ring loses its last entry. -/
theorem Holds.push {r : Ring α} {xs : List α} (h : r.Holds xs) (a : α) :
    (r.push a).Holds ((a :: xs).take r.capacity) := by
  have hpos : 0 < r.capacity := Nat.zero_lt_of_lt h.newest_lt
  have hlt : (r.newest + 1) % r.capacity < r.capacity := Nat.mod_lt _ hpos
  have hnewest : (r.push a).newest < (r.push a).capacity := by
    rw [capacity_push]
    exact hlt
  refine ⟨hnewest, ?_, ?_, ?_⟩
  · rw [List.length_take, List.length_cons, ← h.count_eq, Nat.min_comm]
    rfl
  · rw [capacity_push]
    exact List.length_take_le _ _
  · intro k hk
    rw [capacity_push] at hk
    rw [List.getElem?_take_of_lt hk]
    cases k with
    | zero =>
      rw [slot_zero hnewest, List.getElem?_cons_zero]
      exact held_setIfInBounds_self hlt
    | succ k =>
      -- the slot written is the new head, and an older slot is not the head
      have hne : (r.push a).slot (k + 1) ≠ (r.newest + 1) % r.capacity := by
        intro hc
        have hzero : (r.push a).slot (k + 1) = (r.push a).slot 0 := hc.trans (slot_zero hnewest).symm
        have := slot_inj hnewest (by rw [capacity_push]; exact hk) (by rw [capacity_push]; exact hpos) hzero
        exact absurd this (Nat.succ_ne_zero k)
      have hold : (r.push a).held ((r.push a).slot (k + 1)) = r.held ((r.push a).slot (k + 1)) :=
        held_setIfInBounds_ne hne
      rw [hold, slot_push_succ h.newest_lt hk, h.held_eq k (Nat.lt_of_succ_lt hk), List.getElem?_cons_succ]

end Ring

end StereoMapping
