import StereoMapping.Proofs.Window.Ring

/-!
# `Proofs.Window.Removal` — taking an entry out of a ring

Removing an entry moves the newer ones back by one slot each, oldest first, across the end of the slots where
the circle closes; then the head steps back and the slot it left is empty. Seen from the list nothing is moved:
one index is erased.

## Contents
- `wrapSlot_turn`, `slot_le`: the slots up to one turn back, the turn included.
- `moveOne`, `held_moveBack`: what the slots hold after the newer entries were moved.
- `stepBack`, `slot_stepBack`, `held_stepBack`: the slots after the head stepped back; `remove_eq`: a removal
  does both.
- `Holds.remove`, `Holds.removeOldest`: the removals through the list.
-/

namespace StereoMapping

/-- A full turn back leads to where it began. -/
theorem wrapSlot_turn {newest capacity : Nat} (h : newest < capacity) :
    (wrapSlot newest capacity capacity).toNat = newest := by
  rw [wrapSlot_eq_emod (by omega), Int.sub_emod_right, Int.emod_eq_of_lt (by omega) (by omega), Int.toNat_natCast]

namespace Ring

variable {α : Type}

/-! ## Slots up to one turn back -/

/-- Any slot up to one turn back, the turn included. -/
theorem slot_le {r : Ring α} {steps : Nat} (hn : r.newest < r.capacity) (hs : steps ≤ r.capacity) :
    r.slot steps = if steps ≤ r.newest then r.newest - steps else r.newest + r.capacity - steps := by
  rcases Nat.lt_or_eq_of_le hs with hlt | rfl
  · exact slot_eq hn hlt
  · have hturn : r.slot r.capacity = r.newest := wrapSlot_turn hn
    rw [hturn, if_neg (Nat.not_le_of_lt hn), Nat.add_sub_cancel]

theorem slot_lt {r : Ring α} {steps : Nat} (hn : r.newest < r.capacity) (hs : steps ≤ r.capacity) :
    r.slot steps < r.capacity := by
  rw [slot_le hn hs]
  split <;> omega

/-! ## Moving the newer entries back -/

/-- Two writes: the entry of one slot is moved to another one. -/
theorem held_move {r : Ring α} {source target : Nat} {a : Option α} (hs : source < r.capacity)
    (ht : target < r.capacity) (slot : Nat) :
    Ring.held { r with slots := (r.slots.setIfInBounds source none).setIfInBounds target a } slot
      = if slot = target then a else if slot = source then none else r.held slot := by
  have hts : target < (r.slots.setIfInBounds source none).size := by
    rw [Array.size_setIfInBounds]
    exact ht
  unfold held
  rw [Array.getElem?_setIfInBounds, Array.getElem?_setIfInBounds]
  by_cases htarget : slot = target
  · subst htarget
    rw [if_pos rfl, if_pos rfl, if_pos hts]
    rfl
  · rw [if_neg (fun hc => htarget hc.symm), if_neg htarget]
    by_cases hsource : slot = source
    · subst hsource
      have hsize : slot < r.slots.size := hs
      simp [hsize]
    · rw [if_neg (fun hc => hsource hc.symm), if_neg hsource]

/-- The entry some steps back, moved one slot further back. -/
def moveOne (r : Ring α) (steps : Nat) : Ring α :=
  let emptied := r.slots.setIfInBounds (r.slot steps) none
  { r with slots := emptied.setIfInBounds (r.slot (steps + 1)) (r.held (r.slot steps)) }

theorem moveBack_succ {r : Ring α} {steps : Nat} : r.moveBack (steps + 1) = (r.moveOne steps).moveBack steps :=
  rfl

theorem capacity_moveOne {r : Ring α} {steps : Nat} : (r.moveOne steps).capacity = r.capacity := by
  simp [moveOne, capacity]

theorem slot_moveOne {r : Ring α} {steps k : Nat} : (r.moveOne steps).slot k = r.slot k := by
  unfold slot
  rw [capacity_moveOne]
  rfl

/-- One entry moved, in terms of what the slots held. -/
theorem held_moveOne {r : Ring α} {f : Nat → Option α} {n k : Nat} (hn : r.newest < r.capacity)
    (hf : ∀ k < r.capacity, r.held (r.slot k) = f k) (hs : n + 1 < r.capacity) (hk : k < r.capacity) :
    (r.moveOne n).held ((r.moveOne n).slot k) = if k = n + 1 then f n else if k = n then none else f k := by
  have hlt : n < r.capacity := Nat.lt_of_succ_lt hs
  have htarget : r.slot k = r.slot (n + 1) ↔ k = n + 1 := ⟨slot_inj hn hk hs, fun h => h ▸ rfl⟩
  have hsource : r.slot k = r.slot n ↔ k = n := ⟨slot_inj hn hk hlt, fun h => h ▸ rfl⟩
  rw [slot_moveOne]
  unfold moveOne
  rw [held_move (slot_lt hn (Nat.le_of_lt hlt)) (slot_lt hn (Nat.le_of_lt hs))]
  simp only [htarget, hsource, hf n hlt, hf k hk]

theorem newest_moveBack {r : Ring α} {steps : Nat} : (r.moveBack steps).newest = r.newest := by
  induction steps generalizing r with
  | zero => rfl
  | succ n ih => exact ih.trans rfl

theorem count_moveBack {r : Ring α} {steps : Nat} : (r.moveBack steps).count = r.count := by
  induction steps generalizing r with
  | zero => rfl
  | succ n ih => exact ih.trans rfl

theorem slot_moveBack {r : Ring α} {steps k : Nat} : (r.moveBack steps).slot k = r.slot k := by
  unfold slot
  rw [newest_moveBack, capacity_moveBack]

/-- What is found some steps back after the newer entries were moved: up to `steps` back what was one slot
nearer, at the head nothing if there was anything to move, and further back what was there. -/
def movedBack (f : Nat → Option α) (steps k : Nat) : Option α :=
  if steps < k then f k else if k = 0 then (if steps = 0 then f 0 else none) else f (k - 1)

/-- **The slots after the newer entries were moved back.** -/
theorem held_moveBack {r : Ring α} {f : Nat → Option α} {steps : Nat} (hn : r.newest < r.capacity)
    (hs : steps < r.capacity) (hf : ∀ k < r.capacity, r.held (r.slot k) = f k) :
    ∀ k < r.capacity, (r.moveBack steps).held (r.slot k) = movedBack f steps k := by
  -- the entries are moved one at a time, so what the slots hold is general in the induction
  induction steps generalizing r f with
  | zero =>
    intro k hk
    show r.held (r.slot k) = _
    rw [hf k hk]
    unfold movedBack
    rcases Nat.eq_zero_or_pos k with rfl | hpos
    · simp
    · rw [if_pos hpos]
  | succ n ih =>
    intro k hk
    have hcapacity : (r.moveOne n).capacity = r.capacity := capacity_moveOne
    have hone : ∀ j < (r.moveOne n).capacity, (r.moveOne n).held ((r.moveOne n).slot j)
        = if j = n + 1 then f n else if j = n then none else f j := by
      intro j hj
      exact held_moveOne hn hf hs (hcapacity ▸ hj)
    have hlt : n < (r.moveOne n).capacity := hcapacity ▸ Nat.lt_of_succ_lt hs
    have hrest := ih (r := r.moveOne n) (hcapacity ▸ hn) hlt hone k (hcapacity ▸ hk)
    rw [slot_moveOne] at hrest
    rw [moveBack_succ, hrest]
    unfold movedBack
    -- what is one slot nearer was not touched yet when it is moved
    rcases Nat.lt_trichotomy k (n + 1) with hkn | rfl | hkn
    · have h1 : ¬ n < k := by omega
      have h2 : ¬ n + 1 < k := by omega
      have h3 : k - 1 ≠ n + 1 := by omega
      simp only [if_neg h1, if_neg h2, if_neg h3]
      rcases Nat.eq_zero_or_pos k with rfl | hpos
      · rcases Nat.eq_zero_or_pos n with rfl | hn0
        · simp
        · simp [Nat.ne_of_gt hn0]
      · have h4 : k - 1 ≠ n := by omega
        rw [if_neg (Nat.ne_of_gt hpos), if_neg (Nat.ne_of_gt hpos), if_neg h4]
    · simp
    · have h1 : n < k := by omega
      have h2 : k ≠ n + 1 := by omega
      have h3 : k ≠ n := by omega
      simp only [if_pos h1, if_pos hkn, if_neg h2, if_neg h3]

/-! ## The head steps back -/

/-- The ring without its newest entry. -/
def stepBack (r : Ring α) : Ring α :=
  { slots := r.slots.setIfInBounds (r.slot 0) none, newest := r.slot 1, count := r.count - 1 }

/-- A removal moves the newer entries back, then the head. -/
theorem remove_eq {r : Ring α} {steps : Nat} (h : steps < r.count) :
    r.remove steps = (r.moveBack steps).stepBack := by
  unfold remove stepBack
  rw [if_neg (Nat.not_le_of_lt h), slot_moveBack, slot_moveBack, count_moveBack]

theorem capacity_stepBack {r : Ring α} : r.stepBack.capacity = r.capacity := by
  simp [stepBack, capacity]

theorem newest_stepBack_lt {r : Ring α} (hn : r.newest < r.capacity) :
    r.stepBack.newest < r.stepBack.capacity := by
  rw [capacity_stepBack]
  exact slot_lt hn (Nat.one_le_of_lt hn)

/-- Every slot is found one step nearer. -/
theorem slot_stepBack {r : Ring α} {steps : Nat} (hn : r.newest < r.capacity) (hs : steps < r.capacity) :
    r.stepBack.slot steps = r.slot (steps + 1) := by
  have hnewest : r.stepBack.newest = r.slot 1 := rfl
  rw [slot_eq (newest_stepBack_lt hn) (by rw [capacity_stepBack]; exact hs), slot_le hn hs, capacity_stepBack,
    hnewest, slot_le hn (Nat.one_le_of_lt hn)]
  split <;> split <;> split <;> omega

/-- The slot that the head left is the last one, and empty. -/
theorem held_stepBack {r : Ring α} {j : Nat} (hn : r.newest < r.capacity) (hj : j < r.capacity) :
    r.stepBack.held (r.stepBack.slot j)
      = if j + 1 < r.capacity then r.held (r.slot (j + 1)) else none := by
  rw [slot_stepBack hn hj]
  by_cases hnext : j + 1 < r.capacity
  · have hne : r.slot (j + 1) ≠ r.slot 0 := by
      intro hc
      exact absurd (slot_inj hn hnext (Nat.zero_lt_of_lt hj) hc) (Nat.succ_ne_zero j)
    rw [if_pos hnext]
    exact held_setIfInBounds_ne (r := r) hne
  · have hlast : j + 1 = r.capacity := by omega
    have hturn : r.slot (j + 1) = r.slot 0 := by
      rw [slot_zero hn, hlast]
      exact wrapSlot_turn hn
    rw [if_neg hnext, hturn]
    exact held_setIfInBounds_self (r := r) (slot_lt hn (Nat.zero_le _))

/-! ## Removals -/

/-- **A removal erases an index**, if there is an entry at it. -/
theorem Holds.remove {r : Ring α} {xs : List α} (h : r.Holds xs) (k : Nat) :
    (r.remove k).Holds (xs.eraseIdx k) := by
  by_cases hk : k < r.count
  · have hlt : k < xs.length := h.count_eq ▸ hk
    have hcap : k < r.capacity := Nat.lt_of_lt_of_le hlt h.length_le
    have hn : (r.moveBack k).newest < (r.moveBack k).capacity := by
      rw [newest_moveBack, capacity_moveBack]
      exact h.newest_lt
    rw [remove_eq hk]
    refine ⟨newest_stepBack_lt hn, ?_, ?_, ?_⟩
    · show (r.moveBack k).count - 1 = _
      rw [count_moveBack, List.length_eraseIdx_of_lt hlt, h.count_eq]
    · rw [capacity_stepBack, capacity_moveBack]
      exact Nat.le_trans (List.length_eraseIdx_le _ _) h.length_le
    · intro j hj
      rw [capacity_stepBack] at hj
      rw [held_stepBack hn hj, capacity_moveBack, slot_moveBack, List.getElem?_eraseIdx]
      rw [capacity_moveBack] at hj
      by_cases hnext : j + 1 < r.capacity
      · rw [if_pos hnext, held_moveBack h.newest_lt hcap h.held_eq (j + 1) hnext]
        unfold movedBack
        rw [if_neg (Nat.succ_ne_zero j)]
        by_cases hjk : j < k
        · rw [if_neg (by omega), if_pos hjk]
          rfl
        · rw [if_pos (by omega), if_neg hjk]
      · -- the list has no entry as far back as the slot that the head left
        have hlength := h.length_le
        rw [if_neg hnext, if_neg (by omega), List.getElem?_eq_none (by omega)]
  · have hle : xs.length ≤ k := h.count_eq ▸ Nat.le_of_not_lt hk
    have hnone : r.remove k = r := if_pos (Nat.le_of_not_lt hk)
    rw [hnone, List.eraseIdx_of_length_le hle]
    exact h

theorem Holds.removeOldest {r : Ring α} {xs : List α} (h : r.Holds xs) :
    r.removeOldest.Holds xs.dropLast := by
  unfold Ring.removeOldest
  by_cases hcount : r.count = 0
  · have hnil : xs = [] := List.eq_nil_of_length_eq_zero (h.count_eq ▸ hcount)
    subst hnil
    rw [if_pos hcount]
    exact h
  · have hpos : xs.length ≠ 0 := h.count_eq ▸ hcount
    have hlast : xs.length - 1 + 1 = xs.length := Nat.succ_pred hpos
    have herase : xs.dropLast = xs.eraseIdx (xs.length - 1) := by
      rw [List.eraseIdx_eq_take_drop_succ, hlast, List.drop_length, List.append_nil, List.dropLast_eq_take]
    rw [if_neg hcount, h.count_eq, herase]
    exact h.remove _

@[simp] theorem capacity_removeOldest {r : Ring α} : r.removeOldest.capacity = r.capacity := by
  unfold removeOldest
  split
  · rfl
  · exact capacity_remove

end Ring

end StereoMapping
