import Mathlib.Data.Int.ModEq
import Mathlib.Data.List.Nodup
import StereoMapping.Proofs.Window.Ring

/-!
# `Proofs.Window.Slot` — stepping back is subtraction modulo the capacity

A slot some steps back is found by a subtraction, a remainder whose sign is that of the difference, and one more turn
if it is negative. Taken together this is the remainder that is never negative, whatever the number of steps, so that
everything about slots follows from congruences: which slot it is, that no two of as many steps as there are slots lead
to the same one, and that steps may be taken in parts.

In words the difference is a signed one. As long as capacity and steps are below `2 ^ 63` it cannot overflow, and
neither can the last addition: it starts from a negative number. To say so, the same computation is written down with
every intermediate result checked.

## Contents
- `wrapSlot_modEq`, `wrapSlot_wrapSlot`: what the slots are as remainders.
- `signedWord?`, `checkedIndex?`, `checkedIndex?_eq`: the slot computed in signed words that are checked.
- `wrapIndex?_eq`, `Ring.wrapIndex?_eq_slot`: the slot computed in words, and the slots of a ring.
- `wrapIndex?_steps_back`: the law of steps back.
-/

namespace StereoMapping

/-! ## Remainders -/

theorem wrapSlot_nonneg {capacity : Int} (h : 0 < capacity) (newest steps : Int) :
    0 ≤ wrapSlot newest steps capacity := by
  rw [wrapSlot_eq_emod h]
  exact Int.emod_nonneg _ h.ne'

theorem wrapSlot_lt {capacity : Int} (h : 0 < capacity) (newest steps : Int) :
    wrapSlot newest steps capacity < capacity := by
  rw [wrapSlot_eq_emod h]
  exact Int.emod_lt_of_pos _ h

/-- **Stepping forward again** leads back to where one was. -/
theorem wrapSlot_modEq {capacity : Int} (h : 0 < capacity) (newest steps : Int) :
    wrapSlot newest steps capacity + steps ≡ newest [ZMOD capacity] := by
  have hmod : wrapSlot newest steps capacity ≡ newest - steps [ZMOD capacity] := by
    rw [wrapSlot_eq_emod h]
    exact Int.mod_modEq _ _
  have hsum := hmod.add_right steps
  rwa [Int.sub_add_cancel] at hsum

/-- **Steps may be taken in parts.** -/
theorem wrapSlot_wrapSlot {capacity : Int} (h : 0 < capacity) (newest a b : Int) :
    wrapSlot (wrapSlot newest a capacity) b capacity = wrapSlot newest (a + b) capacity := by
  rw [wrapSlot_eq_emod h, wrapSlot_eq_emod h, wrapSlot_eq_emod h, Int.emod_sub_emod, Int.sub_sub]

/-- Two numbers of steps that lead to one slot are whole turns apart. -/
theorem modEq_of_wrapSlot_eq {capacity newest a b : Int} (h : 0 < capacity)
    (heq : wrapSlot newest a capacity = wrapSlot newest b capacity) : a ≡ b [ZMOD capacity] := by
  have ha := wrapSlot_modEq h newest a
  rw [heq] at ha
  exact Int.ModEq.add_left_cancel' _ (ha.trans (wrapSlot_modEq h newest b).symm)

/-! ## Signed words -/

/-- An integer as a signed word, if it is in their range. -/
def signedWord? (i : Int) : Option Int64 :=
  if Int64.minValue.toInt ≤ i ∧ i ≤ Int64.maxValue.toInt then some (Int64.ofInt i) else none

/-- A remainder, or one turn further on if it is negative. -/
def nonnegative? (index turn : Int64) : Option Int64 :=
  if index < 0 then signedWord? (index.toInt + turn.toInt) else some index

/-- The slot `steps` before `newest`, with all that is computed on the way checked to be in the range of signed
words. There is none in an empty circle. -/
def checkedIndex? (newest steps capacity : UInt64) : Option UInt64 := do
  let turn ← signedWord? capacity.toNat
  let head ← signedWord? newest.toNat
  let back ← signedWord? steps.toNat
  let difference ← signedWord? (head.toInt - back.toInt)
  if turn = 0 then none
  else
    let index ← signedWord? (difference.toInt.tmod turn.toInt)
    let slot ← nonnegative? index turn
    return slot.toUInt64

/-- The signed word of an integer is the one that stands for it. -/
theorem signedWord?_eq_some_iff {i : Int} {w : Int64} : signedWord? i = some w ↔ w.toInt = i := by
  have hmin : Int64.minValue.toInt = -2 ^ 63 := rfl
  have hmax : Int64.maxValue.toInt = 2 ^ 63 - 1 := rfl
  constructor
  · intro h
    obtain ⟨hrange, heq⟩ := Option.ite_none_right_eq_some.mp h
    obtain rfl := Option.some.inj heq
    exact Int64.toInt_ofInt_of_le (by omega) (by omega)
  · rintro rfl
    unfold signedWord?
    rw [if_pos ⟨w.minValue_le_toInt, w.toInt_le⟩, Int64.ofInt_toInt]

theorem exists_signedWord? {i : Int} (hlow : -2 ^ 63 ≤ i) (hhigh : i < 2 ^ 63) :
    ∃ w, signedWord? i = some w ∧ w.toInt = i := by
  have heq := Int64.toInt_ofInt_of_le hlow hhigh
  exact ⟨_, signedWord?_eq_some_iff.mpr heq, heq⟩

/-- A word that is a signed one as well stands for the same number. -/
theorem eq_toInt64_of_toInt {w : UInt64} {s : Int64} (h : s.toInt = w.toNat) : s = w.toInt64 := by
  have hlt : w.toNat < 2 ^ 63 := by
    have hrange := s.toInt_lt
    omega
  rw [← Int64.toInt_inj, h]
  exact (BitVec.toInt_eq_toNat_of_lt (by
    show 2 * w.toNat < 2 ^ 64
    omega)).symm

/-- The word of a slot. -/
theorem toUInt64_of_toInt {s : Int64} {slot : Int} (h : s.toInt = slot) (hnonneg : 0 ≤ slot) :
    s.toUInt64 = .ofNat slot.toNat := by
  have hrange := s.toInt_lt
  rw [← UInt64.toNat_inj, Int64.toNat_toUInt64_of_le (Int64.le_iff_toInt_le.mpr (h ▸ hnonneg)),
    UInt64.toNat_ofNat_of_lt' (by
      show slot.toNat < 2 ^ 64
      omega), ← h]
  rfl

section

variable {newest steps capacity : UInt64}

theorem nonnegative?_eq_some {index turn slot : Int64} (h : nonnegative? index turn = some slot) :
    (if index < 0 then index + turn else index) = slot := by
  unfold nonnegative? at h
  split at h
  · rename_i hneg
    rw [signedWord?_eq_some_iff] at h
    rw [if_pos hneg, ← Int64.toInt_inj, Int64.toInt_add, ← h, Int64.toInt_bmod]
  · rename_i hneg
    rw [if_neg hneg]
    exact Option.some.inj h

/-- **What is computed with all checks passed** is computed without them. -/
theorem wrapIndex?_of_checked {slot : UInt64} (h : checkedIndex? newest steps capacity = some slot) :
    wrapIndex? newest steps capacity = some slot := by
  obtain ⟨turn, hturn, hrest⟩ := Option.bind_eq_some_iff.mp h
  obtain ⟨head, hhead, hrest⟩ := Option.bind_eq_some_iff.mp hrest
  obtain ⟨back, hback, hrest⟩ := Option.bind_eq_some_iff.mp hrest
  obtain ⟨difference, hdifference, hrest⟩ := Option.bind_eq_some_iff.mp hrest
  obtain ⟨hne, hrest⟩ := Option.ite_none_left_eq_some.mp hrest
  obtain ⟨index, hindex, hrest⟩ := Option.bind_eq_some_iff.mp hrest
  obtain ⟨last, hlast, hword⟩ := Option.bind_eq_some_iff.mp hrest
  clear h hrest
  rw [signedWord?_eq_some_iff] at hturn hhead hback hdifference hindex
  -- every word stands for the integer it was checked to be
  obtain rfl := eq_toInt64_of_toInt hturn
  obtain rfl := eq_toInt64_of_toInt hhead
  obtain rfl := eq_toInt64_of_toInt hback
  obtain rfl : difference = newest.toInt64 - steps.toInt64 := by
    rw [← Int64.toInt_inj, Int64.toInt_sub, ← hdifference, Int64.toInt_bmod]
  obtain rfl : index = (newest.toInt64 - steps.toInt64) % capacity.toInt64 := by
    rw [← Int64.toInt_inj, Int64.toInt_mod, hindex]
  have hdefined : ¬ (capacity = 0 ∨ capacity.toInt64 = -1 ∧ newest.toInt64 - steps.toInt64 = Int64.minValue) := by
    rintro (rfl | ⟨hminus, -⟩)
    · exact hne rfl
    · rw [hminus] at hturn
      have hone : (-1 : Int64).toInt = -1 := rfl
      omega
  unfold wrapIndex?
  dsimp only
  rw [if_neg hdefined, nonnegative?_eq_some hlast]
  exact hword

/-- **No check fails** for less than `2 ^ 63` slots and steps. -/
theorem checkedIndex?_eq (hcapacity : capacity.toNat < 2 ^ 63) (hnewest : newest < capacity)
    (hsteps : steps.toNat < 2 ^ 63) : checkedIndex? newest steps capacity
      = some (.ofNat (wrapSlot newest.toNat steps.toNat capacity.toNat).toNat) := by
  have hlt : newest.toNat < capacity.toNat := hnewest
  have hpos : (0 : Int) < capacity.toNat := by omega
  obtain ⟨turn, hturn, hturn_eq⟩ := exists_signedWord? (i := capacity.toNat) (by omega) (by omega)
  obtain ⟨head, hhead, hhead_eq⟩ := exists_signedWord? (i := newest.toNat) (by omega) (by omega)
  obtain ⟨back, hback, hback_eq⟩ := exists_signedWord? (i := steps.toNat) (by omega) (by omega)
  obtain ⟨difference, hdifference, hdifference_eq⟩ :=
    exists_signedWord? (i := head.toInt - back.toInt) (by omega) (by omega)
  have hne : turn ≠ 0 := by
    rintro rfl
    rw [Int64.toInt_zero] at hturn_eq
    omega
  -- a remainder is less than the capacity in magnitude
  have hlow := Int.lt_tmod_of_pos difference.toInt (hturn_eq ▸ hpos)
  have hhigh := Int.tmod_lt_of_pos difference.toInt (hturn_eq ▸ hpos)
  obtain ⟨index, hindex, hindex_eq⟩ :=
    exists_signedWord? (i := difference.toInt.tmod turn.toInt) (by omega) (by omega)
  obtain ⟨slot, hslot, hslot_eq⟩ : ∃ slot, nonnegative? index turn = some slot ∧
      slot.toInt = wrapSlot newest.toNat steps.toNat capacity.toNat := by
    have hnegative : index < 0 ↔ index.toInt < 0 := Int64.lt_iff_toInt_lt
    have hremainder : ((newest.toNat : Int) - steps.toNat).tmod capacity.toNat = index.toInt := by
      rw [hindex_eq, hdifference_eq, hhead_eq, hback_eq, hturn_eq]
    unfold nonnegative? wrapSlot
    dsimp only
    rw [hremainder, ← hturn_eq]
    by_cases hneg : index.toInt < 0
    · rw [if_pos (hnegative.mpr hneg), if_pos hneg]
      exact exists_signedWord? (by omega) (by omega)
    · rw [if_neg fun h => hneg (hnegative.mp h), if_neg hneg]
      exact ⟨index, rfl, rfl⟩
  have hword : some slot.toUInt64 = some (.ofNat (wrapSlot newest.toNat steps.toNat capacity.toNat).toNat) :=
    congrArg some (toUInt64_of_toInt hslot_eq (wrapSlot_nonneg hpos _ _))
  refine Option.bind_eq_some_iff.mpr ⟨turn, hturn, Option.bind_eq_some_iff.mpr ⟨head, hhead,
    Option.bind_eq_some_iff.mpr ⟨back, hback, Option.bind_eq_some_iff.mpr ⟨difference, hdifference, ?_⟩⟩⟩⟩
  exact Option.ite_none_left_eq_some.mpr ⟨hne, Option.bind_eq_some_iff.mpr ⟨index, hindex,
    Option.bind_eq_some_iff.mpr ⟨slot, hslot, hword⟩⟩⟩

/-- **The slot in words** is the exact one. -/
theorem wrapIndex?_eq (hcapacity : capacity.toNat < 2 ^ 63) (hnewest : newest < capacity)
    (hsteps : steps.toNat < 2 ^ 63) : wrapIndex? newest steps capacity
      = some (.ofNat (wrapSlot newest.toNat steps.toNat capacity.toNat).toNat) :=
  wrapIndex?_of_checked (checkedIndex?_eq hcapacity hnewest hsteps)

end

/-- The slots of a ring of less than `2 ^ 63` are those in words. -/
theorem Ring.wrapIndex?_eq_slot {α : Type} {r : Ring α} (hcapacity : r.capacity < 2 ^ 63)
    (hnewest : r.newest < r.capacity) {steps : Nat} (hsteps : steps < 2 ^ 63) :
    wrapIndex? (.ofNat r.newest) (.ofNat steps) (.ofNat r.capacity) = some (.ofNat (r.slot steps)) := by
  have hword : ∀ n < 2 ^ 63, (UInt64.ofNat n).toNat = n := fun n hn =>
    UInt64.toNat_ofNat_of_lt' (hn.trans (by decide))
  have hlt : UInt64.ofNat r.newest < UInt64.ofNat r.capacity := by
    rw [UInt64.lt_iff_toNat_lt, hword _ hcapacity, hword _ (hnewest.trans hcapacity)]
    exact hnewest
  rw [wrapIndex?_eq (by rwa [hword _ hcapacity]) hlt (by rwa [hword _ hsteps]), hword _ hcapacity, hword _ hsteps,
    hword _ (hnewest.trans hcapacity)]
  rfl

/-! ## Steps back -/

section

variable {newest capacity : UInt64}

/-- The exact slot and its word stand for the same number. -/
theorem toNat_slot (hnewest : newest < capacity) (steps : Int) :
    ((UInt64.ofNat (wrapSlot newest.toNat steps capacity.toNat).toNat).toNat : Int)
      = wrapSlot newest.toNat steps capacity.toNat := by
  have hlt : newest.toNat < capacity.toNat := hnewest
  have hpos : (0 : Int) < capacity.toNat := by omega
  have hnonneg := wrapSlot_nonneg hpos newest.toNat steps
  have hbelow := wrapSlot_lt hpos newest.toNat steps
  have hword := capacity.toNat_lt
  rw [UInt64.toNat_ofNat_of_lt' (by
    show _ < 2 ^ 64
    omega), Int.toNat_of_nonneg hnonneg]

/-- Numbers of steps that lead to one slot are whole turns apart. -/
theorem modEq_of_wrapIndex?_eq {a b : UInt64} (hcapacity : capacity.toNat < 2 ^ 63) (hnewest : newest < capacity)
    (ha : a.toNat < 2 ^ 63) (hb : b.toNat < 2 ^ 63) (heq : wrapIndex? newest a capacity = wrapIndex? newest b capacity) :
    a.toNat ≡ b.toNat [MOD capacity.toNat] := by
  have hlt : newest.toNat < capacity.toNat := hnewest
  rw [wrapIndex?_eq hcapacity hnewest ha, wrapIndex?_eq hcapacity hnewest hb] at heq
  have hslots := congrArg (fun w : UInt64 => (w.toNat : Int)) (Option.some.inj heq)
  rw [toNat_slot hnewest, toNat_slot hnewest] at hslots
  exact Int.natCast_modEq_iff.mp (modEq_of_wrapSlot_eq (by omega) hslots)

/-- **Steps back in a circle of slots.** For less than `2 ^ 63` slots and steps no intermediate result leaves the range
of signed words, and the slot found is the one from which as many steps forward lead to the newest one. As many
successive numbers of steps as there are slots lead to as many slots, and steps may be taken in two parts. -/
theorem wrapIndex?_steps_back (hcapacity : capacity.toNat < 2 ^ 63) (hnewest : newest < capacity) :
    (∀ steps : UInt64, steps.toNat < 2 ^ 63 → ∃ slot, checkedIndex? newest steps capacity = some slot ∧
      wrapIndex? newest steps capacity = some slot ∧ slot < capacity ∧
        slot.toNat + steps.toNat ≡ newest.toNat [MOD capacity.toNat]) ∧
    (∀ first : Nat, first + capacity.toNat ≤ 2 ^ 63 →
      ((List.range capacity.toNat).map fun k => wrapIndex? newest (.ofNat (first + k)) capacity).Nodup) ∧
    ∀ a b : UInt64, a.toNat + b.toNat < 2 ^ 63 →
      (wrapIndex? newest a capacity).bind (wrapIndex? · b capacity) = wrapIndex? newest (a + b) capacity := by
  have hlt : newest.toNat < capacity.toNat := hnewest
  have hpos : (0 : Int) < capacity.toNat := by omega
  have hslot : ∀ steps : Int,
      UInt64.ofNat (wrapSlot newest.toNat steps capacity.toNat).toNat < capacity := by
    intro steps
    have hbelow := wrapSlot_lt hpos newest.toNat steps
    rw [← toNat_slot hnewest] at hbelow
    exact UInt64.lt_iff_toNat_lt.mpr (by exact_mod_cast hbelow)
  refine ⟨fun steps hsteps => ?_, fun first hfirst => ?_, fun a b hab => ?_⟩
  · have hmod := wrapSlot_modEq hpos newest.toNat steps.toNat
    rw [← toNat_slot hnewest] at hmod
    exact ⟨_, checkedIndex?_eq hcapacity hnewest hsteps, wrapIndex?_eq hcapacity hnewest hsteps, hslot _,
      Int.natCast_modEq_iff.mp (by exact_mod_cast hmod)⟩
  · have hword : ∀ k < capacity.toNat, (UInt64.ofNat (first + k)).toNat = first + k := fun k hk =>
      UInt64.toNat_ofNat_of_lt' (by
        show _ < 2 ^ 64
        omega)
    refine List.Nodup.map_on (fun i hi j hj heq => ?_) List.nodup_range
    rw [List.mem_range] at hi hj
    have hmod := modEq_of_wrapIndex?_eq hcapacity hnewest (by rw [hword i hi]; omega) (by rw [hword j hj]; omega) heq
    rw [hword i hi, hword j hj] at hmod
    exact (Nat.ModEq.add_left_cancel' first hmod).eq_of_lt_of_lt hi hj
  · have hsum : (a + b).toNat = a.toNat + b.toNat := by
      rw [UInt64.toNat_add]
      omega
    rw [wrapIndex?_eq hcapacity hnewest (by omega), wrapIndex?_eq hcapacity hnewest (by rw [hsum]; exact hab),
      Option.bind_some, wrapIndex?_eq hcapacity (hslot _) (by omega), toNat_slot hnewest, wrapSlot_wrapSlot hpos, hsum,
      Nat.cast_add]

end

/-- From the second of four slots: a whole range of steps back, four steps in succession, and two steps after three. -/
theorem wrapIndex?_steps_back_fourSlots :
    (4 : UInt64).toNat < 2 ^ 63 ∧ (1 : UInt64) < 4 ∧
      (∃ slot, checkedIndex? 1 0x7fffffffffffffff 4 = some slot ∧ wrapIndex? 1 0x7fffffffffffffff 4 = some slot ∧
        slot < 4 ∧ slot.toNat + (0x7fffffffffffffff : UInt64).toNat ≡ (1 : UInt64).toNat [MOD (4 : UInt64).toNat]) ∧
      ((List.range (4 : UInt64).toNat).map fun k => wrapIndex? 1 (.ofNat (2 + k)) 4).Nodup ∧
      (wrapIndex? 1 3 4).bind (wrapIndex? · 2 4) = wrapIndex? 1 5 4 := by
  have hcapacity : (4 : UInt64).toNat < 2 ^ 63 := by decide
  obtain ⟨hslots, hnodup, hparts⟩ := wrapIndex?_steps_back hcapacity (by decide : (1 : UInt64) < 4)
  exact ⟨hcapacity, by decide, hslots _ (by decide), hnodup 2 (by decide), hparts 3 2 (by decide)⟩

end StereoMapping
