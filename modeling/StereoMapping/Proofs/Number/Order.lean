import Mathlib.Data.Int.ConditionallyCompleteOrder
import Mathlib.Data.Prod.Lex
import Mathlib.Order.ConditionallyCompleteLattice.Basic
import StereoMapping.Number.Scalar

/-!
# `Proofs.Number.Order` — the order of 32-bit numbers

Comparisons look at signs, exponents and significands, in this order, and find nothing to compare where one value is
not a number. So every number has a place on a line, the two zeros the same one, and comparing numbers is comparing
places. What is known of the order of a line holds of the numbers, and a non-number is above and below nothing.

## Contents
- `Scalar.Ordered`: scalars on a line, and the instance for 32-bit numbers.
- `place`, `compare_eq`: the place of an unpacked value, and comparisons as comparisons of places.
- `rank32`: places in one line with non-numbers, below all of them.
-/

namespace StereoMapping

/-- Scalars that stand on a line, apart from those that are no numbers. -/
class Scalar.Ordered (α : Type) [Scalar α] : Prop where
  le_or_lt : ∀ a b : α, Scalar.isNaN a = false → Scalar.isNaN b = false → Scalar.le a b = true ∨ Scalar.lt b a = true
  isNaN_of_le : ∀ a b : α, Scalar.le a b = true → Scalar.isNaN a = false
  le_of_lt : ∀ a b : α, Scalar.lt a b = true → Scalar.le a b = true
  lt_of_le_of_lt : ∀ a b c : α, Scalar.le a b = true → Scalar.lt b c = true → Scalar.lt a c = true
  lt_of_lt_of_le : ∀ a b c : α, Scalar.lt a b = true → Scalar.le b c = true → Scalar.lt a c = true

theorem Scalar.Ordered.le_self {α : Type} [Scalar α] [Scalar.Ordered α] {a : α} (h : Scalar.isNaN a = false) :
    Scalar.le a a = true :=
  (le_or_lt a a h h).elim id (le_of_lt a a)

open Float.Model (UnpackedFloat)

/-! ## Unpacked values -/

/-- The place of a number among all numbers: below or above zero, or infinitely far, then by exponent and
significand. -/
def place : UnpackedFloat → Option (Int ×ₗ Int ×ₗ Int)
  | .notANumber => none
  | .infinity .negative => some (toLex (-2, toLex (0, 0)))
  | .finite .negative m e _ => some (toLex (-1, toLex (-e, -m)))
  | .zero _ => some (toLex (0, toLex (0, 0)))
  | .finite .positive m e _ => some (toLex (1, toLex (e, m)))
  | .infinity .positive => some (toLex (2, toLex (0, 0)))

theorem compare_natCast (m n : Nat) : compare (m : Int) n = compare m n := by
  have hmono : StrictMono fun k : Nat => (k : Int) := fun _ _ h => Int.ofNat_lt.mpr h
  rw [← cmp_eq_compare, ← cmp_eq_compare]
  exact hmono.cmp_map_eq m n

theorem compare_neg (a b : Int) : compare (-a) (-b) = (compare a b).swap := by
  have hanti : StrictAnti fun k : Int => -k := fun _ _ h => Int.neg_lt_neg h
  rw [← cmp_eq_compare, ← cmp_eq_compare, cmp_swap]
  exact hanti.cmp_map_eq a b

/-- **Numbers compare as their places do**, and a non-number not at all. -/
theorem compare_eq (x y : UnpackedFloat) :
    x.compare y = (place x).bind fun a => (place y).map fun b => compare a b := by
  cases x with
  | notANumber => rfl
  | infinity s =>
    cases y with
    | infinity t => cases s <;> cases t <;> rfl
    | finite t => cases s <;> cases t <;> rfl
    | _ => cases s <;> rfl
  | zero s =>
    cases y with
    | infinity t => cases t <;> rfl
    | finite t => cases t <;> rfl
    | _ => rfl
  | finite s m e =>
    cases y with
    | infinity t => cases s <;> cases t <;> rfl
    | finite t m' e' =>
      cases s <;> cases t
      case negative.negative =>
        -- below zero the greater exponent and the greater significand are further down
        change some ((compare e e').then (compare m m')).swap
          = some ((compare (-e) (-e')).then (compare (-(m : Int)) (-(m' : Int))))
        rw [compare_neg, compare_neg, compare_natCast, Ordering.swap_then]
      case positive.positive =>
        change some ((compare e e').then (compare m m'))
          = some ((compare e e').then (compare (m : Int) (m' : Int)))
        rw [compare_natCast]
      all_goals rfl
    | _ => cases s <;> rfl

theorem lt_iff {x y : UnpackedFloat} : x.lt y = true ↔ ∃ a ∈ place x, ∃ b ∈ place y, a < b := by
  unfold UnpackedFloat.lt
  rw [compare_eq]
  cases place x <;> cases place y <;> simp [compare_lt_iff_lt]

theorem le_iff {x y : UnpackedFloat} : x.le y = true ↔ ∃ a ∈ place x, ∃ b ∈ place y, a ≤ b := by
  unfold UnpackedFloat.le
  rw [compare_eq]
  cases place x <;> cases place y <;> simp [Ordering.isLE_iff_ne_gt, compare_le_iff_le]

theorem exists_place_iff {x : UnpackedFloat} : (∃ a, place x = some a) ↔ x.isNaN = false := by
  cases x with
  | notANumber => exact iff_of_false (fun ⟨_, h⟩ => nomatch h) (by decide)
  | infinity s => cases s <;> exact iff_of_true ⟨_, rfl⟩ rfl
  | zero s => exact iff_of_true ⟨_, rfl⟩ rfl
  | finite s m e hm => cases s <;> exact iff_of_true ⟨_, rfl⟩ rfl

/-! ## 32-bit numbers -/

theorem lt_iff_place {x y : Float32} : Scalar.lt x y = true ↔
    ∃ a ∈ place x.toModel.unpack, ∃ b ∈ place y.toModel.unpack, a < b :=
  decide_eq_true_iff.trans (decide_eq_true_iff.trans lt_iff)

theorem le_iff_place {x y : Float32} : Scalar.le x y = true ↔
    ∃ a ∈ place x.toModel.unpack, ∃ b ∈ place y.toModel.unpack, a ≤ b :=
  decide_eq_true_iff.trans (decide_eq_true_iff.trans le_iff)

instance : Scalar.Ordered Float32 where
  le_or_lt x y hx hy := by
    obtain ⟨a, ha⟩ := exists_place_iff.mpr hx
    obtain ⟨b, hb⟩ := exists_place_iff.mpr hy
    rcases le_or_gt a b with h | h
    · exact .inl (le_iff_place.mpr ⟨a, ha, b, hb, h⟩)
    · exact .inr (lt_iff_place.mpr ⟨b, hb, a, ha, h⟩)
  isNaN_of_le x y h := by
    obtain ⟨a, ha, -⟩ := le_iff_place.mp h
    exact exists_place_iff.mp ⟨a, ha⟩
  le_of_lt x y h := by
    obtain ⟨a, ha, b, hb, hab⟩ := lt_iff_place.mp h
    exact le_iff_place.mpr ⟨a, ha, b, hb, hab.le⟩
  lt_of_le_of_lt x y z h h' := by
    obtain ⟨a, ha, b, hb, hab⟩ := le_iff_place.mp h
    obtain ⟨b', hb', c, hc, hbc⟩ := lt_iff_place.mp h'
    obtain rfl := Option.mem_unique hb hb'
    exact lt_iff_place.mpr ⟨a, ha, c, hc, hab.trans_lt hbc⟩
  lt_of_lt_of_le x y z h h' := by
    obtain ⟨a, ha, b, hb, hab⟩ := lt_iff_place.mp h
    obtain ⟨b', hb', c, hc, hbc⟩ := le_iff_place.mp h'
    obtain rfl := Option.mem_unique hb hb'
    exact lt_iff_place.mpr ⟨a, ha, c, hc, hab.trans_le hbc⟩

/-! ## Ranks -/

/-- The place of a 32-bit number. A value that is no number is below all of them. -/
def rank32 (x : Float32) : WithBot (Int ×ₗ Int ×ₗ Int) := place x.toModel.unpack

theorem lt_iff_rank {x y : Float32} : Scalar.lt x y = true ↔ rank32 x ≠ ⊥ ∧ rank32 x < rank32 y := by
  rw [lt_iff_place]
  unfold rank32
  constructor
  · rintro ⟨a, ha, b, hb, hab⟩
    rw [Option.mem_def.mp ha, Option.mem_def.mp hb]
    exact ⟨Option.some_ne_none a, WithBot.coe_lt_coe.mpr hab⟩
  · rintro ⟨hx, hlt⟩
    obtain ⟨a, ha⟩ := WithBot.ne_bot_iff_exists.mp hx
    obtain ⟨b, hb⟩ := WithBot.ne_bot_iff_exists.mp (ne_bot_of_gt hlt)
    rw [← ha, ← hb] at hlt
    exact ⟨a, ha.symm, b, hb.symm, WithBot.coe_lt_coe.mp hlt⟩

theorem le_iff_rank {x y : Float32} : Scalar.le x y = true ↔ rank32 x ≠ ⊥ ∧ rank32 x ≤ rank32 y := by
  rw [le_iff_place]
  unfold rank32
  constructor
  · rintro ⟨a, ha, b, hb, hab⟩
    rw [Option.mem_def.mp ha, Option.mem_def.mp hb]
    exact ⟨Option.some_ne_none a, WithBot.coe_le_coe.mpr hab⟩
  · rintro ⟨hx, hle⟩
    obtain ⟨a, ha⟩ := WithBot.ne_bot_iff_exists.mp hx
    obtain ⟨b, hb⟩ := WithBot.ne_bot_iff_exists.mp (ne_bot_of_le_ne_bot hx hle)
    rw [← ha, ← hb] at hle
    exact ⟨a, ha.symm, b, hb.symm, WithBot.coe_le_coe.mp hle⟩

theorem eq_iff_rank {x y : Float32} : Scalar.eq x y = true ↔ rank32 x ≠ ⊥ ∧ rank32 x = rank32 y := by
  show x.toModel.unpack.beq y.toModel.unpack = true ↔ _
  unfold UnpackedFloat.beq rank32
  rw [compare_eq]
  cases hx : place x.toModel.unpack with
  | none => exact iff_of_false Bool.false_ne_true fun h => h.1 rfl
  | some a =>
    cases hy : place y.toModel.unpack with
    | none => exact iff_of_false Bool.false_ne_true fun h => Option.some_ne_none a h.2
    | some b =>
      have hcompare : (some (compare a b) == some Ordering.eq) = true ↔ a = b := by
        simp [compare_eq_iff_eq]
      refine hcompare.trans ⟨fun h => ⟨Option.some_ne_none a, congrArg some h⟩, fun h => Option.some.inj h.2⟩

/-- Among numbers, what is not below another one is at least as high. -/
theorem not_lt_iff_rank {x y : Float32} (hx : rank32 x ≠ ⊥) : Scalar.lt x y = false ↔ rank32 y ≤ rank32 x := by
  rw [← Bool.not_eq_true, lt_iff_rank]
  constructor
  · intro h
    by_contra hlt
    exact h ⟨hx, not_le.mp hlt⟩
  · intro hle h
    exact absurd h.2 (not_lt.mpr hle)

end StereoMapping
