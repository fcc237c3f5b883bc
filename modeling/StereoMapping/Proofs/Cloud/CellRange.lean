import StereoMapping.Proofs.Cloud.Cells
import StereoMapping.Proofs.Cloud.Neighbourhood
import StereoMapping.Proofs.Number.Shortest

/-!
# `Proofs.Cloud.CellRange` — queries from which the cells run out of their range

A coordinate over the side of a cell is brought into the range of 64-bit integers, and the steps to the cells around
it are taken afterwards, without a check. From a cell at an end of the range one of them wraps around to the other
end. These cells are in reach of ordinary 64-bit numbers: the quotients that are cut off are those of `2 ^ 63` or more
in magnitude, and no number just below is rounded up to the last cell, as numbers of that size are 1024 apart. Infinite
coordinates are among them for every finite side, and so are finite ones that are far enough out.

The search does not lose a neighbour by that, but it visits the wrong end of space. That shows where the squared side
overflows, since then nothing is too far away.

## Contents
- `Shape.FitsInt64`, `Shape.isInner_floorInt64_iff`: values whose floor is at no end of the range.
- `not_fits_of_infinite`: an infinite coordinate over a finite side.
- `NeighbourGrid.wrapped_cells_iff`, `NeighbourGrid.nearest?_across_range`.
-/

namespace StereoMapping

/-! ## Floors at the ends of the range -/

namespace Shape

/-- A value below `2 ^ 63` in magnitude, or none. -/
def FitsInt64 : Shape → Prop
  | .notANumber => True
  | .infinite _ => False
  | .finite _ m e => (m : ℚ) * 2 ^ e < 2 ^ 63

theorem isInner_clampInt64_iff {i : Int} : IsInner (clampInt64 i) ↔ -2 ^ 63 < i ∧ i < 2 ^ 63 - 1 := by
  unfold IsInner
  rw [Int64.lt_iff_toInt_lt, Int64.lt_iff_toInt_lt, toInt_clampInt64, Int64.toInt_minValue, Int64.toInt_maxValue]
  omega

/-- A finite value with no fraction. -/
theorem isInner_floor_iff_of_nonneg (negative : Bool) {m : Nat} {e : Int} (hm : m < 2 ^ 53) (he : 0 ≤ e) :
    IsInner (clampInt64 (floor negative m e)) ↔ FitsInt64 (.finite negative m e) := by
  obtain ⟨k, rfl⟩ := Int.eq_ofNat_of_zero_le he
  have hvalue : FitsInt64 (.finite negative m k) ↔ m * 2 ^ k < 2 ^ 63 := by
    show (m : ℚ) * 2 ^ (k : Int) < 2 ^ 63 ↔ _
    rw [zpow_natCast]
    exact_mod_cast Iff.rfl
  -- the last cell but one is odd, and too large for a significand
  have hgap : m * 2 ^ k ≠ 2 ^ 63 - 1 := by
    cases k with
    | zero => omega
    | succ k =>
      rw [pow_succ, ← mul_assoc]
      omega
  rw [isInner_clampInt64_iff, hvalue]
  unfold floor
  rw [if_pos he, Int.toNat_natCast, Nat.shiftLeft_eq]
  cases negative with
  | true =>
    rw [if_pos rfl]
    omega
  | false =>
    rw [if_neg Bool.false_ne_true]
    omega

/-- A finite value that is a fraction of its significand. -/
theorem isInner_floor_of_neg (negative : Bool) {m : Nat} {e : Int} (hm : m < 2 ^ 53) (he : e < 0) :
    IsInner (clampInt64 (floor negative m e)) ∧ FitsInt64 (.finite negative m e) := by
  have hdown : m >>> (-e).toNat ≤ m := by
    rw [Nat.shiftRight_eq_div_pow]
    exact Nat.div_le_self _ _
  constructor
  · rw [isInner_clampInt64_iff]
    unfold floor
    rw [if_neg (Int.not_le.mpr he)]
    dsimp only
    generalize m >>> (-e).toNat = down at hdown
    split_ifs <;> omega
  · show (m : ℚ) * 2 ^ e < 2 ^ 63
    have hpow : (2 : ℚ) ^ e ≤ 1 := zpow_le_one_of_nonpos₀ one_le_two he.le
    have hcast : (m : ℚ) < 2 ^ 53 := by exact_mod_cast hm
    have hpos : (0 : ℚ) ≤ m := Nat.cast_nonneg m
    calc (m : ℚ) * 2 ^ e ≤ m * 1 := by gcongr
      _ < 2 ^ 63 := by linarith

/-- **The floor is at no end of the range** exactly for values that fit, given the significand of a 64-bit number. -/
theorem isInner_floorInt64_iff {s : Shape} (hs : ∀ negative m e, s = .finite negative m e → m < 2 ^ 53) :
    IsInner s.floorInt64 ↔ s.FitsInt64 := by
  cases s with
  | notANumber => exact iff_of_true (by decide) trivial
  | infinite negative => exact iff_of_false (by cases negative <;> decide) id
  | finite negative m e =>
    have hm := hs negative m e rfl
    -- a large exponent is taken for an end of the range at once; below it the floor is computed and clamped
    by_cases hlarge : 64 ≤ e ∧ m ≠ 0
    · have hends : (finite negative m e).floorInt64 = if negative then Int64.minValue else Int64.maxValue :=
        if_pos hlarge
      have hbeyond : ¬ FitsInt64 (.finite negative m e) := by
        have hone : (1 : ℚ) ≤ m := by exact_mod_cast Nat.one_le_iff_ne_zero.mpr hlarge.2
        have hpow : (2 : ℚ) ^ (64 : Int) ≤ 2 ^ e := zpow_le_zpow_right₀ one_le_two hlarge.1
        have hnonneg : (0 : ℚ) ≤ 2 ^ e := by positivity
        show ¬ (m : ℚ) * 2 ^ e < 2 ^ 63
        have hproduct : (2 : ℚ) ^ e ≤ m * 2 ^ e := le_mul_of_one_le_left hnonneg hone
        norm_num at hpow ⊢
        linarith
      rw [hends]
      exact iff_of_false (by cases negative <;> decide) hbeyond
    · have hfloor : (finite negative m e).floorInt64 = clampInt64 (floor negative m e) := if_neg hlarge
      rw [hfloor]
      rcases Int.lt_or_le e 0 with he | he
      · exact iff_of_true (isInner_floor_of_neg negative hm he).1 (isInner_floor_of_neg negative hm he).2
      · exact isInner_floor_iff_of_nonneg negative hm he

end Shape

/-! ## Quotients of 64-bit numbers -/

/-- A significand of 64 bits has 53 of them. -/
theorem significand_lt_of_shape64 {x : Float} {negative : Bool} {m : Nat} {e : Int}
    (h : shape64 x = .finite negative m e) : m < 2 ^ 53 := by
  obtain ⟨-, -, ⟨rfl, -⟩ | ⟨hrepresents, -⟩⟩ := Format.shape_finite (by decide) h
  · decide
  · exact hrepresents.fits

/-- **A cell is at no end of the range** exactly if all coordinates over the side fit. -/
theorem Cell.isInner_ofPoint_iff {side : Float} {p : Vec3 Float} :
    (Cell.ofPoint side p).IsInner ↔
      (shape64 (p.x / side)).FitsInt64 ∧ (shape64 (p.y / side)).FitsInt64 ∧ (shape64 (p.z / side)).FitsInt64 := by
  have hcoordinate : ∀ x : Float, StereoMapping.IsInner (Scalar.floorInt64 x) ↔ (shape64 x).FitsInt64 := fun x =>
    Shape.isInner_floorInt64_iff fun _ _ _ h => significand_lt_of_shape64 h
  rw [← hcoordinate, ← hcoordinate, ← hcoordinate]
  exact ⟨fun h => ⟨h.i, h.j, h.k⟩, fun ⟨hi, hj, hk⟩ => ⟨hi, hj, hk⟩⟩

open Float.Model (UnpackedFloat)

/-- **An infinite coordinate over a finite side** is infinite. -/
theorem not_fits_of_infinite {x side : Float} (hx : x = infinity64 ∨ x = -infinity64)
    (hside : Scalar.isFinite side = true) : ¬ (shape64 (x / side)).FitsInt64 := by
  have hunpack : ∃ sign, x.toModel.unpack = .infinity sign := by
    rcases hx with rfl | rfl
    · exact ⟨.positive, rfl⟩
    · exact ⟨.negative, rfl⟩
  obtain ⟨sign, hsign⟩ := hunpack
  have hfinite : side.toModel.unpack.isFinite = true := hside
  -- infinity over what is finite is infinite, also over zero
  have hdiv : ∃ other, UnpackedFloat.div .binary64 (.infinity sign) side.toModel.unpack = .infinity other := by
    cases hshape : side.toModel.unpack with
    | notANumber => rw [hshape] at hfinite; cases hfinite
    | infinity s => rw [hshape] at hfinite; cases hfinite
    | zero s => exact ⟨_, rfl⟩
    | finite s m e hm => exact ⟨_, rfl⟩
  obtain ⟨other, hother⟩ := hdiv
  have hquotient : x / side = ⟨.pack (UnpackedFloat.div .binary64 x.toModel.unpack side.toModel.unpack)⟩ := rfl
  have hinfinite : ∀ s, ∃ negative, shape64 ⟨.pack (.infinity s)⟩ = .infinite negative := by
    intro s
    cases s with
    | positive => exact ⟨false, by decide +kernel⟩
    | negative => exact ⟨true, by decide +kernel⟩
  obtain ⟨negative, hvalue⟩ := hinfinite other
  rw [hquotient, hsign, hother, hvalue]
  exact id

/-! ## The cells of a query -/

namespace NeighbourGrid

/-- **Which queries run out of the range.** The 27 cells around a query are those of a lattice without ends exactly if
every coordinate over the side is below `2 ^ 63` in magnitude or is no number; then only points of adjacent cells
are looked at. Over a finite side an infinite coordinate never is. In any case all valid points of adjacent cells are
looked at. -/
theorem wrapped_cells_iff (cloud : Cloud Float32) (side : Float) (query : Vec3 Float) :
    ((Cell.ofPoint side query).neighbourhood.map Cell.coordinates = Cell.around (Cell.ofPoint side query).coordinates ↔
      (shape64 (query.x / side)).FitsInt64 ∧ (shape64 (query.y / side)).FitsInt64 ∧
        (shape64 (query.z / side)).FitsInt64) ∧
    ((Cell.ofPoint side query).neighbourhood.map Cell.coordinates = Cell.around (Cell.ofPoint side query).coordinates →
      ∀ p ∈ (ofCloud cloud side).candidates query, (Cell.ofPoint side query).Adjacent (Cell.ofPoint side p)) ∧
    (∀ x ∈ [query.x, query.y, query.z], x = infinity64 ∨ x = -infinity64 → Scalar.isFinite side = true →
      (Cell.ofPoint side query).neighbourhood.map Cell.coordinates
        ≠ Cell.around (Cell.ofPoint side query).coordinates) ∧
    ∀ p ∈ validPoints cloud, (Cell.ofPoint side query).Adjacent (Cell.ofPoint side p) →
      p ∈ (ofCloud cloud side).candidates query := by
  have hinner : (Cell.ofPoint side query).IsInner ↔ _ := Cell.isInner_ofPoint_iff
  have hiff := Cell.map_coordinates_neighbourhood_iff.trans hinner
  refine ⟨hiff, fun hexact p hp => ?_, fun x hx hinfinite hside hexact => ?_, fun p hp hadjacent => ?_⟩
  · exact Cell.adjacent_of_mem_neighbourhood (Cell.map_coordinates_neighbourhood_iff.mp hexact)
      (mem_candidates_iff.mp hp).2
  · obtain ⟨hfitsX, hfitsY, hfitsZ⟩ := hiff.mp hexact
    simp only [List.mem_cons, List.not_mem_nil, or_false] at hx
    rcases hx with rfl | rfl | rfl
    · exact not_fits_of_infinite hinfinite hside hfitsX
    · exact not_fits_of_infinite hinfinite hside hfitsY
    · exact not_fits_of_infinite hinfinite hside hfitsZ
  · exact mem_candidates_iff.mpr ⟨hp, Cell.mem_neighbourhood_of_adjacent hadjacent⟩

/-- A point at infinity, on the side of the negative numbers. -/
def farPoint : Cloud Float32 := ⟨#[⟨-infinity32, 0, 0⟩], 0⟩

/-- A valid query at the other infinity has a cell from which a step wraps around, and so has a finite one that is
far enough out for the side of the default settings. With a side whose square is infinite, the search finds the point
at the other end of space. -/
theorem nearest?_across_range :
    (Vec3.isValid (⟨infinity64, 0, 0⟩ : Vec3 Float) = true ∧ Scalar.lt 0 (1e200 : Float) = true) ∧
      (Cell.ofPoint (1e200 : Float) ⟨infinity64, 0, 0⟩).neighbourhood.map Cell.coordinates
        ≠ Cell.around (Cell.ofPoint (1e200 : Float) ⟨infinity64, 0, 0⟩).coordinates ∧
      (Cell.ofPoint (0.5 : Float) ⟨1e38, 0, 0⟩).neighbourhood.map Cell.coordinates
        ≠ Cell.around (Cell.ofPoint (0.5 : Float) ⟨1e38, 0, 0⟩).coordinates ∧
      (ofCloud farPoint (1e200 : Float)).nearest? ⟨infinity64, 0, 0⟩ = some ⟨-infinity64, 0, 0⟩ := by
  unfold nearest?
  rw [candidates_ofCloud]
  decide +kernel

end NeighbourGrid

end StereoMapping
