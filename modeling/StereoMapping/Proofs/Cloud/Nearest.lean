import Mathlib.Algebra.Order.Floor.Ring
import Mathlib.Analysis.Real.Sqrt
import Mathlib.Tactic.Linarith
import Mathlib.Tactic.Positivity
import StereoMapping.Proofs.Cloud.Cells
import StereoMapping.Proofs.Cloud.Neighbourhood
import StereoMapping.Proofs.Number.Stored

/-!
# `Proofs.Cloud.Nearest` — the search in the cells misses nothing

A neighbour is looked for in 27 cells only, and is the nearest of the whole cloud. In exact arithmetic two points that
are at most the side of a cell apart have coordinates over the side that differ by at most one. Their floors then differ
by at most one, also where one of them is negative, or where the distance is the side itself. Cutting off at
the ends of the range brings no two cells further apart. So every point within the bound lies in an adjacent cell, and
one pass over the points of these cells finds the closest of them. What else is looked at there is beyond the bound.

## Contents
- `Cell.adjacent_of_norm_le`: points within the side lie in adjacent cells.
- `NeighbourGrid.Closest`, `NeighbourGrid.Closest.closer`, `NeighbourGrid.closest_foldl`: the closest of some points.
- `NeighbourGrid.nearest?_exhaustive`: the nearest of a cloud.
-/

namespace StereoMapping

/-! ## Cells of points that are close -/

namespace Scalar

/-- Floors of coordinates that are at most a side apart differ by one at most. -/
theorem real_floorInt64_le {x y side : ℝ} (hside : 0 < side) (h : x - y ≤ side) :
    (floorInt64 (x / side)).toInt ≤ (floorInt64 (y / side)).toInt + 1 := by
  have hquotient : x / side ≤ y / side + 1 := by
    rw [div_add_one hside.ne']
    exact div_le_div_of_nonneg_right (by linarith) hside.le
  have hfloor : ⌊x / side⌋ ≤ ⌊y / side⌋ + 1 := by
    rw [← Int.floor_add_one]
    exact Int.floor_mono hquotient
  show (Shape.clampInt64 ⌊x / side⌋).toInt ≤ (Shape.clampInt64 ⌊y / side⌋).toInt + 1
  rw [Shape.toInt_clampInt64, Shape.toInt_clampInt64]
  omega

end Scalar

namespace Vec3

theorem norm_le_iff {v : Vec3 ℝ} {r : ℝ} (hr : 0 ≤ r) : v.norm ≤ r ↔ v.normSquared ≤ r * r := by
  unfold norm
  rw [Scalar.real_sqrt, Real.sqrt_le_iff, ← sq]
  exact and_iff_right hr

/-- No coordinate is larger than the norm. -/
theorem abs_le_of_norm_le {v : Vec3 ℝ} {r : ℝ} (h : v.norm ≤ r) : |v.x| ≤ r ∧ |v.y| ≤ r ∧ |v.z| ≤ r := by
  have hr : 0 ≤ r := (Real.sqrt_nonneg _).trans h
  have hsum : v.x * v.x + v.y * v.y + v.z * v.z ≤ r * r := (norm_le_iff hr).mp h
  have hx := mul_self_nonneg v.x
  have hy := mul_self_nonneg v.y
  have hz := mul_self_nonneg v.z
  exact ⟨abs_le_of_sq_le_sq (by nlinarith) hr, abs_le_of_sq_le_sq (by nlinarith) hr,
    abs_le_of_sq_le_sq (by nlinarith) hr⟩

end Vec3

/-- **Points within the side of a cell** lie in adjacent cells. -/
theorem Cell.adjacent_of_norm_le {side : ℝ} (hside : 0 < side) {p query : Vec3 ℝ} (h : (p - query).norm ≤ side) :
    (Cell.ofPoint side query).Adjacent (Cell.ofPoint side p) := by
  have hcoordinate : ∀ {x y : ℝ}, |x - y| ≤ side →
      (Scalar.floorInt64 (x / side)).toInt ≤ (Scalar.floorInt64 (y / side)).toInt + 1 ∧
        (Scalar.floorInt64 (y / side)).toInt ≤ (Scalar.floorInt64 (x / side)).toInt + 1 := by
    intro x y hxy
    obtain ⟨hlow, hhigh⟩ := abs_le.mp hxy
    exact ⟨Scalar.real_floorInt64_le hside hhigh, Scalar.real_floorInt64_le hside (by linarith)⟩
  obtain ⟨hx, hy, hz⟩ := Vec3.abs_le_of_norm_le h
  exact ⟨hcoordinate hx, hcoordinate hy, hcoordinate hz⟩

/-! ## The closest of some points -/

namespace NeighbourGrid

/-- What is held after some points: the closest of those within the bound, with its squared distance. -/
def Closest (bound : ℝ) (query : Vec3 ℝ) (points : List (Vec3 ℝ)) : Option (ℝ × Vec3 ℝ) → Prop
  | none => ∀ p ∈ points, bound < (p - query).normSquared
  | some (d, p) => p ∈ points ∧ d = (p - query).normSquared ∧ d ≤ bound ∧ ∀ q ∈ points, d ≤ (q - query).normSquared

theorem closer_eq (bound : ℝ) (query : Vec3 ℝ) (held : Option (ℝ × Vec3 ℝ)) (p : Vec3 ℝ) :
    closer bound query held p
      = if (p - query).normSquared ≤ bound ∧ ∀ best ∈ held, (p - query).normSquared < best.1 then
          some ((p - query).normSquared, p)
        else held := by
  unfold closer
  refine if_congr ?_ rfl rfl
  cases held with
  | none => simp
  | some best => simp

/-- **One more point** replaces what is held if it is within the bound and closer. -/
theorem Closest.closer {bound : ℝ} {query : Vec3 ℝ} {points : List (Vec3 ℝ)} {held : Option (ℝ × Vec3 ℝ)}
    (h : Closest bound query points held) (p : Vec3 ℝ) :
    Closest bound query (points ++ [p]) (closer bound query held p) := by
  have hsplit : ∀ {P : Vec3 ℝ → Prop}, (∀ q ∈ points, P q) → P p → ∀ q ∈ points ++ [p], P q := by
    intro P hpoints hp q hq
    rcases List.mem_append.mp hq with hq | hq
    · exact hpoints q hq
    · exact List.mem_singleton.mp hq ▸ hp
  rw [closer_eq]
  cases held with
  | none =>
    split_ifs with hd
    · exact ⟨List.mem_append_right _ (List.mem_singleton_self p), rfl, hd.1,
        hsplit (fun q hq => hd.1.trans (h q hq).le) le_rfl⟩
    · refine hsplit h (lt_of_not_ge fun hle => hd ⟨hle, ?_⟩)
      exact fun _ hbest => nomatch hbest
  | some best =>
    obtain ⟨hmem, hsquare, hbound, hleast⟩ := h
    split_ifs with hd
    · have hcloser := hd.2 best rfl
      exact ⟨List.mem_append_right _ (List.mem_singleton_self p), rfl, hd.1,
        hsplit (fun q hq => hcloser.le.trans (hleast q hq)) le_rfl⟩
    · refine ⟨List.mem_append_left _ hmem, hsquare, hbound, hsplit hleast ?_⟩
      -- what does not replace the one held is beyond the bound, or no closer
      by_cases hle : (p - query).normSquared ≤ bound
      · exact le_of_not_gt fun hlt => hd ⟨hle, fun _ hbest => Option.some.inj hbest ▸ hlt⟩
      · exact hbound.trans (not_le.mp hle).le

theorem closest_foldl (bound : ℝ) (query : Vec3 ℝ) (points : List (Vec3 ℝ)) :
    Closest bound query points (points.foldl (NeighbourGrid.closer bound query) none) := by
  induction points using List.reverseRecOn with
  | nil => exact fun _ hmem => nomatch hmem
  | append_singleton points p ih =>
    rw [List.foldl_concat]
    exact ih.closer p

/-! ## The nearest of a cloud -/

variable {S : Type} [Scalar S] [Precision S ℝ]

/-- A point that is close is looked at, though the cells around the query may be cut off or wrap around. -/
theorem mem_candidates_of_norm_le {cloud : Cloud S} {side : ℝ} (hside : 0 < side) {query p : Vec3 ℝ}
    (hp : p ∈ validPoints cloud) (h : (p - query).norm ≤ side) : p ∈ (ofCloud cloud side).candidates query :=
  mem_candidates_iff.mpr ⟨hp, Cell.mem_neighbourhood_of_adjacent (Cell.adjacent_of_norm_le hside h)⟩

theorem mem_validPoints {cloud : Cloud S} {p : Vec3 ℝ} :
    p ∈ validPoints cloud ↔ ∃ stored ∈ cloud.validPoints, stored.widen = p :=
  List.mem_map

/-- **The search in the cells is the search of the whole cloud.** There is an answer exactly if some valid point of the
cloud is at most the side of a cell away, and the answer is a valid point that none is nearer than. This holds
for all queries and points, also those whose cells are at the ends of the range or beyond it. -/
theorem nearest?_exhaustive (cloud : Cloud S) {side : ℝ} (hside : 0 < side) (query : Vec3 ℝ) :
    (((ofCloud cloud side).nearest? query).isSome = true ↔
      ∃ p ∈ cloud.validPoints, ((p.widen : Vec3 ℝ) - query).norm ≤ side) ∧
    ∀ found, (ofCloud cloud side).nearest? query = some found →
      (∃ p ∈ cloud.validPoints, p.widen = found) ∧ (found - query).norm ≤ side ∧
        ∀ p ∈ cloud.validPoints, (found - query).norm ≤ ((p.widen : Vec3 ℝ) - query).norm := by
  have hclosest : Closest (side * side) query ((ofCloud cloud side).candidates query)
      (((ofCloud cloud side).candidates query).foldl (closer (side * side) query) none) := closest_foldl _ _ _
  have hnearest : (ofCloud cloud side).nearest? query
      = (((ofCloud cloud side).candidates query).foldl (closer (side * side) query) none).map Prod.snd := rfl
  have hclose : ∀ p ∈ cloud.validPoints, ((p.widen : Vec3 ℝ) - query).norm ≤ side →
      p.widen ∈ (ofCloud cloud side).candidates query := fun p hp hle =>
    mem_candidates_of_norm_le hside (mem_validPoints.mpr ⟨p, hp, rfl⟩) hle
  rw [hnearest]
  cases hheld : ((ofCloud cloud side).candidates query).foldl (closer (side * side) query) none with
  | none =>
    rw [hheld] at hclosest
    refine ⟨iff_of_false Bool.false_ne_true ?_, fun _ hfound => nomatch hfound⟩
    rintro ⟨p, hp, hle⟩
    exact absurd ((Vec3.norm_le_iff hside.le).mp hle) (hclosest _ (hclose p hp hle)).not_ge
  | some best =>
    rw [hheld] at hclosest
    obtain ⟨hmem, hsquare, hbound, hleast⟩ := hclosest
    obtain ⟨p, hp, hwiden⟩ := mem_validPoints.mp (mem_candidates_iff.mp hmem).1
    have hwithin : (best.2 - query).norm ≤ side := (Vec3.norm_le_iff hside.le).mpr (hsquare ▸ hbound)
    refine ⟨iff_of_true rfl ⟨p, hp, hwiden ▸ hwithin⟩, ?_⟩
    intro found hfound
    obtain rfl := Option.some.inj hfound
    refine ⟨⟨p, hp, hwiden⟩, hwithin, fun q hq => ?_⟩
    -- what is not looked at is beyond the bound, and so further away
    by_cases hle : ((q.widen : Vec3 ℝ) - query).norm ≤ side
    · exact Real.sqrt_le_sqrt (hsquare ▸ hleast _ (hclose q hq hle))
    · exact hwithin.trans (not_le.mp hle).le

/-- A placeholder, and a point at the origin. -/
noncomputable def onePlaceholder : Cloud Stored := ⟨#[.invalid, .zero], 0⟩

/-- The point is found from exactly the side of a cell away, across the border of two cells. -/
theorem nearest?_exhaustive_at_side :
    (0 : ℝ) < 1 ∧ (ofCloud onePlaceholder (1 : ℝ)).nearest? ⟨-1, 0, 0⟩ = some .zero := by
  obtain ⟨hfound, hnearest⟩ := nearest?_exhaustive onePlaceholder one_pos ⟨-1, 0, 0⟩
  have hvalid : onePlaceholder.validPoints = [.zero] := rfl
  have hnorm : (((Vec3.zero : Vec3 Stored).widen : Vec3 ℝ) - ⟨-1, 0, 0⟩).norm ≤ 1 := by
    rw [Vec3.norm_le_iff zero_le_one]
    show ((0 : ℝ) - -1) * (0 - -1) + (0 - 0) * (0 - 0) + (0 - 0) * (0 - 0) ≤ 1 * 1
    norm_num
  obtain ⟨found, hsome⟩ := Option.isSome_iff_exists.mp
    (hfound.mpr ⟨.zero, hvalid ▸ List.mem_singleton_self _, hnorm⟩)
  obtain ⟨⟨p, hp, hwiden⟩, -⟩ := hnearest found hsome
  rw [hvalid, List.mem_singleton] at hp
  subst hp
  exact ⟨one_pos, hsome.trans (congrArg some hwiden.symm)⟩

end NeighbourGrid

end StereoMapping
