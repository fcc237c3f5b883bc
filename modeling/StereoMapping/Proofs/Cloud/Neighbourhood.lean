import Mathlib.Data.List.Basic
import Mathlib.Algebra.Group.Int.Defs
import StereoMapping.Cloud.NeighbourGrid

/-!
# `Proofs.Cloud.Neighbourhood` — the points in the cells around a query

A grid of points is asked for what lies in the cell of a query and in the 26 cells around it. Gathering the points by
cells loses none and doubles none, so the answer is the points of the cloud whose cell is one of these.

Cells have 64-bit coordinates, and steps from one to the next wrap around at the ends of the range. A step that is
needed to reach a cell never does: if two coordinates are one apart, the second is in the range and is reached. Steps
that leave the range lead to cells at the other end, which are visited for nothing. There are such steps exactly
from the cells at the ends.

## Contents
- `Cell.coordinates`, `Cell.IsInner`, `Cell.map_coordinates_neighbourhood_iff`: when all steps are exact.
- `Cell.Adjacent`, `Cell.mem_neighbourhood_of_adjacent`, `Cell.adjacent_of_mem_neighbourhood`.
- `NeighbourGrid.toList_bucket`, `NeighbourGrid.candidates_ofCloud`: the points of some cells.
-/

namespace StereoMapping

/-! ## Steps along one axis -/

/-- A step to the cell before or after, or none. -/
def unitSteps : List Int64 := [-1, 0, 1]

theorem mem_unitSteps {d : Int64} : d ∈ unitSteps ↔ d = -1 ∨ d = 0 ∨ d = 1 := by
  simp [unitSteps]

theorem toInt_unitStep {d : Int64} (hd : d ∈ unitSteps) : -1 ≤ d.toInt ∧ d.toInt ≤ 1 := by
  rcases mem_unitSteps.mp hd with rfl | rfl | rfl <;> decide

/-- A sum in the range is exact. -/
theorem toInt_add_of_range {a b : Int64} (hlow : -2 ^ 63 ≤ a.toInt + b.toInt) (hhigh : a.toInt + b.toInt < 2 ^ 63) :
    (a + b).toInt = a.toInt + b.toInt := by
  rw [Int64.toInt_add]
  exact Int.bmod_eq_of_le hlow hhigh

/-- **A coordinate that is at most one away is a step away**, whatever wraps around elsewhere. -/
theorem exists_unitStep {x y : Int64} (hhigh : y.toInt ≤ x.toInt + 1) (hlow : x.toInt ≤ y.toInt + 1) :
    ∃ d ∈ unitSteps, x + d = y := by
  have hmin := y.le_toInt
  have hmax := y.toInt_lt
  have hreach : ∀ d : Int64, x.toInt + d.toInt = y.toInt → x + d = y := by
    intro d hd
    rw [← Int64.toInt_inj, ← hd]
    exact toInt_add_of_range (hd ▸ hmin) (hd ▸ hmax)
  have hgap : y.toInt = x.toInt + -1 ∨ y.toInt = x.toInt + 0 ∨ y.toInt = x.toInt + 1 := by omega
  rcases hgap with h | h | h
  · exact ⟨-1, mem_unitSteps.mpr (.inl rfl), hreach (-1) h.symm⟩
  · exact ⟨0, mem_unitSteps.mpr (.inr (.inl rfl)), hreach 0 h.symm⟩
  · exact ⟨1, mem_unitSteps.mpr (.inr (.inr rfl)), hreach 1 h.symm⟩

/-- A coordinate that is neither the first nor the last of the range. -/
def IsInner (x : Int64) : Prop := Int64.minValue < x ∧ x < Int64.maxValue

instance (x : Int64) : Decidable (IsInner x) := inferInstanceAs (Decidable (_ ∧ _))

/-- **Steps are exact** away from the ends of the range. -/
theorem toInt_add_unitStep {x d : Int64} (hx : IsInner x) (hd : d ∈ unitSteps) :
    (x + d).toInt = x.toInt + d.toInt := by
  obtain ⟨hmin, hmax⟩ := hx
  rw [Int64.lt_iff_toInt_lt, Int64.toInt_minValue] at hmin
  rw [Int64.lt_iff_toInt_lt, Int64.toInt_maxValue] at hmax
  have hunit := toInt_unitStep hd
  exact toInt_add_of_range (by omega) (by omega)

/-- From the ends of the range a step leads out of it. -/
theorem isInner_of_exact {x : Int64} (hback : (x + -1).toInt = x.toInt + (-1 : Int64).toInt)
    (hforth : (x + 1).toInt = x.toInt + (1 : Int64).toInt) : IsInner x := by
  have hmin := x.le_toInt
  have hmax := x.toInt_lt
  have hback' := (x + -1).le_toInt
  have hforth' := (x + 1).toInt_lt
  have hone : (1 : Int64).toInt = 1 := rfl
  have hminus : (-1 : Int64).toInt = -1 := rfl
  unfold IsInner
  rw [Int64.lt_iff_toInt_lt, Int64.lt_iff_toInt_lt, Int64.toInt_minValue, Int64.toInt_maxValue]
  omega

namespace Cell

/-! ## Cells around a cell -/

/-- The coordinates as unbounded integers. -/
def coordinates (c : Cell) : Int × Int × Int := (c.i.toInt, c.j.toInt, c.k.toInt)

/-- The 27 cells around one and with it, in order, of a lattice without ends. -/
def around (c : Int × Int × Int) : List (Int × Int × Int) :=
  [-1, 0, 1].flatMap fun di => [-1, 0, 1].flatMap fun dj => [-1, 0, 1].map fun dk =>
    (c.1 + di, c.2.1 + dj, c.2.2 + dk)

/-- No coordinate is at an end of the range. -/
structure IsInner (c : Cell) : Prop where
  i : StereoMapping.IsInner c.i
  j : StereoMapping.IsInner c.j
  k : StereoMapping.IsInner c.k

theorem neighbourhood_eq (c : Cell) : c.neighbourhood =
    unitSteps.flatMap fun di => unitSteps.flatMap fun dj => unitSteps.map fun dk => c.offset di dj dk := rfl

theorem mem_neighbourhood {c other : Cell} :
    other ∈ c.neighbourhood ↔ ∃ di ∈ unitSteps, ∃ dj ∈ unitSteps, ∃ dk ∈ unitSteps, c.offset di dj dk = other := by
  simp only [neighbourhood_eq, List.mem_flatMap, List.mem_map]

/-- **No sum overflows** among the 27 cells around a cell exactly if it is at no end of the range. -/
theorem map_coordinates_neighbourhood_iff {c : Cell} :
    c.neighbourhood.map coordinates = around c.coordinates ↔ c.IsInner := by
  constructor
  · intro h
    -- the first of these cells is one step back along each axis, and the last one step forth
    have hfirst : (c.offset (-1) (-1) (-1)).coordinates = (c.i.toInt + -1, c.j.toInt + -1, c.k.toInt + -1) :=
      Option.some.inj (congrArg (·[0]?) h)
    have hlast : (c.offset 1 1 1).coordinates = (c.i.toInt + 1, c.j.toInt + 1, c.k.toInt + 1) :=
      Option.some.inj (congrArg (·[26]?) h)
    obtain ⟨hi, hjk⟩ := Prod.mk.inj hfirst
    obtain ⟨hj, hk⟩ := Prod.mk.inj hjk
    obtain ⟨hi', hjk'⟩ := Prod.mk.inj hlast
    obtain ⟨hj', hk'⟩ := Prod.mk.inj hjk'
    exact ⟨isInner_of_exact hi hi', isInner_of_exact hj hj', isInner_of_exact hk hk'⟩
  · rintro ⟨hi, hj, hk⟩
    have hoffset : ∀ di ∈ unitSteps, ∀ dj ∈ unitSteps, ∀ dk ∈ unitSteps, (c.offset di dj dk).coordinates
        = (c.i.toInt + di.toInt, c.j.toInt + dj.toInt, c.k.toInt + dk.toInt) := by
      intro di hdi dj hdj dk hdk
      unfold coordinates offset
      rw [toInt_add_unitStep hi hdi, toInt_add_unitStep hj hdj, toInt_add_unitStep hk hdk]
    calc c.neighbourhood.map coordinates
        = unitSteps.flatMap fun di => unitSteps.flatMap fun dj => unitSteps.map fun dk =>
            (c.offset di dj dk).coordinates := by
          simp only [neighbourhood_eq, List.map_flatMap, List.map_map, Function.comp_def]
      _ = unitSteps.flatMap fun di => unitSteps.flatMap fun dj => unitSteps.map fun dk =>
            (c.i.toInt + di.toInt, c.j.toInt + dj.toInt, c.k.toInt + dk.toInt) :=
          List.flatMap_congr fun di hdi => List.flatMap_congr fun dj hdj => List.map_congr_left fun dk hdk =>
            hoffset di hdi dj hdj dk hdk
      _ = around c.coordinates := rfl

/-- Coordinates that differ by at most one along each axis. -/
structure Adjacent (c other : Cell) : Prop where
  i : other.i.toInt ≤ c.i.toInt + 1 ∧ c.i.toInt ≤ other.i.toInt + 1
  j : other.j.toInt ≤ c.j.toInt + 1 ∧ c.j.toInt ≤ other.j.toInt + 1
  k : other.k.toInt ≤ c.k.toInt + 1 ∧ c.k.toInt ≤ other.k.toInt + 1

/-- **No adjacent cell is missed**, also at the ends of the range. -/
theorem mem_neighbourhood_of_adjacent {c other : Cell} (h : c.Adjacent other) : other ∈ c.neighbourhood := by
  obtain ⟨di, hdi, hi⟩ := exists_unitStep h.i.1 h.i.2
  obtain ⟨dj, hdj, hj⟩ := exists_unitStep h.j.1 h.j.2
  obtain ⟨dk, hdk, hk⟩ := exists_unitStep h.k.1 h.k.2
  refine mem_neighbourhood.mpr ⟨di, hdi, dj, hdj, dk, hdk, ?_⟩
  unfold offset
  rw [hi, hj, hk]

/-- No other cell is visited, except from the ends of the range. -/
theorem adjacent_of_mem_neighbourhood {c other : Cell} (hc : c.IsInner) (h : other ∈ c.neighbourhood) :
    c.Adjacent other := by
  obtain ⟨di, hdi, dj, hdj, dk, hdk, rfl⟩ := mem_neighbourhood.mp h
  have hi := toInt_add_unitStep hc.i hdi
  have hj := toInt_add_unitStep hc.j hdj
  have hk := toInt_add_unitStep hc.k hdk
  have hdi := toInt_unitStep hdi
  have hdj := toInt_unitStep hdj
  have hdk := toInt_unitStep hdk
  constructor <;> (unfold offset; dsimp only; omega)

end Cell

/-! ## Points gathered by cells -/

namespace NeighbourGrid

variable {S D : Type} [Scalar S] [Scalar D] [Precision S D]

omit [Scalar S] [Precision S D] in
/-- What a cell holds after more points are gathered. -/
theorem toList_getD_foldl (side : D) (entries : List (Vec3 D × Nat)) (cells : Std.HashMap Cell (Array Nat))
    (c : Cell) :
    ((entries.foldl (fun cells (p, index) =>
        cells.alter (Cell.ofPoint side p) fun held => some ((held.getD #[]).push index)) cells).getD c #[]).toList
      = (cells.getD c #[]).toList ++ (entries.filter fun e => Cell.ofPoint side e.1 = c).map Prod.snd := by
  induction entries generalizing cells with
  | nil => simp
  | cons e rest ih =>
    obtain ⟨p, index⟩ := e
    rw [List.foldl_cons, ih, Std.HashMap.getD_alter]
    by_cases hc : Cell.ofPoint side p = c
    · subst hc
      rw [if_pos (beq_self_eq_true _), List.filter_cons, if_pos (decide_eq_true rfl), List.map_cons,
        Option.getD_some, ← Std.HashMap.getD_eq_getD_getElem?, Array.toList_push, List.append_assoc]
      rfl
    · rw [if_neg (fun h => hc (eq_of_beq h)), List.filter_cons, if_neg (fun h => hc (of_decide_eq_true h))]

omit [Scalar S] [Precision S D] in
/-- **The points of a cell**, by their indices, are those that fall into it, in order. -/
theorem toList_bucket (side : D) (points : List (Vec3 D)) (c : Cell) :
    ((bucket side points).getD c #[]).toList
      = (points.zipIdx.filter fun e => Cell.ofPoint side e.1 = c).map Prod.snd := by
  unfold bucket
  rw [toList_getD_foldl, Std.HashMap.getD_empty]
  rfl

/-- **Candidates** are the valid points of the 27 cells, cell by cell. -/
theorem candidates_ofCloud (cloud : Cloud S) (side : D) (query : Vec3 D) :
    (ofCloud cloud side).candidates query = (Cell.ofPoint side query).neighbourhood.flatMap fun c =>
      (validPoints cloud).filter fun p => Cell.ofPoint side p = c := by
  unfold candidates
  refine List.flatMap_congr fun c _ => ?_
  have hread : ∀ e ∈ (validPoints cloud).zipIdx, (ofCloud cloud side).points[e.2]? = some e.1 := by
    intro e he
    exact List.getElem?_toArray.trans (List.mem_zipIdx_iff_getElem?.mp he)
  calc ((bucket side (validPoints cloud)).getD c #[]).toList.filterMap (fun index => (ofCloud cloud side).points[index]?)
      = ((validPoints cloud).zipIdx.filter fun e => Cell.ofPoint side e.1 = c).filterMap
          fun e => (ofCloud cloud side).points[e.2]? := by
        rw [toList_bucket, List.filterMap_map]
        rfl
    _ = ((validPoints cloud).zipIdx.filter fun e => Cell.ofPoint side e.1 = c).filterMap (some ∘ Prod.fst) :=
        List.filterMap_congr fun e he => hread e (List.mem_of_mem_filter he)
    _ = ((validPoints cloud).zipIdx.map Prod.fst).filter fun p => Cell.ofPoint side p = c := by
        rw [List.filterMap_eq_map, List.filter_map]
        rfl
    _ = (validPoints cloud).filter fun p => Cell.ofPoint side p = c := by rw [List.zipIdx_map_fst]

theorem mem_candidates_iff {cloud : Cloud S} {side : D} {query p : Vec3 D} :
    p ∈ (ofCloud cloud side).candidates query ↔
      p ∈ validPoints cloud ∧ Cell.ofPoint side p ∈ (Cell.ofPoint side query).neighbourhood := by
  rw [candidates_ofCloud]
  simp only [List.mem_flatMap, List.mem_filter, decide_eq_true_eq]
  constructor
  · rintro ⟨c, hc, hp, rfl⟩
    exact ⟨hp, hc⟩
  · rintro ⟨hp, hc⟩
    exact ⟨_, hc, hp, rfl⟩

end NeighbourGrid

end StereoMapping
