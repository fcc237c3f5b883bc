import StereoMapping.Geometry.Vector
import Std.Data.TreeMap

/-!
# `Cloud.Cell` — the cells of a cubic lattice

Space is cut into cubes of one side. A cube is named by the integer parts of its coordinates over that side,
which are brought into the range of 64-bit integers: points far out or at infinity fall into the last
cells. Cells are ordered by their first, then second, then third coordinate.
-/

namespace StereoMapping

/-- A cube of the lattice. -/
structure Cell where
  i : Int64
  j : Int64
  k : Int64
  deriving DecidableEq, Hashable, Inhabited

namespace Cell

instance : Ord Cell :=
  ⟨compareLex (compareOn Cell.i) (compareLex (compareOn Cell.j) (compareOn Cell.k))⟩

instance : Std.TransOrd Cell :=
  inferInstanceAs (Std.TransCmp
    (compareLex (compareOn Cell.i) (compareLex (compareOn Cell.j) (compareOn Cell.k))))

instance : Std.LawfulEqOrd Cell where
  eq_of_compare {a b} h := by
    have h : compareLex (compareOn Cell.i) (compareLex (compareOn Cell.j) (compareOn Cell.k)) a b
        = .eq := h
    simp only [compareLex, compareOn, Ordering.then_eq_eq, Std.compare_eq_iff_eq] at h
    obtain ⟨hi, hj, hk⟩ := h
    cases a; cases b; simp_all

/-- The cell of a point in the lattice of a side. -/
def ofPoint {α : Type} [Scalar α] (side : α) (p : Vec3 α) : Cell :=
  ⟨Scalar.floorInt64 (p.x / side), Scalar.floorInt64 (p.y / side), Scalar.floorInt64 (p.z / side)⟩

/-- The cell some steps away along each axis. Past the last cell it wraps around. -/
def offset (c : Cell) (di dj dk : Int64) : Cell := ⟨c.i + di, c.j + dj, c.k + dk⟩

/-- The cell and its 26 neighbours, in order. -/
def neighbourhood (c : Cell) : List Cell :=
  [-1, 0, 1].flatMap fun di => [-1, 0, 1].flatMap fun dj => [-1, 0, 1].map fun dk => c.offset di dj dk

end Cell

end StereoMapping
