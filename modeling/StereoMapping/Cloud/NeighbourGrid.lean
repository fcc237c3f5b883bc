import StereoMapping.Cloud.Basic
import StereoMapping.Cloud.Cell
import Std.Data.HashMap

/-!
# `Cloud.NeighbourGrid` — nearest neighbours within a bounded distance

The valid points of a cloud are gathered in cells whose side is the largest distance of interest, so a
neighbour of a query lies in the cell of the query or next to it.
-/

namespace StereoMapping

/-- Points gathered by cells. -/
structure NeighbourGrid (D : Type) where
  /-- Side of a cell, and largest distance of a neighbour. -/
  side : D
  points : Array (Vec3 D)
  /-- Indices of the points of each cell, in order. -/
  cells : Std.HashMap Cell (Array Nat)

namespace NeighbourGrid

variable {S D : Type} [Scalar S] [Scalar D] [Precision S D]

/-- The valid points of a cloud. -/
def validPoints (cloud : Cloud S) : List (Vec3 D) := cloud.validPoints.map Vec3.widen

/-- The cells of some points. -/
def bucket (side : D) (points : List (Vec3 D)) : Std.HashMap Cell (Array Nat) :=
  points.zipIdx.foldl (fun cells (p, index) =>
    cells.alter (Cell.ofPoint side p) fun held => some ((held.getD #[]).push index)) ∅

/-- The grid over the valid points of a cloud. -/
def ofCloud (cloud : Cloud S) (side : D) : NeighbourGrid D :=
  let points := validPoints cloud
  ⟨side, points.toArray, bucket side points⟩

/-- The closer of the point held so far and one more, if that one is within the bound. -/
def closer (bound : D) (query : Vec3 D) (held : Option (D × Vec3 D)) (p : Vec3 D) : Option (D × Vec3 D) :=
  let d := (p - query).normSquared
  let isBetter := match held with
    | some (best, _) => Scalar.lt d best
    | none => true
  if Scalar.le d bound && isBetter then some (d, p) else held

/-- Points of the cells around a query. -/
def candidates (g : NeighbourGrid D) (query : Vec3 D) : List (Vec3 D) :=
  (Cell.ofPoint g.side query).neighbourhood.flatMap fun c =>
    (g.cells.getD c #[]).toList.filterMap fun index => g.points[index]?

/-- Closest point within the side of a cell. Of equally close ones the first met stays. -/
def nearest? (g : NeighbourGrid D) (query : Vec3 D) : Option (Vec3 D) :=
  ((g.candidates query).foldl (closer (g.side * g.side) query) none).map Prod.snd

end NeighbourGrid

end StereoMapping
