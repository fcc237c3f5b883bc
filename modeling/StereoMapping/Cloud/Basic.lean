import StereoMapping.Geometry.Vector

/-!
# `Cloud.Basic` — point clouds

The order of the points matters: a producer gives one point for each of its inputs, so an index identifies
where a point came from. An invalid point says that there is none at its index.
-/

namespace StereoMapping

/-- Points of space in order, invalid ones as placeholders. -/
structure Cloud (S : Type) where
  points : Array (Vec3 S)
  /-- Time of acquisition, in microseconds. -/
  timestamp : Int64
  deriving DecidableEq

namespace Cloud

variable {S : Type}

def empty : Cloud S := ⟨#[], 0⟩

instance : Inhabited (Cloud S) := ⟨empty⟩

/-- The cloud of given points, without a time. -/
def ofPoints (points : Array (Vec3 S)) : Cloud S := ⟨points, 0⟩

def push (c : Cloud S) (p : Vec3 S) : Cloud S := { c with points := c.points.push p }

def append (c : Cloud S) (points : Array (Vec3 S)) : Cloud S := { c with points := c.points ++ points }

variable [Scalar S]

/-- Point at an index, if there is a valid one. -/
def validPoint? (c : Cloud S) (index : Nat) : Option (Vec3 S) := c.points[index]?.filter Vec3.isValid

/-- The valid points, in order. -/
def validPoints (c : Cloud S) : List (Vec3 S) := c.points.toList.filter Vec3.isValid

/-- The cloud without its placeholders. -/
def compact (c : Cloud S) : Cloud S := { c with points := c.validPoints.toArray }

end Cloud

end StereoMapping
