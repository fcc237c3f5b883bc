import StereoMapping.Geometry.Vector

/-!
# `Correspondence.Basic` — matched pairs of points

A correspondence joins a point of a source, an image or a cloud, to a point of a sink, with a confidence.
One with an invalid end says that there is no match at its index.
-/

namespace StereoMapping

/-- Points that may be placeholders. -/
class Placed (P : Type) where
  /-- Whether the point is one, and no placeholder. -/
  isValid : P → Bool

instance {S : Type} [Scalar S] : Placed (Vec2 S) := ⟨Vec2.isValid⟩

instance {S : Type} [Scalar S] : Placed (Vec3 S) := ⟨Vec3.isValid⟩

/-- A matched pair of points. -/
structure Correspondence (P S : Type) where
  source : P
  sink : P
  /-- Confidence in the match, between zero and one. -/
  probability : S
  deriving DecidableEq, Inhabited

/-- Correspondences in order. -/
abbrev Correspondences (P S : Type) := Array (Correspondence P S)

namespace Correspondence

variable {P S : Type}

/-- Both ends are valid. -/
def isValid [Placed P] (c : Correspondence P S) : Bool :=
  Placed.isValid c.source && Placed.isValid c.sink

/-- Source and sink exchanged. -/
def flip (c : Correspondence P S) : Correspondence P S := { c with source := c.sink, sink := c.source }

end Correspondence

namespace Correspondences

variable {P S : Type}

/-- The valid correspondences in order, each with its index. -/
def valid [Placed P] (cs : Correspondences P S) : List (Correspondence P S × Nat) :=
  cs.toList.zipIdx.filter fun (c, _) => c.isValid

/-- Source and sink exchanged everywhere. -/
def flip (cs : Correspondences P S) : Correspondences P S := cs.map Correspondence.flip

end Correspondences

end StereoMapping
