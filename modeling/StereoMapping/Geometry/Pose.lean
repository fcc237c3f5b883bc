import StereoMapping.Geometry.Motion

/-!
# `Geometry.Pose` — position and orientation of a camera

A pose keeps its orientation quaternion as it was given, of any norm. It acts as a motion only when it is
valid; `Pose.toMotion?` is the one place where an orientation is normalised.

## Contents
- `Pose`, its validity and the two sanity checks on its orientation.
- `Pose.toMotion?`, `Pose.ofMotion`, `Pose.inverse?`, `Pose.compose?`.
-/

namespace StereoMapping

/-- Position and orientation of a frame of reference. -/
structure Pose (α : Type) where
  position : Vec3 α
  orientation : Quaternion α
  deriving DecidableEq, Inhabited

variable {α : Type} [Scalar α]

namespace Pose

/-- At the origin, without rotation. -/
def identity : Pose α := ⟨.zero, .identity⟩

/-- A pure translation. -/
def ofTranslation (x y z : α) : Pose α := ⟨⟨x, y, z⟩, .identity⟩

/-- All components are finite and the orientation is not zero. -/
def isValid (p : Pose α) : Bool :=
  p.position.isFinite && p.orientation.isFinite
    && Scalar.lt Scalar.epsilon p.orientation.normSquared

/-- Some component of the orientation is positive. -/
def hasPositiveComponent (p : Pose α) : Bool :=
  let q := p.orientation
  Scalar.lt 0 q.x || Scalar.lt 0 q.y || Scalar.lt 0 q.z || Scalar.lt 0 q.w

/-- The norm of the orientation is within `tolerance` of one. -/
def hasUnitOrientation (p : Pose α) (tolerance : α) : Bool :=
  Scalar.le (Scalar.abs (p.orientation.norm - 1)) tolerance

/-- Componentwise numerical equality. -/
def eq (a b : Pose α) : Bool :=
  Scalar.eq a.position.x b.position.x && Scalar.eq a.position.y b.position.y
    && Scalar.eq a.position.z b.position.z
    && Scalar.eq a.orientation.x b.orientation.x && Scalar.eq a.orientation.y b.orientation.y
    && Scalar.eq a.orientation.z b.orientation.z && Scalar.eq a.orientation.w b.orientation.w

/-- The motion that a valid pose describes. -/
def toMotion? (p : Pose α) : Option (Motion α) :=
  if p.isValid then some ⟨p.orientation.normalize, p.position⟩ else none

def ofMotion (m : Motion α) : Pose α := ⟨m.translation, m.rotation⟩

/-- Inverse of a valid pose. -/
def inverse? (p : Pose α) : Option (Pose α) := p.toMotion?.map fun m => ofMotion m.inverse

/-- Composition of valid poses: first `b`, then `a`. -/
def compose? (a b : Pose α) : Option (Pose α) :=
  match a.toMotion?, b.toMotion? with
  | some m, some n => some (ofMotion (m * n))
  | _, _ => none

/-- Components in the order of trajectory files: position, then `x y z w` of the orientation. -/
def components (p : Pose α) : List α :=
  [p.position.x, p.position.y, p.position.z,
   p.orientation.x, p.orientation.y, p.orientation.z, p.orientation.w]

/-- Readable text of a pose. -/
def render (p : Pose α) : String :=
  let text (a : α) : String := (Scalar.numeral a).render
  let t := p.position
  let q := p.orientation
  "position (" ++ text t.x ++ ", " ++ text t.y ++ ", " ++ text t.z ++ ") orientation ("
    ++ text q.x ++ ", " ++ text q.y ++ ", " ++ text q.z ++ ", " ++ text q.w ++ ")"

end Pose

/-! ## Sanity check of an estimated pose -/

/-- What is asked of an estimated pose before it is used. -/
inductive PoseCheck where
  /-- Some component of the orientation is positive. -/
  | anyPositiveComponent
  /-- The pose is valid and its orientation is unit, up to `PoseCheck.unitTolerance`. -/
  | finiteUnitNorm
  deriving DecidableEq, Inhabited

namespace PoseCheck

/-- Admitted deviation of a unit norm: one thousandth. -/
def unitTolerance : α := 1 / Scalar.ofNat 1000

def accepts (check : PoseCheck) (p : Pose α) : Bool :=
  match check with
  | anyPositiveComponent => p.hasPositiveComponent
  | finiteUnitNorm => p.isValid && p.hasUnitOrientation unitTolerance

end PoseCheck

end StereoMapping
