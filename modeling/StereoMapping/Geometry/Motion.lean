import StereoMapping.Geometry.Vector

/-!
# `Geometry.Motion` — quaternions and rigid motions

A rigid motion rotates by a unit quaternion, then translates. Nothing here normalises: a motion is given
its unit quaternion where it is built (`Geometry.Pose`, `Geometry.Alignment`), and products and inverses
of unit quaternions are unit.
-/

namespace StereoMapping

/-- A quaternion `x i + y j + z k + w`. -/
structure Quaternion (α : Type) where
  x : α
  y : α
  z : α
  w : α
  deriving DecidableEq, Inhabited

/-- Rotation by a unit quaternion followed by a translation. -/
structure Motion (α : Type) where
  rotation : Quaternion α
  translation : Vec3 α

variable {α : Type} [Scalar α]

namespace Quaternion

def identity : Quaternion α := ⟨0, 0, 0, 1⟩

/-- The imaginary part. -/
def imaginary (q : Quaternion α) : Vec3 α := ⟨q.x, q.y, q.z⟩

/-- Squared norm, the four squares added in two pairs. -/
def normSquared (q : Quaternion α) : α := (q.x * q.x + q.z * q.z) + (q.y * q.y + q.w * q.w)

def norm (q : Quaternion α) : α := Scalar.sqrt q.normSquared

/-- The quaternion divided by its norm. -/
def normalize (q : Quaternion α) : Quaternion α :=
  let n := q.norm
  ⟨q.x / n, q.y / n, q.z / n, q.w / n⟩

def conjugate (q : Quaternion α) : Quaternion α := ⟨-q.x, -q.y, -q.z, q.w⟩

def mul (a b : Quaternion α) : Quaternion α where
  x := a.w * b.x + a.x * b.w + a.y * b.z - a.z * b.y
  y := a.w * b.y - a.x * b.z + a.y * b.w + a.z * b.x
  z := a.w * b.z + a.x * b.y - a.y * b.x + a.z * b.w
  w := a.w * b.w - a.x * b.x - a.y * b.y - a.z * b.z

instance : Mul (Quaternion α) := ⟨mul⟩

/-- Rotation of a vector by a unit quaternion. -/
def rotate (q : Quaternion α) (v : Vec3 α) : Vec3 α :=
  let t := (q.imaginary.cross v).scale Scalar.two
  t.scale q.w + q.imaginary.cross t + v

/-- Angle of the rotation, between zero and a half turn. -/
def angle (q : Quaternion α) : α :=
  Scalar.atan2 q.imaginary.norm (Scalar.abs q.w) * Scalar.two

/-- Every component is finite. -/
def isFinite (q : Quaternion α) : Bool :=
  Scalar.isFinite q.x && Scalar.isFinite q.y && Scalar.isFinite q.z && Scalar.isFinite q.w

/-- Unit quaternion of a rotation matrix. The component computed first, from a square root, is positive:
the real one if the trace is positive, else the one of the largest diagonal entry. -/
def ofMatrix (m : Mat3 α) : Quaternion α :=
  let quarter : α := 1 / Scalar.ofNat 4
  let ⟨m00, m01, m02⟩ := m.row0
  let ⟨m10, m11, m12⟩ := m.row1
  let ⟨m20, m21, m22⟩ := m.row2
  let trace := m00 + m11 + m22
  if Scalar.lt 0 trace then
    let d := Scalar.sqrt (trace + 1) * Scalar.two
    ⟨(m21 - m12) / d, (m02 - m20) / d, (m10 - m01) / d, quarter * d⟩
  else if Scalar.lt m11 m00 && Scalar.lt m22 m00 then
    let d := Scalar.sqrt (1 + m00 - m11 - m22) * Scalar.two
    ⟨quarter * d, (m01 + m10) / d, (m02 + m20) / d, (m21 - m12) / d⟩
  else if Scalar.lt m22 m11 then
    let d := Scalar.sqrt (1 + m11 - m00 - m22) * Scalar.two
    ⟨(m01 + m10) / d, quarter * d, (m12 + m21) / d, (m02 - m20) / d⟩
  else
    let d := Scalar.sqrt (1 + m22 - m00 - m11) * Scalar.two
    ⟨(m02 + m20) / d, (m12 + m21) / d, quarter * d, (m10 - m01) / d⟩

end Quaternion

namespace Motion

def identity : Motion α := ⟨.identity, .zero⟩

/-- Image of a point. -/
def apply (m : Motion α) (p : Vec3 α) : Vec3 α := m.rotation.rotate p + m.translation

/-- Composition: first `b`, then `a`. -/
def mul (a b : Motion α) : Motion α where
  rotation := a.rotation * b.rotation
  translation := a.translation + a.rotation.rotate b.translation

instance : Mul (Motion α) := ⟨mul⟩

def inverse (m : Motion α) : Motion α where
  rotation := m.rotation.conjugate
  translation := m.rotation.conjugate.rotate (-m.translation)

end Motion

end StereoMapping
