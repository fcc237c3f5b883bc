import StereoMapping.Error
import StereoMapping.Geometry.Vector

/-!
# `Camera.Rig` — pinhole camera and rectified stereo pair

A camera projects a point `(x, y, z)` of its frame to the homogeneous pixel
`(fx x + s y + cx z, fy y + cy z, z)`, where `fx` and `fy` are the focal length scaled along each axis. A rig
is two such cameras, the right one moved by the baseline along the first axis: the disparity of a point,
the difference of its two columns, is `fx b / z`.
-/

namespace StereoMapping

variable {S : Type} [Scalar S]

/-- Intrinsic parameters of a pinhole camera. -/
structure Intrinsics (S : Type) where
  /-- Principal point, in pixels. -/
  centre : Vec2 S
  /-- Focal length, in pixels. -/
  focalLength : S
  /-- Scaling of the focal length along each axis. -/
  scaling : Vec2 S
  skew : S

namespace Intrinsics

def default : Intrinsics S := ⟨⟨Scalar.ofNat 320, Scalar.ofNat 240⟩, Scalar.ofNat 500, ⟨1, 1⟩, 0⟩

instance : Inhabited (Intrinsics S) := ⟨default⟩

/-- Focal length along the rows. -/
def fx (k : Intrinsics S) : S := k.focalLength * k.scaling.x

/-- Focal length along the columns. -/
def fy (k : Intrinsics S) : S := k.focalLength * k.scaling.y

/-- Projection matrix. -/
def matrix (k : Intrinsics S) : Mat3 S :=
  ⟨⟨k.fx, k.skew, k.centre.x⟩, ⟨0, k.fy, k.centre.y⟩, ⟨0, 0, 1⟩⟩

/-- Homogeneous pixel of a point. -/
def project (k : Intrinsics S) (p : Vec3 S) : Vec3 S :=
  ⟨k.fx * p.x + k.skew * p.y + k.centre.x * p.z, k.fy * p.y + k.centre.y * p.z, p.z⟩

/-- Point at a depth on the ray of a pixel. -/
def backProject (k : Intrinsics S) (pixel : Vec2 S) (depth : S) : Vec3 S :=
  let y := (pixel.y - k.centre.y) * depth / k.fy
  let x := ((pixel.x - k.centre.x) * depth - k.skew * y) / k.fx
  ⟨x, y, depth⟩

/-- Both focal lengths are finite and positive. -/
def validate (k : Intrinsics S) : Except Error Unit :=
  if Scalar.isFinite k.fx && Scalar.isFinite k.fy && Scalar.lt 0 k.fx && Scalar.lt 0 k.fy then pure ()
  else throw (.invalidConfiguration
    (.focalLengthsNotPositive (Scalar.numeral k.fx) (Scalar.numeral k.fy)))

end Intrinsics

/-- Two equal cameras, rectified. -/
structure StereoRig (S : Type) where
  intrinsics : Intrinsics S
  /-- Distance between the optical centres. -/
  baseline : S

namespace StereoRig

def default : StereoRig S := ⟨.default, 1⟩

instance : Inhabited (StereoRig S) := ⟨default⟩

/-- Point of the left camera's frame seen at a left pixel with a positive disparity. -/
def point? (rig : StereoRig S) (left : Vec2 S) (disparity : S) : Option (Vec3 S) :=
  if Scalar.lt 0 disparity then
    some (rig.intrinsics.backProject left (rig.intrinsics.fx * rig.baseline / disparity))
  else none

/-- Disparity of a point of the left camera's frame. -/
def disparity (rig : StereoRig S) (p : Vec3 S) : S := rig.intrinsics.fx * rig.baseline / p.z

def validate (rig : StereoRig S) : Except Error Unit := do
  rig.intrinsics.validate
  if !(Scalar.isFinite rig.baseline && Scalar.lt 0 rig.baseline) then
    throw (.invalidConfiguration (.baselineNotPositive (Scalar.numeral rig.baseline)))

end StereoRig

end StereoMapping
