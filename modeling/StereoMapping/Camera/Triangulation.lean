import StereoMapping.Camera.Rig
import StereoMapping.Cloud.Basic
import StereoMapping.Correspondence.Basic

/-!
# `Camera.Triangulation` — points of matched pixels of a rectified pair

Of the pose of the right camera, only its distance to the left one matters: the baseline of the rig.
-/

namespace StereoMapping

variable {S D : Type} [Scalar S] [Scalar D] [Precision S D]

/-- Point of a match from the left to the right image, invalid if the match or its disparity is of no use. -/
def StereoRig.triangulate (rig : StereoRig S) (m : Correspondence (Vec2 S) S) : Vec3 S :=
  if m.isValid then (rig.point? m.source (m.source.x - m.sink.x)).getD .invalid else .invalid

/-- One point for each match, all of them invalid if the baseline is not a positive length. -/
def triangulate (intrinsics : Intrinsics S) (matchings : Correspondences (Vec2 S) S)
    (position : Vec3 D) : Array (Vec3 S) :=
  let baseline : S := narrow position.norm
  let isUsable := Scalar.isFinite baseline && Scalar.lt 0 baseline
  matchings.map fun m => if isUsable then StereoRig.triangulate ⟨intrinsics, baseline⟩ m else .invalid

end StereoMapping
