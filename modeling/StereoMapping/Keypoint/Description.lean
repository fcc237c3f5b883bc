import StereoMapping.Image.Intensity
import StereoMapping.Image.Patch
import StereoMapping.Keypoint.Features

/-!
# `Keypoint.Description` — keypoints described by the patches around them

No keypoint is lost: one whose patch leaves the image, or whose description is refused, is kept without
descriptor, as are all of them when the frame has no intensities.
-/

namespace StereoMapping

variable {S : Type} [Scalar S]

namespace PatchSettings

/-- A description must fit in a descriptor. -/
def validate (s : PatchSettings) : Except Error Unit :=
  if descriptorCapacity < s.descriptionSize then
    throw (.invalidConfiguration (.patchTooLarge s.halfSize))
  else pure ()

end PatchSettings

namespace Features

/-- Appends a keypoint with the description of the patch around it, or without one. -/
def addPatch (halfSize : Nat) (image : Grid UInt8) (fs : Features (Vec2 S) S) (p : Vec2 S) :
    Features (Vec2 S) S :=
  match Patch.describe? image halfSize p with
  | none => fs.addPoint p
  | some components =>
    match fs.addDescribed p components with
    | .ok described => described
    | .error _ => fs.addPoint p

/-- The keypoints of a collection, described anew in a frame and appended to those `held`. Where the frame has no
intensities they take the place of those. -/
def describe (settings : PatchSettings) (frame : Frame) (keypoints held : Features (Vec2 S) S) :
    Features (Vec2 S) S :=
  match intensities frame with
  | none => ofPoints keypoints.points
  | some image => keypoints.points.foldl (addPatch settings.halfSize image) held

@[simp] theorem points_addPatch {halfSize : Nat} {image : Grid UInt8} {fs : Features (Vec2 S) S}
    {p : Vec2 S} : (fs.addPatch halfSize image p).points = fs.points ++ [p] := by
  unfold addPatch
  split
  · simp
  · split
    · exact points_of_addDescribed (by assumption)
    · simp

end Features

end StereoMapping
