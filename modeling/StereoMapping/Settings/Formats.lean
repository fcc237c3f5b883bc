import StereoMapping.Cloud.Registration
import StereoMapping.Cloud.VoxelMap
import StereoMapping.Correspondence.Closure
import StereoMapping.Image.Corner
import StereoMapping.Image.Disparity
import StereoMapping.Keypoint.Description
import StereoMapping.Keypoint.Matching
import StereoMapping.Settings.File
import StereoMapping.Window.PoseChain

/-!
# `Settings.Formats` — the names of the settings of each component

One list of fields for each kind of settings, in the order in which an array gives them.
-/

namespace StereoMapping

variable {S D : Type} [Scalar S] [Scalar D] [Precision S D]

/-! ## Alternatives -/

def FusionPolicy.codec : Codec FusionPolicy :=
  .variant [("KeepFirst", .keepFirst), ("Replace", .replace), ("Average", .average)]

def PoseCheck.codec : Codec PoseCheck :=
  .variant [("AnyPositiveComponent", .anyPositiveComponent), ("FiniteUnitNorm", .finiteUnitNorm)]

/-- Pixel matching: `"Exact"`, or an object that gives the tolerance. -/
def PixelMatching.codec : Codec (PixelMatching S) where
  read? j :=
    let exactly := (Codec.variant [("Exact", ())]).read? j |>.map fun _ => exact
    match j with
    | .object [(units, value)] =>
      if units.decode? = some "Tolerance".toList then (Codec.stored.read? value).map tolerance else exactly
    | _ => exactly
  write
    | exact => .ofText "Exact"
    | tolerance bound => .object [("Tolerance".toList.map Char.toNat, Codec.stored.write bound)]

/-! ## Cameras -/

/-- An array of two scalars. -/
def Vec2.codec : Codec (Vec2 S) where
  read? j := (Codec.stored.pair.read? j).map fun (x, y) => ⟨x, y⟩
  write p := Codec.stored.pair.write (p.x, p.y)

def Intrinsics.fields : List (Field (Intrinsics S)) :=
  [.of "principal_point" Vec2.codec centre fun v s => { s with centre := v },
   .of "focal_length" .stored focalLength fun v s => { s with focalLength := v },
   .of "scaling" Vec2.codec scaling fun v s => { s with scaling := v },
   .of "skew" .stored skew fun v s => { s with skew := v }]

instance : Settings (Intrinsics S) := ⟨.default, .record Intrinsics.fields .default, Intrinsics.validate⟩

def StereoRig.fields : List (Field (StereoRig S)) :=
  [.of "intrinsics" Settings.codec intrinsics fun v s => { s with intrinsics := v },
   .of "baseline" .stored baseline fun v s => { s with baseline := v }]

instance : Settings (StereoRig S) := ⟨.default, .record StereoRig.fields .default, StereoRig.validate⟩

/-- Settings of the triangulation: the cameras alone. -/
structure TriangulationSettings (S : Type) where
  intrinsics : Intrinsics S

namespace TriangulationSettings

def default : TriangulationSettings S := ⟨.default⟩

def fields : List (Field (TriangulationSettings S)) :=
  [.of "intrinsics" Settings.codec intrinsics fun v s => { s with intrinsics := v }]

instance : Settings (TriangulationSettings S) :=
  ⟨default, .record fields default, fun s => s.intrinsics.validate⟩

end TriangulationSettings

/-! ## Images -/

def StereoSettings.fields : List (Field (StereoSettings S)) :=
  [.of "rig" Settings.codec rig fun v s => { s with rig := v },
   .of "block_half_size" .count blockHalfSize fun v s => { s with blockHalfSize := v },
   .of "min_disparity" .count least fun v s => { s with least := v },
   .of "max_disparity" .count largest fun v s => { s with largest := v },
   .of "uniqueness_ratio" .stored uniqueness fun v s => { s with uniqueness := v }]

instance : Settings (StereoSettings S) :=
  ⟨.default, .record StereoSettings.fields .default, StereoSettings.validate⟩

def CornerSettings.fields : List (Field (CornerSettings S)) :=
  [.of "k" .stored sensitivity fun v s => { s with sensitivity := v },
   .of "threshold" .stored threshold fun v s => { s with threshold := v },
   .of "max_features" .count limit fun v s => { s with limit := v }]

instance : Settings (CornerSettings S) :=
  ⟨.default, .record CornerSettings.fields .default, CornerSettings.validate⟩

/-! ## Keypoints -/

def PatchSettings.fields : List (Field PatchSettings) :=
  [.of "half_size" .count halfSize fun v s => { s with halfSize := v }]

instance : Settings PatchSettings :=
  ⟨.default, .record PatchSettings.fields .default, PatchSettings.validate⟩

def MatchSettings.fields : List (Field (MatchSettings S)) :=
  [.of "ratio" .stored ratio fun v s => { s with ratio := v },
   .of "cross_check" .bool crossCheck fun v s => { s with crossCheck := v },
   .of "max_distance" (.optional .stored) maxDistance fun v s => { s with maxDistance := v }]

instance : Settings (MatchSettings S) :=
  ⟨.default, .record MatchSettings.fields .default, MatchSettings.validate⟩

/-! ## Alignment -/

def AlignmentSettings.fields : List (Field (AlignmentSettings S)) :=
  [.of "min_correspondences" .count minPairs fun v s => { s with minPairs := v },
   .of "max_rms_error" .stored maxError fun v s => { s with maxError := v }]

instance : Settings (AlignmentSettings S) :=
  ⟨.default, .record AlignmentSettings.fields .default, AlignmentSettings.validate⟩

def RegistrationSettings.fields : List (Field (RegistrationSettings S)) :=
  [.of "max_iterations" .count maxIterations fun v s => { s with maxIterations := v },
   .of "max_correspondence_distance" .stored maxDistance fun v s => { s with maxDistance := v },
   .of "translation_threshold" .stored translationThreshold fun v s => { s with translationThreshold := v },
   .of "rotation_threshold" .stored rotationThreshold fun v s => { s with rotationThreshold := v },
   .of "min_correspondences" .count minPairs fun v s => { s with minPairs := v }]

instance : Settings (RegistrationSettings S) :=
  ⟨.default, .record RegistrationSettings.fields .default, RegistrationSettings.validate⟩

end StereoMapping
