import StereoMapping.Cloud.VoxelMap
import StereoMapping.Odometry.Role
import StereoMapping.Settings.Formats

/-!
# `Odometry.DenseChain` — poses by registration of dense clouds onto the map

The first cloud with a valid point defines the frame of the map. Each further cloud is registered onto the part
of the map around the last pose, which gives the motion since then, and is added at the new pose.

## Contents
- `DenseSettings` and its check.
- `DenseModules`, `DenseTrack`, `DenseChain`: `setup`, `run`.
-/

namespace StereoMapping

variable {S D : Type} [Scalar S] [Scalar D] [Precision S D]

/-! ## Settings -/

/-- Settings of the chain. -/
structure DenseSettings (S : Type) where
  /-- Radius of the part of the map that is registered onto and published. -/
  searchRadius : S
  /-- Side of the cells of the map. -/
  resolution : S
  fusionPolicy : FusionPolicy

namespace DenseSettings

def default : DenseSettings S where
  searchRadius := Scalar.ofNat 20
  resolution := Scalar.ofNumeral (.finite false 1 (-2))
  fusionPolicy := .keepFirst

instance : Inhabited (DenseSettings S) := ⟨default⟩

def validate (s : DenseSettings S) : Except Error Unit := do
  checkResolution s.resolution
  checkRadius s.searchRadius

def fields : List (Field (DenseSettings S)) :=
  [.of "search_radius" .stored searchRadius fun v s => { s with searchRadius := v },
   .of "point_cloud_map_resolution" .stored resolution fun v s => { s with resolution := v },
   .of "fusion_policy" FusionPolicy.codec fusionPolicy fun v s => { s with fusionPolicy := v }]

instance : Settings (DenseSettings S) := ⟨default, .record fields default, validate⟩

end DenseSettings

/-! ## Components -/

/-- The components of the chain. -/
structure DenseModules (S D : Type) : Type 1 where
  leftFilter : Option (ComponentOf S D .imageFiltering)
  rightFilter : Option (ComponentOf S D .imageFiltering)
  reconstructor : ComponentOf S D .stereoReconstruction
  registrator : ComponentOf S D .registration

namespace DenseModules

def roles : List Role :=
  [.optional "leftFilter" .imageFiltering,
   .optional "rightFilter" .imageFiltering,
   .required "reconstructor3d" .stereoReconstruction,
   .required "registrator3d" .registration]

/-- Takes the components out of a registry. -/
def taking : Registry.Taking S D (DenseModules S D) := do
  let leftFilter ← Registry.takingOptional "leftFilter" .imageFiltering
  let rightFilter ← Registry.takingOptional "rightFilter" .imageFiltering
  let reconstructor ← Registry.taking "reconstructor3d" .stereoReconstruction
  let registrator ← Registry.taking "registrator3d" .registration
  return ⟨leftFilter, rightFilter, reconstructor, registrator⟩

/-- The dense cloud of a stereo pair. -/
def observe (m : DenseModules S D) (left right : Frame) : DenseModules S D × Cloud S :=
  let (leftFilter, left) := Component.runOptional m.leftFilter left left
  let (rightFilter, right) := Component.runOptional m.rightFilter right right
  let (reconstructor, cloud) := m.reconstructor.run (left, right)
  ({ m with leftFilter := leftFilter, rightFilter := rightFilter, reconstructor := reconstructor }, cloud)

end DenseModules

/-! ## State between pairs -/

/-- What the chain keeps from pair to pair, and what it publishes. -/
structure DenseTrack (S D : Type) where
  map : VoxelMap S D
  mapStarted : Bool
  /-- Last published pose. -/
  pose : Pose D
  /-- Part of the map around it. -/
  cloud : Cloud S
  /-- Whether the last pair was located. -/
  success : Bool

namespace DenseTrack

/-- The track before any pair. -/
def create (settings : DenseSettings S) : Except Error (DenseTrack S D) := do
  return ⟨← VoxelMap.create settings.resolution settings.fusionPolicy, false, .identity, .empty, false⟩

/-- Adds a cloud to the map at a pose, and publishes that pose with the part of the map around it. What the
map was given before a refusal stays there. -/
def publish (t : DenseTrack S D) (settings : DenseSettings S) (cloud : Cloud S) (pose : Pose D) :
    DenseTrack S D × Except Error Unit :=
  match t.map.addCloud cloud pose with
  | (map, .error e) => ({ t with map := map }, .error e)
  | (map, .ok _) =>
    match map.sceneAt pose settings.searchRadius with
    | .error e => ({ t with map := map }, .error e)
    | .ok scene => ({ t with map := map, pose := pose, cloud := scene, success := true }, .ok ())

end DenseTrack

/-! ## The chain -/

/-- The chain: components, inputs and state. -/
structure DenseChain (S D : Type) : Type 1 where
  settings : DenseSettings S
  modules : DenseModules S D
  left : Frame
  right : Frame
  track : DenseTrack S D

namespace DenseChain

/-- The chain of a registry, and what remains of the registry. -/
def setup (settings : DenseSettings S) (registry : Registry S D) :
    Registry S D × Except Error (DenseChain S D) :=
  registry.assemble settings.validate DenseModules.roles DenseModules.taking fun modules =>
    (DenseTrack.create settings).map fun track => ⟨settings, modules, .empty, .empty, track⟩

/-- Publishes a cloud at a pose. -/
def publish (c : DenseChain S D) (cloud : Cloud S) (pose : Pose D) : DenseChain S D × Except Error Unit :=
  let (track, result) := c.track.publish c.settings cloud pose
  ({ c with track := track }, result)

/-- Registers a cloud onto the map around the last pose. -/
def register (c : DenseChain S D) (cloud : Cloud S) : DenseChain S D × Except Error Unit :=
  match c.track.map.sceneAt c.track.pose c.settings.searchRadius with
  | .error e => (c, .error e)
  | .ok scene =>
    let (registrator, result) := c.modules.registrator.run (cloud, scene, some .identity)
    let c := { c with modules := { c.modules with registrator := registrator } }
    if result.success then
      match c.track.pose.compose? result.transform with
      | some pose => c.publish cloud pose
      | none => (c, .error .invalidPose)
    else (c, .ok ())

/-- Processes the current pair of images. -/
def run (c : DenseChain S D) : DenseChain S D × Except Error Unit :=
  let (modules, cloud) := c.modules.observe c.left c.right
  let c := { c with modules := modules, track := { c.track with success := false } }
  if c.track.mapStarted then c.register cloud
  else if cloud.validPoints.isEmpty then (c, .ok ())
  else publish { c with track := { c.track with mapStarted := true } } cloud .identity

end DenseChain

end StereoMapping
