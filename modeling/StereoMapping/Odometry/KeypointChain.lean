import StereoMapping.Cloud.VoxelMap
import StereoMapping.Correspondence.Closure
import StereoMapping.Odometry.Role
import StereoMapping.Settings.Formats
import StereoMapping.Window.History

/-!
# `Odometry.KeypointChain` — poses from the keypoints of a sliding window

Each stereo pair gives a dense cloud and a cloud of triangulated keypoints. The keypoints of the current pair
are chained to those of every pair still in the window, and once the window is full an estimator recovers the
poses of all its cameras. The first full window goes into the map at once; from then on each success adds
the newest dense cloud, at the last published pose moved by the estimated motion since then.

## Contents
- `KeypointSettings` and its check.
- `KeypointModules`: the components, `observe`, `chainMaps`.
- `KeypointTrack`: what is kept between pairs; `past`, `advance`, `extendMap`, `publish`.
- `KeypointChain`: `setup`; `perceive` and `locate`, which make up `run`.
-/

namespace StereoMapping

variable {S D : Type} [Scalar S] [Scalar D] [Precision S D]

/-! ## Settings -/

/-- Settings of the chain. -/
structure KeypointSettings (S D : Type) where
  /-- Radius of the part of the map published with a pose. -/
  searchRadius : S
  /-- Side of the cells of the map. -/
  resolution : S
  /-- Stereo pairs in the window. -/
  windowSize : Nat
  /-- Distance between the cameras. -/
  baseline : D
  fusionPolicy : FusionPolicy
  pixelMatching : PixelMatching S
  /-- What is asked of the newest estimated pose. -/
  poseCheck : PoseCheck

namespace KeypointSettings

def default : KeypointSettings S D where
  searchRadius := Scalar.ofNat 20
  resolution := Scalar.ofNumeral (.finite false 1 (-2))
  windowSize := 4
  baseline := 1
  fusionPolicy := .keepFirst
  pixelMatching := .exact
  poseCheck := .anyPositiveComponent

instance : Inhabited (KeypointSettings S D) := ⟨default⟩

def validate (s : KeypointSettings S D) : Except Error Unit := do
  if s.windowSize < 2 then throw (.invalidConfiguration (.windowTooShort s.windowSize))
  checkResolution s.resolution
  checkRadius s.searchRadius
  if !(Scalar.lt 0 s.baseline && Scalar.isFinite s.baseline) then
    throw (.invalidConfiguration (.baselineNotPositive (Scalar.numeral s.baseline)))
  match s.pixelMatching with
  | .tolerance bound =>
    if !(Scalar.le 0 bound) then
      throw (.invalidConfiguration (.pixelToleranceNegative (Scalar.numeral bound)))
  | .exact => pure ()

def fields : List (Field (KeypointSettings S D)) :=
  [.of "search_radius" .stored searchRadius fun v s => { s with searchRadius := v },
   .of "point_cloud_map_resolution" .stored resolution fun v s => { s with resolution := v },
   .of "number_of_adjusted_stereo_pairs" .count windowSize fun v s => { s with windowSize := v },
   .of "baseline" .scalar baseline fun v s => { s with baseline := v },
   .of "fusion_policy" FusionPolicy.codec fusionPolicy fun v s => { s with fusionPolicy := v },
   .of "pixel_matching" PixelMatching.codec pixelMatching fun v s => { s with pixelMatching := v },
   .of "pose_validity" PoseCheck.codec poseCheck fun v s => { s with poseCheck := v }]

instance : Settings (KeypointSettings S D) := ⟨default, .record fields default, validate⟩

/-- Pose of the right camera in the frame of the left one. -/
def rightCamera (s : KeypointSettings S D) : Pose D := .ofTranslation (-s.baseline) 0 0

end KeypointSettings

/-! ## Components -/

/-- The components of the chain. -/
structure KeypointModules (S D : Type) : Type 1 where
  leftFilter : Option (ComponentOf S D .imageFiltering)
  rightFilter : Option (ComponentOf S D .imageFiltering)
  reconstructor : ComponentOf S D .stereoReconstruction
  extractor : ComponentOf S D .featureExtraction
  descriptor : Option (ComponentOf S D .featureDescription)
  matcher : ComponentOf S D .featureMatching
  triangulator : ComponentOf S D .triangulation
  estimator : ComponentOf S D .transformEstimation

/-- What one stereo pair gives. -/
structure Observation (S : Type) where
  dense : Cloud S
  leftFeatures : Features (Vec2 S) S
  rightFeatures : Features (Vec2 S) S
  /-- From the left to the right image. -/
  leftRight : Correspondences (Vec2 S) S
  /-- One point for each match of `leftRight`. -/
  keypoints : Cloud S

/-- What an earlier pair contributes to the correspondences of the current one. -/
structure PastView (S : Type) where
  /-- Steps back from the newest pair of the history. -/
  steps : Nat
  leftFeatures : Features (Vec2 S) S
  rightFeatures : Features (Vec2 S) S
  leftRight : Correspondences (Vec2 S) S
  keypoints : Cloud S

namespace KeypointModules

def roles : List Role :=
  [.optional "leftFilter" .imageFiltering,
   .optional "rightFilter" .imageFiltering,
   .required "reconstructor3d" .stereoReconstruction,
   .required "featuresExtractor2d" .featureExtraction,
   .optional "featuresDescriptor2d" .featureDescription,
   .required "featuresMatcher2d" .featureMatching,
   .required "reconstructor3dfrom2dmatches" .triangulation,
   .required "transformEstimator" .transformEstimation]

/-- Takes the components out of a registry. -/
def taking : Registry.Taking S D (KeypointModules S D) := do
  let leftFilter ← Registry.takingOptional "leftFilter" .imageFiltering
  let rightFilter ← Registry.takingOptional "rightFilter" .imageFiltering
  let reconstructor ← Registry.taking "reconstructor3d" .stereoReconstruction
  let extractor ← Registry.taking "featuresExtractor2d" .featureExtraction
  let descriptor ← Registry.takingOptional "featuresDescriptor2d" .featureDescription
  let matcher ← Registry.taking "featuresMatcher2d" .featureMatching
  let triangulator ← Registry.taking "reconstructor3dfrom2dmatches" .triangulation
  let estimator ← Registry.taking "transformEstimator" .transformEstimation
  return ⟨leftFilter, rightFilter, reconstructor, extractor, descriptor, matcher, triangulator, estimator⟩

/-- Keypoints of an image, described if there is a descriptor. -/
def featuresOf (m : KeypointModules S D) (image : Frame) : KeypointModules S D × Features (Vec2 S) S :=
  let (extractor, found) := m.extractor.run image
  let (descriptor, described) := Component.runOptional m.descriptor (image, found) found
  ({ m with extractor := extractor, descriptor := descriptor }, described)

/-- Matches between the features of two images. -/
def matching (m : KeypointModules S D) (source sink : Features (Vec2 S) S) :
    KeypointModules S D × Correspondences (Vec2 S) S :=
  let (matcher, found) := m.matcher.run (source, sink)
  ({ m with matcher := matcher }, found)

/-- Filters, reconstructs, extracts, matches and triangulates a stereo pair. -/
def observe (m : KeypointModules S D) (rightCamera : Pose D) (left right : Frame) :
    KeypointModules S D × Observation S :=
  let (leftFilter, left) := Component.runOptional m.leftFilter left left
  let (rightFilter, right) := Component.runOptional m.rightFilter right right
  let (reconstructor, dense) := m.reconstructor.run (left, right)
  let m := { m with leftFilter := leftFilter, rightFilter := rightFilter, reconstructor := reconstructor }
  let (m, leftFeatures) := m.featuresOf left
  let (m, rightFeatures) := m.featuresOf right
  let (m, leftRight) := m.matching leftFeatures rightFeatures
  let (triangulator, keypoints) := m.triangulator.run (leftRight, rightCamera)
  ({ m with triangulator := triangulator },
   ⟨dense, leftFeatures, rightFeatures, leftRight, keypoints⟩)

/-- Spatial correspondences of the current pair with an earlier one. -/
def chainMap (m : KeypointModules S D) (pixels : PixelMatching S) (current : Observation S)
    (past : PastView S) : KeypointModules S D × Correspondences (Vec3 S) S :=
  let (m, left) := m.matching current.leftFeatures past.leftFeatures
  let (m, right) := m.matching current.rightFeatures past.rightFeatures
  (m, FourMatches.correspondences pixels {
    now := current.leftRight
    left := left
    right := right
    past := past.leftRight
    nowCloud := current.keypoints
    pastCloud := past.keypoints })

/-- Spatial correspondences of the current pair with earlier ones, each with its camera. -/
def chainMaps (m : KeypointModules S D) (pixels : PixelMatching S) (current : Observation S) :
    List (PastView S) → KeypointModules S D × List (Nat × Correspondences (Vec3 S) S)
  | [] => (m, [])
  | past :: rest =>
    let (m, map) := m.chainMap pixels current past
    let (m, maps) := m.chainMaps pixels current rest
    (m, (past.steps + 1, map) :: maps)

end KeypointModules

/-! ## State between pairs -/

/-- What the chain keeps from pair to pair, and what it publishes. -/
structure KeypointTrack (S D : Type) where
  history : History S
  /-- Correspondences between the cameras of the window. -/
  table : WindowTable S
  map : VoxelMap S D
  /-- Last published pose. -/
  pose : Pose D
  /-- Part of the map around it. -/
  cloud : Cloud S
  /-- Whether the last pair was located. -/
  success : Bool
  /-- Pairs seen, up to the size of the window. -/
  seen : Nat
  mapStarted : Bool
  /-- Pairs since the one of the published pose. -/
  stepsSincePose : Nat

namespace KeypointTrack

/-- Category of the features of the left images. -/
def leftFeatures : String := "left"

/-- Category of the features of the right images. -/
def rightFeatures : String := "right"

/-- Category of the matches between left and right images. -/
def leftRight : String := "leftRight"

/-- Category of the dense clouds. -/
def denseClouds : String := "dense"

/-- Category of the clouds of keypoints. -/
def keypointClouds : String := "keypoints"

/-- The track before any pair, if its window can be allocated. -/
def create (settings : KeypointSettings S D) : Except Error (KeypointTrack S D) := do
  let map ← VoxelMap.create settings.resolution settings.fusionPolicy
  let history ← History.create settings.windowSize
  let table ← PairTable.create settings.windowSize #[]
  return {
    history := history
    table := table
    map := map
    pose := .identity
    cloud := .empty
    success := false
    seen := 0
    mapStarted := false
    stepsSincePose := 0 }

/-- What the pair some steps back contributes. -/
def pastView (t : KeypointTrack S D) (steps : Nat) : Except Error (PastView S) := do
  return {
    steps := steps
    leftFeatures := ← t.history.features steps leftFeatures
    rightFeatures := ← t.history.features steps rightFeatures
    leftRight := ← t.history.matchesBack steps leftRight
    keypoints := ← t.history.cloud steps keypointClouds }

/-- The earlier pairs that stay in the window, oldest first. -/
def past (t : KeypointTrack S D) (settings : KeypointSettings S D) : Except Error (List (PastView S)) :=
  let held := min (t.history.featureRings.count leftFeatures) (settings.windowSize - 1)
  (List.range held).reverse.mapM t.pastView

/-- The history with the products of a new pair. -/
def store (h : History S) (left right : Frame) (current : Observation S) : History S :=
  (((((h.addImages left right).addFeatures leftFeatures current.leftFeatures).addFeatures
    rightFeatures current.rightFeatures).addMatches leftRight current.leftRight).addCloud
    denseClouds current.dense).addCloud keypointClouds current.keypoints

/-- The track with the products of a new pair, not located yet. -/
def advance (t : KeypointTrack S D) (settings : KeypointSettings S D) (left right : Frame)
    (current : Observation S) (maps : List (Nat × Correspondences (Vec3 S) S)) :
    Except Error (KeypointTrack S D) := do
  let older ← t.table.shift settings.windowSize #[]
  let table ← maps.foldlM (fun table (camera, map) => table.set 0 camera map) older
  return { t with
    table := table
    history := store t.history left right current
    stepsSincePose := t.stepsSincePose + 1
    success := false }

/-- Pose of a camera of the window. -/
def poseAt (poses : List (Pose D)) (camera : Nat) : Except Error (Pose D) :=
  match poses[camera]? with
  | some pose => pure pose
  | none => throw (.breach .indexOutOfRange)

/-- The estimated poses, if there are as many as cameras and the newest passes its check. -/
def acceptedPoses (settings : KeypointSettings S D) (estimate : WindowEstimate S D) :
    Except Error (Option (List (Pose D))) :=
  if estimate.success ∧ estimate.poses.length = settings.windowSize then do
    let newest ← poseAt estimate.poses 0
    return if settings.poseCheck.accepts newest then some estimate.poses else none
  else pure none

/-- Adds the dense cloud of some steps back to the map at a pose. -/
def addDense (t : KeypointTrack S D) (steps : Nat) (pose : Pose D) : KeypointTrack S D × Except Error Unit :=
  match t.history.cloud steps denseClouds with
  | .error e => (t, .error e)
  | .ok cloud =>
    let (map, added) := t.map.addCloud cloud pose
    ({ t with map := map }, added.map fun _ => ())

/-- Adds the dense clouds of cameras, one after the other. What was added before a refusal stays. -/
def addDenseAll (t : KeypointTrack S D) : List (Pose D × Nat) → KeypointTrack S D × Except Error Unit
  | [] => (t, .ok ())
  | (pose, steps) :: rest =>
    match t.addDense steps pose with
    | (t, .error e) => (t, .error e)
    | (t, .ok ()) => t.addDenseAll rest

/-- Starts the map with the whole window, oldest cloud first. The result is the pose of the newest camera. -/
def startMap (t : KeypointTrack S D) (poses : List (Pose D)) : KeypointTrack S D × Except Error (Pose D) :=
  if poses.any fun p => !p.isValid then (t, .error .invalidPose)
  else
    match t.addDenseAll poses.zipIdx.reverse with
    | (t, .error e) => (t, .error e)
    | (t, .ok ()) => ({ t with mapStarted := true }, poseAt poses 0)

/-- A pose that may be missing, for want of a valid orientation. -/
def orInvalid : Option (Pose D) → Except Error (Pose D)
  | some pose => pure pose
  | none => throw .invalidPose

/-- Motion from the camera of the published pose to the newest one. If that camera left the window, it is
taken to have stayed where the oldest camera is. -/
def motionSince (t : KeypointTrack S D) (poses : List (Pose D)) : Except Error (Pose D) := do
  let back := if t.stepsSincePose < poses.length then t.stepsSincePose else poses.length - 1
  let base ← poseAt poses back
  let inverse ← orInvalid base.inverse?
  let newest ← poseAt poses 0
  orInvalid (inverse.compose? newest)

/-- The published pose moved by the motion since. -/
def nextPose (t : KeypointTrack S D) (poses : List (Pose D)) : Except Error (Pose D) := do
  let motion ← t.motionSince poses
  orInvalid (t.pose.compose? motion)

/-- Adds the newest cloud at the published pose moved by the motion since, which is the result. -/
def continueMap (t : KeypointTrack S D) (poses : List (Pose D)) :
    KeypointTrack S D × Except Error (Pose D) :=
  match t.nextPose poses with
  | .error e => (t, .error e)
  | .ok pose =>
    match t.addDense 0 pose with
    | (t, .error e) => (t, .error e)
    | (t, .ok ()) => (t, .ok pose)

/-- Extends the map, by the whole window or by the newest cloud. The result is the pose of the newest
camera. -/
def extendMap (t : KeypointTrack S D) (poses : List (Pose D)) : KeypointTrack S D × Except Error (Pose D) :=
  if t.mapStarted then t.continueMap poses else t.startMap poses

/-- Locates the newest camera by the poses of the window, and publishes its pose with the part of the map
around it. What the map was given before a refusal stays there. -/
def publish (t : KeypointTrack S D) (settings : KeypointSettings S D) (poses : List (Pose D)) :
    KeypointTrack S D × Except Error Unit :=
  match t.extendMap poses with
  | (t, .error e) => (t, .error e)
  | (t, .ok pose) =>
    match t.map.sceneAt pose settings.searchRadius with
    | .error e => (t, .error e)
    | .ok cloud =>
      ({ t with cloud := cloud, pose := pose, stepsSincePose := 0, success := true }, .ok ())

end KeypointTrack

/-! ## The chain -/

/-- The chain: components, inputs and state. -/
structure KeypointChain (S D : Type) : Type 1 where
  settings : KeypointSettings S D
  modules : KeypointModules S D
  left : Frame
  right : Frame
  track : KeypointTrack S D

namespace KeypointChain

/-- The chain of a registry, and what remains of the registry. -/
def setup (settings : KeypointSettings S D) (registry : Registry S D) :
    Registry S D × Except Error (KeypointChain S D) :=
  registry.assemble settings.validate KeypointModules.roles KeypointModules.taking fun modules =>
    (KeypointTrack.create settings).map fun track => ⟨settings, modules, .empty, .empty, track⟩

/-- Locates the newest pair once the window is full. -/
def locate (c : KeypointChain S D) : KeypointChain S D × Except Error Unit :=
  let size := c.settings.windowSize
  if c.track.seen + 1 < size then
    ({ c with track := { c.track with seen := c.track.seen + 1 } }, .ok ())
  else
    let track := { c.track with seen := size }
    let (estimator, estimate) := c.modules.estimator.run track.table
    let c := { c with modules := { c.modules with estimator := estimator }, track := track }
    match KeypointTrack.acceptedPoses c.settings estimate with
    | .error e => (c, .error e)
    | .ok none => (c, .ok ())
    | .ok (some poses) =>
      let (track, result) := track.publish c.settings poses
      ({ c with track := track }, result)

/-- Takes in the current pair of images: its products, and its correspondences with earlier pairs. -/
def perceive (c : KeypointChain S D) : KeypointChain S D × Except Error Unit :=
  let (modules, current) := c.modules.observe c.settings.rightCamera c.left c.right
  match c.track.past c.settings with
  | .error e => ({ c with modules := modules }, .error e)
  | .ok past =>
    let (modules, maps) := modules.chainMaps c.settings.pixelMatching current past
    match c.track.advance c.settings c.left c.right current maps with
    | .error e => ({ c with modules := modules }, .error e)
    | .ok track => ({ c with modules := modules, track := track }, .ok ())

/-- Processes the current pair of images. -/
def run (c : KeypointChain S D) : KeypointChain S D × Except Error Unit :=
  match c.perceive with
  | (c, .error e) => (c, .error e)
  | (c, .ok ()) => c.locate

end KeypointChain

end StereoMapping
