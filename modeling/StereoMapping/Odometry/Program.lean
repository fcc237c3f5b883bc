import StereoMapping.Component.Builtin
import StereoMapping.Odometry.DenseChain
import StereoMapping.Odometry.KeypointChain
import StereoMapping.Trajectory.Path
import StereoMapping.Trajectory.Record

/-!
# `Odometry.Program` — a sequence of stereo images to a trajectory

The program is given a settings file and an association file, runs a chain of built-in components over the
pairs of images, and prints a trajectory line for each pair that was located. It reaches files and output
through a `World` only, over any monad.

## Contents
- `ProgramSettings`: chain, rig, settings of the chains, settings files of the components.
- `World`, `Failure`, `Failure.message`.
- `ProgramSettings.registry`, `ProgramSettings.setup`, `runProgram`.
-/

namespace StereoMapping

variable {S D : Type} [Scalar S] [Scalar D] [Precision S D]

/-! ## Settings -/

/-- The chain to run. -/
inductive ChainKind where
  | keypoint
  | dense
  deriving DecidableEq, Inhabited

def ChainKind.codec : Codec ChainKind :=
  .variant [("EstimationFromStereo", .keypoint), ("DenseRegistrationFromStereo", .dense)]

/-- Settings of the program. -/
structure ProgramSettings (S D : Type) where
  chain : ChainKind
  rig : StereoRig S
  keypoint : KeypointSettings S D
  dense : DenseSettings S
  /-- Settings files by the roles of the components, in increasing order, relative to the program's. -/
  files : List (String × String)

namespace ProgramSettings

def default : ProgramSettings S D := ⟨.keypoint, .default, .default, .default, []⟩

/-- A file for a role, instead of the one it had. -/
def insertFile (role path : String) : List (String × String) → List (String × String)
  | [] => [(role, path)]
  | (name, held) :: rest =>
    if role < name then (role, path) :: (name, held) :: rest
    else if role = name then (role, path) :: rest
    else (name, held) :: insertFile role path rest

/-- An object of roles and paths. Of a role given twice, the last path counts. -/
def filesCodec : Codec (List (String × String)) where
  read?
    | .object members => members.foldlM (fun files (units, value) => do
        return insertFile (String.ofList (← units.decode?)) (← value.text?) files) []
    | _ => none
  write files := .object (files.map fun (role, path) => (role.toList.map Char.toNat, .ofText path))

def fields : List (Field (ProgramSettings S D)) :=
  [.of "chain" ChainKind.codec chain fun v s => { s with chain := v },
   .of "rig" Settings.codec rig fun v s => { s with rig := v },
   .of "estimation_from_stereo" Settings.codec keypoint fun v s => { s with keypoint := v },
   .of "dense_registration_from_stereo" Settings.codec dense fun v s => { s with dense := v },
   .of "modules" filesCodec files fun v s => { s with files := v }]

def codec : Codec (ProgramSettings S D) := .record fields default

/-- The built-in components of the chain, set up for the rig. -/
def registry [Decomposing D] (s : ProgramSettings S D) : Registry S D :=
  let stereo : StereoSettings S := { StereoSettings.default with rig := s.rig }
  let base := Registry.empty.register "reconstructor3d" ⟨.stereoReconstruction, blockMatching.new stereo⟩
  match s.chain with
  | .keypoint =>
    ((((base.register "featuresExtractor2d"
      ⟨.featureExtraction, cornerDetection.new (CornerSettings.default : CornerSettings S)⟩).register
      "featuresDescriptor2d" ⟨.featureDescription, patchDescription.new PatchSettings.default⟩).register
      "featuresMatcher2d"
      ⟨.featureMatching, nearestMatching.new (MatchSettings.default : MatchSettings S)⟩).register
      "reconstructor3dfrom2dmatches"
      ⟨.triangulation, matchTriangulation.new (⟨s.rig.intrinsics⟩ : TriangulationSettings S)⟩).register
      "transformEstimator"
      ⟨.transformEstimation, windowAlignment.new (AlignmentSettings.default : AlignmentSettings S)⟩
  | .dense =>
    base.register "registrator3d"
      ⟨.registration, cloudRegistration.new (RegistrationSettings.default : RegistrationSettings S)⟩

end ProgramSettings

/-! ## Chains -/

/-- A chain of either kind. -/
inductive Chain (S D : Type) : Type 1 where
  | keypoint (chain : KeypointChain S D)
  | dense (chain : DenseChain S D)

namespace Chain

def withImages (c : Chain S D) (left right : Frame) : Chain S D :=
  match c with
  | keypoint c => keypoint { c with left := left, right := right }
  | dense c => dense { c with left := left, right := right }

def run (c : Chain S D) : Chain S D × Except Error Unit :=
  match c with
  | keypoint c => let (c, result) := c.run; (keypoint c, result)
  | dense c => let (c, result) := c.run; (dense c, result)

/-- Last published pose. -/
def pose : Chain S D → Pose D
  | keypoint c => c.track.pose
  | dense c => c.track.pose

/-- Whether the last pair was located. -/
def success : Chain S D → Bool
  | keypoint c => c.track.success
  | dense c => c.track.success

end Chain

/-- Sets the settings files of components. -/
def Registry.attachFiles (r : Registry S D) : List (String × SettingsFile) → Except Error (Registry S D)
  | [] => .ok r
  | (role, file) :: rest =>
    match r.attachFile role file with
    | .ok r => r.attachFiles rest
    | .error e => .error e

/-- The chain of the settings, its components set up from their files. The baseline is that of the rig. -/
def ProgramSettings.setup [Decomposing D] (s : ProgramSettings S D) (files : List (String × SettingsFile)) :
    Except Error (Chain S D) :=
  match s.registry.attachFiles files with
  | .error e => .error e
  | .ok registry =>
    match s.chain with
    | .keypoint =>
      match (KeypointChain.setup { s.keypoint with baseline := widen s.rig.baseline } registry).2 with
      | .ok c => .ok (.keypoint c)
      | .error e => .error e
    | .dense =>
      match (DenseChain.setup s.dense registry).2 with
      | .ok c => .ok (.dense c)
      | .error e => .error e

/-! ## The program -/

/-- How the program reaches the world. -/
structure World (m : Type → Type) where
  /-- The text of a file, if it can be read. -/
  fileAt : String → m SettingsFile
  /-- The grey levels of an image file, if it is one. -/
  imageAt : String → m (Option Frame)
  printLine : String → m Unit

/-- Why the program ends early. -/
inductive Failure where
  | wrongArguments
  | loadingConfiguration (path : String)
  | readingAssociations (path : String)
  | readingImage (path : String)
  | stopped (error : Error)

/-- First line of the report of a failure. -/
def Failure.message : Failure → String
  | wrongArguments => "Usage: ./stereo_reconstruct config.json associations.txt"
  | loadingConfiguration path => "Loading configuration " ++ path
  | readingAssociations path => "Reading associations " ++ path
  | readingImage path => "Reading " ++ path
  | stopped error => error.message

section Run

variable {m : Type → Type} [Monad m]

/-- The image of a file, taken at a time. -/
def readTimed (world : World m) (path : String) (timestamp : Int64) : ExceptT Failure m Frame := do
  match ← world.imageAt path with
  | some frame => return { frame with timestamp := timestamp }
  | none => throw (.readingImage path)

/-- Runs a chain over pairs of images, with paths relative to a directory. -/
def runPairs (world : World m) (directory : String) (chain : Chain S D) :
    List (StereoAssociation D) → ExceptT Failure m Unit
  | [] => return
  | a :: rest => do
    let left ← readTimed world (joinPath directory a.left) a.micros
    let right ← readTimed world (joinPath directory a.right) a.micros
    let (chain, result) := (chain.withImages left right).run
    match result with
    | .error e => throw (.stopped e)
    | .ok () =>
      if chain.success then
        world.printLine (TrajectoryPoint.render ⟨a.timestamp, chain.pose⟩)
      runPairs world directory chain rest

/-- The settings of a file. -/
def loadSettings (world : World m) (path : String) : ExceptT Failure m (ProgramSettings S D) := do
  match (← world.fileAt path).load ProgramSettings.codec with
  | .ok settings => return settings
  | .error _ => throw (.loadingConfiguration path)

/-- The associations of a file. -/
def loadAssociations (world : World m) (path : String) : ExceptT Failure m (List (StereoAssociation D)) := do
  match ← world.fileAt path with
  | .unreadable => throw (.readingAssociations path)
  | .text content =>
    match readAssociations content with
    | .ok associations => return associations
    | .error e => throw (.stopped e)

/-- Runs the program on two files. -/
def runOn [Decomposing D] (world : World m) (settings : ProgramSettings S D) (settingsPath : String)
    (associations : List (StereoAssociation D)) (associationsPath : String) : ExceptT Failure m Unit := do
  let files ← settings.files.mapM fun (role, path) => do
    return (role, ← world.fileAt (joinPath (parentPath settingsPath) path))
  match settings.setup files with
  | .error e => throw (.stopped e)
  | .ok chain => runPairs world (parentPath associationsPath) chain associations

end Run

/-- Runs the program on its arguments, the paths of two files. -/
def runProgram {m : Type → Type} [Monad m] (world : World m) (arguments : List String) :
    ExceptT Failure m Unit := do
  match arguments with
  | [settingsPath, associationsPath] =>
    let settings : ProgramSettings Float32 Float ← loadSettings world settingsPath
    let associations ← loadAssociations world associationsPath
    runOn world settings settingsPath associations associationsPath
  | _ => throw .wrongArguments

end StereoMapping
