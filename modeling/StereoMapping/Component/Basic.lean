import StereoMapping.Geometry.Pose
import StereoMapping.Image.Frame
import StereoMapping.Keypoint.Features
import StereoMapping.Settings.File
import StereoMapping.Window.PoseChain
import StereoMapping.Cloud.Registration

/-!
# `Component.Basic` — exchangeable stages of a reconstruction

A component takes inputs and gives outputs, and may keep any state of its own between two calls. Its
capability says which inputs and outputs; nothing else about it is known to the reconstruction that uses it.

## Contents
- `Component`: `attachFile`, `configured`, `run`.
- `Capability`, `Capability.Input`, `Capability.Output`.
- `Module`: a component with its capability.
-/

namespace StereoMapping

/-- A stage with a state of its own. -/
structure Component (In Out : Type) : Type 1 where
  State : Type
  state : State
  /-- Sets the settings file. -/
  attach : SettingsFile → State → State
  /-- Loads and checks the settings. -/
  configure : State → State × Except Error Unit
  /-- Stores the inputs of the next computation. -/
  load : In → State → State
  /-- Computes the output from what is stored. -/
  process : State → State
  output : State → Out

namespace Component

variable {In Out : Type}

def attachFile (c : Component In Out) (file : SettingsFile) : Component In Out :=
  { c with state := c.attach file c.state }

def configured (c : Component In Out) : Component In Out × Except Error Unit :=
  let (state, result) := c.configure c.state
  ({ c with state := state }, result)

/-- One computation: store the input, compute, read the output. -/
def run (c : Component In Out) (input : In) : Component In Out × Out :=
  let state := c.process (c.load input c.state)
  ({ c with state := state }, c.output state)

/-- One computation of a component that need not be there. -/
def runOptional (c : Option (Component In Out)) (input : In) (otherwise : Out) :
    Option (Component In Out) × Out :=
  match c with
  | some c =>
    let (c, out) := c.run input
    (some c, out)
  | none => (none, otherwise)

end Component

/-- What a component can do. -/
inductive Capability where
  /-- An image to another one. -/
  | imageFiltering
  /-- A rectified pair to a dense cloud. -/
  | stereoReconstruction
  /-- An image to keypoints. -/
  | featureExtraction
  /-- Keypoints in an image to the same keypoints with descriptors. -/
  | featureDescription
  /-- Keypoints of two images to correspondences. -/
  | featureMatching
  /-- Correspondences between two cameras, and the pose of the second, to one point each. -/
  | triangulation
  /-- Correspondences between the cameras of a window to their poses. -/
  | transformEstimation
  /-- Two clouds, and perhaps a guess, to the pose of the first in the frame of the second. -/
  | registration
  deriving DecidableEq

namespace Capability

/-- Name of a capability, as used in errors. -/
def name : Capability → String
  | imageFiltering => "ImageFiltering"
  | stereoReconstruction => "StereoReconstruction"
  | featureExtraction => "FeaturesExtraction2D"
  | featureDescription => "FeaturesDescription2D"
  | featureMatching => "FeaturesMatching2D"
  | triangulation => "PointCloudReconstruction2DTo3D"
  | transformEstimation => "Transform3DEstimation"
  | registration => "Registration3D"

def all : List Capability :=
  [imageFiltering, stereoReconstruction, featureExtraction, featureDescription, featureMatching,
   triangulation, transformEstimation, registration]

/-- The capability of a name. -/
def ofName? (s : String) : Option Capability := all.find? (·.name == s)

/-- What a component of a capability takes. -/
def Input (S D : Type) : Capability → Type
  | imageFiltering => Frame
  | stereoReconstruction => Frame × Frame
  | featureExtraction => Frame
  | featureDescription => Frame × Features (Vec2 S) S
  | featureMatching => Features (Vec2 S) S × Features (Vec2 S) S
  | triangulation => Correspondences (Vec2 S) S × Pose D
  | transformEstimation => WindowTable S
  | registration => Cloud S × Cloud S × Option (Pose D)

/-- What a component of a capability gives. -/
def Output (S D : Type) : Capability → Type
  | imageFiltering => Frame
  | stereoReconstruction => Cloud S
  | featureExtraction => Features (Vec2 S) S
  | featureDescription => Features (Vec2 S) S
  | featureMatching => Correspondences (Vec2 S) S
  | triangulation => Cloud S
  | transformEstimation => WindowEstimate S D
  | registration => RegistrationResult D

end Capability

/-- A component of a capability. -/
abbrev ComponentOf (S D : Type) (c : Capability) : Type 1 := Component (c.Input S D) (c.Output S D)

/-- A component together with its capability. -/
structure Module (S D : Type) : Type 1 where
  capability : Capability
  component : ComponentOf S D capability

namespace Module

variable {S D : Type}

def attachFile (m : Module S D) (file : SettingsFile) : Module S D :=
  { m with component := m.component.attachFile file }

def configured (m : Module S D) : Module S D × Except Error Unit :=
  let (component, result) := m.component.configured
  ({ m with component := component }, result)

/-- The component, if it has a given capability. -/
def as? (m : Module S D) (c : Capability) : Option (ComponentOf S D c) :=
  if h : m.capability = c then some (h ▸ m.component) else none

end Module

end StereoMapping
