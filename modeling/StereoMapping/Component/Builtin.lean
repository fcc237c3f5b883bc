import StereoMapping.Camera.Triangulation
import StereoMapping.Component.Basic
import StereoMapping.Image.Intensity
import StereoMapping.Settings.Formats

/-!
# `Component.Builtin` — the components of the library

A built-in component stores its inputs, one part after another, computes its output from them and its settings, and
keeps that output until the next computation. An output is written in place, over what the last computation left. A
frame that ends the program when it is converted ends the computations that read it; `Algorithm.attempt` says so, while
`Algorithm.process` goes on as if the frame had no intensities.

## Contents
- `Algorithm`, `Worker`: a computation with settings, and its storage; `Algorithm.process`, `Algorithm.attempt`.
- `cornerDetection`, `patchDescription`, `nearestMatching`, `blockMatching`, `matchTriangulation`,
  `windowAlignment`, `cloudRegistration`.
-/

namespace StereoMapping

/-- A computation with settings `P`, inputs stored in slots. -/
structure Algorithm (P In Slots Out : Type) : Type 1 where
  /-- The slots before any input. -/
  slots : Slots
  /-- The output before any computation. -/
  output : Out
  /-- What is stored at once. -/
  Part : Type
  set : Part → Slots → Slots
  /-- The parts of an input, in the order in which they are stored. -/
  parts : In → List Part
  /-- Makes room for a new output. -/
  clear : Out → Out
  /-- Computes from the slots, in the room of the output. -/
  fill : P → Slots → Out → Out
  /-- How the computation breaks off for some slots, if it does. -/
  breach? : Slots → Option Breach := fun _ => none

/-- The storage of a built-in component. -/
structure Worker (P Slots Out : Type) where
  settings : P
  file : Option SettingsFile
  slots : Slots
  output : Out

namespace Worker

variable {P Slots Out : Type}

def attach (file : SettingsFile) (w : Worker P Slots Out) : Worker P Slots Out :=
  { w with file := some file }

/-- Takes the settings from the file, if there is one. They stay as they were if they are in error. -/
def configure [Settings P] (w : Worker P Slots Out) : Worker P Slots Out × Except Error Unit :=
  match SettingsFile.reload w.file w.settings with
  | .ok settings => ({ w with settings := settings }, .ok ())
  | .error e => (w, .error e)

end Worker

namespace Algorithm

variable {P In Slots Out : Type}

/-- A worker without file and inputs. -/
def worker (a : Algorithm P In Slots Out) (settings : P) : Worker P Slots Out :=
  ⟨settings, none, a.slots, a.output⟩

/-- The slots after all parts of an input. -/
def load (a : Algorithm P In Slots Out) (input : In) (slots : Slots) : Slots :=
  (a.parts input).foldl (fun slots part => a.set part slots) slots

def store (a : Algorithm P In Slots Out) (input : In) (w : Worker P Slots Out) : Worker P Slots Out :=
  { w with slots := a.load input w.slots }

def process (a : Algorithm P In Slots Out) (w : Worker P Slots Out) : Worker P Slots Out :=
  { w with output := a.fill w.settings w.slots (a.clear w.output) }

/-- Computes, unless the computation breaks off. -/
def attempt (a : Algorithm P In Slots Out) (w : Worker P Slots Out) : Except Error (Worker P Slots Out) :=
  match a.breach? w.slots with
  | some cause => throw (.breach cause)
  | none => pure (a.process w)

/-- The component of a worker. -/
def component [Settings P] (a : Algorithm P In Slots Out) (w : Worker P Slots Out) : Component In Out where
  State := Worker P Slots Out
  state := w
  attach := Worker.attach
  configure := Worker.configure
  load := a.store
  process := a.process
  output := Worker.output

/-- The component with some settings. -/
def new [Settings P] (a : Algorithm P In Slots Out) (settings : P) : Component In Out :=
  a.component (a.worker settings)

end Algorithm

/-! ## Slots for two inputs -/

/-- Both inputs of a pair. -/
def bothParts {A B : Type} (input : A × B) : List (A ⊕ B) := [.inl input.1, .inr input.2]

/-- A pair with one of its inputs replaced. -/
def setPart {A B : Type} (part : A ⊕ B) (slots : A × B) : A × B :=
  match part with
  | .inl a => (a, slots.2)
  | .inr b => (slots.1, b)

/-! ## Components -/

variable {S D : Type} [Scalar S] [Scalar D] [Precision S D]

/-- Corners of an image. -/
def cornerDetection : Algorithm (CornerSettings S) Frame Frame (Features (Vec2 S) S) where
  slots := .empty
  output := .empty
  Part := Frame
  set frame _ := frame
  parts frame := [frame]
  clear := Features.clear
  fill settings frame held :=
    match intensities frame with
    | some image => .ofPoints ((Corner.detect settings image).map Corner.point)
    | none => held
  breach? := Frame.conversionBreach?

/-- Keypoints described by the patches around them. -/
def patchDescription : Algorithm PatchSettings (Frame × Features (Vec2 S) S) (Frame × Features (Vec2 S) S)
    (Features (Vec2 S) S) where
  slots := (.empty, .empty)
  output := .empty
  Part := Frame ⊕ Features (Vec2 S) S
  set := setPart
  parts := bothParts
  clear := Features.clear
  fill settings slots held := Features.describe settings slots.1 slots.2 held
  breach? slots := slots.1.conversionBreach?

/-- Keypoints matched by their descriptors. -/
def nearestMatching : Algorithm (MatchSettings S) (Features (Vec2 S) S × Features (Vec2 S) S)
    (Features (Vec2 S) S × Features (Vec2 S) S) (Correspondences (Vec2 S) S) where
  slots := (.empty, .empty)
  output := #[]
  Part := Features (Vec2 S) S ⊕ Features (Vec2 S) S
  set := setPart
  parts := bothParts
  clear held := held.shrink 0
  fill settings slots held := matchFeatures settings slots.1 slots.2 held

/-- Dense cloud of a rectified pair, with the time of the left image. -/
def blockMatching : Algorithm (StereoSettings S) (Frame × Frame) (Frame × Frame) (Cloud S) where
  slots := (.empty, .empty)
  output := .empty
  Part := Frame ⊕ Frame
  set := setPart
  parts := bothParts
  clear _ := .empty
  fill settings slots held :=
    { held with timestamp := slots.1.timestamp }.append
      (stereoPoints settings (intensities slots.1) (intensities slots.2))
  breach? slots := slots.1.conversionBreach? <|> slots.2.conversionBreach?

/-- Points of matched pixels, the pose being that of the right camera in the frame of the left one. -/
def matchTriangulation : Algorithm (TriangulationSettings S) (Correspondences (Vec2 S) S × Pose D)
    (Correspondences (Vec2 S) S × Pose D) (Cloud S) where
  slots := (#[], .identity)
  output := .empty
  Part := Correspondences (Vec2 S) S ⊕ Pose D
  set := setPart
  parts := bothParts
  clear _ := .empty
  fill settings slots held := held.append (triangulate settings.intrinsics slots.1 slots.2.position)

/-- Poses of a window by chained alignments. -/
def windowAlignment [Decomposing D] : Algorithm (AlignmentSettings S) (WindowTable S) (WindowTable S)
    (WindowEstimate S D) where
  slots := .filled 0 #[]
  output := ⟨[], false, 0⟩
  Part := WindowTable S
  set table _ := table
  parts table := [table]
  clear := WindowEstimate.clear
  fill settings table held := held.fill settings table

/-- Slots of a registration. A guess stays stored while it is not used. -/
structure RegistrationSlots (S D : Type) where
  source : Cloud S
  sink : Cloud S
  guess : Pose D
  useGuess : Bool

/-- What a registration stores at once. -/
inductive RegistrationPart (S D : Type) where
  | source (cloud : Cloud S)
  | sink (cloud : Cloud S)
  | useGuess (use : Bool)
  | guess (pose : Pose D)

namespace RegistrationSlots

def set (part : RegistrationPart S D) (slots : RegistrationSlots S D) : RegistrationSlots S D :=
  match part with
  | .source cloud => { slots with source := cloud }
  | .sink cloud => { slots with sink := cloud }
  | .useGuess use => { slots with useGuess := use }
  | .guess pose => { slots with guess := pose }

/-- The guess, if it is to be used. -/
def guess? (slots : RegistrationSlots S D) : Option (Pose D) :=
  if slots.useGuess then some slots.guess else none

end RegistrationSlots

/-- Registration of a cloud onto another one. -/
def cloudRegistration [Decomposing D] : Algorithm (RegistrationSettings S)
    (Cloud S × Cloud S × Option (Pose D)) (RegistrationSlots S D) (RegistrationResult D) where
  slots := ⟨.empty, .empty, .identity, false⟩
  output := ⟨.identity, false⟩
  Part := RegistrationPart S D
  set := RegistrationSlots.set
  parts input :=
    [.source input.1, .sink input.2.1, .useGuess input.2.2.isSome]
      ++ (input.2.2.map RegistrationPart.guess).toList
  clear := RegistrationResult.clear
  fill settings slots held := registerClouds settings slots.source slots.sink slots.guess? held

end StereoMapping
