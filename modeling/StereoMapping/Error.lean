import StereoMapping.Number.Numeral
import StereoMapping.Image.Layout

/-!
# `Error` — everything that can go wrong, and its wording

An algorithm that finds no answer (too few matches, degenerate geometry) is no error: it reports that it had
no success. Errors are for settings, for roles of components, for poses and radii given to a map, for data
that contradicts its description, and for files.

## Contents
- `SettingFault`, `FrameFault`: causes within one kind of error, with their wording.
- `Breach`: a call outside the precondition of an operation. No text of a file leads to one.
- `Error`, `Error.message`.
-/

namespace StereoMapping

/-- Why a setting is refused. -/
inductive SettingFault where
  | windowTooShort (pairs : Nat)
  | baselineNotPositive (baseline : Numeral)
  | pixelToleranceNegative (tolerance : Numeral)
  | focalLengthsNotPositive (fx fy : Numeral)
  | cornerSensitivityOutOfRange (k : Numeral)
  | cornerThresholdNotFinite
  | patchTooLarge (halfSize : Nat)
  | matchRatioOutOfRange (ratio : Numeral)
  | matchDistanceNegative (distance : Numeral)
  | disparityRangeEmpty (least largest : Nat)
  | uniquenessOutOfRange (ratio : Numeral)
  | tooFewAlignedPairs (pairs : Nat)
  | alignmentErrorNegative (rms : Numeral)
  | searchDistanceNotPositive (distance : Numeral)
  | noIterations
  | tooFewRegisteredPairs (pairs : Nat)
  /-- A refusal worded by a component of its own. -/
  | refused (reason : String)
  deriving DecidableEq

namespace SettingFault

def message : SettingFault → String
  | windowTooShort n => "at least 2 adjusted stereo pairs are needed, got " ++ toString n
  | baselineNotPositive b => "baseline must be positive, got " ++ b.render
  | pixelToleranceNegative t => "pixel matching tolerance must be positive, got " ++ t.render
  | focalLengthsNotPositive fx fy =>
    "focal lengths must be positive, got (" ++ fx.render ++ ", " ++ fy.render ++ ")"
  | cornerSensitivityOutOfRange k => "Harris k must be in ]0, 0.25[, got " ++ k.render
  | cornerThresholdNotFinite => "Harris threshold must be finite"
  | patchTooLarge h => "patch of half size " ++ toString h ++ " does not fit in a descriptor"
  | matchRatioOutOfRange r => "matcher ratio must be in ]0, 1], got " ++ r.render
  | matchDistanceNegative d => "matcher max distance must be positive, got " ++ d.render
  | disparityRangeEmpty a b =>
    "disparity range [" ++ toString a ++ ", " ++ toString b ++ "] must be positive and not empty"
  | uniquenessOutOfRange r => "uniqueness ratio must be in ]0, 1], got " ++ r.render
  | tooFewAlignedPairs n => "rigid alignment needs at least 3 correspondences, got " ++ toString n
  | alignmentErrorNegative e => "max RMS error must be positive, got " ++ e.render
  | searchDistanceNotPositive d => "max correspondence distance must be positive, got " ++ d.render
  | noIterations => "ICP needs at least one iteration"
  | tooFewRegisteredPairs n => "ICP needs at least 3 correspondences, got " ++ toString n
  | refused reason => reason

end SettingFault

/-- Why a frame is refused. -/
inductive FrameFault where
  | overCapacity (bytes capacity : Nat)
  | wrongSize (width height : Nat) (mode : PixelMode) (depth : SampleDepth) (needed found : Nat)
  | tooManyAttributes (capacity : Nat)
  | noConversion (mode : PixelMode) (depth : SampleDepth)
  | bufferTooShort
  deriving DecidableEq

namespace FrameFault

def message : FrameFault → String
  | overCapacity n capacity =>
    toString n ++ " bytes exceed the capacity of " ++ toString capacity
  | wrongSize w h mode depth needed found =>
    toString w ++ "x" ++ toString h ++ " " ++ mode.name ++ " " ++ depth.name ++ " needs "
      ++ toString needed ++ " bytes, got " ++ toString found
  | tooManyAttributes n => "cannot hold more than " ++ toString n ++ " attributes"
  | noConversion mode depth => "no image conversion for " ++ mode.name ++ " " ++ depth.name
  | bufferTooShort => "buffer not large enough"

end FrameFault

/-- What a history holds, as named when it is asked for in vain. -/
inductive Artifact where
  | leftImage
  | rightImage
  | features
  | correspondences
  | pointCloud
  deriving DecidableEq

def Artifact.name : Artifact → String
  | leftImage => "left image"
  | rightImage => "right image"
  | features => "features"
  | correspondences => "matches"
  | pointCloud => "point cloud"

/-- A call outside the precondition of an operation. -/
inductive Breach where
  | emptyHistory
  | notHeld (what : Artifact) (steps held : Nat)
  | unknownCategory (what : Artifact) (category : String)
  /-- An empty slot where the count of a ring promises an entry. -/
  | vacantSlot
  | cameraPair (source sink cameras : Nat)
  | indexOutOfRange
  | lengthsDiffer
  /-- More bytes than can be addressed. -/
  | capacityOverflow
  /-- More bytes than there are. -/
  | outOfMemory
  deriving DecidableEq

/-- Whether it is memory that was wanting. -/
def Breach.OfMemory (b : Breach) : Prop := b = .capacityOverflow ∨ b = .outOfMemory

/-- Text of a breach, for those that have one. -/
def Breach.message? : Breach → Option String
  | emptyHistory => some "a bundle history needs a strictly positive size"
  | notHeld what steps held =>
    some (what.name ++ " requested " ++ toString steps ++ " steps back, but only " ++ toString held
      ++ " held")
  | unknownCategory what category =>
    some (what.name ++ " requested in unknown category \"" ++ category ++ "\"")
  | cameraPair source sink n =>
    some ("invalid camera pair (" ++ toString source ++ ", " ++ toString sink ++ ") for " ++ toString n
      ++ " cameras")
  | vacantSlot | indexOutOfRange | lengthsDiffer | capacityOverflow | outOfMemory => none

/-- Errors of the library. -/
inductive Error where
  | invalidConfiguration (fault : SettingFault)
  | missingModule (role : String)
  | wrongModuleKind (role expected : String)
  | invalidPose
  | invalidResolution (resolution : Numeral)
  | invalidRadius (radius : Numeral)
  | malformedFrame (fault : FrameFault)
  | malformedDescriptor (index length expected : Nat)
  /-- A line, counted from one, that is not of the format. -/
  | parse (line : Nat) (text : String)
  /-- A file that cannot be read as text. -/
  | unreadable
  /-- A text that is not a settings file of the expected form. -/
  | malformedSettings
  /-- A file that is not a readable image. -/
  | unreadableImage
  | breach (cause : Breach)
  deriving DecidableEq

namespace Error

/-- The wording of an error. Of errors about files, only the kind is told. -/
def message : Error → String
  | invalidConfiguration fault => "Invalid configuration: " ++ fault.message
  | missingModule role => "Missing module for role \"" ++ role ++ "\""
  | wrongModuleKind role expected =>
    "Module \"" ++ role ++ "\" is not a " ++ expected ++ " module"
  | invalidPose => "Invalid pose (NaN or zero-norm orientation)"
  | invalidResolution r => "Invalid point cloud map resolution: " ++ r.render
  | invalidRadius r => "Invalid search radius: " ++ r.render
  | malformedFrame fault => "Malformed frame: " ++ fault.message
  | malformedDescriptor index length expected =>
    "Malformed descriptor at point " ++ toString index ++ ": length " ++ toString length
      ++ ", expected 0 or " ++ toString expected
  | parse line text => "Parsing error: line " ++ toString line ++ ": \"" ++ text ++ "\""
  | unreadable => "I/O error"
  | malformedSettings => "JSON error"
  | unreadableImage => "Image error"
  | breach cause => cause.message?.getD "precondition violated"

end Error

end StereoMapping
