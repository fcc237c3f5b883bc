import StereoMapping.Cloud.NeighbourGrid
import StereoMapping.Error
import StereoMapping.Geometry.Alignment
import StereoMapping.Geometry.Pose

/-!
# `Cloud.Registration` — the motion of a cloud onto another one

From a first guess, each iteration pairs the moved source points with their nearest sink points and takes
the motion that best aligns the pairs. It ends when the motion stalls, when too few pairs would remain,
or after a given number of iterations.

## Contents
- `RegistrationSettings` and its check.
- `Registration.State`, `Registration.step`, `Registration.solve`.
- `registerClouds`: the outcome of a registration.
-/

namespace StereoMapping

variable {S D : Type} [Scalar S] [Scalar D] [Precision S D]

/-- Settings of the registration. -/
structure RegistrationSettings (S : Type) where
  /-- Largest number of iterations. -/
  maxIterations : Nat
  /-- Largest distance of a pair. -/
  maxDistance : S
  /-- The motion has stalled when an iteration translates less than this … -/
  translationThreshold : S
  /-- … and rotates less than this, in radians. -/
  rotationThreshold : S
  /-- Least number of pairs. -/
  minPairs : Nat

namespace RegistrationSettings

def default : RegistrationSettings S where
  maxIterations := 30
  maxDistance := Scalar.ofNumeral (.finite false 5 (-1))
  translationThreshold := Scalar.ofNumeral (.finite false 1 (-5))
  rotationThreshold := Scalar.ofNumeral (.finite false 1 (-5))
  minPairs := 10

instance : Inhabited (RegistrationSettings S) := ⟨default⟩

def validate (s : RegistrationSettings S) : Except Error Unit :=
  if !(Scalar.lt 0 s.maxDistance && Scalar.isFinite s.maxDistance) then
    throw (.invalidConfiguration (.searchDistanceNotPositive (Scalar.numeral s.maxDistance)))
  else if s.maxIterations = 0 then throw (.invalidConfiguration .noIterations)
  else if s.minPairs < 3 then throw (.invalidConfiguration (.tooFewRegisteredPairs s.minPairs))
  else pure ()

end RegistrationSettings

namespace Registration

/-- Why no motion could be computed from the current pairs. -/
inductive Fault where
  | tooFewPairs (pairs : Nat)
  | degenerate
  deriving DecidableEq

def Fault.message : Fault → String
  | tooFewPairs n => "only " ++ toString n ++ " correspondences"
  | degenerate => "degenerate correspondences"

/-- A motion with the pairs that it matches. -/
structure State (D : Type) where
  model : Motion D
  pairs : PointPairs D
  /-- Root mean square distance of the pairs. -/
  rms : D

/-- The source points that have a neighbour after a motion, each with that neighbour. -/
def matched (source : List (Vec3 D)) (sink : NeighbourGrid D) (model : Motion D) : State D :=
  let pairs := source.filterMap fun p => (sink.nearest? (model.apply p)).map fun q => (p, q)
  ⟨model, pairs, Alignment.rmsError model pairs.length pairs⟩

/-- The motion that best aligns the current pairs. -/
def step [Decomposing D] (minPairs : Nat) (state : State D) : Except Fault (Motion D) :=
  if state.pairs.length < minPairs then throw (.tooFewPairs state.pairs.length)
  else
    match Alignment.align? state.pairs with
    | some m => pure m
    | none => throw .degenerate

/-- Whether one motion hardly differs from the next. -/
def hasStalled (settings : RegistrationSettings S) (old new : Motion D) : Bool :=
  let change := old.inverse * new
  Scalar.lt change.translation.norm (widen settings.translationThreshold)
    && Scalar.lt change.rotation.angle (widen settings.rotationThreshold)

/-- Iterations from a state: one, and at most `remaining` more. `count` were made before. -/
def iterate [Decomposing D] (settings : RegistrationSettings S) (source : List (Vec3 D))
    (sink : NeighbourGrid D) (remaining count : Nat) (state : State D) :
    Except Fault (State D × Nat) := do
  let next := matched source sink (← step settings.minPairs state)
  if next.pairs.length < settings.minPairs then return (state, count + 1)
  else if hasStalled settings state.model next.model then return (next, count + 1)
  else
    match remaining with
    | 0 => return (next, count + 1)
    | remaining + 1 => iterate settings source sink remaining (count + 1) next

/-- Final state and number of iterations, from a first motion. -/
def solve [Decomposing D] (settings : RegistrationSettings S) (source : List (Vec3 D))
    (sink : NeighbourGrid D) (guess : Motion D) : Except Fault (State D × Nat) :=
  iterate settings source sink (settings.maxIterations - 1) 0 (matched source sink guess)

end Registration

/-- Outcome of a registration: the pose of the source cloud in the frame of the sink cloud, the identity
without success. -/
structure RegistrationResult (D : Type) where
  transform : Pose D
  success : Bool

/-- No motion and no success. -/
def RegistrationResult.clear (r : RegistrationResult D) : RegistrationResult D :=
  { r with transform := .identity, success := false }

/-- Registration of the valid points of two clouds, `held` if there is no motion. A guess that is no valid pose
counts for none. -/
def registerClouds [Decomposing D] (settings : RegistrationSettings S) (source sink : Cloud S)
    (guess : Option (Pose D)) (held : RegistrationResult D) : RegistrationResult D :=
  let grid := NeighbourGrid.ofCloud sink (widen settings.maxDistance)
  let start := (guess.bind Pose.toMotion?).getD .identity
  match Registration.solve settings (NeighbourGrid.validPoints source) grid start with
  | .ok (state, _) =>
    { held with success := settings.minPairs ≤ state.pairs.length, transform := .ofMotion state.model }
  | .error _ => held

end StereoMapping
