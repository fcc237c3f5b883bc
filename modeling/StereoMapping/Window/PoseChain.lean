import StereoMapping.Correspondence.Basic
import StereoMapping.Correspondence.PairTable
import StereoMapping.Geometry.Alignment
import StereoMapping.Geometry.Pose

/-!
# `Window.PoseChain` — poses of a window from spatial correspondences

The correspondences of a pair of cameras give, by alignment, the motion of the newer camera in the frame of
the older one. Each camera is linked to one older camera, its predecessor if possible, else the one with the
most correspondences; the poses follow from the oldest camera, which has the identity, to the newest.

## Contents
- `AlignmentSettings` and its check.
- `PoseChain.link?`, `PoseChain.ofTable?`.
- `estimateWindow`: the poses, or no success if a link is missing or the error is too large.
-/

namespace StereoMapping

variable {S D : Type} [Scalar S] [Scalar D] [Precision S D]

/-- Settings of the estimation. -/
structure AlignmentSettings (S : Type) where
  /-- A pair of cameras with fewer correspondences is of no use. -/
  minPairs : Nat
  /-- Largest root mean square error of the alignments. -/
  maxError : S

namespace AlignmentSettings

def default : AlignmentSettings S := ⟨3, Scalar.ofNumeral (.finite false 1 (-1))⟩

instance : Inhabited (AlignmentSettings S) := ⟨default⟩

def validate (s : AlignmentSettings S) : Except Error Unit :=
  if s.minPairs < 3 then throw (.invalidConfiguration (.tooFewAlignedPairs s.minPairs))
  else if !(Scalar.le 0 s.maxError) then
    throw (.invalidConfiguration (.alignmentErrorNegative (Scalar.numeral s.maxError)))
  else pure ()

end AlignmentSettings

/-- Spatial correspondences between the cameras of a window. -/
abbrev WindowTable (S : Type) := PairTable (Correspondences (Vec3 S) S)

namespace PoseChain

/-- Valid correspondences of a pair of cameras, in working precision. -/
def pairsOf (table : WindowTable S) (source sink : Nat) : PointPairs D :=
  match table.get source sink with
  | .ok cs => cs.valid.map fun (c, _) => (c.source.widen, c.sink.widen)
  | .error _ => []

/-- Number of valid correspondences of a pair of cameras. -/
def support (table : WindowTable S) (source sink : Nat) : Nat :=
  match table.get source sink with
  | .ok cs => cs.valid.length
  | .error _ => 0

/-- Older cameras in the order in which a link is tried: the predecessor, then by falling support, the
newer first of equally supported ones. -/
def candidates (table : WindowTable S) (camera : Nat) : List Nat :=
  (camera + 1) :: (List.range' (camera + 2) (table.cameras - (camera + 2))).mergeSort fun a b =>
    support table camera b ≤ support table camera a

/-- A camera linked to an older one. -/
structure Link (D : Type) where
  older : Nat
  /-- Motion of the camera in the frame of the older one. -/
  motion : Motion D
  /-- Root mean square error of the alignment. -/
  rms : D
  pairs : Nat

/-- Link to one older camera, if their correspondences are enough and determine a motion. -/
def linkTo? [Decomposing D] (table : WindowTable S) (minPairs camera older : Nat) : Option (Link D) :=
  let pairs := pairsOf table camera older
  if pairs.length < minPairs then none
  else (Alignment.align? pairs).map fun m => ⟨older, m, Alignment.rmsError m pairs.length pairs, pairs.length⟩

/-- The first link that can be made. -/
def link? [Decomposing D] (table : WindowTable S) (minPairs camera : Nat) : Option (Link D) :=
  (candidates table camera).findSome? (linkTo? table minPairs camera)

/-- The poses of the cameras from some camera on, newest first, with the squared errors of their links. -/
structure Chained (D : Type) where
  poses : List (Motion D)
  squaredError : D
  pairs : Nat

/-- The chain with one newer camera in front. -/
def extend? [Decomposing D] (table : WindowTable S) (minPairs : Nat) (chain : Chained D) (camera : Nat) :
    Option (Chained D) := do
  let link ← link? table minPairs camera
  let base ← chain.poses[link.older - (camera + 1)]?
  return {
    poses := base * link.motion :: chain.poses
    squaredError := chain.squaredError + link.rms * link.rms * Scalar.ofNat link.pairs
    pairs := chain.pairs + link.pairs }

/-- Poses of all cameras in the frame of the oldest one, if each newer one can be linked. -/
def ofTable? [Decomposing D] (table : WindowTable S) (minPairs : Nat) : Option (Chained D) :=
  if table.cameras < 2 then none
  else (List.range (table.cameras - 1)).reverse.foldlM (extend? table minPairs) ⟨[.identity], 0, 0⟩

end PoseChain

/-- Estimated poses of a window, newest first, without poses unless there was success. -/
structure WindowEstimate (S D : Type) where
  poses : List (Pose D)
  success : Bool
  /-- Root mean square error, infinite if the cameras could not be linked. -/
  error : S

/-- Poses of a window from its correspondences. -/
def estimateWindow [Decomposing D] (settings : AlignmentSettings S) (table : WindowTable S) :
    WindowEstimate S D :=
  match (PoseChain.ofTable? table settings.minPairs : Option (PoseChain.Chained D)) with
  | none => ⟨[], false, Scalar.infinity⟩
  | some chain =>
    let rms : S := narrow (Scalar.sqrt (chain.squaredError / Scalar.ofNat (max chain.pairs 1)))
    if Scalar.lt settings.maxError rms then ⟨[], false, rms⟩
    else ⟨chain.poses.map .ofMotion, true, rms⟩

namespace WindowEstimate

/-- No poses and no success. -/
def clear (e : WindowEstimate S D) : WindowEstimate S D :=
  { e with poses := [], success := false, error := Scalar.infinity }

/-- Writes the poses of a window over an estimate, as far as they can be computed. -/
def fill [Decomposing D] (settings : AlignmentSettings S) (table : WindowTable S) (e : WindowEstimate S D) :
    WindowEstimate S D :=
  match (PoseChain.ofTable? table settings.minPairs : Option (PoseChain.Chained D)) with
  | none => e
  | some chain =>
    let e := { e with error := narrow (Scalar.sqrt (chain.squaredError / Scalar.ofNat (max chain.pairs 1))) }
    if Scalar.lt settings.maxError e.error then e
    else { e with poses := chain.poses.map .ofMotion, success := true }

/-- Over a cleared estimate, all of it is written. -/
theorem fill_clear [Decomposing D] {settings : AlignmentSettings S} {table : WindowTable S}
    {e : WindowEstimate S D} : e.clear.fill settings table = estimateWindow settings table := by
  unfold fill estimateWindow
  split <;> rfl

end WindowEstimate

end StereoMapping
