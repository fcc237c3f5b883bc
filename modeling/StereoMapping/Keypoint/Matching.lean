import StereoMapping.Correspondence.Basic
import StereoMapping.Keypoint.Features

/-!
# `Keypoint.Matching` — nearest descriptors

A keypoint is matched to the candidate of least descriptor distance, among those of its descriptor length,
if that distance is well below the next one (ratio test), not above a bound, and if the candidate would
choose it back (cross check). A keypoint without descriptor is never matched.

## Contents
- `MatchSettings` and its check.
- `Nearest`, `Nearest.among?`: the least two distances in one pass.
- `matchDescriptors`, `matchFeatures`.
-/

namespace StereoMapping

variable {P S : Type} [Scalar S]

/-- Settings of the matcher. -/
structure MatchSettings (S : Type) where
  /-- The distance of a match is below this share of the next one. -/
  ratio : S
  /-- Whether a match has to hold in both directions. -/
  crossCheck : Bool
  /-- Largest distance of a match. -/
  maxDistance : Option S

namespace MatchSettings

def default : MatchSettings S := ⟨Scalar.ofNumeral (.finite false 8 (-1)), true, none⟩

instance : Inhabited (MatchSettings S) := ⟨default⟩

def validate (s : MatchSettings S) : Except Error Unit := do
  if !(Scalar.lt 0 s.ratio && Scalar.le s.ratio 1) then
    throw (.invalidConfiguration (.matchRatioOutOfRange (Scalar.numeral s.ratio)))
  match s.maxDistance with
  | some d =>
    if !(Scalar.le 0 d) then
      throw (.invalidConfiguration (.matchDistanceNegative (Scalar.numeral d)))
  | none => pure ()

end MatchSettings

/-- The nearest of some candidates. -/
structure Nearest (S : Type) where
  index : Nat
  distance : S
  /-- Distance of the next nearest, infinite if there is none. -/
  next : S

namespace Nearest

/-- The nearest after one more candidate. Of equal distances the earlier candidate stays. -/
def step (found : Option (Nearest S)) (candidate : Nat × S) : Option (Nearest S) :=
  let (index, distance) := candidate
  match found with
  | none => some ⟨index, distance, Scalar.infinity⟩
  | some n =>
    if Scalar.le n.distance distance then some { n with next := Scalar.least n.next distance }
    else some ⟨index, distance, n.distance⟩

/-- The candidates of the descriptor length of a query, with their distances. -/
def candidates (query : Descriptor S) (fs : Features P S) : List (Nat × S) :=
  fs.entries.toList.zipIdx.filterMap fun (f, index) =>
    if f.descriptor.length = query.length then
      some (index, Scalar.sqrt (query.squaredDistance f.descriptor))
    else none

/-- The nearest candidate of a described query. -/
def among? (query : Descriptor S) (fs : Features P S) : Option (Nearest S) :=
  if query.isEmpty then none else (candidates query fs).foldl step none

/-- The ratio test: passed where there is no next candidate at a finite distance. -/
def isDistinct (ratio : S) (n : Nearest S) : Bool :=
  !(Scalar.isFinite n.next) || Scalar.lt n.distance (ratio * n.next)

/-- The bound on the distance, if there is one. -/
def isWithin (bound : Option S) (n : Nearest S) : Bool :=
  match bound with
  | some d => !(Scalar.lt d n.distance)
  | none => true

end Nearest

/-- A match of descriptors by their indices. -/
structure DescriptorMatch (S : Type) where
  source : Nat
  sink : Nat
  distance : S

/-- Whether the nearest source of a sink is the given one. -/
def choosesBack (source sink : Features P S) (query found : Nat) : Bool :=
  match sink.entries[found]? with
  | some f =>
    match Nearest.among? f.descriptor source with
    | some back => back.index == query
    | none => false
  | none => false

/-- The match of one source keypoint. -/
def matchDescriptor? (settings : MatchSettings S) (source sink : Features P S)
    (query : Feature P S × Nat) : Option (DescriptorMatch S) := do
  let n ← Nearest.among? query.1.descriptor sink
  if n.isDistinct settings.ratio && n.isWithin settings.maxDistance
      && (!settings.crossCheck || choosesBack source sink query.2 n.index) then
    some ⟨query.2, n.index, n.distance⟩
  else none

/-- Matches in the order of the source keypoints. -/
def matchDescriptors (settings : MatchSettings S) (source sink : Features P S) :
    List (DescriptorMatch S) :=
  source.entries.toList.zipIdx.filterMap (matchDescriptor? settings source sink)

/-- Confidence in a match: one at distance zero, falling towards zero. -/
def matchProbability (distance : S) : S := 1 / (1 + distance)

/-- Appends the keypoints of a match. -/
def addMatch (source sink : Features P S) (held : Correspondences P S) (m : DescriptorMatch S) :
    Correspondences P S :=
  match source.entries[m.source]?, sink.entries[m.sink]? with
  | some a, some b => held.push ⟨a.point, b.point, matchProbability m.distance⟩
  | _, _ => held

/-- Matched keypoints of two images, appended to those `held`. -/
def matchFeatures (settings : MatchSettings S) (source sink : Features P S) (held : Correspondences P S) :
    Correspondences P S :=
  (matchDescriptors settings source sink).foldl (addMatch source sink) held

end StereoMapping
