import StereoMapping.Cloud.Basic
import StereoMapping.Cloud.Cell
import StereoMapping.Geometry.Pose
import StereoMapping.Keypoint.Features

/-!
# `Cloud.VoxelMap` — the persistent map of a scene

Clouds observed from known poses are brought into one frame and gathered in the cells of a lattice. A cell
holds one voxel; what falls into an occupied cell is fused with its voxel by the policy of the map. Points
and features are kept in two stores that do not touch each other.

## Contents
- `FusionPolicy`, `Voxel`, `Voxel.fuse`.
- `VoxelStore.insert`, `VoxelStore.rebucket`, `VoxelStore.extract`.
- `VoxelMap`: `create`, `setResolution`, `clear`, `addCloud`, `addFeatures`, `sceneAt`, `scene`, `featuresAt`.
-/

namespace StereoMapping

/-- What becomes of a voxel when its cell is observed again. -/
inductive FusionPolicy where
  /-- The first observation stays. -/
  | keepFirst
  /-- The last observation replaces it. -/
  | replace
  /-- The mean of all observations. -/
  | average
  deriving DecidableEq, Inhabited

/-- The observations of a cell, fused. -/
structure Voxel (S : Type) where
  point : Vec3 S
  /-- Observations fused into the point. -/
  observations : UInt32
  descriptor : Descriptor S
  deriving DecidableEq

variable {S D : Type} [Scalar S]

namespace Voxel

/-- One observation. -/
def single (point : Vec3 S) (descriptor : Descriptor S) : Voxel S := ⟨point, 1, descriptor⟩

/-- The mean of two voxels, weighted by their observations. The first descriptor that is not empty stays. -/
def mean (v other : Voxel S) : Voxel S :=
  let total := v.observations + other.observations
  let weight : S := Scalar.ofNat other.observations.toNat / Scalar.ofNat total.toNat
  { point := v.point + (other.point - v.point).scale weight
    observations := total
    descriptor := if v.descriptor.isEmpty then other.descriptor else v.descriptor }

/-- An occupied cell after another observation. -/
def fuse (policy : FusionPolicy) (v other : Voxel S) : Voxel S :=
  match policy with
  | .keepFirst => v
  | .replace => other
  | .average => v.mean other

end Voxel

/-- Voxels by their cells. -/
abbrev VoxelStore (S : Type) := Std.TreeMap Cell (Voxel S)

namespace VoxelStore

/-- A voxel added to the one of its cell, if there is one. -/
def insert (policy : FusionPolicy) (store : VoxelStore S) (cell : Cell) (v : Voxel S) : VoxelStore S :=
  store.alter cell fun
    | some held => some (held.fuse policy v)
    | none => some v

/-- A voxel added to the cell of its point. -/
def add (policy : FusionPolicy) (resolution : S) (store : VoxelStore S) (v : Voxel S) : VoxelStore S :=
  store.insert policy (Cell.ofPoint resolution v.point) v

/-- Voxels in the order of their cells. -/
def voxels (store : VoxelStore S) : List (Voxel S) := store.toList.map Prod.snd

/-- The voxels gathered again in the cells of another side, in the order of their cells. -/
def rebucket (policy : FusionPolicy) (resolution : S) (store : VoxelStore S) : VoxelStore S :=
  store.voxels.foldl (add policy resolution) ∅

variable [Scalar D] [Precision S D]

/-- Voxels within a radius of the origin of a frame, bound included, with their points in that frame. -/
def extract (store : VoxelStore S) (frame : Motion D) (radius : S) : List (Vec3 S × Voxel S) :=
  let toFrame := frame.inverse
  let bound := widen radius
  store.voxels.filterMap fun v =>
    let p : Vec3 D := v.point.widen
    if Scalar.le (frame.translation - p).norm bound then some ((toFrame.apply p).narrow, v) else none

end VoxelStore

/-- The scene observed so far, in the frame of its first pose. -/
structure VoxelMap (S D : Type) where
  /-- Side of a cell. -/
  resolution : S
  policy : FusionPolicy
  points : VoxelStore S
  features : VoxelStore S
  /-- Pose of the last addition. -/
  lastPose : Pose D

/-- A side of cells is finite and positive. -/
def checkResolution (resolution : S) : Except Error Unit :=
  if Scalar.isFinite resolution && Scalar.lt 0 resolution then pure ()
  else throw (.invalidResolution (Scalar.numeral resolution))

/-- A radius is not negative, and may be infinite. -/
def checkRadius (radius : S) : Except Error Unit :=
  if Scalar.le 0 radius then pure () else throw (.invalidRadius (Scalar.numeral radius))

namespace VoxelMap

variable [Scalar D]

/-- The empty map of a resolution. -/
def create (resolution : S) (policy : FusionPolicy) : Except Error (VoxelMap S D) := do
  checkResolution resolution
  return ⟨resolution, policy, ∅, ∅, .identity⟩

/-- Gives the cells another side. Content is fused where it now shares a cell. -/
def setResolution (m : VoxelMap S D) (resolution : S) : VoxelMap S D × Except Error Unit :=
  match checkResolution resolution with
  | .error e => (m, .error e)
  | .ok () =>
    ({ m with
      resolution := resolution
      points := m.points.rebucket m.policy resolution
      features := m.features.rebucket m.policy resolution }, .ok ())

/-- The map without content. -/
def clear (m : VoxelMap S D) : VoxelMap S D := { m with points := ∅, features := ∅, lastPose := .identity }

/-- The motion of a pose that must be valid. -/
def motionOf (pose : Pose D) : Except Error (Motion D) :=
  match pose.toMotion? with
  | some m => pure m
  | none => throw .invalidPose

variable [Precision S D]

/-- A point of the frame of a pose, in the frame of the map. -/
def place (motion : Motion D) (p : Vec3 S) : Vec3 S := (motion.apply p.widen).narrow

/-- Adds the valid points of a cloud observed from a pose, and counts them. -/
def addCloud (m : VoxelMap S D) (cloud : Cloud S) (pose : Pose D) : VoxelMap S D × Except Error Nat :=
  match motionOf pose with
  | .error e => (m, .error e)
  | .ok motion =>
    let added := cloud.validPoints.map fun p => Voxel.single (place motion p) .empty
    ({ m with
      points := added.foldl (VoxelStore.add m.policy m.resolution) m.points
      lastPose := pose }, .ok added.length)

/-- Adds the features at valid points observed from a pose, and counts them. -/
def addFeatures (m : VoxelMap S D) (features : Features (Vec3 S) S) (pose : Pose D) :
    VoxelMap S D × Except Error Nat :=
  match motionOf pose with
  | .error e => (m, .error e)
  | .ok motion =>
    let added := (features.entries.toList.filter fun f => f.point.isValid).map fun f =>
      Voxel.single (place motion f.point) f.descriptor
    ({ m with
      features := added.foldl (VoxelStore.add m.policy m.resolution) m.features
      lastPose := pose }, .ok added.length)

/-- Points within a radius of a pose, in its frame. -/
def sceneAt (m : VoxelMap S D) (pose : Pose D) (radius : S) : Except Error (Cloud S) := do
  checkRadius radius
  let motion ← motionOf pose
  return .ofPoints ((m.points.extract motion radius).map Prod.fst).toArray

/-- Points within a radius of the last pose, in its frame. -/
def scene (m : VoxelMap S D) (radius : S) : Except Error (Cloud S) := m.sceneAt m.lastPose radius

/-- Features within a radius of a pose, in its frame. -/
def featuresAt (m : VoxelMap S D) (pose : Pose D) (radius : S) : Except Error (Features (Vec3 S) S) := do
  checkRadius radius
  let motion ← motionOf pose
  (m.features.extract motion radius).foldlM
    (fun (fs : Features (Vec3 S) S) (p, v) => fs.addDescribed p v.descriptor.toList) .empty

end VoxelMap

end StereoMapping
