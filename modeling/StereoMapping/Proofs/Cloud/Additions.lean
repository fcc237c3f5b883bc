import StereoMapping.Proofs.Cloud.VoxelMap

/-!
# `Proofs.Cloud.Additions` — what a map is given

A map is changed by additions of clouds and of features, by a change of its resolution, and by being cleared.
An addition is a pose and some points with descriptors, those of a cloud being empty. If the pose is valid the
valid points are placed in the frame of the map and recorded in one of the two stores, in order; if it is not,
nothing happens. So whatever a series of additions leaves in a store is one record of all that was placed.

## Contents
- `Addition`, `Addition.valid`, `Addition.placed`: an addition, its valid points, and where they come to lie.
- `VoxelStore.record`: a series of single observations in a store.
- `VoxelMap.add`, `add_valid`, `add_invalid`: one addition; `addAll`, `stores_addAll`: a series of them.
- `setResolution_ok`, `setResolution_error`: another resolution.
- `MapEdit`, `VoxelMap.edit`: any change of a map.
-/

namespace StereoMapping

variable {S D : Type}

/-! ## Additions -/

/-- Something observed from a pose. -/
inductive Addition (S D : Type) where
  | cloud (cloud : Cloud S) (pose : Pose D)
  | features (features : Features (Vec3 S) S) (pose : Pose D)

namespace Addition

def pose : Addition S D → Pose D
  | cloud _ pose => pose
  | features _ pose => pose

variable [Scalar S]

/-- The valid points of an addition with their descriptors. -/
def valid : Addition S D → List (Vec3 S × Descriptor S)
  | cloud c _ => c.validPoints.map fun p => (p, .empty)
  | features fs _ =>
    (fs.entries.toList.filter fun f => f.point.isValid).map fun f => (f.point, f.descriptor)

variable [Scalar D] [Precision S D]

/-- The valid points in the frame of the map, none if the pose is invalid. -/
def placed (a : Addition S D) : List (Vec3 S × Descriptor S) :=
  match a.pose.toMotion? with
  | some motion => a.valid.map fun e => (VoxelMap.place motion e.1, e.2)
  | none => []

/-- What an addition puts into the store of points. -/
def toPoints : Addition S D → List (Vec3 S × Descriptor S)
  | cloud c pose => (cloud c pose).placed
  | features _ _ => []

/-- What an addition puts into the store of features. -/
def toFeatures : Addition S D → List (Vec3 S × Descriptor S)
  | cloud _ _ => []
  | features fs pose => (features fs pose).placed

omit [Precision S D] [Scalar S] in
theorem toMotion?_of_invalid {pose : Pose D} (h : pose.isValid = false) : pose.toMotion? = none :=
  if_neg (by rw [h]; exact Bool.false_ne_true)

theorem placed_of_invalid {a : Addition S D} (h : a.pose.isValid = false) : a.placed = [] := by
  unfold placed
  rw [toMotion?_of_invalid h]

/-- All valid points are placed if the pose is valid. -/
theorem length_placed (a : Addition S D) :
    a.placed.length = if a.pose.isValid then a.valid.length else 0 := by
  unfold placed
  cases h : a.pose.isValid with
  | false =>
    rw [toMotion?_of_invalid h]
    rfl
  | true =>
    obtain ⟨motion, hsome, _⟩ := VoxelMap.motionOf_ok h
    rw [hsome]
    exact List.length_map _

theorem length_placed_le (a : Addition S D) : a.placed.length ≤ a.valid.length := by
  rw [length_placed]
  split
  · exact Nat.le_refl _
  · exact Nat.zero_le _

/-- An invalid pose puts nothing anywhere. -/
theorem stores_of_invalid {a : Addition S D} (h : a.pose.isValid = false) :
    a.toPoints = [] ∧ a.toFeatures = [] := by
  cases a with
  | cloud c pose => exact ⟨placed_of_invalid h, rfl⟩
  | features fs pose => exact ⟨rfl, placed_of_invalid h⟩

end Addition

/-- Single observations recorded in a store, one after the other. -/
def VoxelStore.record [Scalar S] (policy : FusionPolicy) (resolution : S) (store : VoxelStore S)
    (entries : List (Vec3 S × Descriptor S)) : VoxelStore S :=
  entries.foldl (fun store e => VoxelStore.add policy resolution store (.single e.1 e.2)) store

namespace VoxelMap

variable [Scalar S] [Scalar D] [Precision S D]

/-! ## One addition -/

/-- The map after an addition, and the result of it. -/
def add (m : VoxelMap S D) : Addition S D → VoxelMap S D × Except Error Nat
  | .cloud cloud pose => m.addCloud cloud pose
  | .features features pose => m.addFeatures features pose

/-- **An addition from a valid pose** records what it places, and counts it. -/
theorem add_valid (m : VoxelMap S D) {a : Addition S D} (h : a.pose.isValid = true) :
    m.add a = ({ m with
      points := VoxelStore.record m.policy m.resolution m.points a.toPoints
      features := VoxelStore.record m.policy m.resolution m.features a.toFeatures
      lastPose := a.pose }, .ok a.valid.length) := by
  cases a with
  | cloud cloud pose =>
    have h : pose.isValid = true := h
    obtain ⟨motion, hsome, hmotion⟩ := motionOf_ok h
    unfold add addCloud
    simp only [hmotion, Addition.toPoints, Addition.toFeatures,
      Addition.placed, Addition.valid, Addition.pose, hsome, VoxelStore.record, List.foldl_map,
      List.foldl_nil, List.length_map]
  | features fs pose =>
    have h : pose.isValid = true := h
    obtain ⟨motion, hsome, hmotion⟩ := motionOf_ok h
    unfold add addFeatures
    simp only [hmotion, Addition.toPoints, Addition.toFeatures,
      Addition.placed, Addition.valid, Addition.pose, hsome, VoxelStore.record, List.foldl_map,
      List.foldl_nil, List.length_map]

/-- **An addition from an invalid pose** is refused, and leaves the map as it was. -/
theorem add_invalid (m : VoxelMap S D) {a : Addition S D} (h : a.pose.isValid = false) :
    m.add a = (m, .error .invalidPose) := by
  cases a with
  | cloud cloud pose => exact addCloud_error m cloud h
  | features fs pose =>
    have hmotion : motionOf pose = .error .invalidPose := motionOf_error h
    simp only [add, addFeatures, hmotion]

/-- Either way the stores record what was placed, and the settings of the map stay. -/
theorem stores_add (m : VoxelMap S D) (a : Addition S D) :
    (m.add a).1.points = VoxelStore.record m.policy m.resolution m.points a.toPoints ∧
      (m.add a).1.features = VoxelStore.record m.policy m.resolution m.features a.toFeatures ∧
      (m.add a).1.policy = m.policy ∧ (m.add a).1.resolution = m.resolution := by
  cases h : a.pose.isValid with
  | true =>
    rw [m.add_valid h]
    exact ⟨rfl, rfl, rfl, rfl⟩
  | false =>
    obtain ⟨hpoints, hfeatures⟩ := Addition.stores_of_invalid h
    rw [m.add_invalid h, hpoints, hfeatures]
    exact ⟨rfl, rfl, rfl, rfl⟩

/-! ## A series of additions -/

/-- The map after some additions, those that were refused included. -/
def addAll (m : VoxelMap S D) (log : List (Addition S D)) : VoxelMap S D :=
  log.foldl (fun m a => (m.add a).1) m

/-- **A series of additions is one record** in each store. -/
theorem stores_addAll (m : VoxelMap S D) (log : List (Addition S D)) :
    (m.addAll log).points
        = VoxelStore.record m.policy m.resolution m.points (log.flatMap Addition.toPoints) ∧
      (m.addAll log).features
        = VoxelStore.record m.policy m.resolution m.features (log.flatMap Addition.toFeatures) ∧
      (m.addAll log).policy = m.policy ∧ (m.addAll log).resolution = m.resolution := by
  induction log generalizing m with
  | nil => exact ⟨rfl, rfl, rfl, rfl⟩
  | cons a rest ih =>
    obtain ⟨hpoints, hfeatures, hpolicy, hresolution⟩ := m.stores_add a
    obtain ⟨hpoints', hfeatures', hpolicy', hresolution'⟩ := ih (m.add a).1
    rw [hpolicy, hresolution, hpoints] at hpoints'
    rw [hpolicy, hresolution, hfeatures] at hfeatures'
    refine ⟨?_, ?_, hpolicy'.trans hpolicy, hresolution'.trans hresolution⟩
    · rw [List.flatMap_cons, VoxelStore.record, List.foldl_append]
      exact hpoints'
    · rw [List.flatMap_cons, VoxelStore.record, List.foldl_append]
      exact hfeatures'

end VoxelMap

/-! ## Any change of a map -/

/-- A change of a map. -/
inductive MapEdit (S D : Type) where
  | add (addition : Addition S D)
  | setResolution (resolution : S)
  | clear

namespace VoxelMap

variable [Scalar S]

/-- A new resolution that passes its check is taken, and both stores are gathered again. -/
theorem setResolution_ok (m : VoxelMap S D) {resolution : S} (h : checkResolution resolution = .ok ()) :
    m.setResolution resolution = ({ m with
      resolution := resolution
      points := m.points.rebucket m.policy resolution
      features := m.features.rebucket m.policy resolution }, .ok ()) := by
  simp only [setResolution, h]

/-- One that does not leaves the map as it was. -/
theorem setResolution_error (m : VoxelMap S D) {resolution : S} {e : Error}
    (h : checkResolution resolution = .error e) : m.setResolution resolution = (m, .error e) := by
  simp only [setResolution, h]

variable [Scalar D] [Precision S D]

/-- The map after a change, refused or not. -/
def edit (m : VoxelMap S D) : MapEdit S D → VoxelMap S D
  | .add a => (m.add a).1
  | .setResolution resolution => (m.setResolution resolution).1
  | .clear => m.clear

end VoxelMap

end StereoMapping
