import StereoMapping.Proofs.Cloud.Grid
import StereoMapping.Proofs.Number.Special

/-!
# `Proofs.Cloud.Retrieval` — which stored points can be read back

A radius that is infinite should read a whole map. In the arithmetic of the running program it reads exactly the
stored points that are valid: the distance of such a point is a number, infinite or not, while the distance of any
other point is none, and no radius reaches it. A map looks at its points before it places them, and placing can
make a valid point invalid, an infinite one for example. So what is stored and counted need not be readable.

## Contents
- `Voxel.near_infinity`, `Voxel.near_of_invalid`: the two sides of one voxel.
- `VoxelStore.AllValid`, `VoxelMap.allValid_editAll`: changes that store valid points only.
- `VoxelMap.Retrieves`, `VoxelMap.scene_is_valid_points`: what an infinite radius reads after any changes.
- `VoxelMap.scene_of_infinite_point`: a point that is counted and never read.
-/

namespace StereoMapping

/-! ## One voxel -/

theorem Pose.isFinite_of_isValid {p : Pose Float} (h : p.isValid = true) : p.position.isFinite = true := by
  unfold isValid at h
  simp only [Bool.and_eq_true] at h
  exact h.1.1

namespace Voxel

/-- **An infinite radius** reaches every voxel whose point is valid, and no other. -/
theorem near_infinity {frame : Motion Float} (hframe : frame.translation.isFinite = true) (v : Voxel Float32) :
    v.near frame Scalar.infinity = v.point.isValid := by
  -- the radius is widened before it is compared
  have hradius : (widen (Scalar.infinity : Float32) : Float) = infinity64 := by decide +kernel
  show Scalar.le (frame.translation - v.point.widen).norm (widen (Scalar.infinity : Float32)) = _
  rw [hradius, Vec3.norm_le_infinity, Vec3.isValid_sub hframe, Vec3.isValid_widen]

/-- No radius around any frame reaches a voxel whose point is not valid. -/
theorem near_of_invalid {v : Voxel Float32} (h : v.point.isValid = false) (frame : Motion Float)
    (radius : Float32) : v.near frame radius = false :=
  Vec3.norm_le_eq_false (Vec3.isValid_sub_of_invalid _ ((Vec3.isValid_widen v.point).trans h)) _

end Voxel

/-! ## Stores of valid points -/

section

variable {S : Type} [Scalar S]

/-- Every stored point is valid. -/
def VoxelStore.AllValid (store : VoxelStore S) : Prop :=
  ∀ (c : Cell) (v : Voxel S), store[c]? = some v → v.point.isValid = true

theorem VoxelStore.allValid_iff {store : VoxelStore S} :
    store.AllValid ↔ ∀ v ∈ store.voxels, v.point.isValid = true := by
  constructor
  · intro h v hv
    obtain ⟨⟨c, w⟩, hmem, rfl⟩ := List.mem_map.mp hv
    exact h c w (Std.TreeMap.mem_toList_iff_getElem?_eq_some.mp hmem)
  · intro h c v hv
    exact h v (List.mem_map_of_mem (Std.TreeMap.mem_toList_iff_getElem?_eq_some.mpr hv))

/-- Two valid voxels are fused to a valid one. -/
def Voxel.FusesValid (policy : FusionPolicy) (held v : Voxel S) : Prop :=
  held.point.isValid = true → v.point.isValid = true → (held.fuse policy v).point.isValid = true

theorem Voxel.fusesValid_of_ne_average {policy : FusionPolicy} (h : policy ≠ .average) (held v : Voxel S) :
    FusesValid policy held v := by
  intro hheld hv
  cases policy with
  | keepFirst => exact hheld
  | replace => exact hv
  | average => exact absurd rfl h

namespace VoxelGrid

/-- **Changes of a store keep its points valid**, if the recorded points are, and if fusing does. -/
theorem allValid_editAll {g : VoxelGrid S} (h : g.store.AllValid) {edits : List (GridEdit S)}
    (hrecorded : ∀ e ∈ edits.flatMap GridEdit.recorded, e.1.isValid = true)
    (hfusing : g.Fusing (Voxel.FusesValid g.policy) edits) : (g.editAll edits).store.AllValid := by
  induction edits generalizing g with
  | nil => exact h
  | cons e rest ih =>
    simp only [List.flatMap_cons, List.forall_mem_append] at hrecorded
    obtain ⟨hfirst, hrest⟩ := hrecorded
    have hkept : (g.kept e).AllValid := by
      cases e with
      | record entries => exact h
      | rebucket resolution => exact fun c v hv => by simp [kept] at hv
      | clear => exact fun c v hv => by simp [kept] at hv
    have hadded : ∀ v ∈ g.added e, v.point.isValid = true := by
      cases e with
      | record entries => exact List.forall_mem_map.mpr hfirst
      | rebucket resolution => exact VoxelStore.allValid_iff.mp h
      | clear => exact fun v hv => absurd hv List.not_mem_nil
    have hedit : (g.edit e).store.AllValid :=
      VoxelStore.forall_foldl_add (fun _ _ _ hrel => hrel) hkept hadded hfusing.1
    exact ih hedit hrest hfusing.2

end VoxelGrid

end

/-! ## A whole map -/

namespace VoxelMap

/-- **What can be read of the points of a map.** An infinite radius reads those that are valid, cell by cell. So
it reads as many as there are if they all are, and those that are not are within no radius of any frame. -/
structure Retrieves (m : VoxelMap Float32 Float) (pose : Pose Float) (frame : Motion Float) : Prop where
  scene : ∃ cloud, m.sceneAt pose Scalar.infinity = .ok cloud ∧ cloud.points.toList
    = (m.points.voxels.filter fun v => v.point.isValid).map (Voxel.seenFrom frame)
  whole : (∃ cloud, m.sceneAt pose Scalar.infinity = .ok cloud ∧ cloud.points.size = m.points.size) ↔
    m.points.AllValid
  lost : ∀ (c : Cell) (v : Voxel Float32), m.points[c]? = some v → v.point.isValid = false →
    ∀ frame radius, v.near frame radius = false

theorem retrieves (m : VoxelMap Float32 Float) {pose : Pose Float} {frame : Motion Float}
    (hpose : pose.isValid = true) (hframe : pose.toMotion? = some frame) : m.Retrieves pose frame := by
  have hradius : checkRadius (Scalar.infinity : Float32) = .ok () := if_pos (by decide +kernel)
  have hfinite : frame.translation.isFinite = true := by
    have hmotion : pose.toMotion? = some ⟨pose.orientation.normalize, pose.position⟩ := if_pos hpose
    obtain rfl := Option.some.inj (hframe.symm.trans hmotion)
    exact Pose.isFinite_of_isValid hpose
  -- a radius without bound leaves out the points that are no numbers, and nothing else
  have hnear : Voxel.near frame (Scalar.infinity : Float32) = fun v => v.point.isValid :=
    funext (Voxel.near_infinity hfinite)
  have hscene := m.sceneAt_eq hframe hradius
  rw [hnear] at hscene
  have hsize : m.points.size = m.points.voxels.length := by
    unfold VoxelStore.voxels
    rw [List.length_map, Std.TreeMap.length_toList]
  refine ⟨⟨_, hscene, ?_⟩, ?_, fun _ v _ hv => v.near_of_invalid hv⟩
  · show (List.toArray _).toList = _
    rw [List.toList_toArray]
  · rw [VoxelStore.allValid_iff, ← List.length_filter_eq_length_iff, ← hsize]
    constructor
    · rintro ⟨cloud, hcloud, hcount⟩
      obtain rfl := Except.ok.inj (hscene.symm.trans hcloud)
      have hcount : (List.toArray _).size = m.points.size := hcount
      rw [List.size_toArray, List.length_map] at hcount
      exact hcount
    · intro hcount
      refine ⟨_, hscene, ?_⟩
      show (List.toArray _).size = m.points.size
      rw [List.size_toArray, List.length_map]
      exact hcount

/-- **A map keeps valid points valid.** After any changes of a created map the stored points are valid if all
points were where they were placed, and if the means of valid points are, under the policy that takes means. -/
theorem allValid_of_placed {resolution : Float32} {policy : FusionPolicy} {start : VoxelMap Float32 Float}
    (hcreate : create resolution policy = .ok start) {edits : List (MapEdit Float32 Float)}
    (hplaced : ∀ e ∈ placedBy Addition.toPoints edits, e.1.isValid = true)
    (hmeans : policy = .average →
      start.pointGrid.Fusing (Voxel.FusesValid policy) (edits.map (MapEdit.onStore Addition.toPoints))) :
    (start.editAll edits).points.AllValid := by
  obtain ⟨_, rfl⟩ := create_eq_ok_iff.mp hcreate
  have hfusing : VoxelGrid.Fusing (Voxel.FusesValid policy) ⟨resolution, policy, ∅⟩
      (edits.map (MapEdit.onStore Addition.toPoints)) := by
    by_cases hpolicy : policy = .average
    · exact hmeans hpolicy
    · exact VoxelGrid.fusing_of_forall (Voxel.fusesValid_of_ne_average hpolicy) _ _
  have hrun := pointGrid_editAll ⟨resolution, policy, ∅, ∅, .identity⟩ edits
  show (pointGrid _).store.AllValid
  rw [hrun]
  -- the created store is empty, and what is recorded is what was placed
  refine VoxelGrid.allValid_editAll (fun c v hv => ?_) ?_ hfusing
  · simp [pointGrid] at hv
  · rw [flatMap_recorded]
    exact hplaced

/-- **An infinite radius reads the valid points.** After any changes of a created map, around any valid pose, it
reads the stored points that are valid and no others, however they came to be. It reads as many points as are
counted if all points were valid where they were placed and means of valid points stayed valid. -/
theorem scene_is_valid_points {resolution : Float32} {policy : FusionPolicy} {start : VoxelMap Float32 Float}
    (hcreate : create resolution policy = .ok start) (edits : List (MapEdit Float32 Float)) {pose : Pose Float}
    (hpose : pose.isValid = true) :
    ∃ frame, pose.toMotion? = some frame ∧ (start.editAll edits).Retrieves pose frame ∧
      ((∀ e ∈ placedBy Addition.toPoints edits, e.1.isValid = true) →
        (policy = .average → start.pointGrid.Fusing (Voxel.FusesValid policy)
          (edits.map (MapEdit.onStore Addition.toPoints))) →
        (start.editAll edits).points.AllValid) := by
  obtain ⟨frame, hframe, _⟩ := motionOf_ok hpose
  exact ⟨frame, hframe, retrieves _ hpose hframe, allValid_of_placed hcreate⟩

/-! ### One point in a map -/

/-- A map of unit cells that is given one point from the origin. -/
def onePoint (p : Vec3 Float32) : VoxelMap Float32 Float :=
  editAll ⟨1, .keepFirst, ∅, ∅, .identity⟩ [.add (.cloud ⟨#[p], 0⟩ .identity)]

theorem create_unit : create 1 .keepFirst = .ok (⟨1, .keepFirst, ∅, ∅, .identity⟩ : VoxelMap Float32 Float) :=
  create_eq_ok_iff.mpr ⟨if_pos (by decide +kernel), rfl⟩

/-- A finite point is read back. -/
theorem scene_is_valid_points_finite : ∃ cloud,
    (onePoint ⟨0.5, 0.25, 1⟩).sceneAt .identity Scalar.infinity = .ok cloud ∧ cloud.points.size = 1 := by
  have hpose : (Pose.identity : Pose Float).isValid = true := by decide +kernel
  obtain ⟨frame, _, hretrieves, hvalid⟩ := scene_is_valid_points create_unit
    [.add (.cloud ⟨#[⟨0.5, 0.25, 1⟩], 0⟩ .identity)] hpose
  have hsize : (onePoint ⟨0.5, 0.25, 1⟩).points.size = 1 := by decide +kernel
  obtain ⟨cloud, hcloud, hcount⟩ := hretrieves.whole.mpr (hvalid (by decide +kernel) fun h => nomatch h)
  exact ⟨cloud, hcloud, hcount.trans hsize⟩

/-- An infinite point is valid, so it is taken and counted. Rotating it multiplies infinity by zero, and what is
stored is never read. -/
theorem scene_of_infinite_point :
    Vec3.isValid (⟨Scalar.infinity, 0, 1⟩ : Vec3 Float32) = true ∧
      (Pose.identity : Pose Float).isValid = true ∧
      (onePoint ⟨Scalar.infinity, 0, 1⟩).points.size = 1 ∧
      ((onePoint ⟨Scalar.infinity, 0, 1⟩).sceneAt .identity Scalar.infinity).toOption.map
        (fun cloud => cloud.points.size) = some 0 := by
  decide +kernel

end VoxelMap

end StereoMapping
