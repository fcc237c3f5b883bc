import Mathlib.Analysis.Convex.Segment
import StereoMapping.Proofs.Cloud.Counts
import StereoMapping.Proofs.Cloud.Regrid
import StereoMapping.Proofs.Geometry.RigidMotion

/-!
# `Proofs.Cloud.Cells` — means that stay in their cells

The third policy computes a new point for an occupied cell, the mean of two points weighted by the counts of their
observations. Along each axis the mean lies between the two coordinates, and a cell holds with two coordinates
all those between them: dividing by the side, taking the floor and cutting off at the ends of the range all keep
the order. This is a fact of exact arithmetic. It needs the counts to be the counts, that is, no sum of two of them
may wrap around, since a weight above one leads out of the cell.

## Contents
- `Shape.clampInt64_mono`, `Scalar.real_floorInt64_of_between`: coordinates between two of one cell.
- `Voxel.fusesInCell_average`: the mean of two voxels of a cell is in that cell.
- `VoxelMap.voxels_in_cells`: the stores of a map under any policy.
- `VoxelMap.toList_crowded`: two voxels whose counts do not fit together; `mean_leaves_cell`: their mean.
-/

namespace StereoMapping

/-! ## Coordinates of one cell -/

theorem Shape.toInt_clampInt64 (i : Int) :
    (clampInt64 i).toInt = max Int64.minValue.toInt (min Int64.maxValue.toInt i) := by
  unfold clampInt64
  refine Int64.toInt_ofInt_of_le ?_ ?_
  · exact Int.le_max_left _ _
  · have hrange : Int64.minValue.toInt ≤ Int64.maxValue.toInt := by decide
    have hbound : Int64.maxValue.toInt < 2 ^ 63 := by decide
    omega

/-- Cutting off at the ends of the range keeps the order. -/
theorem Shape.clampInt64_mono {a b : Int} (h : a ≤ b) : clampInt64 a ≤ clampInt64 b := by
  rw [Int64.le_iff_toInt_le, toInt_clampInt64, toInt_clampInt64]
  omega

/-- **A coordinate between two of one cell** is in that cell. -/
theorem Scalar.real_floorInt64_of_between {a b x : ℝ} (hx : x ∈ Set.uIcc a b)
    (hsame : floorInt64 a = floorInt64 b) : floorInt64 x = floorInt64 b := by
  have hmono : ∀ {p q : ℝ}, p ≤ q → floorInt64 p ≤ floorInt64 q := by
    intro p q hpq
    exact Shape.clampInt64_mono (Int.floor_mono hpq)
  rcases Set.mem_uIcc.mp hx with ⟨hlow, hhigh⟩ | ⟨hlow, hhigh⟩
  · exact Int64.le_antisymm (hmono hhigh) (hsame ▸ hmono hlow)
  · exact Int64.le_antisymm (hsame ▸ hmono hhigh) (hmono hlow)

/-- A step of a part of the way from one coordinate to another, over the side of the cells. -/
theorem mem_uIcc_of_part {a b side weight : ℝ} (hweight : weight ∈ Set.Icc (0 : ℝ) 1) :
    (a + (b - a) * weight) / side ∈ Set.uIcc (a / side) (b / side) := by
  have hpart : (a + (b - a) * weight) / side = a / side + weight • (b / side - a / side) := by
    rw [smul_eq_mul]
    ring
  rw [hpart, ← segment_eq_uIcc, segment_eq_image']
  exact Set.mem_image_of_mem _ hweight

/-! ## The mean of two voxels -/

namespace Voxel

/-- The weight of one of two counts is a part of the whole. -/
theorem weight_mem {v w : Voxel ℝ} (h : v.CountsFit w) :
    (Scalar.ofNat w.observations.toNat / Scalar.ofNat (v.observations + w.observations).toNat : ℝ)
      ∈ Set.Icc (0 : ℝ) 1 := by
  have hsum : (v.observations + w.observations).toNat = v.observations.toNat + w.observations.toNat := by
    rw [UInt32.toNat_add]
    exact Nat.mod_eq_of_lt h
  have hle : (w.observations.toNat : ℝ) ≤ ((v.observations + w.observations).toNat : ℝ) := by
    rw [hsum]
    exact Nat.cast_le.mpr (Nat.le_add_left _ _)
  constructor
  · exact div_nonneg (Nat.cast_nonneg _) (Nat.cast_nonneg _)
  · exact div_le_one_of_le₀ hle (Nat.cast_nonneg _)

/-- **The mean of two voxels of a cell** is in that cell, for cells of any side. -/
theorem fusesInCell_average (resolution : ℝ) : FusesInCell CountsFit .average resolution := by
  intro held v hfit hsame
  have hweight := weight_mem hfit
  obtain ⟨hx, hy, hz⟩ := Cell.mk.inj hsame
  show Cell.mk _ _ _ = Cell.mk _ _ _
  rw [Cell.mk.injEq]
  exact ⟨Scalar.real_floorInt64_of_between (mem_uIcc_of_part hweight) hx,
    Scalar.real_floorInt64_of_between (mem_uIcc_of_part hweight) hy,
    Scalar.real_floorInt64_of_between (mem_uIcc_of_part hweight) hz⟩

end Voxel

/-! ## The stores of a map -/

namespace VoxelMap

/-- **Every voxel lies in the cell of its point**, in both stores of a created map after any changes, and a change
of the resolution does what `Regrids` says. Under the two policies that keep a voxel this holds for the scalars
of the running program and for all others. Under the policy that takes means it holds in exact arithmetic, for any
working scalars, as long as no count of observations overflows. -/
theorem voxels_in_cells {S D E : Type} [Scalar S] [Scalar D] [Precision S D] [Scalar E] [Precision ℝ E]
    {resolution : S} {policy : FusionPolicy} {start : VoxelMap S D} {side : ℝ} {means : VoxelMap ℝ E}
    (hstart : create resolution policy = .ok start) (hmeans : create side .average = .ok means)
    (edits : List (MapEdit S D)) (meanEdits : List (MapEdit ℝ E)) :
    (policy = .keepFirst ∨ policy = .replace → (start.editAll edits).Gridded ∧ (start.editAll edits).Regrids) ∧
    (means.pointGrid.Fusing Voxel.CountsFit (meanEdits.map (MapEdit.onStore Addition.toPoints)) →
      means.featureGrid.Fusing Voxel.CountsFit (meanEdits.map (MapEdit.onStore Addition.toFeatures)) →
        (means.editAll meanEdits).Gridded ∧ (means.editAll meanEdits).Regrids) := by
  constructor
  · intro hpolicy
    have hne : policy ≠ .average := by
      rcases hpolicy with rfl | rfl
      · exact FusionPolicy.noConfusion
      · exact FusionPolicy.noConfusion
    -- nothing is asked of the voxels that are fused: one of the two stays
    exact gridded_editAll hstart (fun _ => Voxel.fusesInCell_of_ne_average hne _)
      (VoxelGrid.fusing_of_forall (fun _ _ => trivial) _ _) (VoxelGrid.fusing_of_forall (fun _ _ => trivial) _ _)
  · intro hpoints hfeatures
    exact gridded_editAll hmeans (fun _ => Voxel.fusesInCell_average _) hpoints hfeatures

/-- Cells of side one, whose points are averaged exactly. -/
noncomputable def exactMap : VoxelMap ℝ ℝ := ⟨1, .average, ∅, ∅, .identity⟩

theorem create_exactMap : create 1 .average = .ok exactMap :=
  create_eq_ok_iff.mpr ⟨if_pos (by simp), rfl⟩

/-- Three points of three cells, which then share a larger one. -/
noncomputable def threePoints : List (MapEdit ℝ ℝ) :=
  [.add (.cloud ⟨#[⟨0, 0, 0⟩, ⟨0, 1, 0⟩, ⟨1, 1, 0⟩], 0⟩ .identity), .setResolution Scalar.two]

/-- Means of three exact points, and a voxel of two 32-bit features that share a cell. -/
theorem voxels_in_cells_examples :
    (unitMap.editAll (twoSizes ⟨0.5, 0.5, 0.5⟩ ⟨0.25, 0.5, 0.5⟩)).Regrids ∧
      (exactMap.editAll threePoints).Gridded ∧ (exactMap.editAll threePoints).Regrids := by
  have hcells := voxels_in_cells create_unitMap create_exactMap (twoSizes ⟨0.5, 0.5, 0.5⟩ ⟨0.25, 0.5, 0.5⟩)
    threePoints
  refine ⟨(hcells.1 (.inl rfl)).2, hcells.2 (VoxelGrid.fusing_onStore rfl ?_) (VoxelGrid.fusing_onStore rfl ?_)⟩
  · show (_ ++ []).length < UInt32.size
    rw [List.append_nil]
    refine Nat.lt_of_le_of_lt (Addition.length_placed_le _) ?_
    show (List.map _ (List.filter _ _)).length < UInt32.size
    rw [List.length_map]
    exact Nat.lt_of_le_of_lt (List.length_filter_le _ _) (show 3 < UInt32.size by decide)
  · show 0 < UInt32.size
    decide

/-- Seen from the origin, points are placed where they are. -/
theorem placed_identity (c : Cloud ℝ) : (Addition.cloud c .identity : Addition ℝ ℝ).placed
    = c.validPoints.map fun p => (p, .empty) := by
  have hunit : (Quaternion.identity : Quaternion ℝ).normSquared = 1 := by
    simp [Quaternion.normSquared_eq, Quaternion.identity]
  have hvalid : (Pose.identity : Pose ℝ).isValid = true :=
    Pose.isValid_of_rigid? (Pose.rigid?_ofMotion (m := ⟨.identity, .zero⟩) hunit)
  have hmotion : (Addition.cloud c .identity : Addition ℝ ℝ).pose.toMotion? = some ⟨.identity, .zero⟩ :=
    (if_pos hvalid).trans (congrArg (fun q => some (Motion.mk q .zero)) (Quaternion.normalize_eq hunit))
  have hplace : ∀ p : Vec3 ℝ, place (⟨.identity, .zero⟩ : Motion ℝ) p = p := by
    intro p
    show Quaternion.identity.rotate p + .zero = p
    rw [Quaternion.rotate_identity]
    exact Vec3.ext (add_zero p.x) (add_zero p.y) (add_zero p.z)
  unfold Addition.placed
  rw [hmotion]
  simp only [Addition.valid, List.map_map, Function.comp_def, hplace]

/-! ### A mean that leaves its cell -/

end VoxelMap

/-- The mean of equal points is that point, whatever it is weighed by. -/
theorem Voxel.fusesOrigins_point : FusesOrigins (fun _ _ => True) .average
    fun (v : Voxel ℝ) es => ∀ p, (∀ e ∈ es, e.1 = p) → v.point = p where
  single p d q h := h _ List.mem_cons_self
  fuse := by
    intro v w es fs _ hv hw p h
    obtain ⟨hes, hfs⟩ := List.forall_mem_append.mp h
    have hstay : ∀ x weight : ℝ, x + (x - x) * weight = x := by
      intro x weight
      rw [sub_self, zero_mul, add_zero]
    show v.point + (w.point - v.point).scale _ = p
    rw [hv p hes, hw p hfs]
    exact Vec3.ext (hstay _ _) (hstay _ _) (hstay _ _)

/-- Entries of one point fall into one cell. -/
theorem VoxelStore.inCell_replicate {side : ℝ} {m : Nat} {e : Vec3 ℝ × Descriptor ℝ} {home : Cell}
    (hhome : Cell.ofPoint side e.1 = home) (c : Cell) :
    VoxelStore.inCell side (List.replicate m e) c = if home = c then List.replicate m e else [] := by
  subst hhome
  unfold VoxelStore.inCell
  by_cases hc : Cell.ofPoint side e.1 = c
  · rw [if_pos hc, List.filter_replicate_of_pos (by simpa using hc)]
  · rw [if_neg hc, List.filter_replicate_of_neg (by simpa using hc)]

/-- Two cells are listed in their order. -/
theorem VoxelStore.toList_pair {store : VoxelStore ℝ} {a b : Cell × Voxel ℝ} (hlt : a.1.Precedes b.1)
    (h : ∀ c v, store[c]? = some v ↔ (c, v) = a ∨ (c, v) = b) : store.toList = [a, b] := by
  obtain ⟨hincreasing, hcomplete⟩ := VoxelStore.listed_toList store
  have hasymm : ∀ c c' : Cell, c.Precedes c' → ¬ c'.Precedes c := by
    intro c c' hlt hgt
    exact Std.OrientedCmp.not_lt_of_lt (Cell.compare_lt_iff.mpr hlt) (Cell.compare_lt_iff.mpr hgt)
  have hne : a ≠ b := by
    rintro rfl
    exact hasymm _ _ hlt hlt
  have hpair : [a, b].Pairwise fun a b => a.1.Precedes b.1 := List.pairwise_pair.mpr hlt
  have hnodup : [a, b].Nodup := List.nodup_cons.mpr ⟨by simpa using hne, List.nodup_singleton b⟩
  have hperm : store.toList.Perm [a, b] := by
    refine (List.perm_ext_iff_of_nodup (VoxelStore.nodup_toList store) hnodup).mpr fun e => ?_
    rw [← Prod.mk.eta (p := e), hcomplete, h]
    simp
  exact hperm.eq_of_pairwise (fun _ _ _ _ hlt hgt => absurd hgt (hasymm _ _ hlt)) hincreasing hpair

/-- Two voxels that come to share a cell are fused, the one of the first cell first. -/
theorem VoxelStore.rebucket_pair {store : VoxelStore ℝ} {a b : Cell × Voxel ℝ} {policy : FusionPolicy} {side : ℝ}
    {c : Cell} (hlist : store.toList = [a, b]) (ha : Cell.ofPoint side a.2.point = c)
    (hb : Cell.ofPoint side b.2.point = c) :
    (store.rebucket policy side)[c]? = some (a.2.fuse policy b.2) := by
  unfold VoxelStore.rebucket VoxelStore.voxels
  rw [hlist, VoxelStore.getElem?_foldl_add]
  simp only [List.map_cons, List.map_nil, List.filter_cons, ha, hb, decide_true, if_true]
  have hfree : (∅ : VoxelStore ℝ)[c]? = none := by simp
  rw [hfree]
  rfl

namespace VoxelMap

/-- One point on the first axis, observed from the origin. -/
noncomputable def axisPoint (x : ℝ) : Addition ℝ ℝ := .cloud ⟨#[⟨x, 0, 0⟩], 0⟩ .identity

/-- A point that is observed some times, and one of the next cell that is observed twice. -/
noncomputable def crowded (n : Nat) : List (MapEdit ℝ ℝ) :=
  List.replicate n (.add (axisPoint 0)) ++ List.replicate 2 (.add (axisPoint 1))

theorem toPoints_axisPoint (x : ℝ) : (axisPoint x).toPoints = [(⟨x, 0, 0⟩, .empty)] := by
  show (axisPoint x).placed = _
  unfold axisPoint
  rw [placed_identity]
  rfl

theorem ofPoint_axis {side x : ℝ} {i : Int} (h : ⌊x / side⌋ = i) :
    Cell.ofPoint side ⟨x, 0, 0⟩ = ⟨Shape.clampInt64 i, 0, 0⟩ := by
  have hzero : Shape.clampInt64 ⌊0 / side⌋ = 0 := by
    rw [zero_div, Int.floor_zero]
    rfl
  show Cell.mk (Shape.clampInt64 ⌊x / side⌋) (Shape.clampInt64 ⌊0 / side⌋) (Shape.clampInt64 ⌊0 / side⌋) = _
  rw [h, hzero]

/-- What is in the cells of the two points, and that nothing is in others. -/
theorem origins_crowded (n : Nat) (c : Cell) : exactMap.origins Addition.toPoints (crowded n) c
    = (if ⟨0, 0, 0⟩ = c then List.replicate n (⟨0, 0, 0⟩, .empty) else [])
      ++ if ⟨1, 0, 0⟩ = c then List.replicate 2 (⟨1, 0, 0⟩, .empty) else [] := by
  have hadds : ∀ e ∈ crowded n, e.Adds :=
    List.forall_mem_append.mpr ⟨adds_replicate _, adds_replicate _⟩
  have hplaced : placedBy Addition.toPoints (crowded n) = List.replicate n (⟨0, 0, 0⟩, .empty)
      ++ List.replicate 2 (⟨1, 0, 0⟩, .empty) := by
    rw [← placedBy_replicate (toPoints_axisPoint 0), ← placedBy_replicate (toPoints_axisPoint 1)]
    exact List.flatMap_append
  have hfirst : Cell.ofPoint exactMap.resolution ⟨0, 0, 0⟩ = ⟨0, 0, 0⟩ := ofPoint_axis (i := 0) (by simp)
  have hsecond : Cell.ofPoint exactMap.resolution ⟨1, 0, 0⟩ = ⟨1, 0, 0⟩ :=
    ofPoint_axis (i := 1) (by simp [exactMap])
  rw [origins_of_adds hadds, hplaced]
  have hsplit : VoxelStore.inCell exactMap.resolution (List.replicate n (⟨0, 0, 0⟩, .empty)
      ++ List.replicate 2 (⟨1, 0, 0⟩, .empty)) c = _ := List.filter_append _ _
  exact hsplit.trans (congrArg₂ (· ++ ·) (VoxelStore.inCell_replicate (e := (⟨0, 0, 0⟩, .empty)) hfirst c)
    (VoxelStore.inCell_replicate (e := (⟨1, 0, 0⟩, .empty)) hsecond c))

/-- A cell that one point was put into is held, at that point and with the count of it. -/
theorem held_of_origins {edits : List (MapEdit ℝ ℝ)} {c : Cell} {m : Nat} {p : Vec3 ℝ} (hm : 0 < m)
    (horigins : exactMap.origins Addition.toPoints edits c = List.replicate m (p, .empty)) :
    ∃ v, (exactMap.editAll edits).points[c]? = some v ∧ v.point = p ∧ v.observations = UInt32.ofNat m := by
  have hempty := (Blank.created create_exactMap).emptyStores.1
  have hcounted := hempty.counted rfl edits
  have hpoints := hempty.stands Voxel.fusesOrigins_point
    (VoxelGrid.fusing_of_forall (fun _ _ => trivial) _ (edits.map (MapEdit.onStore Addition.toPoints)))
  rw [store_pointGrid] at hcounted hpoints
  cases hc : (exactMap.editAll edits).points[c]? with
  | none =>
    have hnone := hcounted.free c hc
    rw [horigins, List.replicate_eq_nil_iff] at hnone
    omega
  | some v =>
    refine ⟨v, rfl, hpoints.held c v hc p fun e he => ?_, ?_⟩
    · rw [horigins] at he
      rw [List.eq_of_mem_replicate he]
    · rw [(hcounted.held c v hc).counter, horigins, List.length_replicate]

/-- The two voxels: the counts of both are those of their observations. -/
theorem toList_crowded {n : Nat} (hn : 0 < n) : ∃ v w : Voxel ℝ,
    (exactMap.editAll (crowded n)).points.toList = [(⟨0, 0, 0⟩, v), (⟨1, 0, 0⟩, w)] ∧
      v.point = ⟨0, 0, 0⟩ ∧ v.observations = UInt32.ofNat n ∧ w.point = ⟨1, 0, 0⟩ ∧ w.observations = 2 := by
  have hempty := (Blank.created create_exactMap).emptyStores.1
  have hcounted := hempty.counted rfl (crowded n)
  rw [store_pointGrid] at hcounted
  have hapart : (⟨1, 0, 0⟩ : Cell) ≠ ⟨0, 0, 0⟩ := by decide
  have hfirst : exactMap.origins Addition.toPoints (crowded n) ⟨0, 0, 0⟩ = List.replicate n (⟨0, 0, 0⟩, .empty) := by
    rw [origins_crowded, if_pos rfl, if_neg hapart, List.append_nil]
  have hsecond : exactMap.origins Addition.toPoints (crowded n) ⟨1, 0, 0⟩ = List.replicate 2 (⟨1, 0, 0⟩, .empty) := by
    rw [origins_crowded, if_neg hapart.symm, if_pos rfl, List.nil_append]
  obtain ⟨v, hv, hvpoint, hvcount⟩ := held_of_origins hn hfirst
  obtain ⟨w, hw, hwpoint, hwcount⟩ := held_of_origins Nat.two_pos hsecond
  have hlt : (⟨0, 0, 0⟩ : Cell).Precedes ⟨1, 0, 0⟩ := .inl (by decide)
  refine ⟨v, w, VoxelStore.toList_pair hlt fun c u => ?_, hvpoint, hvcount, hwpoint, hwcount⟩
  constructor
  · intro hu
    have hsome := (hcounted.held c u hu).nonempty
    rw [origins_crowded] at hsome
    by_cases hzero : ⟨0, 0, 0⟩ = c
    · subst hzero
      exact .inl (by rw [Option.some.inj (hu.symm.trans hv)])
    · by_cases hone : ⟨1, 0, 0⟩ = c
      · subst hone
        exact .inr (by rw [Option.some.inj (hu.symm.trans hw)])
      · rw [if_neg hzero, if_neg hone] at hsome
        exact absurd rfl hsome
  · rintro (hu | hu)
    · obtain ⟨rfl, rfl⟩ := Prod.mk.inj hu
      exact hv
    · obtain ⟨rfl, rfl⟩ := Prod.mk.inj hu
      exact hw

/-- Two counts with a sum of one: the second point is weighed by two when both cells become one. -/
theorem not_gridded_of_crowded {n : Nat} (hn : 0 < n) (hwrap : UInt32.ofNat n + 2 = 1) :
    ¬ (exactMap.editAll (crowded n ++ [.setResolution Scalar.two])).Gridded := by
  obtain ⟨v, w, hlist, hv, hvcount, hw, hwcount⟩ := toList_crowded hn
  have hcheck : checkResolution (Scalar.two : ℝ) = .ok () := if_pos (by simp)
  have hedit : exactMap.editAll (crowded n ++ [.setResolution Scalar.two])
      = ((exactMap.editAll (crowded n)).setResolution Scalar.two).1 := List.foldl_append
  have hvcell : Cell.ofPoint (Scalar.two : ℝ) v.point = ⟨0, 0, 0⟩ := by
    rw [hv]
    exact ofPoint_axis (i := 0) (by simp)
  have hwcell : Cell.ofPoint (Scalar.two : ℝ) w.point = ⟨0, 0, 0⟩ := by
    rw [hw]
    exact ofPoint_axis (i := 0) (by rw [Scalar.real_two, Int.floor_eq_iff]; norm_num)
  have hfused : (v.fuse .average w).point = ⟨2, 0, 0⟩ := by
    show v.point + (w.point - v.point).scale
      (Scalar.ofNat w.observations.toNat / Scalar.ofNat (v.observations + w.observations).toNat) = _
    rw [hv, hw, hvcount, hwcount, hwrap]
    show _ + Vec3.scale _ (((2 : Nat) : ℝ) / ((1 : Nat) : ℝ)) = _
    simp [Vec3.scale]
  have hstored : ((exactMap.editAll (crowded n)).points.rebucket .average Scalar.two)[(⟨0, 0, 0⟩ : Cell)]?
      = some (v.fuse .average w) := VoxelStore.rebucket_pair hlist hvcell hwcell
  intro hgridded
  rw [hedit, setResolution_ok _ hcheck, policy_editAll] at hgridded
  have hcell := hgridded.points.in_cell _ _ hstored
  rw [hfused, ofPoint_axis (i := 1) (by simp)] at hcell
  exact absurd hcell (by decide)

/-- **A mean leaves its cell**, in exact arithmetic. Two cells become one, in which one point was observed
`2 ^ 32 - 1` times and another one twice. The count of both is one, so the second point is weighed by two, and the
mean lies as far behind it as the first one is before it, in another cell. -/
theorem mean_leaves_cell : create 1 .average = .ok exactMap ∧ checkResolution (Scalar.two : ℝ) = .ok () ∧
    ¬ (exactMap.editAll (crowded (UInt32.size - 1) ++ [.setResolution Scalar.two])).Gridded :=
  ⟨create_exactMap, if_pos (by simp), not_gridded_of_crowded (by decide) (by decide)⟩

end VoxelMap

end StereoMapping
