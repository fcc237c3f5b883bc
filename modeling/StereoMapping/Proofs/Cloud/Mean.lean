import StereoMapping.Proofs.Cloud.Cells

/-!
# `Proofs.Cloud.Mean` — the mean of all that was placed

Under the policy that takes means a voxel stands for all the observations that were fused into it: it counts them,
its point is their mean, and its descriptor is the first one of theirs that is not empty. This holds of single
observations, and of two voxels that are fused, so it holds of every voxel and its origins.

The arithmetic is exact. The counts are not: they wrap around, so they may not reach `2 ^ 32`.

## Contents
- `Vec3.mean`, `Vec3.mean_append`: the mean of two lists from their means.
- `Voxel.Summary`, `Summary.mean`: a voxel that stands for some observations.
- `VoxelStore.Traced`, `Traced.add`, `VoxelGrid.traced_editAll`: every voxel stands for its origins, and everything
  placed is an origin of one voxel.
- `VoxelMap.means_of_placed`: a map after any changes, and one whose resolution did not change.
-/

namespace StereoMapping

/-! ## Means of points -/

noncomputable instance : Zero (Vec3 ℝ) := ⟨.zero⟩

noncomputable instance : AddCommMonoid (Vec3 ℝ) where
  add_assoc a b c := Vec3.ext (add_assoc a.x b.x c.x) (add_assoc a.y b.y c.y) (add_assoc a.z b.z c.z)
  add_comm a b := Vec3.ext (add_comm a.x b.x) (add_comm a.y b.y) (add_comm a.z b.z)
  zero_add a := Vec3.ext (zero_add a.x) (zero_add a.y) (zero_add a.z)
  add_zero a := Vec3.ext (add_zero a.x) (add_zero a.y) (add_zero a.z)
  nsmul := nsmulRec

namespace Vec3

/-- The mean of some points. -/
noncomputable def mean (ps : List (Vec3 ℝ)) : Vec3 ℝ := ps.sum.unscale ps.length

theorem mean_singleton (p : Vec3 ℝ) : mean [p] = p := by
  unfold mean
  rw [List.sum_singleton, List.length_singleton, Nat.cast_one]
  show Vec3.mk (p.x / 1) (p.y / 1) (p.z / 1) = p
  simp only [div_one]

theorem scale_mean {ps : List (Vec3 ℝ)} (h : ps ≠ []) : (mean ps).scale ps.length = ps.sum := by
  have hlength : (ps.length : ℝ) ≠ 0 := Nat.cast_ne_zero.mpr (List.length_eq_zero_iff.not.mpr h)
  unfold mean unscale scale
  simp only [div_mul_cancel₀ _ hlength]

/-- **The mean of two lists** is on the way from one mean to the other, by the part of the second list. -/
theorem mean_append {ps qs : List (Vec3 ℝ)} (hps : ps ≠ []) (hqs : qs ≠ []) :
    mean (ps ++ qs)
      = mean ps + (mean qs - mean ps).scale ((qs.length : ℝ) / ((ps.length + qs.length : ℕ) : ℝ)) := by
  have hn : (0 : ℝ) < ps.length := Nat.cast_pos.mpr (List.length_pos_iff.mpr hps)
  have hm : (0 : ℝ) < qs.length := Nat.cast_pos.mpr (List.length_pos_iff.mpr hqs)
  -- neither list is empty, so no division is by zero
  have hcoordinate : ∀ a b : ℝ, (a + b) / (ps.length + qs.length)
      = a / ps.length + (b / qs.length - a / ps.length) * (qs.length / (ps.length + qs.length)) := by
    intro a b
    field_simp
    ring
  unfold mean
  rw [List.sum_append, List.length_append, Nat.cast_add]
  exact Vec3.ext (hcoordinate ps.sum.x qs.sum.x) (hcoordinate ps.sum.y qs.sum.y)
    (hcoordinate ps.sum.z qs.sum.z)

end Vec3

/-! ## Voxels that stand for observations -/

namespace Voxel

/-- **A voxel that stands for some observations.** -/
structure Summary (v : Voxel ℝ) (es : List (Vec3 ℝ × Descriptor ℝ)) : Prop where
  nonempty : es ≠ []
  counted : v.observations.toNat = es.length
  point : v.point = Vec3.mean (es.map Prod.fst)
  /-- The descriptor is empty only if all are. -/
  undescribed : v.descriptor.isEmpty = true ↔ ∀ e ∈ es, e.2.isEmpty = true
  /-- Otherwise it is the first one that is not. -/
  described : v.descriptor.isEmpty = false → (es.map Prod.snd).find? (fun d => !d.isEmpty) = some v.descriptor

theorem summary_single (p : Vec3 ℝ) (d : Descriptor ℝ) : (single p d).Summary [(p, d)] where
  nonempty := List.cons_ne_nil _ _
  counted := rfl
  point := (Vec3.mean_singleton p).symm
  undescribed := by
    rw [List.forall_mem_singleton]
    rfl
  described h := List.find?_cons_of_pos (congrArg Bool.not h)

/-- The descriptor of a mean stands for the observations of both voxels. -/
theorem Summary.descriptor_mean {v w : Voxel ℝ} {es fs : List (Vec3 ℝ × Descriptor ℝ)} (hv : v.Summary es)
    (hw : w.Summary fs) :
    ((v.mean w).descriptor.isEmpty = true ↔ ∀ e ∈ es ++ fs, e.2.isEmpty = true) ∧
      ((v.mean w).descriptor.isEmpty = false →
        ((es ++ fs).map Prod.snd).find? (fun d => !d.isEmpty) = some (v.mean w).descriptor) := by
  have hboth : (∀ e ∈ es ++ fs, e.2.isEmpty = true) ↔
      v.descriptor.isEmpty = true ∧ w.descriptor.isEmpty = true := by
    rw [List.forall_mem_append, hv.undescribed, hw.undescribed]
  rw [hboth, List.map_append, List.find?_append]
  cases hempty : v.descriptor.isEmpty with
  | true =>
    -- no descriptor of the first list counts, and the search goes on in the second one
    have hkept : (v.mean w).descriptor = w.descriptor := if_pos hempty
    have hnone : (es.map Prod.snd).find? (fun d => !d.isEmpty) = none := by
      refine List.find?_eq_none.mpr (List.forall_mem_map.mpr fun e he => ?_)
      simpa using hv.undescribed.mp hempty e he
    rw [hkept, hnone, Option.none_or]
    exact ⟨⟨fun h => ⟨rfl, h⟩, And.right⟩, hw.described⟩
  | false =>
    have hkept : (v.mean w).descriptor = v.descriptor := if_neg (by simp [hempty])
    rw [hkept, hv.described hempty, hempty]
    exact ⟨⟨fun h => absurd h Bool.false_ne_true, fun h => absurd h.1 Bool.false_ne_true⟩, fun _ => rfl⟩

/-- **The mean of two voxels** stands for the observations of both, as long as they can be counted together. -/
theorem Summary.mean {v w : Voxel ℝ} {es fs : List (Vec3 ℝ × Descriptor ℝ)} (hv : v.Summary es)
    (hw : w.Summary fs) (hfit : v.CountsFit w) : (v.mean w).Summary (es ++ fs) := by
  have htotal : (v.observations + w.observations).toNat = es.length + fs.length := by
    rw [hfit.toNat_add, hv.counted, hw.counted]
  obtain ⟨hundescribed, hdescribed⟩ := hv.descriptor_mean hw
  refine ⟨?_, ?_, ?_, hundescribed, hdescribed⟩
  · exact List.append_ne_nil_of_left_ne_nil hv.nonempty fs
  · rw [List.length_append]
    exact htotal
  · have hes : es.map Prod.fst ≠ [] := List.map_eq_nil_iff.not.mpr hv.nonempty
    have hfs : fs.map Prod.fst ≠ [] := List.map_eq_nil_iff.not.mpr hw.nonempty
    rw [List.map_append, Vec3.mean_append hes hfs, ← hv.point, ← hw.point, List.length_map, List.length_map,
      ← htotal, ← hw.counted]
    rfl

/-- Fusing keeps what voxels stand for. -/
theorem fusesOrigins_summary : FusesOrigins CountsFit .average Summary where
  single := summary_single
  fuse hfit hv hw := hv.mean hw hfit

/-- A voxel that stands for some observations weighs as much as they do. -/
theorem Summary.weight {v : Voxel ℝ} {es : List (Vec3 ℝ × Descriptor ℝ)} (h : v.Summary es) :
    v.point.scale v.observations.toNat = (es.map Prod.fst).sum := by
  have hscale := Vec3.scale_mean (List.map_eq_nil_iff.not.mpr h.nonempty : es.map Prod.fst ≠ [])
  rw [List.length_map] at hscale
  rw [h.point, h.counted, hscale]

end Voxel

/-! ## Stores whose origins are known -/

namespace VoxelStore

/-- **A store with known origins.** Every voxel stands for the origins of its cell, and all that was placed is an
origin of one of them. -/
structure Traced (store : VoxelStore ℝ) (o : Origins ℝ) (placed : List (Vec3 ℝ × Descriptor ℝ)) : Prop where
  summary : ∀ (c : Cell) (v : Voxel ℝ), store[c]? = some v → v.Summary (o c)
  free : ∀ c : Cell, store[c]? = none → o c = []
  once : (store.toList.flatMap fun e => o e.1).Perm placed

theorem traced_empty : (∅ : VoxelStore ℝ).Traced .none [] where
  summary c v h := by simp at h
  free _ _ := rfl
  once := .nil

variable {resolution : ℝ} {store : VoxelStore ℝ} {o : Origins ℝ} {placed : List (Vec3 ℝ × Descriptor ℝ)}

theorem Traced.stands (h : store.Traced o placed) : store.Stands Voxel.Summary o := ⟨h.summary, h.free⟩

/-- The origins of a store, one cell first. -/
theorem Traced.split (h : store.Traced o placed) (c : Cell) :
    (o c ++ (store.toList.filter fun e => e.1 ≠ c).flatMap fun e => o e.1).Perm placed := by
  refine .trans ?_ h.once
  cases hheld : store[c]? with
  | none =>
    rw [h.free c hheld, List.nil_append, toList_of_none hheld]
  | some held =>
    exact ((toList_of_getElem? hheld).flatMap_right fun e => o e.1).symm

/-- **One more voxel** brings its origins to the cell of its point. -/
theorem Traced.add (h : store.Traced o placed) {v : Voxel ℝ} {es : List (Vec3 ℝ × Descriptor ℝ)}
    (hv : v.Summary es)
    (hfit : ∀ held, store[Cell.ofPoint resolution v.point]? = some held → held.CountsFit v) :
    (VoxelStore.add .average resolution store v).Traced (o.pushVoxel resolution (v, es)) (placed ++ es) := by
  have hpush : o.pushVoxel resolution (v, es) = o.push (Cell.ofPoint resolution v.point) es := rfl
  have hstands := h.stands.add Voxel.fusesOrigins_summary hv hfit
  refine ⟨hstands.held, hstands.free, ?_⟩
  rw [hpush]
  refine ((toList_add .average resolution store v).flatMap_right _).trans ?_
  rw [List.flatMap_cons, Origins.push_self]
  -- the other cells keep their origins, so only those of the new voxel are to be moved to the end
  have hothers : ((store.toList.filter fun e => e.1 ≠ Cell.ofPoint resolution v.point).flatMap fun e =>
        o.push (Cell.ofPoint resolution v.point) es e.1)
      = (store.toList.filter fun e => e.1 ≠ Cell.ofPoint resolution v.point).flatMap fun e => o e.1 := by
    refine List.flatMap_congr fun e he => ?_
    exact Origins.push_of_ne o (of_decide_eq_true (List.mem_filter.mp he).2) es
  rw [hothers, List.append_assoc]
  refine (List.perm_append_comm.append_left _).trans ?_
  rw [← List.append_assoc]
  exact (h.split _).append_right es

theorem Traced.foldl_add (h : store.Traced o placed) {sources : List (Voxel ℝ × List (Vec3 ℝ × Descriptor ℝ))}
    (hsources : ∀ s ∈ sources, s.1.Summary s.2)
    (hfusing : store.Fusing Voxel.CountsFit .average resolution (sources.map Prod.fst)) :
    ((sources.map Prod.fst).foldl (VoxelStore.add .average resolution) store).Traced
      (sources.foldl (Origins.pushVoxel resolution) o) (placed ++ sources.flatMap Prod.snd) := by
  induction sources generalizing store o placed with
  | nil =>
    rw [List.flatMap_nil, List.append_nil]
    exact h
  | cons s rest ih =>
    have hnext := ih (h.add (hsources s List.mem_cons_self) hfusing.1)
      (fun a ha => hsources a (List.mem_cons_of_mem s ha)) hfusing.2
    rw [List.append_assoc] at hnext
    exact hnext

/-- **The counts are the number of all that was placed.** -/
theorem Traced.observed (h : store.Traced o placed) : store.observed = placed.length := by
  have hsum : ∀ cells : List (Cell × Voxel ℝ), (∀ e ∈ cells, e.2.observations.toNat = (o e.1).length) →
      Voxel.observed (cells.map Prod.snd) = (cells.flatMap fun e => o e.1).length := by
    intro cells hcells
    induction cells with
    | nil => rfl
    | cons e rest ih =>
      rw [List.map_cons, Voxel.observed_cons, ih fun a ha => hcells a (List.mem_cons_of_mem e ha),
        List.flatMap_cons, List.length_append, hcells e List.mem_cons_self]
  rw [← h.once.length_eq]
  refine hsum store.toList fun e he => ?_
  exact (h.summary e.1 e.2 (Std.TreeMap.mem_toList_iff_getElem?_eq_some.mp he)).counted

/-- **The weighted points add up to all that was placed.** -/
theorem Traced.weight (h : store.Traced o placed) :
    (store.voxels.map fun v => v.point.scale v.observations.toNat).sum = (placed.map Prod.fst).sum := by
  have hpoints : (store.toList.map fun e => e.2.point.scale e.2.observations.toNat)
      = store.toList.map fun e => ((o e.1).map Prod.fst).sum := by
    refine List.map_congr_left fun e he => ?_
    exact (h.summary e.1 e.2 (Std.TreeMap.mem_toList_iff_getElem?_eq_some.mp he)).weight
  have hsum : ∀ cells : List (Cell × Voxel ℝ), (cells.map fun e => ((o e.1).map Prod.fst).sum).sum
      = ((cells.flatMap fun e => o e.1).map Prod.fst).sum := by
    intro cells
    induction cells with
    | nil => rfl
    | cons e rest ih =>
      rw [List.map_cons, List.sum_cons, ih, List.flatMap_cons, List.map_append, List.sum_append]
  rw [← (h.once.map Prod.fst).sum_eq, ← hsum, ← hpoints]
  show ((store.toList.map Prod.snd).map _).sum = _
  rw [List.map_map]
  rfl

end VoxelStore

namespace VoxelGrid

variable {g : VoxelGrid ℝ} {o : Origins ℝ} {placed : List (Vec3 ℝ × Descriptor ℝ)}

theorem traced_edit (hpolicy : g.policy = .average) (h : g.store.Traced o placed) {e : GridEdit ℝ}
    (hkept : e ≠ .clear) (hfusing : (g.kept e).Fusing Voxel.CountsFit g.policy (g.sideAfter e) (g.added e)) :
    (g.edit e).store.Traced (g.originsAfter o e) (placed ++ e.recorded) := by
  have hsummaries := forall_sources (hpolicy ▸ Voxel.fusesOrigins_summary) h.stands e
  rw [← g.map_fst_sources o e, hpolicy] at hfusing
  unfold edit
  rw [← g.map_fst_sources o e, hpolicy]
  cases e with
  | clear => exact absurd rfl hkept
  | record entries =>
    have hsingles : (g.sources o (.record entries)).flatMap Prod.snd = entries :=
      List.flatMap_map .. |>.trans (List.flatMap_singleton' entries)
    have hstep := h.foldl_add hsummaries hfusing
    rw [hsingles] at hstep
    exact hstep
  | rebucket resolution =>
    have hmoved : (g.sources o (.rebucket resolution)).flatMap Prod.snd
        = g.store.toList.flatMap fun e => o e.1 := List.flatMap_map ..
    -- the store is built anew, so the origins are those of before, in another order
    have hstep := VoxelStore.traced_empty.foldl_add hsummaries hfusing
    refine ⟨hstep.summary, hstep.free, hstep.once.trans ?_⟩
    show List.Perm _ (placed ++ [])
    rw [hmoved, List.nil_append, List.append_nil]
    exact h.once

/-- **Changes of a store keep its origins known**, as long as it is not cleared and no count overflows. -/
theorem traced_editAll (hpolicy : g.policy = .average) (h : g.store.Traced o placed) {edits : List (GridEdit ℝ)}
    (hkept : GridEdit.clear ∉ edits) (hfusing : g.Fusing Voxel.CountsFit edits) :
    (g.editAll edits).store.Traced (g.originsAll o edits) (placed ++ edits.flatMap GridEdit.recorded) := by
  induction edits generalizing g o placed with
  | nil =>
    rw [List.flatMap_nil, List.append_nil]
    exact h
  | cons e rest ih =>
    obtain ⟨hne, hrest⟩ := not_or.mp (List.mem_cons.not.mp hkept)
    have hstep := traced_edit hpolicy h (Ne.symm hne) hfusing.1
    have hrun := ih (g := g.edit e) hpolicy hstep hrest hfusing.2
    rw [List.append_assoc] at hrun
    exact hrun

end VoxelGrid

/-! ## Observations that fell into one cell -/

namespace VoxelStore

variable {resolution : ℝ} {store store' : VoxelStore ℝ} {placed placed' : List (Vec3 ℝ × Descriptor ℝ)}

/-- **The order of the observations is of no account** for the counts and the points of a store. -/
theorem Traced.any_order (h : store.Traced (inCell resolution placed) placed)
    (h' : store'.Traced (inCell resolution placed') placed') (horder : placed'.Perm placed) (c : Cell) :
    store'[c]?.map (fun v => (v.observations, v.point)) = store[c]?.map fun v => (v.observations, v.point) := by
  have hcell : (inCell resolution placed' c).Perm (inCell resolution placed c) := horder.filter _
  cases hheld : store[c]? with
  | none =>
    rw [h.free c hheld] at hcell
    cases hheld' : store'[c]? with
    | none => rfl
    | some w => exact absurd hcell.eq_nil (h'.summary c w hheld').nonempty
  | some v =>
    have hv := h.summary c v hheld
    cases hheld' : store'[c]? with
    | none =>
      rw [h'.free c hheld'] at hcell
      exact absurd hcell.nil_eq.symm hv.nonempty
    | some w =>
      have hw := h'.summary c w hheld'
      have hcount : w.observations = v.observations := by
        rw [← UInt32.toNat_inj, hw.counted, hv.counted]
        exact hcell.length_eq
      -- a mean is a sum and a length, and neither depends on the order
      have hpoint : w.point = v.point := by
        rw [hw.point, hv.point]
        unfold Vec3.mean
        rw [(hcell.map Prod.fst).sum_eq, (hcell.map Prod.fst).length_eq]
      show some (w.observations, w.point) = some (v.observations, v.point)
      rw [hcount, hpoint]

end VoxelStore

/-! ## The means of a map -/

namespace VoxelMap

variable {D : Type} [Scalar D] [Precision ℝ D]

/-- **A store of means**, after some changes of a map without content. -/
structure Averages (store : VoxelMap ℝ D → VoxelStore ℝ) (taken : Addition ℝ D → List (Vec3 ℝ × Descriptor ℝ))
    (start : VoxelMap ℝ D) (edits : List (MapEdit ℝ D)) : Prop where
  observed : (store (start.editAll edits)).observed = (placedBy taken edits).length
  weight : ((store (start.editAll edits)).voxels.map fun v => v.point.scale v.observations.toNat).sum
    = ((placedBy taken edits).map Prod.fst).sum
  fused : (store (start.editAll edits)).Traced (start.origins taken edits) (placedBy taken edits)
  /-- While the resolution stays, each voxel stands for what fell into its cell. -/
  unmoved : (∀ e ∈ edits, e.Adds) → (store (start.editAll edits)).Traced
    (VoxelStore.inCell start.resolution (placedBy taken edits)) (placedBy taken edits)
  any_order : (∀ e ∈ edits, e.Adds) → ∀ others : List (MapEdit ℝ D), (∀ e ∈ others, e.Adds) →
    (placedBy taken others).Perm (placedBy taken edits) → ∀ c : Cell,
      (store (start.editAll others))[c]?.map (fun v => (v.observations, v.point))
        = (store (start.editAll edits))[c]?.map fun v => (v.observations, v.point)

/-- Both stores change as one grid does, so the same is shown of each. -/
theorem averages_of_grid {store : VoxelMap ℝ D → VoxelStore ℝ}
    {taken : Addition ℝ D → List (Vec3 ℝ × Descriptor ℝ)} {start : VoxelMap ℝ D}
    (hstore : ∀ edits, store (start.editAll edits) = (VoxelGrid.editAll ⟨start.resolution, start.policy, ∅⟩
      (edits.map (MapEdit.onStore taken))).store)
    (hpolicy : start.policy = .average) {edits : List (MapEdit ℝ D)} (hkept : MapEdit.clear ∉ edits)
    (hcount : (placedBy taken edits).length < UInt32.size) : Averages store taken start edits := by
  have htraced : ∀ edits, MapEdit.clear ∉ edits → (placedBy taken edits).length < UInt32.size →
      (store (start.editAll edits)).Traced (start.origins taken edits) (placedBy taken edits) := by
    intro edits hkept hcount
    have hclear : GridEdit.clear ∉ edits.map (MapEdit.onStore taken) := by
      intro hmem
      obtain ⟨e, he, heq⟩ := List.mem_map.mp hmem
      exact hkept (MapEdit.eq_clear_of_onStore heq ▸ he)
    have hrun := VoxelGrid.traced_editAll (g := ⟨start.resolution, start.policy, ∅⟩) hpolicy
      VoxelStore.traced_empty hclear (VoxelGrid.fusing_onStore rfl hcount)
    rw [List.nil_append, flatMap_recorded, ← hstore] at hrun
    exact hrun
  -- where the resolution never changes, the origins of a cell are what was placed in it
  have hunmoved : ∀ edits, (∀ e ∈ edits, e.Adds) → (placedBy taken edits).length < UInt32.size →
      (store (start.editAll edits)).Traced (VoxelStore.inCell start.resolution (placedBy taken edits))
        (placedBy taken edits) := by
    intro edits hadds hcount
    rw [← origins_of_adds hadds]
    exact htraced edits (fun hclear => hadds .clear hclear) hcount
  refine ⟨(htraced edits hkept hcount).observed, (htraced edits hkept hcount).weight, htraced edits hkept hcount,
    fun hadds => hunmoved edits hadds hcount, fun hadds others hothers horder c => ?_⟩
  exact (hunmoved edits hadds hcount).any_order
    (hunmoved others hothers (by rw [horder.length_eq]; exact hcount)) horder c

/-- **A map of means.** A map was created or cleared, takes means, and was not cleared since. As long as fewer
than `2 ^ 32` observations were placed in a store, its counts add up to their number, and its points, weighted by
their counts, add up to theirs. Every voxel stands for what was fused into it, so its descriptor is empty only if
all of those were. While the resolution stayed, this is what fell into its cell: its point is their mean, whatever
their order, and its descriptor is the first one that is not empty. -/
theorem means_of_placed {start : VoxelMap ℝ D} (hstart : start.Blank) (hpolicy : start.policy = .average)
    {edits : List (MapEdit ℝ D)} (hkept : MapEdit.clear ∉ edits)
    (hpoints : (placedBy Addition.toPoints edits).length < UInt32.size)
    (hfeatures : (placedBy Addition.toFeatures edits).length < UInt32.size) :
    Averages VoxelMap.points Addition.toPoints start edits ∧
      Averages VoxelMap.features Addition.toFeatures start edits := by
  obtain ⟨hnopoints, hnofeatures⟩ := hstart.stores_eq
  constructor
  · refine averages_of_grid (fun edits => ?_) hpolicy hkept hpoints
    rw [← hnopoints]
    exact congrArg VoxelGrid.store (start.pointGrid_editAll edits)
  · refine averages_of_grid (fun edits => ?_) hpolicy hkept hfeatures
    rw [← hnofeatures]
    exact congrArg VoxelGrid.store (start.featureGrid_editAll edits)

end VoxelMap

/-! ### Three exact points -/

namespace VoxelMap

/-- Three points, gathered again in larger cells, weigh three times their mean. -/
theorem means_of_placed_threePoints :
    ∃ start : VoxelMap ℝ ℝ, start.Blank ∧
      (start.editAll threePoints).points.observed = 3 ∧
      ((start.editAll threePoints).points.voxels.map fun v => v.point.scale v.observations.toNat).sum
        = ⟨1, 2, 0⟩ := by
  have hcheck : checkResolution (1 : ℝ) = .ok () := if_pos (by simp)
  have hblank : (⟨1, .average, ∅, ∅, .identity⟩ : VoxelMap ℝ ℝ).Blank :=
    .created (create_eq_ok_iff.mpr ⟨hcheck, rfl⟩)
  have hplaced : placedBy Addition.toPoints threePoints
      = [(⟨0, 0, 0⟩, .empty), (⟨0, 1, 0⟩, .empty), (⟨1, 1, 0⟩, .empty)] := by
    show (Addition.cloud _ Pose.identity).placed ++ [] = _
    rw [List.append_nil, placed_identity]
    rfl
  have hkept : MapEdit.clear ∉ threePoints := by simp [threePoints]
  obtain ⟨hmeans, _⟩ := means_of_placed hblank rfl hkept (by rw [hplaced]; decide) (by decide)
  refine ⟨_, hblank, ?_, ?_⟩
  · rw [hmeans.observed, hplaced]
    rfl
  · rw [hmeans.weight, hplaced]
    simp only [List.map_cons, List.map_nil, List.sum_cons, List.sum_nil, add_zero, Vec3.add_def]
    norm_num

end VoxelMap

end StereoMapping
