import StereoMapping.Proofs.Cloud.Extraction

/-!
# `Proofs.Cloud.Grid` — one store of a map

The two stores of a map share its policy and its resolution and are otherwise independent: what a change of the
map does to one of them is a change of a grid, a store with its policy and resolution. Every change of a grid adds
voxels one after the other, either new observations to what it holds, or what it held to an empty store. So what
is to be shown of a grid is shown for one voxel that is added.

## Contents
- `VoxelGrid`, `GridEdit`, `VoxelGrid.edit`: a store with its settings, and its changes.
- `MapEdit.onStore`, `VoxelMap.pointGrid_editAll`, `featureGrid_editAll`: the stores of a map as grids.
- `VoxelStore.toList_add`: the entries of a store after one more voxel.
- `Fusing`: a relation of all pairs of voxels that are fused during some changes; `VoxelStore.forall_foldl_add`:
  what such a relation keeps.
- `Voxel.CountsFit`, `VoxelGrid.fusing_countsFit`, `fusing_onStore`: no count of observations overflows while few
  are recorded.
-/

namespace StereoMapping

variable {S D : Type} [Scalar S]

/-! ## Grids -/

/-- A store with the settings that voxels are added by. -/
structure VoxelGrid (S : Type) where
  resolution : S
  policy : FusionPolicy
  store : VoxelStore S

/-- A change of one store. -/
inductive GridEdit (S : Type) where
  | record (entries : List (Vec3 S × Descriptor S))
  | rebucket (resolution : S)
  | clear

/-- A new resolution passes its check. -/
def GridEdit.Valid : GridEdit S → Prop
  | rebucket resolution => checkResolution resolution = .ok ()
  | _ => True

namespace VoxelGrid

/-- The resolution after a change. -/
def sideAfter (g : VoxelGrid S) : GridEdit S → S
  | .rebucket resolution => resolution
  | _ => g.resolution

/-- What stays in place during a change. -/
def kept (g : VoxelGrid S) : GridEdit S → VoxelStore S
  | .record _ => g.store
  | _ => ∅

/-- The voxels that a change adds to what stays. -/
def added (g : VoxelGrid S) : GridEdit S → List (Voxel S)
  | .record entries => entries.map fun e => .single e.1 e.2
  | .rebucket _ => g.store.voxels
  | .clear => []

/-- The grid after a change. -/
def edit (g : VoxelGrid S) (e : GridEdit S) : VoxelGrid S :=
  ⟨g.sideAfter e, g.policy, (g.added e).foldl (VoxelStore.add g.policy (g.sideAfter e)) (g.kept e)⟩

def editAll (g : VoxelGrid S) (edits : List (GridEdit S)) : VoxelGrid S := edits.foldl edit g

end VoxelGrid

/-! ## The stores of a map as grids -/

/-- What a change of a map does to one of its stores, given what that store takes of an addition. -/
def MapEdit.onStore (taken : Addition S D → List (Vec3 S × Descriptor S)) : MapEdit S D → GridEdit S
  | .add a => .record (taken a)
  | .setResolution resolution =>
    match checkResolution resolution with
    | .ok _ => .rebucket resolution
    | .error _ => .record []
  | .clear => .clear

theorem MapEdit.onStore_ok (taken : Addition S D → List (Vec3 S × Descriptor S)) {resolution : S}
    (h : checkResolution resolution = .ok ()) :
    (setResolution resolution : MapEdit S D).onStore taken = .rebucket resolution := by
  simp only [onStore, h]

theorem MapEdit.onStore_error (taken : Addition S D → List (Vec3 S × Descriptor S)) {resolution : S} {e : Error}
    (h : checkResolution resolution = .error e) :
    (setResolution resolution : MapEdit S D).onStore taken = .record [] := by
  simp only [onStore, h]

theorem MapEdit.valid_onStore (taken : Addition S D → List (Vec3 S × Descriptor S)) (e : MapEdit S D) :
    (e.onStore taken).Valid := by
  cases e with
  | add a => trivial
  | clear => trivial
  | setResolution resolution =>
    cases hcheck : checkResolution resolution with
    | ok _ =>
      rw [onStore_ok taken hcheck]
      exact hcheck
    | error e =>
      rw [onStore_error taken hcheck]
      trivial

namespace VoxelMap

/-- The store of points as a grid. -/
def pointGrid (m : VoxelMap S D) : VoxelGrid S := ⟨m.resolution, m.policy, m.points⟩

/-- The store of features as a grid. -/
def featureGrid (m : VoxelMap S D) : VoxelGrid S := ⟨m.resolution, m.policy, m.features⟩

variable [Scalar D] [Precision S D]

/-- **The two stores change independently**, by the same resolutions. -/
theorem grids_edit (m : VoxelMap S D) (e : MapEdit S D) :
    (m.edit e).pointGrid = m.pointGrid.edit (e.onStore Addition.toPoints) ∧
      (m.edit e).featureGrid = m.featureGrid.edit (e.onStore Addition.toFeatures) := by
  cases e with
  | add a =>
    obtain ⟨hpoints, hfeatures, hpolicy, hresolution⟩ := m.stores_add a
    have hedit : m.edit (.add a) = (m.add a).1 := rfl
    simp only [hedit, pointGrid, featureGrid, hpoints, hfeatures, hpolicy, hresolution, VoxelStore.record_eq]
    exact ⟨rfl, rfl⟩
  | clear => exact ⟨rfl, rfl⟩
  | setResolution resolution =>
    cases hcheck : checkResolution resolution with
    | ok _ =>
      simp only [edit, m.setResolution_ok hcheck, MapEdit.onStore_ok _ hcheck]
      exact ⟨rfl, rfl⟩
    | error e =>
      simp only [edit, m.setResolution_error hcheck, MapEdit.onStore_error _ hcheck]
      exact ⟨rfl, rfl⟩

theorem pointGrid_editAll (m : VoxelMap S D) (edits : List (MapEdit S D)) :
    (m.editAll edits).pointGrid = m.pointGrid.editAll (edits.map (MapEdit.onStore Addition.toPoints)) := by
  induction edits generalizing m with
  | nil => rfl
  | cons e rest ih => exact (ih (m.edit e)).trans (congrArg (VoxelGrid.editAll · _) (m.grids_edit e).1)

theorem featureGrid_editAll (m : VoxelMap S D) (edits : List (MapEdit S D)) :
    (m.editAll edits).featureGrid = m.featureGrid.editAll (edits.map (MapEdit.onStore Addition.toFeatures)) := by
  induction edits generalizing m with
  | nil => rfl
  | cons e rest ih => exact (ih (m.edit e)).trans (congrArg (VoxelGrid.editAll · _) (m.grids_edit e).2)

end VoxelMap

theorem VoxelGrid.policy_editAll (g : VoxelGrid S) (edits : List (GridEdit S)) :
    (g.editAll edits).policy = g.policy := by
  induction edits generalizing g with
  | nil => rfl
  | cons e rest ih => exact ih (g.edit e)

/-- The policy of a map never changes. -/
theorem VoxelMap.policy_editAll [Scalar D] [Precision S D] (m : VoxelMap S D) (edits : List (MapEdit S D)) :
    (m.editAll edits).policy = m.policy :=
  (congrArg VoxelGrid.policy (m.pointGrid_editAll edits)).trans (m.pointGrid.policy_editAll _)

/-! ## The entries of a store -/

namespace VoxelStore

omit [Scalar S] in
theorem nodup_toList (store : VoxelStore S) : store.toList.Nodup := by
  have hordered := Std.TreeMap.distinct_keys_toList (t := store)
  exact hordered.imp fun h heq => h (by rw [heq]; exact Std.ReflCmp.compare_self)

omit [Scalar S] in
/-- A store is its entry in a cell and the others. -/
theorem toList_of_getElem? {store : VoxelStore S} {c : Cell} {v : Voxel S} (h : store[c]? = some v) :
    store.toList.Perm ((c, v) :: store.toList.filter fun e => e.1 ≠ c) := by
  refine (List.perm_ext_iff_of_nodup store.nodup_toList ?_).mpr ?_
  · refine List.nodup_cons.mpr ⟨?_, store.nodup_toList.filter _⟩
    simp
  · rintro ⟨c', w⟩
    simp only [List.mem_cons, List.mem_filter, Std.TreeMap.mem_toList_iff_getElem?_eq_some, Prod.mk.injEq,
      decide_eq_true_eq]
    by_cases hc : c' = c
    · subst hc
      simp [h, eq_comm]
    · simp [hc]

omit [Scalar S] in
theorem toList_of_none {store : VoxelStore S} {c : Cell} (h : store[c]? = none) :
    store.toList.filter (fun e => e.1 ≠ c) = store.toList := by
  refine List.filter_eq_self.mpr ?_
  rintro ⟨c', w⟩ hmem
  rw [Std.TreeMap.mem_toList_iff_getElem?_eq_some] at hmem
  refine decide_eq_true ?_
  rintro rfl
  rw [h] at hmem
  cases hmem

/-- **One more voxel** replaces the entry of its cell and leaves the others. -/
theorem toList_add (policy : FusionPolicy) (resolution : S) (store : VoxelStore S) (v : Voxel S) :
    (add policy resolution store v).toList.Perm
      ((Cell.ofPoint resolution v.point, Voxel.join policy store[Cell.ofPoint resolution v.point]? v)
        :: store.toList.filter fun e => e.1 ≠ Cell.ofPoint resolution v.point) := by
  have hself := toList_of_getElem? (getElem?_add_self policy resolution store v)
  refine hself.trans (.cons _ ?_)
  -- the other entries are the same, though the two trees may be built differently
  refine (List.perm_ext_iff_of_nodup ((nodup_toList _).filter _) (store.nodup_toList.filter _)).mpr ?_
  rintro ⟨c, w⟩
  simp only [List.mem_filter, Std.TreeMap.mem_toList_iff_getElem?_eq_some, decide_eq_true_eq]
  refine and_congr_left fun hc => ?_
  rw [getElem?_add_of_ne policy store (Ne.symm hc)]

end VoxelStore

/-! ## Voxels that are fused -/

/-- Whenever one of some voxels, added one after the other, falls into an occupied cell, it is in a relation with
the voxel there. -/
def VoxelStore.Fusing (R : Voxel S → Voxel S → Prop) (policy : FusionPolicy) (resolution : S) :
    VoxelStore S → List (Voxel S) → Prop
  | _, [] => True
  | store, v :: vs =>
    (∀ held, store[Cell.ofPoint resolution v.point]? = some held → R held v) ∧
      Fusing R policy resolution (store.add policy resolution v) vs

theorem VoxelStore.fusing_of_forall {R : Voxel S → Voxel S → Prop} (h : ∀ held v, R held v) (policy : FusionPolicy)
    (resolution : S) (store : VoxelStore S) (vs : List (Voxel S)) : store.Fusing R policy resolution vs := by
  induction vs generalizing store with
  | nil => trivial
  | cons v vs ih => exact ⟨fun held _ => h held v, ih _⟩

/-- What holds of every entry holds after a series of voxels, if fusing keeps it. -/
theorem VoxelStore.forall_foldl_add {R : Voxel S → Voxel S → Prop} {P : Cell → Voxel S → Prop}
    {policy : FusionPolicy} {resolution : S} {store : VoxelStore S} {vs : List (Voxel S)}
    (hfuse : ∀ (c : Cell) (held v : Voxel S), R held v → P c held → P c v → P c (held.fuse policy v))
    (hstore : ∀ (c : Cell) (v : Voxel S), store[c]? = some v → P c v)
    (hnew : ∀ v ∈ vs, P (Cell.ofPoint resolution v.point) v) (hvs : store.Fusing R policy resolution vs) :
    ∀ (c : Cell) (v : Voxel S), (vs.foldl (add policy resolution) store)[c]? = some v → P c v := by
  induction vs generalizing store with
  | nil => exact hstore
  | cons v vs ih =>
    have hv := hnew v List.mem_cons_self
    have hadd : ∀ (c : Cell) (w : Voxel S), (store.add policy resolution v)[c]? = some w → P c w :=
      forall_add hstore hv fun held hheld => hfuse _ held v (hvs.1 held hheld) (hstore _ held hheld) hv
    exact ih hadd (fun w hw => hnew w (List.mem_cons_of_mem v hw)) hvs.2

/-- All pairs of voxels that are fused during some changes are in a relation. -/
def VoxelGrid.Fusing (R : Voxel S → Voxel S → Prop) : VoxelGrid S → List (GridEdit S) → Prop
  | _, [] => True
  | g, e :: rest =>
    (g.kept e).Fusing R g.policy (g.sideAfter e) (g.added e) ∧ (g.edit e).Fusing R rest

theorem VoxelGrid.fusing_of_forall {R : Voxel S → Voxel S → Prop} (h : ∀ held v, R held v) (g : VoxelGrid S)
    (edits : List (GridEdit S)) : g.Fusing R edits := by
  induction edits generalizing g with
  | nil => trivial
  | cons e rest ih => exact ⟨VoxelStore.fusing_of_forall h _ _ _ _, ih _⟩

/-! ## Counts of observations -/

namespace Voxel

/-- The observations of two voxels can be counted together. -/
def CountsFit (v w : Voxel S) : Prop := v.observations.toNat + w.observations.toNat < UInt32.size

omit [Scalar S] in
theorem CountsFit.toNat_add {v w : Voxel S} (h : v.CountsFit w) :
    (v.observations + w.observations).toNat = v.observations.toNat + w.observations.toNat := by
  rw [UInt32.toNat_add]
  exact Nat.mod_eq_of_lt h

/-- Observations of some voxels. -/
def observed : List (Voxel S) → Nat
  | [] => 0
  | v :: vs => v.observations.toNat + observed vs

omit [Scalar S] in
theorem observed_cons (v : Voxel S) (vs : List (Voxel S)) :
    observed (v :: vs) = v.observations.toNat + observed vs := rfl

omit [Scalar S] in
theorem observed_perm {vs ws : List (Voxel S)} (h : vs.Perm ws) : observed vs = observed ws := by
  induction h with
  | nil => rfl
  | cons v _ ih => exact congrArg (v.observations.toNat + ·) ih
  | swap v w vs =>
    rw [observed_cons, observed_cons, observed_cons, observed_cons]
    omega
  | trans _ _ ih ih' => exact ih.trans ih'

omit [Scalar S] in
theorem observed_singles (entries : List (Vec3 S × Descriptor S)) :
    observed (entries.map fun e => Voxel.single e.1 e.2) = entries.length := by
  induction entries with
  | nil => rfl
  | cons e rest ih =>
    rw [List.map_cons, observed_cons, ih, List.length_cons, Nat.add_comm]
    rfl

/-- Fusing makes no observations. -/
theorem observations_fuse_le (policy : FusionPolicy) (v w : Voxel S) :
    (v.fuse policy w).observations.toNat ≤ v.observations.toNat + w.observations.toNat := by
  cases policy with
  | keepFirst => exact Nat.le_add_right _ _
  | replace => exact Nat.le_add_left _ _
  | average =>
    show (v.observations + w.observations).toNat ≤ _
    rw [UInt32.toNat_add]
    exact Nat.mod_le _ _

end Voxel

namespace VoxelStore

/-- Observations of all voxels of a store. -/
def observed (store : VoxelStore S) : Nat := Voxel.observed store.voxels

omit [Scalar S] in
theorem observed_of_getElem? {store : VoxelStore S} {c : Cell} {v : Voxel S} (h : store[c]? = some v) :
    store.observed = v.observations.toNat
      + Voxel.observed ((store.toList.filter fun e => e.1 ≠ c).map Prod.snd) :=
  Voxel.observed_perm ((toList_of_getElem? h).map Prod.snd)

theorem observed_add_le (policy : FusionPolicy) (resolution : S) (store : VoxelStore S) (v : Voxel S) :
    (add policy resolution store v).observed ≤ store.observed + v.observations.toNat := by
  have hadd : (add policy resolution store v).observed
      = (Voxel.join policy store[Cell.ofPoint resolution v.point]? v).observations.toNat
        + Voxel.observed ((store.toList.filter fun e => e.1 ≠ Cell.ofPoint resolution v.point).map Prod.snd) :=
    Voxel.observed_perm ((toList_add policy resolution store v).map Prod.snd)
  rw [hadd]
  cases hheld : store[Cell.ofPoint resolution v.point]? with
  | none =>
    -- a free cell: the voxel is one more entry
    rw [toList_of_none hheld, Nat.add_comm]
    exact Nat.le_refl _
  | some held =>
    have hfuse : (Voxel.join policy (some held) v).observations.toNat
        ≤ held.observations.toNat + v.observations.toNat := held.observations_fuse_le policy v
    rw [observed_of_getElem? hheld]
    omega

theorem observed_foldl_add_le (policy : FusionPolicy) (resolution : S) (store : VoxelStore S)
    (vs : List (Voxel S)) :
    (vs.foldl (add policy resolution) store).observed ≤ store.observed + Voxel.observed vs := by
  induction vs generalizing store with
  | nil => exact Nat.le_refl _
  | cons v vs ih =>
    have hrest := ih (add policy resolution store v)
    have hadd := observed_add_le policy resolution store v
    rw [List.foldl_cons, Voxel.observed_cons]
    omega

theorem fusing_countsFit {policy : FusionPolicy} {resolution : S} {store : VoxelStore S} {vs : List (Voxel S)}
    (h : store.observed + Voxel.observed vs < UInt32.size) : store.Fusing Voxel.CountsFit policy resolution vs := by
  induction vs generalizing store with
  | nil => trivial
  | cons v vs ih =>
    rw [Voxel.observed_cons] at h
    refine ⟨fun held hheld => ?_, ih ?_⟩
    · have hstore := observed_of_getElem? hheld
      show held.observations.toNat + v.observations.toNat < UInt32.size
      omega
    · have hadd := observed_add_le policy resolution store v
      omega

end VoxelStore

/-- Observations that a change of one store records. -/
def GridEdit.recorded : GridEdit S → List (Vec3 S × Descriptor S)
  | record entries => entries
  | _ => []

namespace VoxelGrid

omit [Scalar S] in
theorem observed_added (g : VoxelGrid S) (e : GridEdit S) :
    (g.kept e).observed + Voxel.observed (g.added e) ≤ g.store.observed + e.recorded.length := by
  cases e with
  | record entries => exact Nat.le_of_eq (congrArg _ (Voxel.observed_singles entries))
  | rebucket resolution =>
    -- everything is taken out and added again
    show 0 + g.store.observed ≤ _
    omega
  | clear => exact Nat.zero_le _

/-- **No count overflows** while fewer than `2 ^ 32` observations are recorded. -/
theorem fusing_countsFit {g : VoxelGrid S} {edits : List (GridEdit S)}
    (h : g.store.observed + (edits.flatMap GridEdit.recorded).length < UInt32.size) :
    g.Fusing Voxel.CountsFit edits := by
  induction edits generalizing g with
  | nil => trivial
  | cons e rest ih =>
    rw [List.flatMap_cons, List.length_append] at h
    have hadded := g.observed_added e
    have hedit : (g.edit e).store.observed ≤ (g.kept e).observed + Voxel.observed (g.added e) :=
      VoxelStore.observed_foldl_add_le g.policy (g.sideAfter e) (g.kept e) (g.added e)
    exact ⟨VoxelStore.fusing_countsFit (by omega), ih (by omega)⟩

end VoxelGrid

/-- What a change of a map records in one of its stores, given what that store takes of an addition. -/
def MapEdit.records (taken : Addition S D → List (Vec3 S × Descriptor S)) :
    MapEdit S D → List (Vec3 S × Descriptor S)
  | .add a => taken a
  | _ => []

theorem MapEdit.recorded_onStore (taken : Addition S D → List (Vec3 S × Descriptor S)) (e : MapEdit S D) :
    (e.onStore taken).recorded = e.records taken := by
  cases e with
  | add a => rfl
  | clear => rfl
  | setResolution resolution =>
    cases hcheck : checkResolution resolution with
    | ok _ =>
      rw [onStore_ok taken hcheck]
      rfl
    | error e =>
      rw [onStore_error taken hcheck]
      rfl

/-- What some changes of a map place in one of its stores. -/
def placedBy (taken : Addition S D → List (Vec3 S × Descriptor S)) (edits : List (MapEdit S D)) :
    List (Vec3 S × Descriptor S) := edits.flatMap (MapEdit.records taken)

theorem flatMap_recorded (taken : Addition S D → List (Vec3 S × Descriptor S)) (edits : List (MapEdit S D)) :
    (edits.map (MapEdit.onStore taken)).flatMap GridEdit.recorded = placedBy taken edits := by
  rw [List.flatMap_map]
  exact congrArg (fun f => edits.flatMap f) (funext (MapEdit.recorded_onStore taken))

/-- **An empty store counts its observations** while fewer than `2 ^ 32` are recorded in it. -/
theorem VoxelGrid.fusing_onStore {g : VoxelGrid S} (hempty : g.store = ∅)
    {taken : Addition S D → List (Vec3 S × Descriptor S)} {edits : List (MapEdit S D)}
    (h : (placedBy taken edits).length < UInt32.size) :
    g.Fusing Voxel.CountsFit (edits.map (MapEdit.onStore taken)) := by
  have hnone : g.store.observed = 0 := by rw [hempty]; rfl
  exact fusing_countsFit (by rw [flatMap_recorded, hnone, Nat.zero_add]; exact h)

end StereoMapping
