import StereoMapping.Proofs.Cloud.Grid

/-!
# `Proofs.Cloud.Regrid` — every voxel in the cell of its point

A store keeps each voxel in the cell of its point, for the current side of the cells. As long as fusing two voxels
of a cell gives a voxel of that cell, no change of a store breaks this, since every change adds voxels one after
the other to their own cells. Two of the policies keep one of the two voxels, so they never leave the cell; the
third one computes a new point and is treated apart.

A change of the resolution adds the stored voxels in the order of their old cells. Each new cell therefore meets
the voxels that fall into it from the smallest old cell to the largest one.

## Contents
- `VoxelStore.Gridded`: every voxel in the cell of its point; `Gridded.foldl_add`, `VoxelGrid.Sound.editAll`:
  this is kept by a series of voxels and by all changes.
- `VoxelStore.Foremost`, `getElem?_rebucket_keepFirst`, `getElem?_rebucket_replace`: which voxel a new cell holds.
- `VoxelStore.Regridded`, `regridded_rebucket`: what a store becomes under another resolution.
- `toList_rebucket_of_gridded`: under the same resolution it stays the same.
- `VoxelMap.Gridded`, `VoxelMap.Regrids`, `VoxelMap.gridded_editAll`: a created map after any changes, and what a
  change of the resolution does to it.
-/

namespace StereoMapping

variable {S D : Type} [Scalar S]

/-! ## Voxels in their cells -/

/-- Voxels of a cell that are in a relation are fused to a voxel of that cell. -/
def Voxel.FusesInCell (R : Voxel S → Voxel S → Prop) (policy : FusionPolicy) (resolution : S) : Prop :=
  ∀ {held v : Voxel S}, R held v → Cell.ofPoint resolution held.point = Cell.ofPoint resolution v.point →
    Cell.ofPoint resolution (held.fuse policy v).point = Cell.ofPoint resolution v.point

/-- A policy that keeps one of the two voxels never leaves the cell. -/
theorem Voxel.fusesInCell_of_ne_average {policy : FusionPolicy} (h : policy ≠ .average) (resolution : S) :
    FusesInCell (fun _ _ => True) policy resolution := by
  intro held v _ hsame
  cases policy with
  | keepFirst => exact hsame
  | replace => rfl
  | average => exact absurd rfl h

namespace VoxelStore

/-- **Every voxel lies in the cell of its point**, so no two of them share one. -/
structure Gridded (resolution : S) (store : VoxelStore S) : Prop where
  in_cell : ∀ (c : Cell) (v : Voxel S), store[c]? = some v → Cell.ofPoint resolution v.point = c
  apart : ∀ (c c' : Cell) (v v' : Voxel S), store[c]? = some v → store[c']? = some v' →
    Cell.ofPoint resolution v.point = Cell.ofPoint resolution v'.point → c = c'

theorem gridded_of_in_cell {resolution : S} {store : VoxelStore S}
    (h : ∀ (c : Cell) (v : Voxel S), store[c]? = some v → Cell.ofPoint resolution v.point = c) :
    store.Gridded resolution where
  in_cell := h
  apart c c' v v' hv hv' hsame := (h c v hv).symm.trans (hsame.trans (h c' v' hv'))

theorem gridded_empty (resolution : S) : (∅ : VoxelStore S).Gridded resolution :=
  gridded_of_in_cell fun c v h => by simp at h

variable {R : Voxel S → Voxel S → Prop} {policy : FusionPolicy} {resolution : S}

theorem Gridded.foldl_add (hfuses : Voxel.FusesInCell R policy resolution) {store : VoxelStore S}
    (h : store.Gridded resolution) {vs : List (Voxel S)} (hvs : store.Fusing R policy resolution vs) :
    (vs.foldl (VoxelStore.add policy resolution) store).Gridded resolution := by
  refine gridded_of_in_cell (forall_foldl_add ?_ h.in_cell (fun _ _ => rfl) hvs)
  intro c held v hrel hheld hv
  exact (hfuses hrel (hheld.trans hv.symm)).trans hv

end VoxelStore

namespace VoxelGrid

variable {R : Voxel S → Voxel S → Prop}

/-- The resolution passes its check, and every voxel lies in the cell of its point. -/
structure Sound (g : VoxelGrid S) : Prop where
  checked : checkResolution g.resolution = .ok ()
  gridded : g.store.Gridded g.resolution

theorem Sound.edit {g : VoxelGrid S} (h : g.Sound)
    (hfuses : ∀ {resolution}, checkResolution resolution = .ok () → Voxel.FusesInCell R g.policy resolution)
    {e : GridEdit S} (he : e.Valid) (hfusing : (g.kept e).Fusing R g.policy (g.sideAfter e) (g.added e)) :
    (g.edit e).Sound := by
  cases e with
  | record entries => exact ⟨h.checked, h.gridded.foldl_add (hfuses h.checked) hfusing⟩
  | rebucket resolution => exact ⟨he, (VoxelStore.gridded_empty resolution).foldl_add (hfuses he) hfusing⟩
  | clear => exact ⟨h.checked, VoxelStore.gridded_empty g.resolution⟩

/-- **Changes of a store keep every voxel in its cell.** -/
theorem Sound.editAll {g : VoxelGrid S} (h : g.Sound)
    (hfuses : ∀ {resolution}, checkResolution resolution = .ok () → Voxel.FusesInCell R g.policy resolution)
    {edits : List (GridEdit S)} (hedits : ∀ e ∈ edits, e.Valid) (hfusing : g.Fusing R edits) :
    (g.editAll edits).Sound := by
  induction edits generalizing g with
  | nil => exact h
  | cons e rest ih =>
    have hnext : (g.edit e).Sound := h.edit hfuses (hedits e List.mem_cons_self) hfusing.1
    exact ih hnext hfuses (fun a ha => hedits a (List.mem_cons_of_mem e ha)) hfusing.2

end VoxelGrid

/-! ## Another resolution -/

theorem Cell.Precedes.asymm {a b : Cell} (h : a.Precedes b) : ¬ b.Precedes a := by
  intro hback
  have hgt : compare a b = .gt := Std.OrientedCmp.gt_of_lt (Cell.compare_lt_iff.mpr hback)
  rw [Cell.compare_lt_iff.mpr h] at hgt
  cases hgt

/-- The head of a list in increasing order is the entry before all others. -/
theorem head?_eq_some_iff_of_pairwise {α : Type} {before : α → α → Prop}
    (hasymm : ∀ {a b}, before a b → ¬ before b a) {l : List α} (h : l.Pairwise before) {a : α} :
    l.head? = some a ↔ a ∈ l ∧ ∀ b ∈ l, b = a ∨ before a b := by
  cases l with
  | nil => simp
  | cons first rest =>
    obtain ⟨hfirst, _⟩ := List.pairwise_cons.mp h
    constructor
    · intro hhead
      obtain rfl := Option.some.inj hhead
      exact ⟨List.mem_cons_self, fun b hb => (List.mem_cons.mp hb).imp id (hfirst b)⟩
    · rintro ⟨hmem, hleast⟩
      rcases List.mem_cons.mp hmem with rfl | hrest
      · rfl
      · rcases hleast first List.mem_cons_self with rfl | hback
        · rfl
        · exact absurd hback (hasymm (hfirst a hrest))

namespace VoxelStore

/-- Of the voxels of a store that fall into a cell under a resolution, the one that was held before all others. -/
structure Foremost (before : Cell → Cell → Prop) (store : VoxelStore S) (resolution : S) (c source : Cell)
    (v : Voxel S) : Prop where
  held : store[source]? = some v
  falls : Cell.ofPoint resolution v.point = c
  first : ∀ (c' : Cell) (v' : Voxel S), store[c']? = some v' → Cell.ofPoint resolution v'.point = c →
    c' = source ∨ before source c'

/-- **A store gathered again under another resolution.** No cell is lost, and under the two policies that do not
mix observations each cell holds the voxel of the smallest or of the largest old cell. -/
structure Regridded (policy : FusionPolicy) (resolution : S) (old new : VoxelStore S) : Prop where
  occupied : ∀ c : Cell, c ∈ new ↔
    ∃ (source : Cell) (v : Voxel S), old[source]? = some v ∧ Cell.ofPoint resolution v.point = c
  smallest : policy = .keepFirst → ∀ (c : Cell) (v : Voxel S),
    new[c]? = some v ↔ ∃ source, old.Foremost Cell.Precedes resolution c source v
  largest : policy = .replace → ∀ (c : Cell) (v : Voxel S),
    new[c]? = some v ↔ ∃ source, old.Foremost (fun a b => b.Precedes a) resolution c source v
  size_le : new.size ≤ old.size

/-- The entries of a store that fall into a cell, in the order of their old cells. -/
def falling (store : VoxelStore S) (resolution : S) (c : Cell) : List (Cell × Voxel S) :=
  store.toList.filter fun e => Cell.ofPoint resolution e.2.point = c

theorem mem_falling {store : VoxelStore S} {resolution : S} {c source : Cell} {v : Voxel S} :
    (source, v) ∈ store.falling resolution c ↔ store[source]? = some v ∧ Cell.ofPoint resolution v.point = c := by
  unfold falling
  rw [List.mem_filter, Std.TreeMap.mem_toList_iff_getElem?_eq_some, decide_eq_true_iff]

theorem pairwise_falling (store : VoxelStore S) (resolution : S) (c : Cell) :
    (store.falling resolution c).Pairwise fun a b => a.1.Precedes b.1 :=
  store.listed_toList.increasing.filter _

/-- A new cell meets the voxels that fall into it. -/
theorem getElem?_rebucket (policy : FusionPolicy) (resolution : S) (store : VoxelStore S) (c : Cell) :
    (store.rebucket policy resolution)[c]?
      = ((store.falling resolution c).map Prod.snd).foldl
          (fun held v => some (Voxel.join policy held v)) none := by
  unfold rebucket falling voxels
  rw [getElem?_foldl_add, List.filter_map, Std.TreeMap.getElem?_emptyc]
  rfl

theorem foremost_iff {before : Cell → Cell → Prop} {store : VoxelStore S} {resolution : S} {c source : Cell}
    {v : Voxel S} :
    store.Foremost before resolution c source v ↔
      (source, v) ∈ store.falling resolution c ∧
        ∀ e ∈ store.falling resolution c, e = (source, v) ∨ before source e.1 := by
  constructor
  · intro h
    refine ⟨mem_falling.mpr ⟨h.held, h.falls⟩, ?_⟩
    rintro ⟨c', v'⟩ hmem
    obtain ⟨hheld, hfalls⟩ := mem_falling.mp hmem
    rcases h.first c' v' hheld hfalls with rfl | hbefore
    · rw [h.held] at hheld
      exact .inl (by rw [Option.some.inj hheld])
    · exact .inr hbefore
  · rintro ⟨hmem, hfirst⟩
    obtain ⟨hheld, hfalls⟩ := mem_falling.mp hmem
    refine ⟨hheld, hfalls, fun c' v' hheld' hfalls' => ?_⟩
    exact (hfirst (c', v') (mem_falling.mpr ⟨hheld', hfalls'⟩)).imp (congrArg Prod.fst) id

theorem size_foldl_add_le (policy : FusionPolicy) (resolution : S) (store : VoxelStore S) (vs : List (Voxel S)) :
    (vs.foldl (add policy resolution) store).size ≤ store.size + vs.length := by
  induction vs generalizing store with
  | nil => exact Nat.le_refl _
  | cons v vs ih =>
    have hrest := ih (add policy resolution store v)
    have hadd : (add policy resolution store v).size ≤ store.size + 1 := Std.TreeMap.size_alter_le_size
    rw [List.foldl_cons, List.length_cons]
    omega

/-- A cell is occupied exactly if some voxel falls into it. -/
theorem mem_rebucket_iff (policy : FusionPolicy) (resolution : S) (store : VoxelStore S) (c : Cell) :
    c ∈ store.rebucket policy resolution ↔
      ∃ (source : Cell) (v : Voxel S), store[source]? = some v ∧ Cell.ofPoint resolution v.point = c := by
  unfold rebucket voxels
  rw [mem_foldl_add]
  constructor
  · rintro (hempty | ⟨v, hv, hc⟩)
    · simp at hempty
    · obtain ⟨⟨source, w⟩, hmem, rfl⟩ := List.mem_map.mp hv
      exact ⟨source, w, Std.TreeMap.mem_toList_iff_getElem?_eq_some.mp hmem, hc⟩
  · rintro ⟨source, v, hheld, hc⟩
    have hmem := Std.TreeMap.mem_toList_iff_getElem?_eq_some.mpr hheld
    exact .inr ⟨v, List.mem_map_of_mem hmem, hc⟩

theorem size_rebucket_le (policy : FusionPolicy) (resolution : S) (store : VoxelStore S) :
    (store.rebucket policy resolution).size ≤ store.size := by
  have hsize := size_foldl_add_le policy resolution ∅ store.voxels
  rw [Std.TreeMap.size_emptyc, Nat.zero_add] at hsize
  unfold voxels at hsize
  rw [List.length_map, Std.TreeMap.length_toList] at hsize
  exact hsize

/-- **The first voxel that a cell meets stays**, and it comes from the smallest old cell. -/
theorem getElem?_rebucket_keepFirst (resolution : S) (store : VoxelStore S) (c : Cell) (v : Voxel S) :
    (store.rebucket .keepFirst resolution)[c]? = some v ↔
      ∃ source, store.Foremost Cell.Precedes resolution c source v := by
  have hfirst : ∀ {e}, (store.falling resolution c).head? = some e ↔ e ∈ store.falling resolution c ∧
      ∀ e' ∈ store.falling resolution c, e' = e ∨ e.1.Precedes e'.1 :=
    head?_eq_some_iff_of_pairwise Cell.Precedes.asymm (store.pairwise_falling resolution c)
  rw [getElem?_rebucket, Voxel.foldl_join_keepFirst, Option.none_or, List.head?_map, Option.map_eq_some_iff]
  simp only [foremost_iff]
  constructor
  · rintro ⟨⟨source, w⟩, hhead, rfl⟩
    exact ⟨source, hfirst.mp hhead⟩
  · rintro ⟨source, hforemost⟩
    exact ⟨(source, v), hfirst.mpr hforemost, rfl⟩

/-- **The last one stays**, which is the first in the reverse order, from the largest old cell. -/
theorem getElem?_rebucket_replace (resolution : S) (store : VoxelStore S) (c : Cell) (v : Voxel S) :
    (store.rebucket .replace resolution)[c]? = some v ↔
      ∃ source, store.Foremost (fun a b => b.Precedes a) resolution c source v := by
  have hback : (store.falling resolution c).reverse.Pairwise fun a b => b.1.Precedes a.1 :=
    List.pairwise_reverse.mpr (store.pairwise_falling resolution c)
  have hlast : ∀ {e}, (store.falling resolution c).getLast? = some e ↔ e ∈ store.falling resolution c ∧
      ∀ e' ∈ store.falling resolution c, e' = e ∨ e'.1.Precedes e.1 := by
    intro e
    rw [← List.head?_reverse, head?_eq_some_iff_of_pairwise Cell.Precedes.asymm hback]
    simp only [List.mem_reverse]
  rw [getElem?_rebucket, Voxel.foldl_join_replace, Option.or_none, List.getLast?_map, Option.map_eq_some_iff]
  simp only [foremost_iff]
  constructor
  · rintro ⟨⟨source, w⟩, hhead, rfl⟩
    exact ⟨source, hlast.mp hhead⟩
  · rintro ⟨source, hforemost⟩
    exact ⟨(source, v), hlast.mpr hforemost, rfl⟩

/-- **What a store becomes** under another resolution. -/
theorem regridded_rebucket (policy : FusionPolicy) (resolution : S) (store : VoxelStore S) :
    Regridded policy resolution store (store.rebucket policy resolution) where
  occupied := mem_rebucket_iff policy resolution store
  smallest := by
    rintro rfl
    exact getElem?_rebucket_keepFirst resolution store
  largest := by
    rintro rfl
    exact getElem?_rebucket_replace resolution store
  size_le := size_rebucket_le policy resolution store

omit [Scalar S] in
/-- A cell has at most one entry. -/
theorem filter_toList (store : VoxelStore S) (c : Cell) :
    store.toList.filter (fun e => e.1 = c) = (store[c]?.map fun v => (c, v)).toList := by
  have hmem : ∀ e, e ∈ store.toList.filter (fun e => e.1 = c) ↔ e ∈ (store[c]?.map fun v => (c, v)).toList := by
    rintro ⟨c', v⟩
    simp only [List.mem_filter, Std.TreeMap.mem_toList_iff_getElem?_eq_some, decide_eq_true_eq,
      Option.mem_toList, Option.map_eq_some_iff, Prod.mk.injEq]
    constructor
    · rintro ⟨hv, rfl⟩
      exact ⟨v, hv, rfl, rfl⟩
    · rintro ⟨v, hv, rfl, rfl⟩
      exact ⟨hv, rfl⟩
  -- the two lists have the same elements, and no element twice
  cases hheld : store[c]? with
  | none =>
    refine List.eq_nil_iff_forall_not_mem.mpr fun e he => ?_
    have he := (hmem e).mp he
    rw [hheld] at he
    exact absurd he List.not_mem_nil
  | some v =>
    rw [hheld] at hmem
    refine List.perm_singleton.mp ((List.perm_ext_iff_of_nodup (store.nodup_toList.filter _) ?_).mpr hmem)
    exact List.pairwise_singleton _ _

/-- **Under the same resolution nothing changes**: every voxel meets its own cell, and no other one does. -/
theorem toList_rebucket_of_gridded {resolution : S} {store : VoxelStore S} (h : store.Gridded resolution)
    (policy : FusionPolicy) : (store.rebucket policy resolution).toList = store.toList := by
  refine Std.TreeMap.Equiv.toList_eq (.of_forall_constGet?_eq fun c => ?_)
  -- what falls into a cell is what it holds
  have hfalling : store.falling resolution c = store.toList.filter fun e => e.1 = c := by
    refine List.filter_congr fun ⟨source, v⟩ hmem => ?_
    rw [h.in_cell source v (Std.TreeMap.mem_toList_iff_getElem?_eq_some.mp hmem)]
  rw [getElem?_rebucket, hfalling, filter_toList]
  cases store[c]? <;> rfl

end VoxelStore

/-! ## Another resolution of a map -/

namespace VoxelMap

/-- Every voxel of both stores lies in the cell of its point. -/
structure Gridded (m : VoxelMap S D) : Prop where
  points : m.points.Gridded m.resolution
  features : m.features.Gridded m.resolution

/-- Two maps with the same settings and the same entries. -/
structure Same (m n : VoxelMap S D) : Prop where
  settings : m.resolution = n.resolution ∧ m.policy = n.policy ∧ m.lastPose = n.lastPose
  points : m.points.toList = n.points.toList
  features : m.features.toList = n.features.toList

/-- A map after a change of the resolution: both stores are gathered again, and nothing else changes. -/
structure Regridded (resolution : S) (m next : VoxelMap S D) : Prop where
  settings : next.resolution = resolution ∧ next.policy = m.policy ∧ next.lastPose = m.lastPose
  points : VoxelStore.Regridded m.policy resolution m.points next.points
  features : VoxelStore.Regridded m.policy resolution m.features next.features

variable [Scalar D] [Precision S D]

/-- **What a change of the resolution does**: one that passes its check gathers both stores again, the current one
leaves the map the same, and one that does not pass is refused and leaves the map as it was. -/
structure Regrids (m : VoxelMap S D) : Prop where
  changed : ∀ {resolution}, checkResolution resolution = .ok () →
    ∃ next, m.setResolution resolution = (next, .ok ()) ∧ m.Regridded resolution next
  unchanged : ∃ next, m.setResolution m.resolution = (next, .ok ()) ∧ next.Same m
  refused : ∀ {resolution}, checkResolution resolution ≠ .ok () →
    m.setResolution resolution = (m, .error (.invalidResolution (Scalar.numeral resolution)))

omit [Scalar D] [Precision S D] in
theorem regrids {m : VoxelMap S D} (hchecked : checkResolution m.resolution = .ok ()) (h : m.Gridded) :
    m.Regrids := by
  constructor
  · intro resolution hcheck
    refine ⟨_, m.setResolution_ok hcheck, ⟨rfl, rfl, rfl⟩, ?_, ?_⟩
    · exact VoxelStore.regridded_rebucket m.policy resolution m.points
    · exact VoxelStore.regridded_rebucket m.policy resolution m.features
  · refine ⟨_, m.setResolution_ok hchecked, ⟨rfl, rfl, rfl⟩, ?_, ?_⟩
    · exact VoxelStore.toList_rebucket_of_gridded h.points m.policy
    · exact VoxelStore.toList_rebucket_of_gridded h.features m.policy
  · intro resolution hcheck
    have herror : checkResolution resolution = .error (.invalidResolution (Scalar.numeral resolution)) := by
      unfold checkResolution at hcheck ⊢
      split at hcheck
      · exact absurd rfl hcheck
      · rename_i hfault
        rw [if_neg hfault]
        rfl
    exact m.setResolution_error herror

/-- **A created map stays gridded**, and its resolution checked, if all voxels that are fused stay in their cells. -/
theorem gridded_editAll {R : Voxel S → Voxel S → Prop} {resolution : S} {policy : FusionPolicy}
    {start : VoxelMap S D} (hcreate : create resolution policy = .ok start)
    (hfuses : ∀ {resolution}, checkResolution resolution = .ok () → Voxel.FusesInCell R policy resolution)
    {edits : List (MapEdit S D)}
    (hpoints : start.pointGrid.Fusing R (edits.map (MapEdit.onStore Addition.toPoints)))
    (hfeatures : start.featureGrid.Fusing R (edits.map (MapEdit.onStore Addition.toFeatures))) :
    (start.editAll edits).Gridded ∧ (start.editAll edits).Regrids := by
  obtain ⟨hcheck, rfl⟩ := create_eq_ok_iff.mp hcreate
  have hvalid : ∀ taken, ∀ e ∈ edits.map (MapEdit.onStore taken), e.Valid := by
    intro taken e he
    obtain ⟨edit, _, rfl⟩ := List.mem_map.mp he
    exact edit.valid_onStore taken
  have hpoints := VoxelGrid.Sound.editAll ⟨hcheck, VoxelStore.gridded_empty resolution⟩ hfuses
    (hvalid Addition.toPoints) hpoints
  have hfeatures := VoxelGrid.Sound.editAll ⟨hcheck, VoxelStore.gridded_empty resolution⟩ hfuses
    (hvalid Addition.toFeatures) hfeatures
  rw [← pointGrid_editAll] at hpoints
  rw [← featureGrid_editAll] at hfeatures
  have hgridded : (editAll ⟨resolution, policy, ∅, ∅, .identity⟩ edits).Gridded :=
    ⟨hpoints.gridded, hfeatures.gridded⟩
  exact ⟨hgridded, regrids hpoints.checked hgridded⟩

end VoxelMap

end StereoMapping
