import Mathlib.Logic.Function.Basic
import StereoMapping.Proofs.Cloud.Grid

/-!
# `Proofs.Cloud.Origins` — what a voxel was fused from

A voxel is fused from the observations that met in its cell. When the resolution changes, the voxels of a store are
fused with all they stand for. To say what that is, each cell is given the list of its origins, which no definition
of the library keeps: a recorded observation is an origin of its cell, and gathering the voxels again moves the
origins of each to its new cell.

So what is to be shown of a voxel and its origins is shown of single observations and of two voxels that are fused.

## Contents
- `Origins`, `VoxelGrid.originsAll`: the observations that were fused into each voxel.
- `Voxel.FusesOrigins`, `VoxelStore.Stands`, `VoxelGrid.stands_editAll`: what fusing keeps holds of every voxel and
  its origins; `VoxelGrid.fusing_of_imp`: so it is known of all voxels that are fused.
- `MapEdit.Adds`, `VoxelMap.origins_of_adds`: the origins in a map whose resolution did not change.
-/

namespace StereoMapping

/-! ## Origins -/

/-- The observations that were fused into the voxel of each cell, in the order in which they met. -/
abbrev Origins (S : Type) := Cell → List (Vec3 S × Descriptor S)

namespace Origins

variable {S : Type}

/-- No cell has origins. -/
def none : Origins S := fun _ => []

/-- More origins of a cell. -/
def push (o : Origins S) (c : Cell) (es : List (Vec3 S × Descriptor S)) : Origins S :=
  Function.update o c (o c ++ es)

@[simp] theorem push_self (o : Origins S) (c : Cell) (es : List (Vec3 S × Descriptor S)) :
    o.push c es c = o c ++ es := Function.update_self c _ o

theorem push_of_ne (o : Origins S) {c c' : Cell} (h : c' ≠ c) (es : List (Vec3 S × Descriptor S)) :
    o.push c es c' = o c' := Function.update_of_ne h _ o

/-- A voxel brings all that it was fused from to the cell of its point. -/
def pushVoxel [Scalar S] (resolution : S) (o : Origins S) (e : Voxel S × List (Vec3 S × Descriptor S)) :
    Origins S := o.push (Cell.ofPoint resolution e.1.point) e.2

/-- Single observations are the origins of their own cells. -/
theorem foldl_pushVoxel_single [Scalar S] (resolution : S) (o : Origins S)
    (entries : List (Vec3 S × Descriptor S)) (c : Cell) :
    (entries.map fun e => (Voxel.single e.1 e.2, [e])).foldl (pushVoxel resolution) o c
      = o c ++ VoxelStore.inCell resolution entries c := by
  induction entries generalizing o with
  | nil => exact (List.append_nil _).symm
  | cons e rest ih =>
    rw [List.map_cons, List.foldl_cons, ih]
    have hpush : pushVoxel resolution o (.single e.1 e.2, [e]) = o.push (Cell.ofPoint resolution e.1) [e] := rfl
    rw [hpush]
    unfold VoxelStore.inCell
    by_cases hc : Cell.ofPoint resolution e.1 = c
    · subst hc
      rw [push_self, List.filter_cons_of_pos (by simp), List.append_assoc]
      rfl
    · rw [push_of_ne o (Ne.symm hc), List.filter_cons_of_neg (by simpa using hc)]

/-- No origin is lost while voxels are added. -/
theorem prefix_pushVoxel [Scalar S] (resolution : S) (o : Origins S) (e : Voxel S × List (Vec3 S × Descriptor S))
    (c : Cell) : o c <+: o.pushVoxel resolution e c := by
  unfold pushVoxel
  by_cases hc : c = Cell.ofPoint resolution e.1.point
  · subst hc
    rw [push_self]
    exact List.prefix_append _ _
  · have hsame : o.push (Cell.ofPoint resolution e.1.point) e.2 c = o c := push_of_ne o hc e.2
    exact hsame.symm ▸ List.prefix_rfl

theorem prefix_foldl_pushVoxel [Scalar S] (resolution : S) (o : Origins S)
    (sources : List (Voxel S × List (Vec3 S × Descriptor S))) (c : Cell) :
    o c <+: sources.foldl (pushVoxel resolution) o c := by
  induction sources generalizing o with
  | nil => exact List.prefix_rfl
  | cons e rest ih => exact (o.prefix_pushVoxel resolution e c).trans (ih _)

end Origins

namespace VoxelGrid

variable {S : Type} [Scalar S]

/-- The voxels that a change adds, each with all that it was fused from. -/
def sources (g : VoxelGrid S) (o : Origins S) : GridEdit S → List (Voxel S × List (Vec3 S × Descriptor S))
  | .record entries => entries.map fun e => (.single e.1 e.2, [e])
  | .rebucket _ => g.store.toList.map fun e => (e.2, o e.1)
  | .clear => []

/-- The origins that stay with their cells during a change. -/
def keptOrigins (o : Origins S) : GridEdit S → Origins S
  | .record _ => o
  | _ => .none

/-- The origins of each cell after a change. -/
def originsAfter (g : VoxelGrid S) (o : Origins S) (e : GridEdit S) : Origins S :=
  (g.sources o e).foldl (Origins.pushVoxel (g.sideAfter e)) (keptOrigins o e)

/-- The origins of each cell after some changes. -/
def originsAll : VoxelGrid S → Origins S → List (GridEdit S) → Origins S
  | _, o, [] => o
  | g, o, e :: rest => (g.edit e).originsAll (g.originsAfter o e) rest

omit [Scalar S] in
theorem map_fst_sources (g : VoxelGrid S) (o : Origins S) (e : GridEdit S) :
    (g.sources o e).map Prod.fst = g.added e := by
  cases e with
  | record entries => exact List.map_map
  | rebucket resolution => exact List.map_map
  | clear => rfl

/-- While observations are only recorded, the origins of a cell are those that fell into it. -/
theorem originsAll_of_records (g : VoxelGrid S) (o : Origins S) {edits : List (GridEdit S)}
    (h : ∀ e ∈ edits, e = .record e.recorded) (c : Cell) :
    g.originsAll o edits c = o c ++ VoxelStore.inCell g.resolution (edits.flatMap GridEdit.recorded) c := by
  induction edits generalizing g o with
  | nil => exact (List.append_nil _).symm
  | cons e rest ih =>
    have he : e = .record e.recorded := h e List.mem_cons_self
    have hside : (g.edit e).resolution = g.resolution := by rw [he]; rfl
    have hafter : g.originsAfter o e c = o c ++ VoxelStore.inCell g.resolution e.recorded c := by
      rw [he]
      exact Origins.foldl_pushVoxel_single g.resolution o e.recorded c
    show (g.edit e).originsAll (g.originsAfter o e) rest c = _
    rw [ih (g.edit e) (g.originsAfter o e) (fun a ha => h a (List.mem_cons_of_mem e ha)), hafter, hside,
      List.flatMap_cons, List.append_assoc]
    unfold VoxelStore.inCell
    rw [List.filter_append]

end VoxelGrid

/-! ## What fusing keeps -/

section

variable {S : Type} [Scalar S]

/-- A property of voxels and their origins that holds of single observations, and that fusing keeps. -/
structure Voxel.FusesOrigins (R : Voxel S → Voxel S → Prop) (policy : FusionPolicy)
    (P : Voxel S → List (Vec3 S × Descriptor S) → Prop) : Prop where
  single : ∀ p d, P (.single p d) [(p, d)]
  fuse : ∀ {v w : Voxel S} {es fs : List (Vec3 S × Descriptor S)}, R v w → P v es → P w fs →
    P (v.fuse policy w) (es ++ fs)

/-- Every voxel has a property together with the origins of its cell, and a free cell has none. -/
structure VoxelStore.Stands (P : Voxel S → List (Vec3 S × Descriptor S) → Prop) (store : VoxelStore S)
    (o : Origins S) : Prop where
  held : ∀ (c : Cell) (v : Voxel S), store[c]? = some v → P v (o c)
  free : ∀ c : Cell, store[c]? = none → o c = []

variable {R : Voxel S → Voxel S → Prop} {P : Voxel S → List (Vec3 S × Descriptor S) → Prop}

namespace VoxelStore

omit [Scalar S] in
theorem stands_empty : (∅ : VoxelStore S).Stands P .none where
  held c v h := by simp at h
  free _ _ := rfl

variable {policy : FusionPolicy} {resolution : S} {store : VoxelStore S} {o : Origins S}

/-- **One more voxel** brings its origins to the cell of its point. -/
theorem Stands.add (hfuses : Voxel.FusesOrigins R policy P) (h : store.Stands P o) {v : Voxel S}
    {es : List (Vec3 S × Descriptor S)} (hv : P v es)
    (hheld : ∀ held, store[Cell.ofPoint resolution v.point]? = some held → R held v) :
    (store.add policy resolution v).Stands P (o.pushVoxel resolution (v, es)) := by
  have hpush : o.pushVoxel resolution (v, es) = o.push (Cell.ofPoint resolution v.point) es := rfl
  rw [hpush]
  constructor
  · intro c w hw
    -- only the cell of the new voxel meets new origins
    by_cases hc : Cell.ofPoint resolution v.point = c
    · subst hc
      rw [getElem?_add_self] at hw
      obtain rfl := Option.some.inj hw
      rw [Origins.push_self]
      cases hcell : store[Cell.ofPoint resolution v.point]? with
      | none =>
        rw [h.free _ hcell]
        exact hv
      | some held => exact hfuses.fuse (hheld held hcell) (h.held _ held hcell) hv
    · rw [getElem?_add_of_ne _ store hc] at hw
      rw [Origins.push_of_ne o (Ne.symm hc)]
      exact h.held c w hw
  · intro c hnone
    by_cases hc : Cell.ofPoint resolution v.point = c
    · subst hc
      rw [getElem?_add_self] at hnone
      cases hnone
    · rw [getElem?_add_of_ne _ store hc] at hnone
      rw [Origins.push_of_ne o (Ne.symm hc)]
      exact h.free c hnone

theorem Stands.foldl_add (hfuses : Voxel.FusesOrigins R policy P) (h : store.Stands P o)
    {sources : List (Voxel S × List (Vec3 S × Descriptor S))} (hsources : ∀ s ∈ sources, P s.1 s.2)
    (hfusing : store.Fusing R policy resolution (sources.map Prod.fst)) :
    ((sources.map Prod.fst).foldl (VoxelStore.add policy resolution) store).Stands P
      (sources.foldl (Origins.pushVoxel resolution) o) := by
  induction sources generalizing store o with
  | nil => exact h
  | cons s rest ih =>
    have hs := h.add hfuses (hsources s List.mem_cons_self) hfusing.1
    exact ih hs (fun a ha => hsources a (List.mem_cons_of_mem s ha)) hfusing.2

/-- Pairs of voxels that are fused are in every relation that follows from what they are and what is kept. -/
theorem Stands.fusing_of_imp {R' : Voxel S → Voxel S → Prop} (hfuses : Voxel.FusesOrigins R policy P)
    (himp : ∀ {v w es fs}, R v w → P v es → P w fs → R' v w) (h : store.Stands P o)
    {sources : List (Voxel S × List (Vec3 S × Descriptor S))} (hsources : ∀ s ∈ sources, P s.1 s.2)
    (hfusing : store.Fusing R policy resolution (sources.map Prod.fst)) :
    store.Fusing R' policy resolution (sources.map Prod.fst) := by
  induction sources generalizing store o with
  | nil => trivial
  | cons s rest ih =>
    obtain ⟨hfirst, hrest⟩ := hfusing
    have hs := hsources s List.mem_cons_self
    refine ⟨fun held hheld => himp (hfirst held hheld) (h.held _ held hheld) hs, ?_⟩
    exact ih (h.add hfuses hs hfirst) (fun a ha => hsources a (List.mem_cons_of_mem s ha)) hrest

end VoxelStore

/-- What holds during some changes holds during the first ones of them. -/
theorem VoxelGrid.Fusing.of_prefix {g : VoxelGrid S} {edits before : List (GridEdit S)} (h : g.Fusing R edits)
    (hbefore : before <+: edits) : g.Fusing R before := by
  induction before generalizing g edits with
  | nil => trivial
  | cons e before ih =>
    cases edits with
    | nil => exact absurd (List.prefix_nil.mp hbefore) (List.cons_ne_nil e before)
    | cons e' edits =>
      obtain ⟨rfl, hrest⟩ := List.cons_prefix_cons.mp hbefore
      exact ⟨h.1, ih h.2 hrest⟩

namespace VoxelGrid

variable {g : VoxelGrid S} {o : Origins S}

/-- What a change adds has the property. -/
theorem forall_sources (hfuses : Voxel.FusesOrigins R g.policy P) (h : g.store.Stands P o) (e : GridEdit S) :
    ∀ s ∈ g.sources o e, P s.1 s.2 := by
  cases e with
  | clear => exact fun s hs => absurd hs List.not_mem_nil
  | record entries => exact List.forall_mem_map.mpr fun e _ => hfuses.single e.1 e.2
  | rebucket resolution =>
    refine List.forall_mem_map.mpr fun e he => ?_
    exact h.held e.1 e.2 (Std.TreeMap.mem_toList_iff_getElem?_eq_some.mp he)

omit [Scalar S] in
/-- What stays during a change has it too. -/
theorem stands_kept (h : g.store.Stands P o) (e : GridEdit S) : (g.kept e).Stands P (keptOrigins o e) := by
  cases e with
  | record entries => exact h
  | rebucket resolution => exact VoxelStore.stands_empty
  | clear => exact VoxelStore.stands_empty

theorem stands_edit (hfuses : Voxel.FusesOrigins R g.policy P) (h : g.store.Stands P o) {e : GridEdit S}
    (hfusing : (g.kept e).Fusing R g.policy (g.sideAfter e) (g.added e)) :
    (g.edit e).store.Stands P (g.originsAfter o e) := by
  rw [← g.map_fst_sources o e] at hfusing
  unfold edit
  rw [← g.map_fst_sources o e]
  exact (stands_kept h e).foldl_add hfuses (forall_sources hfuses h e) hfusing

/-- **Whatever fusing keeps** holds of all voxels and their origins after any changes. -/
theorem stands_editAll (hfuses : Voxel.FusesOrigins R g.policy P) (h : g.store.Stands P o)
    {edits : List (GridEdit S)} (hfusing : g.Fusing R edits) :
    (g.editAll edits).store.Stands P (g.originsAll o edits) := by
  induction edits generalizing g o with
  | nil => exact h
  | cons e rest ih => exact ih (g := g.edit e) hfuses (stands_edit hfuses h hfusing.1) hfusing.2

theorem fusing_of_imp {R' : Voxel S → Voxel S → Prop} (hfuses : Voxel.FusesOrigins R g.policy P)
    (himp : ∀ {v w es fs}, R v w → P v es → P w fs → R' v w) (h : g.store.Stands P o) {edits : List (GridEdit S)}
    (hfusing : g.Fusing R edits) : g.Fusing R' edits := by
  induction edits generalizing g o with
  | nil => trivial
  | cons e rest ih =>
    obtain ⟨hfirst, hrest⟩ := hfusing
    refine ⟨?_, ih (g := g.edit e) hfuses (stands_edit hfuses h hfirst) hrest⟩
    rw [← g.map_fst_sources o e] at hfirst ⊢
    exact (stands_kept h e).fusing_of_imp hfuses himp (forall_sources hfuses h e) hfirst

end VoxelGrid

end

/-! ## Origins in a map -/

section

variable {S D : Type} [Scalar S]

/-- A change that leaves every voxel in its cell: nothing is cleared, and a new resolution is refused. -/
def MapEdit.Adds : MapEdit S D → Prop
  | .add _ => True
  | .setResolution resolution => checkResolution resolution ≠ .ok ()
  | .clear => False

theorem MapEdit.Adds.onStore_eq {e : MapEdit S D} (h : e.Adds)
    (taken : Addition S D → List (Vec3 S × Descriptor S)) : e.onStore taken = .record (e.records taken) := by
  cases e with
  | add a => rfl
  | clear => exact h.elim
  | setResolution resolution =>
    cases hcheck : checkResolution resolution with
    | ok _ => exact absurd hcheck h
    | error e => exact onStore_error taken hcheck

/-- The origins of the voxels of one of the stores, after some changes of a map without content. -/
def VoxelMap.origins (start : VoxelMap S D) (taken : Addition S D → List (Vec3 S × Descriptor S))
    (edits : List (MapEdit S D)) : Origins S :=
  VoxelGrid.originsAll ⟨start.resolution, start.policy, ∅⟩ .none (edits.map (MapEdit.onStore taken))

theorem MapEdit.eq_clear_of_onStore {taken : Addition S D → List (Vec3 S × Descriptor S)} {e : MapEdit S D}
    (h : e.onStore taken = .clear) : e = .clear := by
  cases e with
  | clear => rfl
  | add a => cases h
  | setResolution resolution =>
    cases hcheck : checkResolution resolution with
    | ok _ =>
      rw [onStore_ok taken hcheck] at h
      cases h
    | error e =>
      rw [onStore_error taken hcheck] at h
      cases h

/-- While the resolution stays, the origins of a voxel are what fell into its cell. -/
theorem VoxelMap.origins_of_adds {start : VoxelMap S D} {taken : Addition S D → List (Vec3 S × Descriptor S)}
    {edits : List (MapEdit S D)} (h : ∀ e ∈ edits, e.Adds) :
    start.origins taken edits = VoxelStore.inCell start.resolution (placedBy taken edits) := by
  have hrecords : ∀ e ∈ edits.map (MapEdit.onStore taken), e = .record e.recorded := by
    refine List.forall_mem_map.mpr fun e he => ?_
    rw [(h e he).onStore_eq]
    rfl
  funext c
  rw [← flatMap_recorded]
  exact VoxelGrid.originsAll_of_records ⟨start.resolution, start.policy, ∅⟩ .none hrecords c

end

end StereoMapping
