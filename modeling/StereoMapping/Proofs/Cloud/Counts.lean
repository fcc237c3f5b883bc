import StereoMapping.Proofs.Cloud.Origins
import StereoMapping.Proofs.Number.Quotient

/-!
# `Proofs.Cloud.Counts` — counts of observations that wrap around

Under the policy that takes means a voxel counts its origins, and the count of a fused voxel is the sum of two counts.
Gathering the voxels again makes no observations and loses none, so a count is the number of origins of its cell,
modulo `2 ^ 32`. No sum of two counts overflows exactly as long as no cell has `2 ^ 32` origins or more, and nothing
keeps a map from that: a cell that is observed `2 ^ 32` times has the count zero, and its last observation an infinite
weight.

The weight of the second voxel is its share of the observations of both. Shares are between zero and one exactly as
long as no sum overflows, since a sum that wraps around is less than either count. The 32-bit numbers that weights are
computed with are above zero then, and not above one; they are one when the two counts become the same number.

## Contents
- `Voxel.Counted`, `Voxel.CountedExactly`: counts modulo `2 ^ 32`, and counts that did not wrap around.
- `Origins.Fit`, `VoxelGrid.fusing_countsFit_iff`: when no sum of counts overflows.
- `Voxel.share`, `Voxel.weight`, `Weighed`: the weights of fused voxels.
- `VoxelMap.Counters`, `VoxelMap.counters_fit_iff`: the counts of a map after any changes.
- `VoxelMap.counter_wraps_around`: a cell that is observed `2 ^ 32` times.
-/

namespace StereoMapping

variable {S D : Type} [Scalar S]

/-! ## Counted origins -/

namespace Voxel

/-- A voxel counts its origins with 32 bits. -/
structure Counted (v : Voxel S) (es : List (Vec3 S × Descriptor S)) : Prop where
  nonempty : es ≠ []
  counter : v.observations = UInt32.ofNat es.length

/-- A voxel counts its origins, and the count did not wrap around. -/
structure CountedExactly (v : Voxel S) (es : List (Vec3 S × Descriptor S)) : Prop where
  nonempty : es ≠ []
  count : v.observations.toNat = es.length

/-- Counts are added, whether or not the sum overflows. -/
theorem fusesOrigins_counted : FusesOrigins (fun _ _ => True) .average (Counted (S := S)) where
  single p d := ⟨List.cons_ne_nil _ _, rfl⟩
  fuse := by
    intro v w es fs _ hv hw
    refine ⟨List.append_ne_nil_of_left_ne_nil hv.nonempty fs, ?_⟩
    show v.observations + w.observations = _
    rw [hv.counter, hw.counter, List.length_append, UInt32.ofNat_add]

/-- Sums that do not overflow are exact. -/
theorem fusesOrigins_countedExactly : FusesOrigins CountsFit .average (CountedExactly (S := S)) where
  single p d := ⟨List.cons_ne_nil _ _, rfl⟩
  fuse := by
    intro v w es fs hfit hv hw
    refine ⟨List.append_ne_nil_of_left_ne_nil hv.nonempty fs, ?_⟩
    show (v.observations + w.observations).toNat = _
    rw [hfit.toNat_add, List.length_append, hv.count, hw.count]

section

variable {v w : Voxel S} {es fs : List (Vec3 S × Descriptor S)}

omit [Scalar S] in
theorem CountedExactly.pos (h : v.CountedExactly es) : 1 ≤ v.observations.toNat := by
  rw [h.count]
  exact List.length_pos_iff.mpr h.nonempty

omit [Scalar S] in
theorem Counted.toNat_eq (h : v.Counted es) (hfits : es.length < UInt32.size) :
    v.observations.toNat = es.length := by
  rw [h.counter]
  exact UInt32.toNat_ofNat_of_lt hfits

omit [Scalar S] in
/-- Two counts can be added exactly if their origins can be counted together. -/
theorem Counted.countsFit_iff (hv : v.Counted es) (hw : w.Counted fs) (hes : es.length < UInt32.size)
    (hfs : fs.length < UInt32.size) : v.CountsFit w ↔ (es ++ fs).length < UInt32.size := by
  rw [List.length_append, ← hv.toNat_eq hes, ← hw.toNat_eq hfs]
  exact Iff.rfl

end

end Voxel

/-! ## Counts that overflow -/

/-- No cell has more origins than 32 bits can count. -/
def Origins.Fit (o : Origins S) : Prop := ∀ c : Cell, (o c).length < UInt32.size

/-- Origins that fit at the end did fit before, since none is lost. -/
theorem Origins.fit_of_foldl_pushVoxel {resolution : S} {o : Origins S}
    (sources : List (Voxel S × List (Vec3 S × Descriptor S)))
    (h : Fit (sources.foldl (pushVoxel resolution) o)) : o.Fit := by
  intro c
  exact (o.prefix_foldl_pushVoxel resolution sources c).length_le.trans_lt (h c)

namespace VoxelStore

variable {resolution : S} {store : VoxelStore S} {o : Origins S}

/-- One more voxel overflows no count exactly if its origins fit with those of its cell. -/
theorem Stands.fit_pushVoxel_iff (h : store.Stands Voxel.Counted o) (hfit : o.Fit) {v : Voxel S}
    {es : List (Vec3 S × Descriptor S)} (hv : v.Counted es) (hes : es.length < UInt32.size) :
    (o.pushVoxel resolution (v, es)).Fit ↔
      ∀ held, store[Cell.ofPoint resolution v.point]? = some held → held.CountsFit v := by
  have hpush : o.pushVoxel resolution (v, es) = o.push (Cell.ofPoint resolution v.point) es := rfl
  rw [hpush]
  constructor
  · intro hpushed held hheld
    have hcell := hpushed (Cell.ofPoint resolution v.point)
    rw [Origins.push_self] at hcell
    exact ((h.held _ held hheld).countsFit_iff hv (hfit _) hes).mpr hcell
  · intro hfits c
    -- only the cell of the voxel gets more origins
    by_cases hc : c = Cell.ofPoint resolution v.point
    · subst hc
      rw [Origins.push_self]
      cases hheld : store[Cell.ofPoint resolution v.point]? with
      | none =>
        rw [h.free _ hheld]
        exact hes
      | some held => exact ((h.held _ held hheld).countsFit_iff hv (hfit _) hes).mp (hfits held hheld)
    · rw [Origins.push_of_ne o hc]
      exact hfit c

/-- **A series of voxels** overflows no count exactly if all origins fit in the end. -/
theorem Stands.fusing_countsFit_iff (h : store.Stands Voxel.Counted o) (hfit : o.Fit)
    {sources : List (Voxel S × List (Vec3 S × Descriptor S))}
    (hsources : ∀ s ∈ sources, s.1.Counted s.2 ∧ s.2.length < UInt32.size) :
    store.Fusing Voxel.CountsFit .average resolution (sources.map Prod.fst) ↔
      Origins.Fit (sources.foldl (Origins.pushVoxel resolution) o) := by
  induction sources generalizing store o with
  | nil => exact iff_of_true trivial hfit
  | cons s rest ih =>
    obtain ⟨hcounted, hes⟩ := hsources s List.mem_cons_self
    have hrest := fun a ha => hsources a (List.mem_cons_of_mem s ha)
    have hadd : (store.add .average resolution s.1).Stands Voxel.Counted (o.pushVoxel resolution s) :=
      h.add Voxel.fusesOrigins_counted hcounted fun _ _ => trivial
    have hstep : (o.pushVoxel resolution s).Fit ↔
        ∀ held, store[Cell.ofPoint resolution s.1.point]? = some held → held.CountsFit s.1 :=
      h.fit_pushVoxel_iff hfit hcounted hes
    constructor
    · rintro ⟨hfirst, hlater⟩
      exact (ih hadd (hstep.mpr hfirst) hrest).mp hlater
    · intro hend
      -- origins are never taken away, so what fits in the end fits after the first voxel
      have hnext : (o.pushVoxel resolution s).Fit := Origins.fit_of_foldl_pushVoxel rest hend
      exact ⟨hstep.mp hnext, (ih hadd hnext hrest).mpr hend⟩

end VoxelStore

namespace VoxelGrid

variable {g : VoxelGrid S} {o : Origins S}

omit [Scalar S] in
/-- What a change adds has no more origins than could be counted before it. -/
theorem length_sources_lt (hfit : o.Fit) (e : GridEdit S) : ∀ s ∈ g.sources o e, s.2.length < UInt32.size := by
  cases e with
  | clear => exact fun s hs => absurd hs List.not_mem_nil
  | record entries => exact List.forall_mem_map.mpr fun _ _ => (by decide : 1 < UInt32.size)
  | rebucket resolution => exact List.forall_mem_map.mpr fun e _ => hfit e.1

omit [Scalar S] in
theorem fit_keptOrigins (hfit : o.Fit) (e : GridEdit S) : (keptOrigins o e).Fit := by
  cases e with
  | record entries => exact hfit
  | rebucket resolution => exact fun _ => (by decide : 0 < UInt32.size)
  | clear => exact fun _ => (by decide : 0 < UInt32.size)

/-- **No sum of counts overflows** during some changes exactly if at no time a cell has more origins than can be
counted. -/
theorem fusing_countsFit_iff (hpolicy : g.policy = .average) (h : g.store.Stands Voxel.Counted o) (hfit : o.Fit)
    {edits : List (GridEdit S)} :
    g.Fusing Voxel.CountsFit edits ↔ ∀ before, before <+: edits → (g.originsAll o before).Fit := by
  induction edits generalizing g o with
  | nil =>
    refine iff_of_true trivial fun before hbefore => ?_
    rw [List.prefix_nil.mp hbefore]
    exact hfit
  | cons e rest ih =>
    have hfuses : Voxel.FusesOrigins (fun _ _ => True) g.policy (Voxel.Counted (S := S)) :=
      hpolicy ▸ Voxel.fusesOrigins_counted
    have hfirst : (g.kept e).Fusing Voxel.CountsFit g.policy (g.sideAfter e) (g.added e) ↔
        (g.originsAfter o e).Fit := by
      rw [← g.map_fst_sources o e, hpolicy]
      exact (stands_kept h e).fusing_countsFit_iff (fit_keptOrigins hfit e) fun s hs =>
        ⟨forall_sources hfuses h e s hs, length_sources_lt hfit e s hs⟩
    have hstands := stands_edit hfuses h (e := e) (VoxelStore.fusing_of_forall (fun _ _ => trivial) _ _ _ _)
    constructor
    · rintro ⟨hfits, hlater⟩ before hbefore
      cases before with
      | nil => exact hfit
      | cons e' before =>
        obtain ⟨rfl, hprefix⟩ := List.cons_prefix_cons.mp hbefore
        exact (ih (g := g.edit e') hpolicy hstands (hfirst.mp hfits)).mp hlater before hprefix
    · intro hall
      -- the change alone is a prefix, and every prefix of the rest is one behind it
      have hafter : (g.originsAfter o e).Fit := hall [e] (List.cons_prefix_cons.mpr ⟨rfl, List.nil_prefix⟩)
      refine ⟨hfirst.mpr hafter, (ih (g := g.edit e) hpolicy hstands hafter).mpr fun before hprefix => ?_⟩
      exact hall (e :: before) (List.cons_prefix_cons.mpr ⟨rfl, hprefix⟩)

end VoxelGrid

/-! ## Weights -/

namespace Voxel

/-- The second voxel's part of the observations that are counted for both. -/
def share (v w : Voxel S) : ℚ := w.observations.toNat / (v.observations + w.observations).toNat

/-- The weight of the second voxel when both are fused. -/
def weight (v w : Voxel S) : S :=
  Scalar.ofNat w.observations.toNat / Scalar.ofNat (v.observations + w.observations).toNat

/-- Shares are between zero and one. -/
def SharesFit (v w : Voxel S) : Prop := 0 < v.share w ∧ v.share w < 1

variable {v w : Voxel S}

omit [Scalar S] in
/-- Counts that can be added have such a share. -/
theorem CountsFit.sharesFit (h : v.CountsFit w) (hv : 1 ≤ v.observations.toNat) (hw : 1 ≤ w.observations.toNat) :
    v.SharesFit w := by
  have hpos : (0 : ℚ) < w.observations.toNat := Nat.cast_pos.mpr hw
  have hless : (w.observations.toNat : ℚ) < (v.observations.toNat + w.observations.toNat : Nat) :=
    Nat.cast_lt.mpr (by omega)
  unfold SharesFit share
  rw [h.toNat_add]
  exact ⟨div_pos hpos (hpos.trans hless), (div_lt_one (hpos.trans hless)).mpr hless⟩

omit [Scalar S] in
/-- Counts that cannot be added have none: their sum wraps around to less than either of them. -/
theorem SharesFit.countsFit (h : v.SharesFit w) : v.CountsFit w := by
  obtain ⟨hpos, hless⟩ := h
  unfold share at hpos hless
  have htotal : (0 : ℚ) < (v.observations + w.observations).toNat := by
    refine (Nat.cast_nonneg _).lt_of_ne fun hzero => ?_
    rw [← hzero, div_zero] at hpos
    exact lt_irrefl 0 hpos
  rw [div_lt_one htotal, Nat.cast_lt, UInt32.toNat_add] at hless
  have hlt := v.observations.toNat_lt
  show v.observations.toNat + w.observations.toNat < 2 ^ 32
  omega

/-- **How voxels are weighed with 32-bit numbers.** -/
structure Weighed (v w : Voxel Float32) : Prop where
  point : (v.fuse .average w).point = v.point + (w.point - v.point).scale (v.weight w)
  pos : Scalar.lt 0 (v.weight w) = true
  le_one : Scalar.le (v.weight w) 1 = true
  /-- The weight is one if both counts are the same number. -/
  lt_one_iff : Scalar.lt (v.weight w) 1 = true ↔
    Scalar.lt (Scalar.ofNat w.observations.toNat : Float32)
      (Scalar.ofNat (v.observations + w.observations).toNat) = true
  /-- A count of 24 digits is another number than every greater count. -/
  lt_one : w.observations.toNat < 2 ^ 24 → Scalar.lt (v.weight w) 1 = true

theorem CountsFit.weighed {v w : Voxel Float32} (h : v.CountsFit w) (hv : 1 ≤ v.observations.toNat)
    (hw : 1 ≤ w.observations.toNat) : v.Weighed w := by
  have htotal := h.toNat_add
  have hless : w.observations.toNat < (v.observations + w.observations).toNat := by omega
  have hword : (v.observations + w.observations).toNat ≤ 2 ^ 32 := (v.observations + w.observations).toNat_lt.le
  obtain ⟨hpos, hle, hiff⟩ := share_bounds hw hless.le hword
  exact ⟨rfl, hpos, hle, hiff, fun hdigits => hiff.mpr (ofNat_lt_ofNat hless hdigits hword)⟩

/-- With a count of 25 digits the weight can be one, though one observation is not in it. -/
example : Scalar.lt ((⟨.zero, 1, .empty⟩ : Voxel Float32).weight ⟨.zero, 16777216, .empty⟩) 1 = false := by
  decide +kernel

end Voxel

/-! ## The counts of a map -/

namespace VoxelMap

section

variable [Scalar D]

/-- All voxels that are fused in one of the stores of a map, during some changes, are in a relation. -/
def Fuses (grid : VoxelMap S D → VoxelGrid S) (taken : Addition S D → List (Vec3 S × Descriptor S))
    (R : Voxel S → Voxel S → Prop) (start : VoxelMap S D) (edits : List (MapEdit S D)) : Prop :=
  (grid start).Fusing R (edits.map (MapEdit.onStore taken))

variable [Precision S D]

/-- One of the stores of a map without content, and what it takes of an addition. -/
structure EmptyStore (grid : VoxelMap S D → VoxelGrid S) (taken : Addition S D → List (Vec3 S × Descriptor S))
    (start : VoxelMap S D) : Prop where
  empty : grid start = ⟨start.resolution, start.policy, ∅⟩
  editAll : ∀ edits, grid (start.editAll edits) = (grid start).editAll (edits.map (MapEdit.onStore taken))

theorem Blank.emptyStores {start : VoxelMap S D} (h : start.Blank) :
    EmptyStore pointGrid Addition.toPoints start ∧ EmptyStore featureGrid Addition.toFeatures start := by
  obtain ⟨hpoints, hfeatures⟩ := h.stores_eq
  refine ⟨⟨?_, start.pointGrid_editAll⟩, ⟨?_, start.featureGrid_editAll⟩⟩
  · rw [← hpoints]
    rfl
  · rw [← hfeatures]
    rfl

variable {grid : VoxelMap S D → VoxelGrid S} {taken : Addition S D → List (Vec3 S × Descriptor S)}
  {start : VoxelMap S D} {edits : List (MapEdit S D)}

/-- Whatever fusing keeps holds of all voxels of a store and their origins. -/
theorem EmptyStore.stands {R : Voxel S → Voxel S → Prop} {P : Voxel S → List (Vec3 S × Descriptor S) → Prop}
    (h : EmptyStore grid taken start) (hfuses : Voxel.FusesOrigins R start.policy P)
    (hfusing : Fuses grid taken R start edits) :
    (grid (start.editAll edits)).store.Stands P (start.origins taken edits) := by
  unfold Fuses at hfusing
  rw [h.empty] at hfusing
  rw [h.editAll, h.empty]
  exact VoxelGrid.stands_editAll hfuses VoxelStore.stands_empty hfusing

/-- All voxels that are fused are known by what fusing keeps. -/
theorem EmptyStore.fuses_of_imp {R R' : Voxel S → Voxel S → Prop}
    {P : Voxel S → List (Vec3 S × Descriptor S) → Prop} (h : EmptyStore grid taken start)
    (hfuses : Voxel.FusesOrigins R start.policy P) (himp : ∀ {v w es fs}, R v w → P v es → P w fs → R' v w)
    (hfusing : Fuses grid taken R start edits) : Fuses grid taken R' start edits := by
  unfold Fuses at hfusing ⊢
  rw [h.empty] at hfusing ⊢
  exact VoxelGrid.fusing_of_imp (R := R) (P := P) hfuses himp VoxelStore.stands_empty hfusing

theorem EmptyStore.counted (h : EmptyStore grid taken start) (hpolicy : start.policy = .average)
    (edits : List (MapEdit S D)) :
    (grid (start.editAll edits)).store.Stands Voxel.Counted (start.origins taken edits) :=
  h.stands (hpolicy ▸ Voxel.fusesOrigins_counted) (VoxelGrid.fusing_of_forall (fun _ _ => trivial) _ _)

/-- Counts that fit are those of one observation or more. -/
theorem EmptyStore.fuses_of_countsFit {R : Voxel S → Voxel S → Prop} (h : EmptyStore grid taken start)
    (hpolicy : start.policy = .average)
    (himp : ∀ {v w : Voxel S}, v.CountsFit w → 1 ≤ v.observations.toNat → 1 ≤ w.observations.toNat → R v w)
    (hfits : Fuses grid taken Voxel.CountsFit start edits) : Fuses grid taken R start edits :=
  h.fuses_of_imp (hpolicy ▸ Voxel.fusesOrigins_countedExactly) (fun hfit hv hw => himp hfit hv.pos hw.pos) hfits

theorem EmptyStore.fuses_countsFit_iff (h : EmptyStore grid taken start) (hpolicy : start.policy = .average)
    (edits : List (MapEdit S D)) : Fuses grid taken Voxel.CountsFit start edits ↔
      ∀ before, before <+: edits → (start.origins taken before).Fit := by
  have hnone : (Origins.none : Origins S).Fit := fun _ => (by decide : 0 < UInt32.size)
  unfold Fuses
  rw [h.empty, VoxelGrid.fusing_countsFit_iff hpolicy VoxelStore.stands_empty hnone]
  constructor
  · intro hfit before hbefore
    exact hfit _ (hbefore.map _)
  · intro hfit before hbefore
    obtain ⟨changes, hchanges, rfl⟩ := List.prefix_map_iff.mp hbefore
    exact hfit changes hchanges

omit [Scalar D] [Precision S D] in
/-- While the resolution stays, what fell into a cell stays in it. -/
theorem fit_prefix_of_adds (hadds : ∀ e ∈ edits, e.Adds) (hfit : (start.origins taken edits).Fit)
    {before : List (MapEdit S D)} (hbefore : before <+: edits) : (start.origins taken before).Fit := by
  have hadds' : ∀ e ∈ before, e.Adds := fun e he => hadds e (hbefore.subset he)
  rw [origins_of_adds hadds] at hfit
  rw [origins_of_adds hadds']
  intro c
  have hprefix : VoxelStore.inCell start.resolution (placedBy taken before) c <+:
      VoxelStore.inCell start.resolution (placedBy taken edits) c := (hbefore.flatMap _).filter _
  exact hprefix.length_le.trans_lt (hfit c)

end

section

variable [Scalar D] [Precision Float32 D]

/-- **The counts of a store**, after some changes of a map without content. -/
structure Counters (grid : VoxelMap Float32 D → VoxelGrid Float32)
    (taken : Addition Float32 D → List (Vec3 Float32 × Descriptor Float32)) (start : VoxelMap Float32 D)
    (edits : List (MapEdit Float32 D)) : Prop where
  counted : ∀ (c : Cell) (v : Voxel Float32), (grid (start.editAll edits)).store[c]? = some v →
    v.observations = UInt32.ofNat (start.origins taken edits c).length
  /-- No sum overflows exactly if at no time a cell has `2 ^ 32` origins. -/
  fit_iff : Fuses grid taken Voxel.CountsFit start edits ↔
    ∀ before, before <+: edits → (start.origins taken before).Fit
  /-- No sum overflows exactly if all shares are between zero and one. -/
  shares_iff : Fuses grid taken Voxel.CountsFit start edits ↔ Fuses grid taken Voxel.SharesFit start edits
  few : (placedBy taken edits).length < UInt32.size → Fuses grid taken Voxel.CountsFit start edits
  /-- While the resolution stays, only what falls into one cell is counted together. -/
  unmoved : (∀ e ∈ edits, e.Adds) → (Fuses grid taken Voxel.CountsFit start edits ↔
    Origins.Fit (VoxelStore.inCell start.resolution (placedBy taken edits)))
  /-- At all times, a voxel has the count of its origins then, which is one or more. -/
  exact : Fuses grid taken Voxel.CountsFit start edits →
    ∀ before, before <+: edits → ∀ (c : Cell) (v : Voxel Float32), (grid (start.editAll before)).store[c]? = some v →
      v.observations.toNat = (start.origins taken before c).length ∧ 1 ≤ v.observations.toNat
  weighed : Fuses grid taken Voxel.CountsFit start edits → Fuses grid taken Voxel.Weighed start edits

theorem EmptyStore.counters {grid : VoxelMap Float32 D → VoxelGrid Float32}
    {taken : Addition Float32 D → List (Vec3 Float32 × Descriptor Float32)} {start : VoxelMap Float32 D}
    (h : EmptyStore grid taken start) (hpolicy : start.policy = .average) (edits : List (MapEdit Float32 D)) :
    Counters grid taken start edits where
  counted c v hv := ((h.counted hpolicy edits).held c v hv).counter
  fit_iff := h.fuses_countsFit_iff hpolicy edits
  shares_iff := by
    refine ⟨h.fuses_of_countsFit hpolicy Voxel.CountsFit.sharesFit, ?_⟩
    have hany : Voxel.FusesOrigins Voxel.SharesFit start.policy fun (_ : Voxel Float32) _ => True :=
      ⟨fun _ _ => trivial, fun _ _ _ => trivial⟩
    exact h.fuses_of_imp hany fun hshare _ _ => hshare.countsFit
  few hfew := by
    unfold Fuses
    rw [h.empty]
    exact VoxelGrid.fusing_onStore rfl hfew
  unmoved hadds := by
    rw [h.fuses_countsFit_iff hpolicy, ← origins_of_adds hadds]
    exact ⟨fun hfit => hfit edits List.prefix_rfl, fun hfit before hbefore => fit_prefix_of_adds hadds hfit hbefore⟩
  exact hfits before hbefore c v hv := by
    have hstands := h.stands (hpolicy ▸ Voxel.fusesOrigins_countedExactly) (hfits.of_prefix (hbefore.map _))
    have hheld := hstands.held c v hv
    exact ⟨hheld.count, hheld.pos⟩
  weighed := h.fuses_of_countsFit hpolicy Voxel.CountsFit.weighed

/-- **The counts of a map.** A map was created or cleared and takes means. After any changes the count of a voxel is
the number of observations that were fused into it, modulo `2 ^ 32`. No sum of two counts overflows exactly as long as
no cell has `2 ^ 32` origins, or as long as all shares are between zero and one; fewer than `2 ^ 32` observations are
enough for this. Then every count is one or more at all times, and every 32-bit weight is above zero and not above one.
It is less than one if the numbers tell the two counts apart, as they do with counts of 24 digits. -/
theorem counters_fit_iff {start : VoxelMap Float32 D} (hstart : start.Blank) (hpolicy : start.policy = .average)
    (edits : List (MapEdit Float32 D)) : Counters pointGrid Addition.toPoints start edits ∧
      Counters featureGrid Addition.toFeatures start edits := by
  obtain ⟨hpoints, hfeatures⟩ := hstart.emptyStores
  exact ⟨hpoints.counters hpolicy edits, hfeatures.counters hpolicy edits⟩

end

/-! ### Points that are counted together -/

omit [Scalar S] in
theorem store_pointGrid (m : VoxelMap S D) : m.pointGrid.store = m.points := rfl

/-- Cells of side one, whose points are averaged. -/
def averageMap : VoxelMap Float32 Float := ⟨1, .average, ∅, ∅, .identity⟩

theorem blank_averageMap : averageMap.Blank :=
  .created (create_eq_ok_iff.mpr ⟨if_pos (by decide +kernel), rfl⟩)

/-- Two points of a cell and one of another, gathered again in larger cells. -/
def regathered : List (MapEdit Float32 Float) :=
  [.add (.cloud ⟨#[⟨0.25, 0.25, 0.25⟩, ⟨0.5, 0.5, 0.75⟩, ⟨1.5, 0.5, 0.5⟩], 0⟩ .identity), .setResolution 4]

/-- Three observations are counted together, and weighed by shares. -/
theorem counters_fit_iff_regathered : averageMap.Blank ∧ averageMap.policy = .average ∧
    Fuses pointGrid Addition.toPoints Voxel.Weighed averageMap regathered ∧
    ∃ v, (averageMap.editAll regathered).points[(⟨0, 0, 0⟩ : Cell)]? = some v ∧ v.observations = 3 := by
  obtain ⟨hpoints, _⟩ := counters_fit_iff blank_averageMap rfl regathered
  refine ⟨blank_averageMap, rfl, hpoints.weighed (hpoints.few (by decide +kernel)), ?_⟩
  have hcount : (averageMap.origins Addition.toPoints regathered ⟨0, 0, 0⟩).length = 3 := by decide +kernel
  have hheld : (averageMap.editAll regathered).points[(⟨0, 0, 0⟩ : Cell)]?.isSome = true := by decide +kernel
  obtain ⟨v, hv⟩ := Option.isSome_iff_exists.mp hheld
  refine ⟨v, hv, ?_⟩
  rw [← store_pointGrid] at hv
  rw [hpoints.counted _ v hv, hcount]
  rfl

/-! ### One cell, observed again and again -/

end VoxelMap

/-- Recorded observations leave the resolution of a grid. -/
theorem VoxelGrid.resolution_editAll {g : VoxelGrid S} {edits : List (GridEdit S)}
    (h : ∀ e ∈ edits, e = .record e.recorded) : (g.editAll edits).resolution = g.resolution := by
  induction edits generalizing g with
  | nil => rfl
  | cons e rest ih =>
    refine (ih (g := g.edit e) fun a ha => h a (List.mem_cons_of_mem e ha)).trans ?_
    rw [h e List.mem_cons_self]
    rfl

namespace VoxelMap

section

variable {taken : Addition S D → List (Vec3 S × Descriptor S)} {start : VoxelMap S D} {a : Addition S D}
  {e : Vec3 S × Descriptor S}

omit [Scalar S] in
/-- The same addition made again places the same again. -/
theorem placedBy_replicate (ha : taken a = [e]) (n : Nat) :
    placedBy taken (List.replicate n (.add a)) = List.replicate n e := by
  induction n with
  | zero => rfl
  | succ n ih =>
    rw [List.replicate_succ, List.replicate_succ, ← ih]
    show taken a ++ placedBy taken (List.replicate n (.add a)) = _
    rw [ha]
    rfl

theorem adds_replicate (n : Nat) : ∀ edit ∈ List.replicate n (MapEdit.add a), edit.Adds := by
  intro edit hedit
  rw [List.eq_of_mem_replicate hedit]
  trivial

/-- All that was placed stays in the cell where the same is placed again. -/
theorem length_origins_replicate (ha : taken a = [e]) (n : Nat) :
    (start.origins taken (List.replicate n (.add a)) (Cell.ofPoint start.resolution e.1)).length = n := by
  rw [origins_of_adds (adds_replicate n), placedBy_replicate ha]
  unfold VoxelStore.inCell
  rw [List.filter_replicate_of_pos (by simp), List.length_replicate]

variable [Scalar D] [Precision S D] {grid : VoxelMap S D → VoxelGrid S}

/-- One more of the same observations is fused with the voxel of its cell. -/
theorem EmptyStore.store_replicate_succ (h : EmptyStore grid taken start) (ha : taken a = [e]) (n : Nat) :
    (grid (start.editAll (List.replicate (n + 1) (.add a)))).store
      = (grid (start.editAll (List.replicate n (.add a)))).store.add start.policy start.resolution
          (.single e.1 e.2) := by
  have hrecords : ∀ edit ∈ (List.replicate n (MapEdit.add a)).map (MapEdit.onStore taken),
      edit = .record edit.recorded := by
    refine List.forall_mem_map.mpr fun edit hedit => ?_
    rw [List.eq_of_mem_replicate hedit]
    rfl
  have hresolution := VoxelGrid.resolution_editAll (g := grid start) hrecords
  have hpolicy := (grid start).policy_editAll ((List.replicate n (MapEdit.add a)).map (MapEdit.onStore taken))
  have hedit : (MapEdit.add a).onStore taken = .record [e] := congrArg GridEdit.record ha
  rw [h.editAll, h.editAll, List.replicate_succ', List.map_append]
  unfold VoxelGrid.editAll at hresolution hpolicy ⊢
  rw [List.foldl_append, List.map_singleton, hedit, List.foldl_cons, List.foldl_nil]
  rw [h.empty] at hresolution hpolicy ⊢
  show VoxelStore.add _ _ _ _ = _
  rw [hpolicy]
  exact congrArg (fun side => VoxelStore.add start.policy side _ _) hresolution

/-- **A cell that is observed `2 ^ 32` times** has the count zero. -/
theorem EmptyStore.wraps (h : EmptyStore grid taken start) (hpolicy : start.policy = .average)
    (ha : taken a = [e]) {n : Nat} (hn : n + 1 = UInt32.size) :
    ¬ Fuses grid taken Voxel.CountsFit start (List.replicate (n + 1) (.add a)) ∧
      ∃ held, (grid (start.editAll (List.replicate n (.add a)))).store[Cell.ofPoint start.resolution e.1]? = some held ∧
        (grid (start.editAll (List.replicate (n + 1) (.add a)))).store[Cell.ofPoint start.resolution e.1]?
          = some (held.fuse .average (.single e.1 e.2)) ∧
        held.observations + 1 = 0 := by
  constructor
  · intro hfits
    have hfit := (h.fuses_countsFit_iff hpolicy _).mp hfits _ List.prefix_rfl (Cell.ofPoint start.resolution e.1)
    rw [length_origins_replicate ha] at hfit
    omega
  · have hcounted := h.counted hpolicy (List.replicate n (.add a))
    cases hheld : (grid (start.editAll (List.replicate n (.add a)))).store[Cell.ofPoint start.resolution e.1]? with
    | none =>
      -- a free cell would have no origins
      have hlength : (start.origins taken (List.replicate n (.add a)) (Cell.ofPoint start.resolution e.1)).length = n :=
        length_origins_replicate ha n
      rw [hcounted.free _ hheld, List.length_nil] at hlength
      have hsize : UInt32.size = 4294967296 := rfl
      omega
    | some held =>
      refine ⟨held, rfl, ?_, ?_⟩
      · rw [h.store_replicate_succ ha, hpolicy]
        have hself := VoxelStore.getElem?_add_self .average start.resolution
          (grid (start.editAll (List.replicate n (.add a)))).store (.single e.1 e.2)
        exact hself.trans (congrArg (fun held => some (Voxel.join .average held (.single e.1 e.2))) hheld)
      · rw [(hcounted.held _ held hheld).counter, length_origins_replicate ha]
        show UInt32.ofNat n + UInt32.ofNat 1 = 0
        rw [← UInt32.ofNat_add, hn]
        rfl

end

/-- One point, observed from the origin. -/
def originCloud : Addition Float32 Float := .cloud ⟨#[⟨0, 0, 0⟩], 0⟩ .identity

/-- **A count wraps around.** After `2 ^ 32` observations of one point its voxel has the count zero, and the last of
them was given a weight that is not finite. -/
theorem counter_wraps_around : averageMap.Blank ∧ averageMap.policy = .average ∧
    (∀ e ∈ List.replicate UInt32.size (MapEdit.add originCloud), e.Adds) ∧
    ¬ Fuses pointGrid Addition.toPoints Voxel.CountsFit averageMap (List.replicate UInt32.size (.add originCloud)) ∧
    ∃ held v : Voxel Float32,
      (averageMap.editAll (List.replicate (UInt32.size - 1) (.add originCloud))).points[Cell.mk 0 0 0]? = some held ∧
      (averageMap.editAll (List.replicate UInt32.size (.add originCloud))).points[Cell.mk 0 0 0]? = some v ∧
      v = held.fuse .average (.single ⟨0, 0, 0⟩ .empty) ∧ v.observations = 0 ∧
      Scalar.isFinite (held.weight (.single ⟨0, 0, 0⟩ .empty)) = false := by
  have hplaces : originCloud.toPoints = [(⟨0, 0, 0⟩, .empty)] := by decide +kernel
  have hcell : Cell.ofPoint averageMap.resolution ⟨0, 0, 0⟩ = ⟨0, 0, 0⟩ := by decide +kernel
  have hsize : UInt32.size - 1 + 1 = UInt32.size := rfl
  obtain ⟨hoverflow, held, hheld, hnext, hzero⟩ := blank_averageMap.emptyStores.1.wraps rfl hplaces hsize
  rw [hcell, store_pointGrid] at hheld hnext
  rw [hsize] at hoverflow hnext
  refine ⟨blank_averageMap, rfl, adds_replicate _, hoverflow, held, _, hheld, hnext, rfl, hzero, ?_⟩
  have hweight : held.weight (.single ⟨0, 0, 0⟩ .empty) = Scalar.ofNat 1 / (Scalar.ofNat 0 : Float32) := by
    unfold Voxel.weight
    have htotal : held.observations + (Voxel.single (⟨0, 0, 0⟩ : Vec3 Float32) .empty).observations = 0 := hzero
    rw [htotal]
    rfl
  rw [hweight]
  decide +kernel

end VoxelMap

end StereoMapping
