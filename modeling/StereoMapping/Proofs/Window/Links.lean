import Mathlib.Algebra.Ring.Nat
import StereoMapping.Proofs.Sorting
import StereoMapping.Window.PoseChain

/-!
# `Proofs.Window.Links` — which older camera a camera is linked to

The candidates of a camera are tried one after the other: its predecessor, then the other older cameras by falling
support, the newer first of equally supported ones. The last rule is nowhere in the comparison that they are sorted by;
it holds because the sort is stable (`Proofs.Sorting`) and the cameras are listed from the newest on. The first
candidate that can be linked is then the best one of those that can, whatever made the ones before it fail.

The poses are made from the oldest camera to the newest. A camera that is linked to an older one takes its pose from
that one's, which is already there; one that cannot be linked leaves no poses at all. Nothing here depends on the
scalars.

## Contents
- `PoseChain.Linkable`, `PoseChain.Chosen`: what a link needs, and which one is chosen; `Chosen.unique`.
- `PoseChain.no_better_of_later`: in which order the candidates are tried.
- `PoseChain.link?_eq_none_iff`, `PoseChain.link?_chosen`: the link of one camera.
- `PoseChain.exists_ofTable?`: what each camera keeps holds of the chain of the window.
- `PoseChain.Chained.Covers`, with its step `extend?_covers`; `ofTable?_covers`.
- `PoseChain.LinkedBy`, `chain_links`: the chain of a window, and the estimate made of it.
-/

namespace StereoMapping

section Links

variable {S D : Type} [Scalar S] [Scalar D] [Precision S D] [Decomposing D]

namespace PoseChain

variable {table : WindowTable S} {minPairs : Nat}

/-! ## Candidates -/

omit [Scalar D] [Precision S D] [Decomposing D] in
/-- **Every older camera is tried**, and no other. -/
theorem mem_candidates {camera older : Nat} (h : camera + 1 < table.cameras) :
    older ∈ candidates table camera ↔ camera < older ∧ older < table.cameras := by
  unfold candidates
  rw [List.mem_cons, List.mem_mergeSort, List.mem_range'_1]
  omega

omit [Scalar D] [Decomposing D] in
/-- The support of a link is the number of its pairs. -/
theorem length_pairsOf (table : WindowTable S) (camera older : Nat) :
    (pairsOf table camera older : PointPairs D).length = support table camera older := by
  unfold pairsOf support
  split
  · exact List.length_map _
  · rfl

/-- Two cameras that can be linked: they have enough valid correspondences, and these determine a motion. -/
structure Linkable (D : Type) [Scalar D] [Precision S D] [Decomposing D] (table : WindowTable S)
    (minPairs camera older : Nat) : Prop where
  enough : minPairs ≤ support table camera older
  aligned : (Alignment.align? (pairsOf table camera older : PointPairs D)).isSome

/-- **The older camera that a camera is linked to**: of those that it can be linked to its predecessor, else the one
with the most valid correspondences, the newest of several. -/
structure Chosen (D : Type) [Scalar D] [Precision S D] [Decomposing D] (table : WindowTable S)
    (minPairs camera older : Nat) : Prop where
  newer : camera < older
  inside : older < table.cameras
  linkable : Linkable D table minPairs camera older
  predecessor : Linkable D table minPairs camera (camera + 1) → older = camera + 1
  best : ¬ Linkable D table minPairs camera (camera + 1) → ∀ other, camera < other → other < table.cameras →
    Linkable D table minPairs camera other →
      support table camera other ≤ support table camera older ∧
        (support table camera other = support table camera older → older ≤ other)

/-- There is only one. -/
theorem Chosen.unique {camera a b : Nat} (ha : Chosen D table minPairs camera a)
    (hb : Chosen D table minPairs camera b) : a = b := by
  by_cases h : Linkable D table minPairs camera (camera + 1)
  · rw [ha.predecessor h, hb.predecessor h]
  · have hab := ha.best h b hb.newer hb.inside hb.linkable
    have hba := hb.best h a ha.newer ha.inside ha.linkable
    have hsupport := Nat.le_antisymm hba.1 hab.1
    exact Nat.le_antisymm (hab.2 hsupport.symm) (hba.2 hsupport)

/-! ## Links -/

/-- The link of a camera to its older one, which the older camera and the motion tell. -/
def linkBy (table : WindowTable S) (camera older : Nat) (motion : Motion D) : Link D :=
  ⟨older, motion, Alignment.rmsError motion (support table camera older) (pairsOf table camera older),
    support table camera older⟩

theorem linkTo?_eq_some_iff {camera older : Nat} {link : Link D} :
    linkTo? table minPairs camera older = some link ↔ minPairs ≤ support table camera older ∧
      ∃ motion, Alignment.align? (pairsOf table camera older) = some motion ∧
        linkBy table camera older motion = link := by
  unfold linkTo? linkBy
  dsimp only
  rw [length_pairsOf]
  by_cases hfew : support table camera older < minPairs
  · rw [if_pos hfew]
    exact iff_of_false (Option.some_ne_none link).symm fun h => absurd h.1 (Nat.not_le.mpr hfew)
  · rw [if_neg hfew, Option.map_eq_some_iff]
    exact ⟨fun h => ⟨Nat.le_of_not_lt hfew, h⟩, fun h => h.2⟩

theorem linkTo?_isSome_iff {camera older : Nat} :
    (linkTo? (D := D) table minPairs camera older).isSome ↔ Linkable D table minPairs camera older := by
  rw [Option.isSome_iff_exists]
  constructor
  · rintro ⟨link, hlink⟩
    obtain ⟨henough, motion, hmotion, -⟩ := linkTo?_eq_some_iff.mp hlink
    exact ⟨henough, Option.isSome_iff_exists.mpr ⟨motion, hmotion⟩⟩
  · rintro ⟨henough, haligned⟩
    obtain ⟨motion, hmotion⟩ := Option.isSome_iff_exists.mp haligned
    exact ⟨_, linkTo?_eq_some_iff.mpr ⟨henough, motion, hmotion, rfl⟩⟩

theorem linkTo?_eq_none_iff {camera older : Nat} :
    linkTo? (D := D) table minPairs camera older = none ↔ ¬ Linkable D table minPairs camera older := by
  rw [← linkTo?_isSome_iff, Option.not_isSome_iff_eq_none]

/-- A camera has no link exactly if it can be linked to no older one. -/
theorem link?_eq_none_iff {camera : Nat} (hcamera : camera + 1 < table.cameras) :
    link? (D := D) table minPairs camera = none ↔
      ∀ older, camera < older → older < table.cameras → ¬ Linkable D table minPairs camera older := by
  unfold link?
  rw [List.findSome?_eq_none_iff]
  constructor
  · intro h older hnewer hinside
    exact linkTo?_eq_none_iff.mp (h older ((mem_candidates hcamera).mpr ⟨hnewer, hinside⟩))
  · intro h older hmem
    obtain ⟨hnewer, hinside⟩ := (mem_candidates hcamera).mp hmem
    exact linkTo?_eq_none_iff.mpr (h older hnewer hinside)

omit [Scalar D] [Precision S D] [Decomposing D] in
/-- **Candidates behind the predecessor are no better than those before them**: less supported, or older. -/
theorem no_better_of_later {camera first older other : Nat} {rest after : List Nat}
    (h : candidates table camera = first :: rest ++ older :: after) (hother : other ∈ after) :
    support table camera other ≤ support table camera older ∧
      (support table camera other = support table camera older → older ≤ other) := by
  unfold candidates at h
  rw [List.cons_append] at h
  obtain ⟨-, hsorted⟩ := List.cons.inj h
  have hincreasing : (List.range' (camera + 2) (table.cameras - (camera + 2))).Pairwise (· < ·) :=
    List.pairwise_lt_range'
  have hfalling := pairwise_mergeSort_falling (support table camera) hincreasing
  rw [hsorted] at hfalling
  obtain ⟨hsupport, htie⟩ := (List.pairwise_cons.mp (List.pairwise_append.mp hfalling).2.1).1 other hother
  exact ⟨hsupport, fun heq => Nat.le_of_lt (htie heq)⟩

/-- **The link of a camera goes to the chosen one.** -/
theorem link?_chosen {camera : Nat} {link : Link D} (hcamera : camera + 1 < table.cameras)
    (h : link? table minPairs camera = some link) :
    ∃ older motion, Chosen D table minPairs camera older ∧
      Alignment.align? (pairsOf table camera older) = some motion ∧ linkBy table camera older motion = link := by
  unfold link? at h
  obtain ⟨before, older, after, hcandidates, hlink, hbefore⟩ := List.findSome?_eq_some_iff.mp h
  have hmem : older ∈ candidates table camera := by
    rw [hcandidates]
    exact List.mem_append_right _ List.mem_cons_self
  obtain ⟨hnewer, hinside⟩ := (mem_candidates hcamera).mp hmem
  obtain ⟨-, motion, hmotion, hby⟩ := linkTo?_eq_some_iff.mp hlink
  have hlinkable := linkTo?_isSome_iff.mp (Option.isSome_iff_exists.mpr ⟨link, hlink⟩)
  have hfailed : ∀ other ∈ before, ¬ Linkable D table minPairs camera other := fun other hother =>
    linkTo?_eq_none_iff.mp (hbefore other hother)
  -- the predecessor is the first candidate
  have hfirst : (before ++ older :: after).head? = some (camera + 1) := by
    rw [← hcandidates]
    rfl
  refine ⟨older, motion, ⟨hnewer, hinside, hlinkable, ?_, ?_⟩, hmotion, hby⟩
  · intro hpredecessor
    cases before with
    | nil => exact Option.some.inj hfirst
    | cons first rest =>
      obtain rfl : first = camera + 1 := Option.some.inj hfirst
      exact absurd hpredecessor (hfailed _ List.mem_cons_self)
  · intro hunlinkable other hother hwindow hlinkableOther
    have hmemOther : other ∈ before ++ older :: after :=
      hcandidates ▸ (mem_candidates hcamera).mpr ⟨hother, hwindow⟩
    rcases List.mem_append.mp hmemOther with htried | hlater
    · exact absurd hlinkableOther (hfailed other htried)
    rcases List.mem_cons.mp hlater with rfl | hafter
    · exact ⟨Nat.le_refl _, fun _ => Nat.le_refl _⟩
    cases before with
    | nil =>
      obtain rfl : older = camera + 1 := Option.some.inj hfirst
      exact absurd hlinkable hunlinkable
    | cons first rest => exact no_better_of_later hcandidates hafter

theorem link?_between {camera : Nat} {link : Link D} (hcamera : camera + 1 < table.cameras)
    (h : link? table minPairs camera = some link) : camera < link.older ∧ link.older < table.cameras := by
  obtain ⟨older, motion, hchosen, -, rfl⟩ := link?_chosen hcamera h
  exact ⟨hchosen.newer, hchosen.inside⟩

/-! ## Runs over the cameras -/

/-- The chain with the pose of one newer camera in front, from that of the older one that it is linked to. -/
def Chained.withLink (chain : Chained D) (link : Link D) (base : Motion D) : Chained D where
  poses := base * link.motion :: chain.poses
  squaredError := chain.squaredError + link.rms * link.rms * Scalar.ofNat link.pairs
  pairs := chain.pairs + link.pairs

omit [Precision S D] [Decomposing D] in
/-- A pose in front moves the others one place back, as the cameras are then counted from one less. -/
theorem Chained.getElem?_withLink (chain : Chained D) (link : Link D) (base : Motion D) {camera k : Nat}
    (h : camera < k) : (chain.withLink link base).poses[k - camera]? = chain.poses[k - (camera + 1)]? := by
  have hplace : k - camera = k - (camera + 1) + 1 := by omega
  rw [hplace]
  rfl

theorem extend?_eq_some {chain : Chained D} {camera : Nat} {link : Link D} {base : Motion D}
    (hlink : link? table minPairs camera = some link)
    (hbase : chain.poses[link.older - (camera + 1)]? = some base) :
    extend? table minPairs chain camera = some (chain.withLink link base) := by
  unfold extend?
  rw [hlink]
  show (chain.poses[link.older - (camera + 1)]? >>= _) = _
  rw [hbase]
  rfl

/-- **All cameras from the oldest one down.** A property that holds of the oldest camera alone, and that each further
camera keeps, holds of the chain of the whole window, which there is then. -/
theorem exists_ofTable? (kept : Nat → Chained D → Prop) (hwindow : 2 ≤ table.cameras)
    (holdest : kept (table.cameras - 1) ⟨[.identity], 0, 0⟩)
    (hstep : ∀ camera, camera + 1 < table.cameras → ∀ chain, kept (camera + 1) chain →
      ∃ next, extend? table minPairs chain camera = some next ∧ kept camera next) :
    ∃ chain, ofTable? table minPairs = some chain ∧ kept 0 chain := by
  unfold ofTable?
  rw [if_neg (Nat.not_lt.mpr hwindow)]
  have hbound : ∀ camera < table.cameras - 1, camera + 1 < table.cameras := fun camera h => by omega
  generalize (⟨[.identity], 0, 0⟩ : Chained D) = chain at holdest ⊢
  generalize table.cameras - 1 = bound at holdest hbound ⊢
  -- on the number of cameras that are still to come, whatever the chain of the others
  induction bound generalizing chain with
  | zero => exact ⟨chain, rfl, holdest⟩
  | succ bound ih =>
    obtain ⟨next, hnext, hkept⟩ := hstep bound (hbound bound (Nat.lt_succ_self bound)) chain holdest
    rw [List.range_succ, List.reverse_append, List.reverse_singleton, List.singleton_append, List.foldlM_cons, hnext]
    exact ih next hkept fun camera hlt => hbound camera (Nat.lt_succ_of_lt hlt)

/-! ## The chain -/

/-- The number of correspondences behind the link of a camera. -/
def linkedPairs (D : Type) [Scalar D] [Precision S D] [Decomposing D] (table : WindowTable S) (minPairs camera : Nat) :
    Nat := ((link? table minPairs camera : Option (Link D)).map Link.pairs).getD 0

/-- The chain has the poses of the cameras from one camera on, each from its link, and the oldest one at the end. -/
structure Chained.Covers (chain : Chained D) (table : WindowTable S) (minPairs camera : Nat) : Prop where
  length_eq : chain.poses.length = table.cameras - camera
  last_eq : chain.poses.getLast? = some .identity
  pose_eq : ∀ k, camera ≤ k → k + 1 < table.cameras → ∃ link base, link? table minPairs k = some link ∧
    chain.poses[link.older - camera]? = some base ∧ chain.poses[k - camera]? = some (base * link.motion)
  pairs_eq : chain.pairs =
    ((List.range' camera (table.cameras - 1 - camera)).map (linkedPairs D table minPairs)).sum

/-- The chain of the oldest camera alone. -/
theorem covers_oldest (h : 0 < table.cameras) :
    Chained.Covers (D := D) ⟨[.identity], 0, 0⟩ table minPairs (table.cameras - 1) := by
  refine ⟨?_, rfl, ?_, ?_⟩
  · show 1 = table.cameras - (table.cameras - 1)
    omega
  · intro k hle hlt
    omega
  · rw [Nat.sub_self]
    rfl

/-- **One more camera**: there is a pose of the older one that it is linked to. -/
theorem extend?_covers {chain : Chained D} {camera : Nat} {link : Link D} (hcamera : camera + 1 < table.cameras)
    (hlink : link? table minPairs camera = some link) (h : chain.Covers table minPairs (camera + 1)) :
    ∃ next, extend? table minPairs chain camera = some next ∧ next.Covers table minPairs camera := by
  obtain ⟨hnewer, hinside⟩ := link?_between hcamera hlink
  have hheld : link.older - (camera + 1) < chain.poses.length := by
    rw [h.length_eq]
    omega
  obtain ⟨base, hbase⟩ : ∃ base, chain.poses[link.older - (camera + 1)]? = some base :=
    ⟨_, List.getElem?_eq_getElem hheld⟩
  refine ⟨_, extend?_eq_some hlink hbase, ?_, ?_, ?_, ?_⟩
  · show chain.poses.length + 1 = table.cameras - camera
    rw [h.length_eq]
    omega
  · show (base * link.motion :: chain.poses).getLast? = some .identity
    rw [List.getLast?_cons, h.last_eq]
    rfl
  · intro k hle hlt
    by_cases hnew : k = camera
    · subst hnew
      refine ⟨link, base, hlink, ?_, ?_⟩
      · exact (chain.getElem?_withLink link base hnewer).trans hbase
      · rw [Nat.sub_self]
        rfl
    · obtain ⟨other, held, hother, hheld, hpose⟩ := h.pose_eq k (by omega) hlt
      have hbehind := (link?_between hlt hother).1
      refine ⟨other, held, hother, ?_, ?_⟩
      · exact (chain.getElem?_withLink link base (by omega)).trans hheld
      · exact (chain.getElem?_withLink link base (by omega)).trans hpose
  · have hcount : linkedPairs D table minPairs camera = link.pairs := by
      unfold linkedPairs
      rw [hlink]
      rfl
    have hcameras : table.cameras - 1 - camera = (table.cameras - 1 - (camera + 1)) + 1 := by omega
    show chain.pairs + link.pairs = _
    rw [hcameras, List.range'_succ, List.map_cons, List.sum_cons, hcount, h.pairs_eq, Nat.add_comm]

/-- A camera that cannot be linked leaves the whole chain out. -/
theorem foldlM_eq_none {cameras : List Nat} {camera : Nat} (hmem : camera ∈ cameras)
    (h : link? (D := D) table minPairs camera = none) (chain : Chained D) :
    cameras.foldlM (extend? table minPairs) chain = none := by
  induction cameras generalizing chain with
  | nil => cases hmem
  | cons first rest ih =>
    rw [List.foldlM_cons]
    rcases List.mem_cons.mp hmem with rfl | hrest
    · unfold extend?
      rw [h]
      rfl
    · cases hnext : extend? table minPairs chain first with
      | none => rfl
      | some next => exact ih hrest next

theorem ofTable?_eq_none_of_link? {camera : Nat} (hcamera : camera + 1 < table.cameras)
    (h : link? (D := D) table minPairs camera = none) : ofTable? (D := D) table minPairs = none := by
  have hmem : camera ∈ (List.range (table.cameras - 1)).reverse := by
    rw [List.mem_reverse, List.mem_range]
    omega
  unfold ofTable?
  rw [foldlM_eq_none hmem h, ite_self]

/-- A window of which every camera but the oldest has a link has a chain. -/
theorem ofTable?_covers (hwindow : 2 ≤ table.cameras)
    (hlinks : ∀ camera, camera + 1 < table.cameras → ∃ link : Link D, link? table minPairs camera = some link) :
    ∃ chain : Chained D, ofTable? table minPairs = some chain ∧ chain.Covers table minPairs 0 := by
  refine exists_ofTable? (fun camera chain => chain.Covers table minPairs camera) hwindow
    (covers_oldest (by omega)) ?_
  intro camera hcamera chain h
  obtain ⟨link, hlink⟩ := hlinks camera hcamera
  exact extend?_covers hcamera hlink h

/-- **The poses of a window, made link by link**: as many as cameras, the last one the identity, and each other one the
pose of the chosen older camera, moved by the alignment of the correspondences with that one. The pairs counted are the
valid correspondences of the links. -/
structure LinkedBy (chain : Chained D) (table : WindowTable S) (minPairs : Nat) (older : Nat → Nat) : Prop where
  length_eq : chain.poses.length = table.cameras
  last_eq : chain.poses.getLast? = some .identity
  chosen : ∀ k, k + 1 < table.cameras → Chosen D table minPairs k (older k)
  pose_eq : ∀ k, k + 1 < table.cameras → ∃ base motion, chain.poses[older k]? = some base ∧
    Alignment.align? (pairsOf table k (older k)) = some motion ∧ chain.poses[k]? = some (base * motion)
  pairs_eq : chain.pairs = ((List.range (table.cameras - 1)).map fun k => support table k (older k)).sum

/-- A chain of all cameras is made link by link. -/
theorem Chained.Covers.linkedBy {chain : Chained D} (h : chain.Covers table minPairs 0) :
    ∃ older, LinkedBy chain table minPairs older := by
  -- the older camera of each link; whatever it is for the oldest camera, which has none
  let older (k : Nat) : Nat := ((link? table minPairs k : Option (Link D)).map Link.older).getD k
  have holder {k : Nat} {link : Link D} (hlink : link? table minPairs k = some link) : older k = link.older := by
    show ((link? table minPairs k : Option (Link D)).map Link.older).getD k = link.older
    rw [hlink]
    rfl
  refine ⟨older, h.length_eq, h.last_eq, ?_, ?_, ?_⟩
  · intro k hk
    obtain ⟨link, -, hlink, -, -⟩ := h.pose_eq k (Nat.zero_le k) hk
    obtain ⟨chosen, motion, hchosen, -, rfl⟩ := link?_chosen hk hlink
    rw [holder hlink]
    exact hchosen
  · intro k hk
    obtain ⟨link, base, hlink, hbase, hpose⟩ := h.pose_eq k (Nat.zero_le k) hk
    obtain ⟨chosen, motion, -, hmotion, rfl⟩ := link?_chosen hk hlink
    rw [holder hlink]
    exact ⟨base, motion, hbase, hmotion, hpose⟩
  · rw [h.pairs_eq, Nat.sub_zero, ← List.range_eq_range']
    congr 1
    apply List.map_congr_left
    intro k hmem
    have hk : k + 1 < table.cameras := by
      rw [List.mem_range] at hmem
      omega
    obtain ⟨link, -, hlink, -, -⟩ := h.pose_eq k (Nat.zero_le k) hk
    obtain ⟨chosen, motion, -, -, rfl⟩ := link?_chosen hk hlink
    unfold linkedPairs
    rw [hlink, holder hlink]
    rfl

/-- The chain of a window, if there is one, is made link by link. -/
theorem ofTable?_linkedBy {chain : Chained D} (h : ofTable? table minPairs = some chain) :
    ∃ older, LinkedBy chain table minPairs older := by
  have hwindow : 2 ≤ table.cameras := by
    apply Nat.le_of_not_lt
    intro hfew
    unfold ofTable? at h
    rw [if_pos hfew] at h
    cases h
  have hlinks : ∀ camera, camera + 1 < table.cameras → ∃ link : Link D, link? table minPairs camera = some link := by
    intro camera hcamera
    apply Option.ne_none_iff_exists'.mp
    intro hnone
    rw [ofTable?_eq_none_of_link? hcamera hnone] at h
    cases h
  obtain ⟨whole, hwhole, hcovers⟩ := ofTable?_covers hwindow hlinks
  rw [h] at hwhole
  rw [Option.some.inj hwhole]
  exact hcovers.linkedBy

/-- **A window has no chain exactly if it has less than two cameras, or one that can be linked to no older one.** -/
theorem ofTable?_eq_none_iff : ofTable? (D := D) table minPairs = none ↔ table.cameras < 2 ∨
    ∃ camera, camera + 1 < table.cameras ∧
      ∀ older, camera < older → older < table.cameras → ¬ Linkable D table minPairs camera older := by
  constructor
  · intro h
    apply Classical.byContradiction
    intro hno
    simp only [not_or, not_exists, not_and] at hno
    obtain ⟨chain, hchain, -⟩ := ofTable?_covers (D := D) (Nat.le_of_not_lt hno.1) (fun camera hcamera => by
      apply Option.ne_none_iff_exists'.mp
      rw [ne_eq, link?_eq_none_iff hcamera]
      exact hno.2 camera hcamera)
    rw [h] at hchain
    cases hchain
  · rintro (hfew | ⟨camera, hcamera, hnone⟩)
    · unfold ofTable?
      rw [if_pos hfew]
    · exact ofTable?_eq_none_of_link? hcamera ((link?_eq_none_iff hcamera).mpr hnone)

end PoseChain

/-! ## The estimate -/

open PoseChain

/-- Root mean square error of the links of a chain. -/
def PoseChain.Chained.rms (chain : Chained D) : S :=
  narrow (Scalar.sqrt (chain.squaredError / Scalar.ofNat (max chain.pairs 1)))

/-- **The estimate has the poses of the chain and success, or neither**: the latter if there is no chain, or its error
is above the bound. -/
theorem estimateWindow_cases (settings : AlignmentSettings S) (table : WindowTable S) :
    (∃ chain : Chained D, ofTable? table settings.minPairs = some chain ∧
      Scalar.lt settings.maxError chain.rms = false ∧ (estimateWindow settings table).success = true ∧
      (estimateWindow settings table).poses = chain.poses.map .ofMotion) ∨
    ((∀ chain : Chained D, ofTable? table settings.minPairs = some chain →
        Scalar.lt settings.maxError chain.rms = true) ∧
      (estimateWindow (D := D) settings table).success = false ∧
      (estimateWindow (D := D) settings table).poses = []) := by
  unfold estimateWindow
  cases hchain : (ofTable? table settings.minPairs : Option (Chained D)) with
  | none =>
    right
    refine ⟨?_, rfl, rfl⟩
    intro chain hsome
    cases hsome
  | some chain =>
    dsimp only
    by_cases hlarge : Scalar.lt settings.maxError chain.rms = true
    · right
      rw [Chained.rms] at hlarge
      rw [if_pos hlarge]
      refine ⟨?_, rfl, rfl⟩
      intro other hother
      rw [← Option.some.inj hother]
      exact hlarge
    · left
      have hsmall := Bool.eq_false_iff.mpr hlarge
      rw [Chained.rms] at hlarge
      rw [if_neg hlarge]
      exact ⟨chain, rfl, hsmall, rfl, rfl⟩

/-- **The cameras of a window are chained by their links.** There is no chain exactly if there are less than two cameras
or one of them, other than the oldest, can be linked to no older one. Otherwise every camera but the oldest has the pose
of one older camera, moved by the alignment of their valid correspondences: of its predecessor, if it can be linked to
that, else of the best supported one that it can be linked to, the newest of several. The estimate, written over
whatever was held before, has all these poses and success, or neither. -/
theorem chain_links (table : WindowTable S) (minPairs : Nat) :
    (ofTable? (D := D) table minPairs = none ↔ table.cameras < 2 ∨
      ∃ camera, camera + 1 < table.cameras ∧
        ∀ older, camera < older → older < table.cameras → ¬ Linkable D table minPairs camera older) ∧
    (∀ chain : Chained D, ofTable? table minPairs = some chain → ∃ older, LinkedBy chain table minPairs older) ∧
    ∀ (maxError : S) (held : WindowEstimate S D),
      (∃ chain : Chained D, ofTable? table minPairs = some chain ∧ Scalar.lt maxError chain.rms = false ∧
        (held.clear.fill ⟨minPairs, maxError⟩ table).success = true ∧
        (held.clear.fill ⟨minPairs, maxError⟩ table).poses = chain.poses.map .ofMotion) ∨
      ((∀ chain : Chained D, ofTable? table minPairs = some chain → Scalar.lt maxError chain.rms = true) ∧
        (held.clear.fill ⟨minPairs, maxError⟩ table).success = false ∧
        (held.clear.fill ⟨minPairs, maxError⟩ table).poses = []) := by
  refine ⟨ofTable?_eq_none_iff, fun chain => ofTable?_linkedBy, ?_⟩
  intro maxError held
  rw [WindowEstimate.fill_clear]
  exact estimateWindow_cases ⟨minPairs, maxError⟩ table

end Links

end StereoMapping
