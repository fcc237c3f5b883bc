import Mathlib.Analysis.Matrix.Order
import StereoMapping.Proofs.Correspondence.PairTable
import StereoMapping.Proofs.Geometry.Alignment
import StereoMapping.Proofs.Number.Stored
import StereoMapping.Proofs.Window.Links

/-!
# `Proofs.Window.PoseChain` — the poses of a window without noise

A window is free of noise if every valid correspondence of two of its cameras joins what both see of one point
of space. The motion between two such cameras is then one that alignment recovers (`Proofs.Geometry.Alignment`),
whichever of the usable older cameras a camera is linked to, and the chain of the poses telescopes to the true
ones. A camera without any usable older one leaves the window without poses.

Storage scalars are left open here: how correspondences are stored, and which of them are invalid, has no part
in it. Only the working scalars are the real numbers.

## Contents
- `PoseChain.Usable`: which cameras can be linked in exact arithmetic.
- `PoseChain.NoiseFree`, `PoseChain.Factored`: what is asked of a window and of the decomposition.
- `PoseChain.link?_exact`: the link of one camera.
- `PoseChain.Chained.Tracks`, with its step `extend?_tracks`; `ofTable?_tracks`, `ofTable?_eq_none`.
- `estimateWindow_noiseFree`: the estimate of a window without noise; a window of three cameras.
-/

namespace StereoMapping

open Matrix

/-! ## Motions between cameras -/

/-- The motion between two cameras, from their poses. -/
theorem Pose.exists_between {p q : Pose ℝ} {f h : RigidMotion} (hp : p.rigid? = some f) (hq : q.rigid? = some h) :
    ∃ (m : Motion ℝ) (hm : m.rotation.normSquared = 1), m.rigid hm = h⁻¹ * f := by
  obtain ⟨a, ha, _, rfl⟩ := Pose.exists_toMotion? hp
  obtain ⟨b, hb, _, rfl⟩ := Pose.exists_toMotion? hq
  have hinverse : b.inverse.rotation.normSquared = 1 := (Quaternion.normSquared_conjugate _).trans hb
  refine ⟨b.inverse * a, (Quaternion.normSquared_mul _ _).trans (by rw [hinverse, ha, one_mul]), ?_⟩
  rw [Motion.rigid_mul hinverse ha, Motion.rigid_inverse]

/-- The identity is the motion of the oldest camera in its own frame. -/
theorem Motion.exists_rigid_identity : ∃ h : (Motion.identity : Motion ℝ).rotation.normSquared = 1,
    Motion.identity.rigid h = 1 := by
  refine ⟨by simp [Motion.identity, Quaternion.identity, Quaternion.normSquared_eq], RigidMotion.ext ?_⟩
  intro p
  show Quaternion.identity.rotate p + Vec3.zero = p
  rw [Quaternion.rotate_identity]
  ext <;> exact add_zero _

section Estimate

variable {S : Type} [Scalar S] [Precision S ℝ] [Decomposing ℝ]

namespace PoseChain

variable {table : WindowTable S} {minPairs : Nat} {g : Nat → RigidMotion}

/-! ## Links -/

/-- Two cameras that can be linked: they have enough valid correspondences, and these determine a motion. -/
structure Usable (table : WindowTable S) (minPairs camera older : Nat) : Prop where
  enough : minPairs ≤ (pairsOf table camera older : PointPairs ℝ).length
  determinate : Alignment.Determinate (pairsOf table camera older)

/-- No others can be linked. -/
theorem usable_of_linkable {camera older : Nat} (h : Linkable ℝ table minPairs camera older) :
    Usable table minPairs camera older := by
  refine ⟨(length_pairsOf table camera older).symm ▸ h.enough, ?_⟩
  by_contra hindeterminate
  have haligned := h.aligned
  rw [Alignment.align?_eq_none hindeterminate] at haligned
  cases haligned

theorem linkTo?_eq_none {camera older : Nat} (h : ¬ Usable table minPairs camera older) :
    linkTo? (D := ℝ) table minPairs camera older = none :=
  linkTo?_eq_none_iff.mpr fun hlinkable => h (usable_of_linkable hlinkable)

/-! ## Windows without noise -/

/-- **A window without noise**: the cameras have poses, and every valid correspondence joins what two of them see
of one point of space. -/
structure NoiseFree (table : WindowTable S) (g : Nat → RigidMotion) : Prop where
  posed : ∀ camera < table.cameras, ∃ pose : Pose ℝ, pose.rigid? = some (g camera)
  seen : ∀ camera older, camera < older → older < table.cameras →
    ∀ pair ∈ (pairsOf table camera older : PointPairs ℝ),
      ∃ point, pair = ((g camera)⁻¹.1 point, (g older)⁻¹.1 point)

/-- The decompositions that alignment asks for, of three pairs or more, are right. -/
def Factored (table : WindowTable S) : Prop :=
  ∀ camera older, camera < older → older < table.cameras → 3 ≤ (pairsOf table camera older : PointPairs ℝ).length →
    (Alignment.factors (pairsOf table camera older)).Factors (Alignment.crossCovariance (pairsOf table camera older))

/-- A link that is as it should be: to an older camera, by the true motion, without error. -/
structure Link.IsExact (link : Link ℝ) (n : Nat) (g : Nat → RigidMotion) (camera : Nat) : Prop where
  newer : camera < link.older
  inside : link.older < n
  motion : ∃ h : link.motion.rotation.normSquared = 1, link.motion.rigid h = (g link.older)⁻¹ * g camera
  rms : link.rms = 0

/-- **Every link of a window without noise is exact**, whichever older camera it goes to. -/
theorem linkTo?_exact (hfree : NoiseFree table g) (hfactored : Factored table) {camera older : Nat}
    (hlt : camera < older) (hwindow : older < table.cameras) (h : Usable table minPairs camera older) :
    ∃ link, linkTo? table minPairs camera older = some link ∧ link.IsExact table.cameras g camera := by
  obtain ⟨p, hp⟩ := hfree.posed camera (Nat.lt_trans hlt hwindow)
  obtain ⟨q, hq⟩ := hfree.posed older hwindow
  obtain ⟨m, hm, hbetween⟩ := Pose.exists_between hp hq
  have hpairs (f : Motion ℝ) (hf : f.rotation.normSquared = 1) (hrigid : f.rigid hf = (g older)⁻¹ * g camera) :
      ∀ pair ∈ (pairsOf table camera older : PointPairs ℝ), pair.2 = f.apply pair.1 := by
    intro pair hmem
    obtain ⟨point, rfl⟩ := hfree.seen camera older hlt hwindow pair hmem
    have hmove : f.apply ((g camera)⁻¹.1 point) = ((g older)⁻¹ * g camera).1 ((g camera)⁻¹.1 point) := by
      rw [← hrigid]
      rfl
    rw [hmove]
    show (g older)⁻¹.1 point = (g older)⁻¹.1 ((g camera).1 ((g camera)⁻¹.1 point))
    exact congrArg _ ((g camera).1.apply_symm_apply point).symm
  obtain ⟨n, hn, halign, hrigid⟩ := Alignment.align?_moved hm (hpairs m hm hbetween) h.determinate
    (hfactored camera older hlt hwindow h.determinate.three_le)
  have hmotion := hrigid.trans hbetween
  refine ⟨⟨older, n, 0, (pairsOf table camera older : PointPairs ℝ).length⟩, ?_, hlt, hwindow, ⟨hn, hmotion⟩, rfl⟩
  unfold linkTo?
  dsimp only
  rw [if_neg (Nat.not_lt.mpr h.enough), halign, Option.map_some, Alignment.rmsError_moved (hpairs n hn hmotion)]

/-- A camera with a usable older one has an exact link. -/
theorem link?_exact (hfree : NoiseFree table g) (hfactored : Factored table) {camera : Nat}
    (hcamera : camera + 1 < table.cameras)
    (h : ∃ older, camera < older ∧ older < table.cameras ∧ Usable table minPairs camera older) :
    ∃ link, link? table minPairs camera = some link ∧ link.IsExact table.cameras g camera := by
  cases hlink : link? (D := ℝ) table minPairs camera with
  | none =>
    unfold link? at hlink
    rw [List.findSome?_eq_none_iff] at hlink
    obtain ⟨older, hlt, hwindow, husable⟩ := h
    obtain ⟨link, hsome, _⟩ := linkTo?_exact hfree hfactored hlt hwindow husable
    rw [hlink older ((mem_candidates hcamera).mpr ⟨hlt, hwindow⟩)] at hsome
    cases hsome
  | some link =>
    refine ⟨link, rfl, ?_⟩
    unfold link? at hlink
    obtain ⟨older, hmem, hsome⟩ := List.exists_of_findSome?_eq_some hlink
    obtain ⟨hlt, hwindow⟩ := (mem_candidates hcamera).mp hmem
    -- whichever candidate is taken, it is a usable one, and all of those are exact
    by_cases husable : Usable table minPairs camera older
    · obtain ⟨exact, hmade, hexactLink⟩ := linkTo?_exact hfree hfactored hlt hwindow husable
      rw [hmade] at hsome
      rw [← Option.some.inj hsome]
      exact hexactLink
    · rw [linkTo?_eq_none husable] at hsome
      cases hsome

/-! ## The chain -/

/-- The chain has the true poses of the cameras from one camera on, in the frame of the oldest camera. -/
structure Chained.Tracks (chain : Chained ℝ) (n : Nat) (g : Nat → RigidMotion) (camera : Nat) : Prop where
  length_eq : chain.poses.length = n - camera
  poses_eq : ∀ k, camera ≤ k → k < n → ∃ (m : Motion ℝ) (h : m.rotation.normSquared = 1),
    chain.poses[k - camera]? = some m ∧ m.rigid h = (g (n - 1))⁻¹ * g k
  last_eq : chain.poses.getLast? = some .identity
  squaredError_eq : chain.squaredError = 0

omit [Decomposing ℝ] in
/-- The chain of the oldest camera alone. -/
theorem tracks_oldest {n : Nat} (h : 0 < n) :
    Chained.Tracks ⟨[Motion.identity], 0, 0⟩ n g (n - 1) := by
  obtain ⟨hunit, hidentity⟩ := Motion.exists_rigid_identity
  refine ⟨?_, ?_, rfl, rfl⟩
  · show 1 = n - (n - 1)
    omega
  · intro k hle hlt
    obtain rfl : k = n - 1 := by omega
    refine ⟨.identity, hunit, ?_, ?_⟩
    · rw [Nat.sub_self]
      rfl
    · rw [hidentity, inv_mul_cancel]

/-- **One more camera.** -/
theorem extend?_tracks (hfree : NoiseFree table g) (hfactored : Factored table) {chain : Chained ℝ} {camera : Nat}
    (hcamera : camera + 1 < table.cameras)
    (husable : ∃ older, camera < older ∧ older < table.cameras ∧ Usable table minPairs camera older)
    (h : chain.Tracks table.cameras g (camera + 1)) :
    ∃ next, extend? table minPairs chain camera = some next ∧ next.Tracks table.cameras g camera := by
  obtain ⟨link, hlink, hexact⟩ := link?_exact hfree hfactored hcamera husable
  obtain ⟨base, hbase, hfound, hplace⟩ := h.poses_eq link.older hexact.newer hexact.inside
  obtain ⟨hmotion, hbetween⟩ := hexact.motion
  have hunit : (base * link.motion).rotation.normSquared = 1 :=
    (Quaternion.normSquared_mul _ _).trans (by rw [hbase, hmotion, one_mul])
  -- the pose of the older camera cancels: this is all the chain does
  have htrue : (base * link.motion).rigid hunit = (g (table.cameras - 1))⁻¹ * g camera := by
    rw [Motion.rigid_mul hbase hmotion, hplace, hbetween, mul_assoc, mul_inv_cancel_left]
  refine ⟨_, extend?_eq_some hlink hfound, ?_, ?_, ?_, ?_⟩
  · show chain.poses.length + 1 = table.cameras - camera
    rw [h.length_eq]
    omega
  · intro k hle hlt
    by_cases hnew : k = camera
    · subst hnew
      refine ⟨_, hunit, ?_, htrue⟩
      rw [Nat.sub_self]
      rfl
    · obtain ⟨m, hm, hold, hrigid⟩ := h.poses_eq k (by omega) hlt
      exact ⟨m, hm, (chain.getElem?_withLink link base (by omega)).trans hold, hrigid⟩
  · show (base * link.motion :: chain.poses).getLast? = some .identity
    rw [List.getLast?_cons, h.last_eq]
    rfl
  · show chain.squaredError + link.rms * link.rms * Scalar.ofNat link.pairs = 0
    rw [h.squaredError_eq, hexact.rms]
    simp

/-- A window in which every camera but the oldest can be linked has its chain. -/
theorem ofTable?_tracks (hwindow : 2 ≤ table.cameras) (hfree : NoiseFree table g) (hfactored : Factored table)
    (husable : ∀ camera, camera + 1 < table.cameras →
      ∃ older, camera < older ∧ older < table.cameras ∧ Usable table minPairs camera older) :
    ∃ chain, ofTable? table minPairs = some chain ∧ chain.Tracks table.cameras g 0 := by
  refine exists_ofTable? (fun camera chain => chain.Tracks table.cameras g camera) hwindow
    (tracks_oldest (by omega)) ?_
  intro camera hcamera chain h
  exact extend?_tracks hfree hfactored hcamera (husable camera hcamera) h

/-- A window in which some other camera cannot be linked has none. -/
theorem ofTable?_eq_none {camera : Nat} (hcamera : camera + 1 < table.cameras)
    (h : ∀ older, camera < older → older < table.cameras → ¬ Usable table minPairs camera older) :
    ofTable? (D := ℝ) table minPairs = none := by
  rw [ofTable?_eq_none_iff]
  right
  refine ⟨camera, hcamera, ?_⟩
  intro older hnewer hinside hlinkable
  exact h older hnewer hinside (usable_of_linkable hlinkable)

end PoseChain

/-! ## The estimate -/

/-- **The true poses**: one for each of the `n` cameras, each in the frame of the oldest camera, whose own pose is the
identity, with no error. -/
structure WindowEstimate.Recovers (e : WindowEstimate S ℝ) (n : Nat) (g : Nat → RigidMotion) : Prop where
  success_eq : e.success = true
  error_eq : e.error = narrow (0 : ℝ)
  length_eq : e.poses.length = n
  pose_eq : ∀ k < n, ∃ pose, e.poses[k]? = some pose ∧ pose.rigid? = some ((g (n - 1))⁻¹ * g k)
  oldest_eq : e.poses.getLast? = some Pose.identity

omit [Scalar S] [Decomposing ℝ] in
/-- The poses of a chain that tracks the cameras. -/
theorem PoseChain.Chained.Tracks.recovers {chain : Chained ℝ} {n : Nat} {g : Nat → RigidMotion}
    (h : chain.Tracks n g 0) :
    WindowEstimate.Recovers (⟨chain.poses.map .ofMotion, true, narrow (0 : ℝ)⟩ : WindowEstimate S ℝ) n g := by
  refine ⟨rfl, rfl, ?_, ?_, ?_⟩
  · rw [List.length_map, h.length_eq, Nat.sub_zero]
  · intro k hk
    obtain ⟨m, hm, hfound, hrigid⟩ := h.poses_eq k (Nat.zero_le k) hk
    refine ⟨.ofMotion m, ?_, ?_⟩
    · rw [List.getElem?_map, ← Nat.sub_zero k, hfound, Option.map_some]
    · rw [Pose.rigid?_ofMotion hm, hrigid]
  · rw [List.getLast?_map, h.last_eq]
    rfl

open PoseChain in
/-- **A window without noise is recovered**, if every camera but the oldest has some older one with which it is linked.
If one of them has none, there is no success, and no poses. The bound on the error must admit no error at all, as the
check of the settings makes sure. -/
theorem estimateWindow_noiseFree (settings : AlignmentSettings S) {table : WindowTable S} {g : Nat → RigidMotion}
    (hwindow : 2 ≤ table.cameras) (hfree : NoiseFree table g) (hfactored : Factored table)
    (hbound : Scalar.lt settings.maxError (narrow (0 : ℝ)) = false) :
    ((∀ camera, camera + 1 < table.cameras →
        ∃ older, camera < older ∧ older < table.cameras ∧ Usable table settings.minPairs camera older) →
      (estimateWindow settings table).Recovers table.cameras g) ∧
    ((∃ camera, camera + 1 < table.cameras ∧
        ∀ older, camera < older → older < table.cameras → ¬ Usable table settings.minPairs camera older) →
      estimateWindow (D := ℝ) settings table = ⟨[], false, Scalar.infinity⟩) := by
  constructor
  · intro husable
    obtain ⟨chain, hwhole, htracks⟩ := ofTable?_tracks hwindow hfree hfactored husable
    have hrms : Scalar.sqrt (chain.squaredError / Scalar.ofNat (max chain.pairs 1)) = 0 := by
      rw [htracks.squaredError_eq, zero_div, Scalar.real_sqrt, Real.sqrt_zero]
    have hestimate : estimateWindow settings table = ⟨chain.poses.map .ofMotion, true, narrow (0 : ℝ)⟩ := by
      unfold estimateWindow
      rw [hwhole]
      simp only [hrms, hbound]
      rfl
    rw [hestimate]
    exact htracks.recovers
  · rintro ⟨camera, hcamera, hnone⟩
    unfold estimateWindow
    rw [ofTable?_eq_none hcamera hnone]

end Estimate

/-! ### A window whose newest camera skips its predecessor

Three cameras, the newest of which has no valid correspondence with its predecessor. With the oldest one, both see four
points of a plane, so that the last value of the decomposition is zero; it is chosen so that the rotation is first a
reflection. -/

namespace PoseChain

/-- Four points of a plane. -/
def plane : List (Vec3 ℝ) := [⟨1, 0, 0⟩, ⟨-1, 0, 0⟩, ⟨0, 1, 0⟩, ⟨0, -1, 0⟩]

/-- Their covariance: the plane stretched, and nothing across it. -/
noncomputable def planeStretch : Vec3 ℝ := ⟨Scalar.two, Scalar.two, 0⟩

/-- What a camera and the oldest one see of the points. -/
noncomputable def sightings (m : Motion ℝ) : PointPairs ℝ := plane.map fun p => (m.inverse.apply p, p)

/-- The same as correspondences, one of which is none. -/
noncomputable def seenPlane (m : Motion ℝ) : Correspondences (Vec3 Stored) Stored :=
  (⟨.invalid, .invalid, 1⟩ :: (sightings m).map fun pair => ⟨pair.1.narrow, pair.2.narrow, 1⟩).toArray

/-- The cameras: the newest one turned over and moved up, its predecessor moved aside. -/
noncomputable def moved : Nat → Motion ℝ
  | 0 => ⟨⟨1, 0, 0, 0⟩, ⟨0, 0, 1⟩⟩
  | 1 => ⟨.identity, ⟨1, 0, 0⟩⟩
  | _ => .identity

/-- The window of the three cameras has no correspondences of the two newest ones. -/
noncomputable def skipping : WindowTable Stored := ⟨3, #[#[], seenPlane (moved 0), seenPlane (moved 1)]⟩

theorem pairsOf_skipping {camera : Nat} (h : camera < 2) :
    (pairsOf skipping camera 2 : PointPairs ℝ) = sightings (moved camera) := by
  have hget : skipping.get camera 2 = .ok (seenPlane (moved camera)) := by
    obtain rfl | rfl : camera = 0 ∨ camera = 1 := by omega
    · rfl
    · rfl
  unfold pairsOf
  rw [hget]
  rfl

theorem toVec_planeStretch : planeStretch.toVec = ![2, 2, 0] := by
  simp [planeStretch, Vec3.toVec]

theorem centroid_plane : Alignment.centroid plane = Vec3.zero := by
  apply Vec3.toVec_injective
  rw [Alignment.toVec_centroid]
  funext i
  fin_cases i <;> simp [plane, Vec3.toVec, Vec3.zero]

/-- The cross-covariance is the covariance of the points, turned. -/
theorem crossCovariance_sightings (m : Motion ℝ) :
    Alignment.crossCovariance (sightings m) = m.rotation.conjugate.matrix * Mat3.diagonal planeStretch := by
  have hsources : (sightings m).map Prod.fst = plane.map m.inverse.apply := List.map_map
  have hsinks : (sightings m).map Prod.snd = plane := by
    unfold sightings
    rw [List.map_map]
    exact List.map_id plane
  -- a point seen from a camera, less the centre, is the point turned back
  have hcentred (p : Vec3 ℝ) :
      Mat3.outer (m.inverse.apply p - m.inverse.apply .zero) (p - .zero)
        = m.rotation.conjugate.matrix * Mat3.outer p p := by
    have hturned : m.inverse.apply p - m.inverse.apply .zero = m.rotation.conjugate.rotate p := by
      simp only [Motion.apply_eq, Motion.inverse, Quaternion.rotate_eq, Vec3.zero, Vec3.add_def, Vec3.sub_def]
      ext <;> ring
    have hplace : p - .zero = p := by
      ext <;> exact sub_zero _
    apply Mat3.toMatrix_injective
    rw [hturned, hplace, Mat3.toMatrix_mul, Mat3.toMatrix_outer, Mat3.toMatrix_outer, mul_vecMulVec,
      Quaternion.mulVec_matrix]
  have hstretch : Mat3.zero + Mat3.outer ⟨1, 0, 0⟩ ⟨1, 0, 0⟩ + Mat3.outer ⟨-1, 0, 0⟩ ⟨-1, 0, 0⟩
      + Mat3.outer ⟨0, 1, 0⟩ ⟨0, 1, 0⟩ + Mat3.outer ⟨0, -1, 0⟩ ⟨0, -1, 0⟩ = Mat3.diagonal planeStretch := by
    apply Mat3.toMatrix_injective
    rw [Mat3.toMatrix_diagonal, toVec_planeStretch]
    ext i j
    fin_cases i <;> fin_cases j <;> norm_num [Vec3.toVec, vecMulVec_apply]
  unfold Alignment.crossCovariance
  rw [hsources, hsinks, Alignment.centroid_map _ (by simp [plane]), centroid_plane]
  show Mat3.zero + Mat3.outer (m.inverse.apply ⟨1, 0, 0⟩ - m.inverse.apply .zero) (⟨1, 0, 0⟩ - .zero)
    + Mat3.outer (m.inverse.apply ⟨-1, 0, 0⟩ - m.inverse.apply .zero) (⟨-1, 0, 0⟩ - .zero)
    + Mat3.outer (m.inverse.apply ⟨0, 1, 0⟩ - m.inverse.apply .zero) (⟨0, 1, 0⟩ - .zero)
    + Mat3.outer (m.inverse.apply ⟨0, -1, 0⟩ - m.inverse.apply .zero) (⟨0, -1, 0⟩ - .zero) = _
  rw [hcentred, hcentred, hcentred, hcentred, ← hstretch]
  apply Mat3.toMatrix_injective
  simp only [Mat3.toMatrix_add, Mat3.toMatrix_mul, Mat3.toMatrix_zero, Matrix.mul_add, Matrix.mul_zero]

/-- Factors of the covariance, turned. The last axis is reversed, which makes `v * uᵀ` a reflection. -/
noncomputable def turnedFactors (q : Quaternion ℝ) : SingularValues ℝ :=
  ⟨q.matrix * Mat3.diagonal ⟨1, 1, -1⟩, planeStretch, .identity⟩

theorem turnedFactors_factors {q : Quaternion ℝ} (h : q.normSquared = 1) :
    (turnedFactors q).Factors (q.matrix * Mat3.diagonal planeStretch) := by
  -- the plane has no extent along the third axis, so its sense is free
  have hreversed : diagonal (⟨1, 1, -1⟩ : Vec3 ℝ).toVec * diagonal planeStretch.toVec
      = diagonal planeStretch.toVec := by
    rw [toVec_planeStretch]
    ext i j
    fin_cases i <;> fin_cases j <;> simp [Vec3.toVec]
  have htwice : diagonal (⟨1, 1, -1⟩ : Vec3 ℝ).toVec * diagonal (⟨1, 1, -1⟩ : Vec3 ℝ).toVec = 1 := by
    ext i j
    fin_cases i <;> fin_cases j <;> simp [Vec3.toVec]
  refine ⟨?_, ?_, ?_, le_refl _, ?_, le_refl _⟩
  · apply Mat3.toMatrix_injective
    simp [turnedFactors, Matrix.mul_assoc, hreversed]
  · apply Mat3.toMatrix_injective
    calc ((turnedFactors q).u.transpose * (turnedFactors q).u).toMatrix
        = diagonal (⟨1, 1, -1⟩ : Vec3 ℝ).toVec * (q.matrix.toMatrixᵀ * q.matrix.toMatrix)
            * diagonal (⟨1, 1, -1⟩ : Vec3 ℝ).toVec := by
          simp only [turnedFactors, Mat3.toMatrix_mul, Mat3.toMatrix_transpose, Mat3.toMatrix_diagonal,
            transpose_mul, diagonal_transpose, Matrix.mul_assoc]
      _ = Mat3.identity.toMatrix := by
          rw [Quaternion.transpose_mul_matrix h, Matrix.mul_one, htwice, Mat3.toMatrix_identity]
  · apply Mat3.toMatrix_injective
    simp [turnedFactors]
  · show (0 : ℝ) ≤ Scalar.two
    simp

open Classical in
/-- A decomposition that knows these matrices. -/
noncomputable local instance : Decomposing ℝ where
  decompose h :=
    if hq : ∃ q : Quaternion ℝ, q.normSquared = 1 ∧ q.matrix * Mat3.diagonal planeStretch = h then
      turnedFactors hq.choose
    else ⟨.identity, .zero, .identity⟩

theorem decompose_turned {q : Quaternion ℝ} (h : q.normSquared = 1) :
    ∃ p : Quaternion ℝ, Decomposing.decompose (q.matrix * Mat3.diagonal planeStretch) = turnedFactors p ∧
      (turnedFactors p).Factors (q.matrix * Mat3.diagonal planeStretch) := by
  have hq : ∃ p : Quaternion ℝ, p.normSquared = 1 ∧
      p.matrix * Mat3.diagonal planeStretch = q.matrix * Mat3.diagonal planeStretch := ⟨q, h, rfl⟩
  refine ⟨hq.choose, dif_pos hq, ?_⟩
  obtain ⟨hunit, hsame⟩ := hq.choose_spec
  generalize hq.choose = p at hunit hsame
  rw [← hsame]
  exact turnedFactors_factors hunit

theorem moved_unit (camera : Nat) : (moved camera).rotation.normSquared = 1 := by
  match camera with
  | 0 | 1 | _ + 2 => simp [moved, Motion.identity, Quaternion.identity, Quaternion.normSquared_eq]

theorem determinate_sightings {m : Motion ℝ} (h : m.rotation.normSquared = 1) :
    Alignment.Determinate (sightings m) ∧
      (Alignment.factors (sightings m)).Factors (Alignment.crossCovariance (sightings m)) := by
  obtain ⟨p, hp, hfactors⟩ := decompose_turned ((Quaternion.normSquared_conjugate _).trans h)
  have hdecompose : Alignment.factors (sightings m) = turnedFactors p := by
    rw [← hp, ← crossCovariance_sightings]
    rfl
  refine ⟨⟨?_, ?_, ?_⟩, ?_⟩
  · show 3 ≤ 4
    decide
  · rw [hdecompose]
    show (0 : ℝ) < Scalar.two
    simp
  · rw [hdecompose]
    show 1 / ((1000000000 : Nat) : ℝ) * Scalar.two < Scalar.two
    rw [Scalar.real_two]
    norm_num
  · rw [hdecompose, crossCovariance_sightings]
    exact hfactors

theorem pairsOf_skipping_newest : (pairsOf skipping 0 1 : PointPairs ℝ) = [] := by
  have hget : skipping.get 0 1 = .ok #[] := rfl
  unfold pairsOf
  rw [hget]
  rfl

theorem skipping_cases {camera older : Nat} (hlt : camera < older) (hwindow : older < skipping.cameras) :
    older = 2 ∨ (camera = 0 ∧ older = 1) := by
  have hthree : older < 3 := hwindow
  omega

theorem noiseFree_skipping : NoiseFree skipping fun camera => (moved camera).rigid (moved_unit camera) := by
  constructor
  · intro camera _
    exact ⟨.ofMotion (moved camera), Pose.rigid?_ofMotion (moved_unit camera)⟩
  · intro camera older hlt hwindow pair hmem
    rcases skipping_cases hlt hwindow with rfl | ⟨rfl, rfl⟩
    · rw [pairsOf_skipping hlt] at hmem
      obtain ⟨point, _, rfl⟩ := List.mem_map.mp hmem
      obtain ⟨hunit, hidentity⟩ := Motion.exists_rigid_identity
      refine ⟨point, Prod.ext rfl ?_⟩
      show point = ((Motion.identity.rigid hunit)⁻¹ : RigidMotion).1 point
      rw [hidentity, inv_one]
      rfl
    · rw [pairsOf_skipping_newest] at hmem
      cases hmem

theorem factored_skipping : Factored skipping := by
  intro camera older hlt hwindow hthree
  rcases skipping_cases hlt hwindow with rfl | ⟨rfl, rfl⟩
  · rw [pairsOf_skipping hlt]
    exact (determinate_sightings (moved_unit camera)).2
  · rw [pairsOf_skipping_newest] at hthree
    exact absurd hthree (by decide)

theorem estimateWindow_skipping :
    2 ≤ skipping.cameras ∧ NoiseFree skipping (fun camera => (moved camera).rigid (moved_unit camera)) ∧
    Factored skipping ∧ Scalar.lt (0 : Stored) (narrow (0 : ℝ)) = false ∧ ¬ Usable skipping 3 0 1 ∧
    (∀ camera, camera + 1 < 3 → Usable skipping 3 camera 2) ∧
    (estimateWindow ⟨3, 0⟩ skipping).Recovers 3 fun camera => (moved camera).rigid (moved_unit camera) := by
  have hbound : Scalar.lt (0 : Stored) (narrow (0 : ℝ)) = false := by
    show Scalar.lt (0 : ℝ) 0 = false
    rw [Bool.eq_false_iff, ne_eq, Scalar.real_lt]
    exact lt_irrefl 0
  have hunusable : ¬ Usable skipping 3 0 1 := by
    intro h
    have hthree := h.determinate.three_le
    rw [pairsOf_skipping_newest] at hthree
    exact absurd hthree (by decide)
  have husable : ∀ camera, camera + 1 < 3 → Usable skipping 3 camera 2 := by
    intro camera hcamera
    have hpairs := pairsOf_skipping (Nat.lt_of_succ_lt_succ hcamera)
    refine ⟨?_, ?_⟩
    · rw [hpairs]
      show 3 ≤ 4
      decide
    · rw [hpairs]
      exact (determinate_sightings (moved_unit camera)).1
  refine ⟨by decide, noiseFree_skipping, factored_skipping, hbound, hunusable, husable, ?_⟩
  exact (estimateWindow_noiseFree ⟨3, 0⟩ (by decide) noiseFree_skipping factored_skipping hbound).1
    (fun camera hcamera => ⟨2, Nat.lt_of_succ_lt_succ hcamera, by decide, husable camera hcamera⟩)

end PoseChain

end StereoMapping
