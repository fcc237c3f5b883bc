import Mathlib.Analysis.Matrix.Order
import StereoMapping.Geometry.Alignment
import StereoMapping.Proofs.Geometry.Matrix

/-!
# `Proofs.Geometry.Alignment` — alignment finds the motion that made the pairs

Pairs whose sinks are the images of their sources under one motion are aligned by that motion. In exact
arithmetic, and with a decomposition that keeps its promise (`SingularValues.Factors`), `Alignment.align?`
returns it whenever it returns a motion at all.

The cross-covariance of such pairs is `a * rᵀ`, where `a` is the covariance of the sources, hence positive
semidefinite, and `r` is the rotation. With the factors `u`, `d`, `vt` of the cross-covariance, the orthogonal
matrix `w = vt * r * u` has the property that `d * w` is positive semidefinite, as `d` itself is, and has the same
square: the two are equal. So `w` is the identity in the first two axes, where `d` is positive, and in the last
axis it is what makes its determinant right. That is the correction by which `Alignment.rotationOf` goes from
`v * uᵀ` to a proper rotation, also when all points lie in a plane and the last value of `d` is zero.

## Contents
- `stretch_eq`, `eq_correction`: an orthogonal matrix that keeps a stretch positive semidefinite.
- `SingularValues.Factors`: what alignment relies on in a decomposition; `SingularValues.between`, the matrix `w`;
  `SingularValues.sense`, its determinant.
- `Alignment.toMatrix_rotationOf`, `Alignment.rotationOf_eq`: the rotation of the factors.
- `Alignment.centroid_map`, `Alignment.posSemidef_covariance`: moments of moved points.
- `Alignment.Determinate`, `Alignment.align?_moved`, `Alignment.rmsError_moved`.
-/

namespace StereoMapping

open Matrix
open scoped MatrixOrder

/-! ## Stretches and rotations -/

section Stretch

variable {d : Fin 3 → ℝ} {w : Matrix (Fin 3) (Fin 3) ℝ}

theorem det_mul_self_of_orthogonal (hw : w * wᵀ = 1) : w.det * w.det = 1 := by
  simpa using congrArg det hw

/-- A stretch followed by an orthogonal matrix is the stretch alone if it is positive semidefinite. -/
theorem stretch_eq (hd : 0 ≤ d) (hw : w * wᵀ = 1) (hpos : (diagonal d * w).PosSemidef) :
    diagonal d * w = diagonal d := by
  have hsymm : (diagonal d * w)ᵀ = diagonal d * w := hpos.isHermitian
  apply (CFC.mul_self_eq_mul_self_iff _ _ hpos.nonneg (PosSemidef.diagonal hd).nonneg).mp
  calc diagonal d * w * (diagonal d * w) = diagonal d * w * (diagonal d * w)ᵀ := by rw [hsymm]
    _ = diagonal d * (w * wᵀ) * diagonal d := by
      rw [transpose_mul, diagonal_transpose, Matrix.mul_assoc, Matrix.mul_assoc, Matrix.mul_assoc]
    _ = diagonal d * diagonal d := by rw [hw, Matrix.mul_one]

/-- It is the identity in the axes that are stretched at all. -/
theorem row_eq (hd : 0 ≤ d) (hw : w * wᵀ = 1) (hpos : (diagonal d * w).PosSemidef) {i : Fin 3}
    (hi : 0 < d i) (j : Fin 3) : w i j = (1 : Matrix (Fin 3) (Fin 3) ℝ) i j := by
  have hentry : (diagonal d * w) i j = (diagonal d * (1 : Matrix (Fin 3) (Fin 3) ℝ)) i j := by
    rw [stretch_eq hd hw hpos, Matrix.mul_one]
  rw [diagonal_mul, diagonal_mul] at hentry
  exact mul_left_cancel₀ (ne_of_gt hi) hentry

/-- **With two axes stretched, only the sense of the last one is left**, and the determinant tells it. -/
theorem eq_correction (hd : 0 ≤ d) (hw : w * wᵀ = 1) (hpos : (diagonal d * w).PosSemidef) (h0 : 0 < d 0)
    (h1 : 0 < d 1) : w = diagonal ![1, 1, w.det] := by
  have hrow0 := row_eq hd hw hpos h0
  have hrow1 := row_eq hd hw hpos h1
  -- the last row is orthogonal to the first two
  have hcol0 : w 2 0 = 0 := by
    have hentry : (w * wᵀ) 2 0 = (1 : Matrix (Fin 3) (Fin 3) ℝ) 2 0 := by rw [hw]
    rw [mul_apply, Fin.sum_univ_three] at hentry
    simpa [hrow0] using hentry
  have hcol1 : w 2 1 = 0 := by
    have hentry : (w * wᵀ) 2 1 = (1 : Matrix (Fin 3) (Fin 3) ℝ) 2 1 := by rw [hw]
    rw [mul_apply, Fin.sum_univ_three] at hentry
    simpa [hrow1] using hentry
  have hdet : w.det = w 2 2 := by
    rw [det_fin_three]
    simp [hrow0, hrow1]
  rw [hdet]
  ext i j
  fin_cases i
  · fin_cases j <;> simp [hrow0]
  · fin_cases j <;> simp [hrow1]
  · fin_cases j <;> simp [hcol0, hcol1]

end Stretch

/-! ## Decompositions -/

/-- **The factors of a matrix**: orthogonal matrices, and values that are not negative and do not increase. -/
structure SingularValues.Factors (f : SingularValues ℝ) (h : Mat3 ℝ) : Prop where
  product : f.u * Mat3.diagonal f.values * f.vt = h
  left : f.u.transpose * f.u = Mat3.identity
  right : f.vt * f.vt.transpose = Mat3.identity
  first : f.values.y ≤ f.values.x
  second : f.values.z ≤ f.values.y
  nonneg : 0 ≤ f.values.z

namespace SingularValues

variable {f : SingularValues ℝ} {h r : Mat3 ℝ}

theorem Factors.transpose_mul_u (hf : f.Factors h) : f.u.toMatrixᵀ * f.u.toMatrix = 1 := by
  simpa using congrArg Mat3.toMatrix hf.left

theorem Factors.vt_mul_transpose (hf : f.Factors h) : f.vt.toMatrix * f.vt.toMatrixᵀ = 1 := by
  simpa using congrArg Mat3.toMatrix hf.right

theorem Factors.toMatrix_eq (hf : f.Factors h) :
    f.u.toMatrix * diagonal f.values.toVec * f.vt.toMatrix = h.toMatrix := by
  simpa using congrArg Mat3.toMatrix hf.product

/-- A rotation as it goes from the left axes of a decomposition to the right ones. -/
noncomputable def between (f : SingularValues ℝ) (r : Mat3 ℝ) : Matrix (Fin 3) (Fin 3) ℝ :=
  f.vt.toMatrix * r.toMatrix * f.u.toMatrix

theorem Factors.between_orthogonal (hf : f.Factors h) (hr : r.toMatrixᵀ * r.toMatrix = 1) :
    f.between r * (f.between r)ᵀ = 1 := by
  calc f.between r * (f.between r)ᵀ
      = f.vt.toMatrix * (r.toMatrix * (f.u.toMatrix * f.u.toMatrixᵀ) * r.toMatrixᵀ) * f.vt.toMatrixᵀ := by
        simp only [between, transpose_mul, Matrix.mul_assoc]
    _ = 1 := by
        rw [mul_eq_one_comm.mp hf.transpose_mul_u, Matrix.mul_one, mul_eq_one_comm.mp hr, Matrix.mul_one,
          hf.vt_mul_transpose]

/-- The stretch of the axes, rotated, is what remains of the matrix without that rotation, seen in the left axes. -/
theorem Factors.posSemidef_between (hf : f.Factors h) (hpos : (h.toMatrix * r.toMatrix).PosSemidef) :
    (diagonal f.values.toVec * f.between r).PosSemidef := by
  have hseen : f.u.toMatrixᵀ * (h.toMatrix * r.toMatrix) * f.u.toMatrix
      = diagonal f.values.toVec * f.between r := by
    calc f.u.toMatrixᵀ * (h.toMatrix * r.toMatrix) * f.u.toMatrix
        = f.u.toMatrixᵀ * f.u.toMatrix * (diagonal f.values.toVec * f.between r) := by
          simp only [← hf.toMatrix_eq, between, Matrix.mul_assoc]
      _ = diagonal f.values.toVec * f.between r := by rw [hf.transpose_mul_u, Matrix.one_mul]
  rw [← hseen, ← conjTranspose_eq_transpose_of_trivial]
  exact hpos.conjTranspose_mul_mul_same _

/-- The sense of the uncorrected rotation: one, or minus one if it is a reflection. -/
noncomputable def sense (f : SingularValues ℝ) : ℝ := (f.vt.transpose * f.u.transpose).det

theorem sense_eq (f : SingularValues ℝ) : f.sense = f.vt.toMatrix.det * f.u.toMatrix.det := by
  unfold sense
  rw [← Mat3.det_toMatrix, Mat3.toMatrix_mul, Mat3.toMatrix_transpose, Mat3.toMatrix_transpose, det_mul, det_transpose,
    det_transpose]

/-- It is that of any rotation between the axes. -/
theorem det_between (f : SingularValues ℝ) (hr : r.toMatrix.det = 1) : (f.between r).det = f.sense := by
  rw [sense_eq, between, det_mul, det_mul, hr, mul_one]

theorem Factors.sense_mul_self (hf : f.Factors h) : f.sense * f.sense = 1 := by
  have hidentity : (Mat3.identity : Mat3 ℝ).toMatrixᵀ * (Mat3.identity : Mat3 ℝ).toMatrix = 1 := by simp
  rw [← f.det_between (r := Mat3.identity) (by simp)]
  exact det_mul_self_of_orthogonal (hf.between_orthogonal hidentity)

theorem Factors.turned_between (hf : f.Factors h) (r : Mat3 ℝ) :
    f.vt.toMatrixᵀ * f.between r * f.u.toMatrixᵀ = r.toMatrix := by
  calc f.vt.toMatrixᵀ * f.between r * f.u.toMatrixᵀ
      = f.vt.toMatrixᵀ * f.vt.toMatrix * r.toMatrix * (f.u.toMatrix * f.u.toMatrixᵀ) := by
        simp only [between, Matrix.mul_assoc]
    _ = r.toMatrix := by
        rw [mul_eq_one_comm.mp hf.vt_mul_transpose, mul_eq_one_comm.mp hf.transpose_mul_u, Matrix.one_mul,
          Matrix.mul_one]

end SingularValues

namespace Alignment

/-- The sign given to the last axis is the determinant, if that is a sign. -/
theorem correction_eq {x : ℝ} (h : x * x = 1) : (if Scalar.lt x 0 then -1 else 1) = x := by
  rcases mul_self_eq_one_iff.mp h with hone | hone
  · rw [hone, if_neg (by rw [Scalar.real_lt]; norm_num)]
  · rw [hone, if_pos (by rw [Scalar.real_lt]; norm_num)]

/-- The correction reverses the last axis by the sense of the rotation. -/
theorem toMatrix_rotationOf {f : SingularValues ℝ} {h : Mat3 ℝ} (hf : f.Factors h) :
    (rotationOf f).toMatrix = f.vt.toMatrixᵀ * diagonal ![1, 1, f.sense] * f.u.toMatrixᵀ := by
  have hlast : (if Scalar.lt (f.vt.transpose * f.u.transpose).det 0 then -1 else 1) = f.sense :=
    correction_eq hf.sense_mul_self
  unfold rotationOf
  simp only [hlast, Mat3.toMatrix_mul, Mat3.toMatrix_transpose, Mat3.toMatrix_diagonal]
  rfl

/-- **The rotation of the factors is the one hidden in the matrix**, which is positive semidefinite once that
rotation is taken out of it. -/
theorem rotationOf_eq {f : SingularValues ℝ} {h r : Mat3 ℝ} (hf : f.Factors h)
    (hr : r.toMatrixᵀ * r.toMatrix = 1) (hdet : r.toMatrix.det = 1)
    (hpos : (h.toMatrix * r.toMatrix).PosSemidef) (hx : 0 < f.values.x) (hy : 0 < f.values.y) :
    rotationOf f = r := by
  have hd : 0 ≤ f.values.toVec := by
    intro i
    fin_cases i
    · exact le_of_lt hx
    · exact le_of_lt hy
    · exact hf.nonneg
  have hcorrection := eq_correction hd (hf.between_orthogonal hr) (hf.posSemidef_between hpos) hx hy
  rw [f.det_between hdet] at hcorrection
  apply Mat3.toMatrix_injective
  rw [toMatrix_rotationOf hf, ← hcorrection, hf.turned_between]

/-! ## Moments of moved points -/

/-- A sum of points, from any start. -/
theorem toVec_foldl_add (points : List (Vec3 ℝ)) (start : Vec3 ℝ) :
    (points.foldl (· + ·) start).toVec = start.toVec + (points.map Vec3.toVec).sum := by
  induction points generalizing start with
  | nil => simp
  | cons p rest ih =>
    rw [List.foldl_cons, ih, List.map_cons, List.sum_cons, Vec3.toVec_add, add_assoc]

theorem toVec_centroid (points : List (Vec3 ℝ)) :
    (centroid points).toVec = (points.length : ℝ)⁻¹ • (points.map Vec3.toVec).sum := by
  unfold centroid
  rw [Vec3.toVec_unscale, toVec_foldl_add, Vec3.toVec_zero, zero_add]
  rfl

theorem toVec_apply (m : Motion ℝ) (p : Vec3 ℝ) :
    (m.apply p).toVec = m.rotation.matrix.toMatrix *ᵥ p.toVec + m.translation.toVec := by
  rw [Motion.apply_eq, Vec3.toVec_add, Quaternion.mulVec_matrix]

theorem sum_map_apply (m : Motion ℝ) (points : List (Vec3 ℝ)) :
    ((points.map m.apply).map Vec3.toVec).sum =
      m.rotation.matrix.toMatrix *ᵥ (points.map Vec3.toVec).sum + (points.length : ℝ) • m.translation.toVec := by
  induction points with
  | nil => simp
  | cons p rest ih =>
    simp only [List.map_cons, List.sum_cons, ih, toVec_apply, mulVec_add, List.length_cons, Nat.cast_succ,
      add_smul, one_smul]
    abel

/-- **The centroid moves with the points.** -/
theorem centroid_map (m : Motion ℝ) {points : List (Vec3 ℝ)} (h : points ≠ []) :
    centroid (points.map m.apply) = m.apply (centroid points) := by
  have hlength : (points.length : ℝ) ≠ 0 := Nat.cast_ne_zero.mpr (List.length_pos_iff.mpr h).ne'
  apply Vec3.toVec_injective
  rw [toVec_centroid, toVec_apply, toVec_centroid, sum_map_apply, List.length_map, smul_add, smul_smul,
    inv_mul_cancel₀ hlength, one_smul, mulVec_smul]

/-- Turned back, the outer product of a vector and its image is positive semidefinite. -/
theorem posSemidef_outer {q : Quaternion ℝ} (h : q.normSquared = 1) (v : Vec3 ℝ) :
    ((Mat3.outer v (q.rotate v)).toMatrix * q.matrix.toMatrix).PosSemidef := by
  have hback : (q.rotate v).toVec ᵥ* q.matrix.toMatrix = v.toVec := by
    rw [← mulVec_transpose, ← Quaternion.mulVec_matrix, mulVec_mulVec, Quaternion.transpose_mul_matrix h,
      one_mulVec]
  rw [Mat3.toMatrix_outer, vecMulVec_mul, hback]
  exact posSemidef_vecMulVec_self_star v.toVec

/-- **Turned back, the cross-covariance of points and their images is positive semidefinite**: every pair adds
such a matrix. -/
theorem posSemidef_covariance {m : Motion ℝ} (h : m.rotation.normSquared = 1) {pairs : PointPairs ℝ}
    (hpairs : ∀ pair ∈ pairs, pair.2 = m.apply pair.1) (source : Vec3 ℝ) :
    ((covariance pairs source (m.apply source)).toMatrix * m.rotation.matrix.toMatrix).PosSemidef := by
  have hsum (start : Mat3 ℝ) (hstart : (start.toMatrix * m.rotation.matrix.toMatrix).PosSemidef) :
      ((pairs.foldl (fun a pair => a + Mat3.outer (pair.1 - source) (pair.2 - m.apply source)) start).toMatrix
        * m.rotation.matrix.toMatrix).PosSemidef := by
    -- positive semidefinite sums are kept by one more pair, whatever came before
    induction pairs generalizing start with
    | nil => exact hstart
    | cons pair rest ih =>
      have hsink : pair.2 - m.apply source = m.rotation.rotate (pair.1 - source) := by
        rw [hpairs pair List.mem_cons_self, Motion.apply_eq, Motion.apply_eq, Quaternion.rotate_sub]
        simp only [Vec3.add_def, Vec3.sub_def]
        ext <;> ring
      apply ih (fun other hother => hpairs other (List.mem_cons_of_mem _ hother))
      show ((start + Mat3.outer (pair.1 - source) (pair.2 - m.apply source)).toMatrix
        * m.rotation.matrix.toMatrix).PosSemidef
      rw [hsink, Mat3.toMatrix_add, Matrix.add_mul]
      exact hstart.add (posSemidef_outer h _)
  apply hsum
  rw [Mat3.toMatrix_zero, Matrix.zero_mul]
  exact PosSemidef.zero

/-! ## Alignment -/

/-- Cross-covariance of pairs about their centroids. -/
noncomputable def crossCovariance (pairs : PointPairs ℝ) : Mat3 ℝ :=
  covariance pairs (centroid (pairs.map Prod.fst)) (centroid (pairs.map Prod.snd))

/-- The factors that alignment takes from the cross-covariance. -/
noncomputable def factors [Decomposing ℝ] (pairs : PointPairs ℝ) : SingularValues ℝ :=
  Decomposing.decompose (crossCovariance pairs)

/-- **Pairs that determine a motion**: at least three, and not on a line. -/
structure Determinate [Decomposing ℝ] (pairs : PointPairs ℝ) : Prop where
  three_le : 3 ≤ pairs.length
  first_pos : 0 < (factors pairs).values.x
  second_gt : degeneracy * (factors pairs).values.x < (factors pairs).values.y

/-- Other pairs are rejected. -/
theorem align?_eq_none [Decomposing ℝ] {pairs : PointPairs ℝ} (h : ¬ Determinate pairs) :
    align? pairs = none := by
  unfold align?
  by_cases hfew : pairs.length < 3
  · rw [if_pos hfew]
  · rw [if_neg hfew]
    apply if_pos
    by_contra hpass
    simp only [Bool.or_eq_true, Bool.not_eq_true', Bool.eq_false_iff, ne_eq, Scalar.real_lt, Scalar.real_le,
      not_or, not_not, not_le] at hpass
    exact h ⟨Nat.le_of_not_lt hfew, hpass.1, hpass.2⟩

theorem align?_of_determinate [Decomposing ℝ] {pairs : PointPairs ℝ} (h : Determinate pairs) :
    align? pairs = some ⟨Quaternion.ofMatrix (rotationOf (factors pairs)),
      centroid (pairs.map Prod.snd)
        - (Quaternion.ofMatrix (rotationOf (factors pairs))).rotate (centroid (pairs.map Prod.fst))⟩ := by
  unfold align?
  rw [if_neg (Nat.not_lt.mpr h.three_le)]
  apply if_neg
  simp only [Bool.or_eq_true, Bool.not_eq_true', Bool.eq_false_iff, ne_eq, Scalar.real_lt, Scalar.real_le,
    not_or, not_not, not_le]
  exact ⟨h.first_pos, h.second_gt⟩

theorem degeneracy_pos : 0 < (degeneracy : ℝ) := by
  show 0 < 1 / ((1000000000 : ℕ) : ℝ)
  norm_num

/-- **Alignment recovers the motion of moved points**, up to the sign of its quaternion. -/
theorem align?_moved [Decomposing ℝ] {m : Motion ℝ} (h : m.rotation.normSquared = 1) {pairs : PointPairs ℝ}
    (hpairs : ∀ pair ∈ pairs, pair.2 = m.apply pair.1) (hdeterminate : Determinate pairs)
    (hfactors : (factors pairs).Factors (crossCovariance pairs)) :
    ∃ (n : Motion ℝ) (hn : n.rotation.normSquared = 1), align? pairs = some n ∧ n.rigid hn = m.rigid h := by
  have hsinks : pairs.map Prod.snd = (pairs.map Prod.fst).map m.apply := by
    rw [List.map_map]
    exact List.map_congr_left hpairs
  have hsome : pairs.map Prod.fst ≠ [] := by
    apply List.ne_nil_of_length_pos
    rw [List.length_map]
    exact Nat.lt_of_lt_of_le (by decide) hdeterminate.three_le
  have hcentroid : centroid (pairs.map Prod.snd) = m.apply (centroid (pairs.map Prod.fst)) := by
    rw [hsinks, centroid_map m hsome]
  have hsecond : 0 < (factors pairs).values.y :=
    lt_trans (mul_pos degeneracy_pos hdeterminate.first_pos) hdeterminate.second_gt
  -- the covariance is a rotation times a positive semidefinite matrix, which has one rotation only
  have hrotation : rotationOf (factors pairs) = m.rotation.matrix := by
    apply rotationOf_eq hfactors (Quaternion.transpose_mul_matrix h) (Quaternion.det_matrix h) ?_
      hdeterminate.first_pos hsecond
    unfold crossCovariance
    rw [hcentroid]
    exact posSemidef_covariance h hpairs _
  obtain ⟨s, hs, hquaternion⟩ := Quaternion.ofMatrix_matrix h
  refine ⟨_, ?_, align?_of_determinate hdeterminate, RigidMotion.ext ?_⟩
  · show (Quaternion.ofMatrix (rotationOf (factors pairs))).normSquared = 1
    rw [hrotation, hquaternion, Quaternion.normSquared_scaled hs, h]
  · intro p
    show Motion.apply _ p = m.apply p
    rw [Motion.apply_eq, hrotation, hquaternion, Quaternion.rotate_scaled hs, Quaternion.rotate_scaled hs,
      hcentroid, Motion.apply_eq, Motion.apply_eq]
    simp only [Vec3.add_def, Vec3.sub_def]
    ext <;> ring

theorem sum_eq_zero {xs : List ℝ} (h : ∀ x ∈ xs, x = 0) : Scalar.sum xs = 0 := by
  have hzero : (Scalar.negZero : ℝ) = 0 := neg_zero
  unfold Scalar.sum
  rw [hzero]
  exact List.sum_eq_foldl.symm.trans (List.sum_eq_zero h)

/-- A motion that moves all sources onto their sinks has no error. -/
theorem rmsError_moved {m : Motion ℝ} {pairs : PointPairs ℝ} (hpairs : ∀ pair ∈ pairs, pair.2 = m.apply pair.1)
    (count : Nat) : rmsError m count pairs = 0 := by
  have hresiduals : ∀ r ∈ pairs.map (residual m), r = 0 := by
    intro r hr
    obtain ⟨pair, hmem, rfl⟩ := List.mem_map.mp hr
    unfold residual
    rw [hpairs pair hmem]
    simp [Vec3.normSquared, Vec3.dot]
  unfold rmsError
  rw [sum_eq_zero hresiduals]
  simp

end Alignment

end StereoMapping
