import Mathlib.LinearAlgebra.Matrix.Adjugate
import Mathlib.LinearAlgebra.Matrix.Trace
import Mathlib.Tactic.LinearCombination
import StereoMapping.Proofs.Geometry.Matrix

/-!
# `Proofs.Geometry.Rotation` — every proper rotation has a unit quaternion

A proper rotation is an orthogonal matrix of determinant one. The matrices of unit quaternions are such, and this
module shows that there are no others, so that reading a quaternion off a rotation matrix always gives a unit
quaternion with that very matrix.

The quaternion is found by its real part, the square of which is a quarter of the trace and one. Where that is zero, the
rotation is first composed with a half turn about one of the axes: the four traces that can be had so, and one each, add
up to four, so one of them will do. The entries of the rotation then satisfy all that is needed because every row is
the cross product of the two others.

## Contents
- `Mat3.IsRotation`: `IsRotation.rows`, `IsRotation.cross`, `IsRotation.products`.
- `Quaternion.isRotation_matrix`, `Quaternion.matrix_mul`: matrices of unit quaternions.
- `Mat3.IsRotation.exists_quaternion`; `Quaternion.ofMatrix_spec`: the quaternion read off a rotation.
- `Mat3.IsRotation.trace_ge`, `Mat3.trace_le_one`: traces of rotations and reflections.
-/

namespace StereoMapping

open Matrix

/-! ## Proper rotations -/

namespace Mat3

/-- A proper rotation: orthogonal, and no reflection. -/
structure IsRotation (r : Mat3 ℝ) : Prop where
  orthogonal : r.transpose * r = identity
  proper : r.det = 1

variable {r s : Mat3 ℝ}

theorem isRotation_iff :
    r.IsRotation ↔ r.toMatrixᵀ * r.toMatrix = 1 ∧ r.toMatrix.det = 1 := by
  constructor
  · intro h
    exact ⟨by simpa using congrArg toMatrix h.orthogonal, (det_toMatrix r).trans h.proper⟩
  · rintro ⟨horthogonal, hproper⟩
    exact ⟨toMatrix_injective (by simpa using horthogonal), (det_toMatrix r).symm.trans hproper⟩

theorem IsRotation.mul (hr : r.IsRotation) (hs : s.IsRotation) : (r * s).IsRotation := by
  rw [isRotation_iff] at hr hs ⊢
  constructor
  · calc (r * s).toMatrixᵀ * (r * s).toMatrix = s.toMatrixᵀ * (r.toMatrixᵀ * r.toMatrix) * s.toMatrix := by
          simp only [toMatrix_mul, transpose_mul, Matrix.mul_assoc]
      _ = 1 := by rw [hr.1, Matrix.mul_one, hs.1]
  · rw [toMatrix_mul, det_mul, hr.2, hs.2, mul_one]

/-- The other order of the factors. -/
theorem IsRotation.mul_transpose (hr : r.IsRotation) : r * r.transpose = identity := by
  apply toMatrix_injective
  rw [toMatrix_mul, toMatrix_transpose, toMatrix_identity]
  exact mul_eq_one_comm.mp (isRotation_iff.mp hr).1

/-- The rows are orthonormal. -/
theorem IsRotation.rows (hr : r.IsRotation) :
    r.row0.dot r.row0 = 1 ∧ r.row1.dot r.row1 = 1 ∧ r.row2.dot r.row2 = 1 ∧
      r.row0.dot r.row1 = 0 ∧ r.row0.dot r.row2 = 0 ∧ r.row1.dot r.row2 = 0 := by
  have h := hr.mul_transpose
  exact ⟨congrArg (fun m => m.row0.x) h, congrArg (fun m => m.row1.y) h, congrArg (fun m => m.row2.z) h,
    congrArg (fun m => m.row0.y) h, congrArg (fun m => m.row0.z) h, congrArg (fun m => m.row1.z) h⟩

/-- So are the columns. -/
theorem IsRotation.transpose (hr : r.IsRotation) : r.transpose.IsRotation := by
  refine ⟨hr.mul_transpose, ?_⟩
  rw [← det_toMatrix, toMatrix_transpose, det_transpose, det_toMatrix, hr.proper]

/-- **Every row is the cross product of the two others.** -/
theorem IsRotation.cross (hr : r.IsRotation) :
    r.row1.cross r.row2 = r.row0 ∧ r.row2.cross r.row0 = r.row1 ∧ r.row0.cross r.row1 = r.row2 := by
  have hadjugate : r.toMatrix.adjugate = r.toMatrixᵀ := by
    rw [isRotation_iff] at hr
    calc r.toMatrix.adjugate = r.toMatrixᵀ * r.toMatrix * r.toMatrix.adjugate := by rw [hr.1, Matrix.one_mul]
      _ = r.toMatrixᵀ := by rw [Matrix.mul_assoc, mul_adjugate, hr.2, one_smul, Matrix.mul_one]
  have hentry (i j : Fin 3) : r.toMatrix.adjugate i j = r.toMatrix j i := congrFun (congrFun hadjugate i) j
  rw [adjugate_fin_three] at hentry
  have hrow0y : -(r.row1.x * r.row2.z) + r.row1.z * r.row2.x = r.row0.y := hentry 1 0
  have hrow1x : -(r.row0.y * r.row2.z) + r.row0.z * r.row2.y = r.row1.x := hentry 0 1
  have hrow1y : r.row0.x * r.row2.z - r.row0.z * r.row2.x = r.row1.y := hentry 1 1
  have hrow1z : -(r.row0.x * r.row2.y) + r.row0.y * r.row2.x = r.row1.z := hentry 2 1
  have hrow2y : -(r.row0.x * r.row1.z) + r.row0.z * r.row1.x = r.row2.y := hentry 1 2
  unfold Vec3.cross
  refine ⟨Vec3.ext (hentry 0 0) ?_ (hentry 2 0), Vec3.ext ?_ ?_ ?_, Vec3.ext (hentry 0 2) ?_ (hentry 2 2)⟩
  · linear_combination hrow0y
  · linear_combination hrow1x
  · linear_combination hrow1y
  · linear_combination hrow1z
  · linear_combination hrow2y

/-- Products of the differences across the diagonal, which are four times those of the components of the quaternion with
its real part. -/
theorem IsRotation.products (hr : r.IsRotation) :
    (r.row2.y - r.row1.z) * (r.row2.y - r.row1.z) =
      (1 + r.row0.x + r.row1.y + r.row2.z) * (1 + r.row0.x - r.row1.y - r.row2.z) ∧
    (r.row0.z - r.row2.x) * (r.row0.z - r.row2.x) =
      (1 + r.row0.x + r.row1.y + r.row2.z) * (1 + r.row1.y - r.row0.x - r.row2.z) ∧
    (r.row1.x - r.row0.y) * (r.row1.x - r.row0.y) =
      (1 + r.row0.x + r.row1.y + r.row2.z) * (1 + r.row2.z - r.row0.x - r.row1.y) ∧
    (r.row2.y - r.row1.z) * (r.row0.z - r.row2.x) =
      (1 + r.row0.x + r.row1.y + r.row2.z) * (r.row0.y + r.row1.x) ∧
    (r.row2.y - r.row1.z) * (r.row1.x - r.row0.y) =
      (1 + r.row0.x + r.row1.y + r.row2.z) * (r.row0.z + r.row2.x) ∧
    (r.row0.z - r.row2.x) * (r.row1.x - r.row0.y) =
      (1 + r.row0.x + r.row1.y + r.row2.z) * (r.row1.z + r.row2.y) := by
  obtain ⟨h00, h11, h22, h01, h02, h12⟩ := hr.rows
  obtain ⟨c00, c11, c22, c01, c02, c12⟩ := hr.transpose.rows
  obtain ⟨hrow0, hrow1, hrow2⟩ := hr.cross
  simp only [Vec3.dot, Mat3.transpose] at h00 h11 h22 h01 h02 h12 c00 c11 c22 c01 c02 c12
  simp only [Vec3.cross, Vec3.ext_iff] at hrow0 hrow1 hrow2
  obtain ⟨hxx, hxy, hxz⟩ := hrow0
  obtain ⟨hyx, hyy, hyz⟩ := hrow1
  obtain ⟨hzx, hzy, hzz⟩ := hrow2
  refine ⟨?_, ?_, ?_, ?_, ?_, ?_⟩
  · linear_combination h11 + h22 - c00 + 2 * hxx
  · linear_combination h00 + h22 - c11 + 2 * hyy
  · linear_combination h00 + h11 - c22 + 2 * hzz
  · linear_combination hxy + hyx - h01 - c01
  · linear_combination hxz + hzx - h02 - c02
  · linear_combination hyz + hzy - h12 - c12

end Mat3

/-! ## Matrices of unit quaternions -/

namespace Quaternion

theorem isRotation_matrix {q : Quaternion ℝ} (h : q.normSquared = 1) : q.matrix.IsRotation :=
  Mat3.isRotation_iff.mpr ⟨transpose_mul_matrix h, det_matrix h⟩

/-- Products of unit quaternions have the products of their matrices. -/
theorem matrix_mul {p q : Quaternion ℝ} (hp : p.normSquared = 1) (hq : q.normSquared = 1) :
    (p * q).matrix = p.matrix * q.matrix := by
  apply Mat3.toMatrix_injective
  apply mulVec_injective
  funext f
  obtain ⟨v, rfl⟩ := Vec3.toVec_surjective f
  rw [Mat3.toMatrix_mul, ← mulVec_mulVec, mulVec_matrix, mulVec_matrix, mulVec_matrix, rotate_mul hp hq]

/-- Opposite quaternions have one matrix. -/
theorem matrix_scaled {s : ℝ} (hs : s * s = 1) (q : Quaternion ℝ) : (scaled s q).matrix = q.matrix := by
  unfold matrix
  rw [rotate_scaled hs, rotate_scaled hs, rotate_scaled hs]

end Quaternion

/-! ## The quaternion of a rotation -/

namespace Mat3

variable {r : Mat3 ℝ}

/-- A quotient by four times the real part, multiplied by another. -/
theorem quotient_mul_quotient {u v w k total : ℝ} (hw : w * w = total / 4) (htotal : total ≠ 0)
    (h : u * v = total * k) : u / (4 * w) * (v / (4 * w)) = k / 4 := by
  have hsquare : 4 * w * (4 * w) = 4 * total := by linear_combination 16 * hw
  rw [div_mul_div_comm, hsquare, h]
  field_simp

/-- **A rotation by less than a half turn has a unit quaternion**, whose real part is positive. -/
theorem IsRotation.exists_quaternion_of_trace (hr : r.IsRotation) (htrace : 0 < 1 + r.row0.x + r.row1.y + r.row2.z) :
    ∃ q : Quaternion ℝ, q.normSquared = 1 ∧ q.matrix = r := by
  obtain ⟨hxx, hyy, hzz, hxy, hxz, hyz⟩ := hr.products
  generalize htotal : 1 + r.row0.x + r.row1.y + r.row2.z = total at hxx hyy hzz hxy hxz hyz htrace
  have hne : total ≠ 0 := ne_of_gt htrace
  obtain ⟨w, hw⟩ : ∃ w : ℝ, w * w = total / 4 := by
    refine ⟨Real.sqrt (total / 4), Real.mul_self_sqrt ?_⟩
    linarith
  have hwne : w ≠ 0 := by
    rintro rfl
    linarith
  have hreal (u : ℝ) : w * (u / (4 * w)) = u / 4 := by
    field_simp
  have hxx := quotient_mul_quotient hw hne hxx
  have hyy := quotient_mul_quotient hw hne hyy
  have hzz := quotient_mul_quotient hw hne hzz
  have hxy := quotient_mul_quotient hw hne hxy
  have hxz := quotient_mul_quotient hw hne hxz
  have hyz := quotient_mul_quotient hw hne hyz
  -- the imaginary part comes from the skew part of the matrix
  refine ⟨⟨(r.row2.y - r.row1.z) / (4 * w), (r.row0.z - r.row2.x) / (4 * w), (r.row1.x - r.row0.y) / (4 * w), w⟩,
    ?_, ?_⟩
  · rw [Quaternion.normSquared_eq]
    dsimp only
    rw [hxx, hyy, hzz, hw, ← htotal]
    ring
  · rw [Quaternion.matrix_eq]
    dsimp only
    rw [hxx, hyy, hzz, hxy, hxz, hyz, hreal, hreal, hreal]
    ext <;> dsimp only <;> ring

/-- If a rotation has a quaternion after another rotation, it has one. -/
theorem exists_quaternion_of_mul {p : Quaternion ℝ} (hp : p.normSquared = 1)
    (h : ∃ q : Quaternion ℝ, q.normSquared = 1 ∧ q.matrix = r * p.matrix) :
    ∃ q : Quaternion ℝ, q.normSquared = 1 ∧ q.matrix = r := by
  obtain ⟨q, hq, hmatrix⟩ := h
  have hconjugate := (Quaternion.normSquared_conjugate p).trans hp
  refine ⟨q * p.conjugate, by rw [Quaternion.normSquared_mul, hq, hconjugate, one_mul], ?_⟩
  rw [Quaternion.matrix_mul hq hconjugate, hmatrix, Quaternion.matrix_conjugate]
  apply toMatrix_injective
  have hback := congrArg toMatrix (Quaternion.isRotation_matrix hp).mul_transpose
  rw [toMatrix_mul, toMatrix_identity] at hback
  rw [toMatrix_mul, toMatrix_mul, Matrix.mul_assoc, hback, Matrix.mul_one]

/-- **Every proper rotation is the matrix of a unit quaternion.** -/
theorem IsRotation.exists_quaternion (hr : r.IsRotation) :
    ∃ q : Quaternion ℝ, q.normSquared = 1 ∧ q.matrix = r := by
  -- a half turn about an axis changes the signs of the two other columns
  have hturned (p : Quaternion ℝ) (hp : p.normSquared = 1)
      (htrace : 0 < 1 + (r * p.matrix).row0.x + (r * p.matrix).row1.y + (r * p.matrix).row2.z) :
      ∃ q : Quaternion ℝ, q.normSquared = 1 ∧ q.matrix = r :=
    exists_quaternion_of_mul hp ((hr.mul (Quaternion.isRotation_matrix hp)).exists_quaternion_of_trace htrace)
  have hdiagonal (p : Quaternion ℝ) : (r * p.matrix).row0.x = r.row0.dot p.matrix.transpose.row0 ∧
      (r * p.matrix).row1.y = r.row1.dot p.matrix.transpose.row1 ∧
      (r * p.matrix).row2.z = r.row2.dot p.matrix.transpose.row2 := ⟨rfl, rfl, rfl⟩
  by_cases hw : 0 < 1 + r.row0.x + r.row1.y + r.row2.z
  · exact hr.exists_quaternion_of_trace hw
  by_cases hx : 0 < 1 + r.row0.x - r.row1.y - r.row2.z
  · apply hturned ⟨1, 0, 0, 0⟩ (by simp [Quaternion.normSquared_eq])
    obtain ⟨h0, h1, h2⟩ := hdiagonal ⟨1, 0, 0, 0⟩
    rw [h0, h1, h2, Quaternion.matrix_eq]
    simp only [Mat3.transpose, Vec3.dot]
    linarith
  by_cases hy : 0 < 1 + r.row1.y - r.row0.x - r.row2.z
  · apply hturned ⟨0, 1, 0, 0⟩ (by simp [Quaternion.normSquared_eq])
    obtain ⟨h0, h1, h2⟩ := hdiagonal ⟨0, 1, 0, 0⟩
    rw [h0, h1, h2, Quaternion.matrix_eq]
    simp only [Mat3.transpose, Vec3.dot]
    linarith
  · apply hturned ⟨0, 0, 1, 0⟩ (by simp [Quaternion.normSquared_eq])
    obtain ⟨h0, h1, h2⟩ := hdiagonal ⟨0, 0, 1, 0⟩
    rw [h0, h1, h2, Quaternion.matrix_eq]
    simp only [Mat3.transpose, Vec3.dot]
    linarith

end Mat3

/-- **The quaternion read off a rotation is a unit one, and has that rotation.** -/
theorem Quaternion.ofMatrix_spec {r : Mat3 ℝ} (hr : r.IsRotation) :
    (ofMatrix r).normSquared = 1 ∧ (ofMatrix r).matrix = r := by
  obtain ⟨q, hq, rfl⟩ := hr.exists_quaternion
  obtain ⟨s, hs, hread⟩ := ofMatrix_matrix hq
  rw [hread]
  exact ⟨(normSquared_scaled hs q).trans hq, matrix_scaled hs q⟩

/-! ## Traces -/

namespace Mat3

variable {r : Mat3 ℝ}

/-- The trace of a rotation is four times the square of the real part of its quaternion, less one. -/
theorem IsRotation.trace_ge (hr : r.IsRotation) : -1 ≤ r.toMatrix.trace := by
  obtain ⟨q, hq, rfl⟩ := hr.exists_quaternion
  have htrace : q.matrix.toMatrix.trace = 4 * (q.w * q.w) - 1 := by
    rw [Quaternion.normSquared_eq] at hq
    rw [trace_fin_three, Quaternion.matrix_eq]
    simp only [toMatrix, Vec3.toVec, of_apply, cons_val]
    linear_combination (-4) * hq
  rw [htrace]
  linarith [mul_self_nonneg q.w]

/-- A reflection is the opposite of a rotation. -/
theorem trace_le_one {w : Matrix (Fin 3) (Fin 3) ℝ} (horthogonal : wᵀ * w = 1) (hdet : w.det = -1) :
    w.trace ≤ 1 := by
  obtain ⟨r, hr⟩ := toMatrix_surjective (-w)
  have hrotation : r.IsRotation := by
    rw [isRotation_iff, hr, transpose_neg, neg_mul_neg, horthogonal, det_neg, hdet]
    norm_num
  have htrace := hrotation.trace_ge
  rw [hr, trace_neg] at htrace
  linarith

end Mat3

end StereoMapping
