import Mathlib.LinearAlgebra.Matrix.Determinant.Basic
import Mathlib.LinearAlgebra.Matrix.Notation
import Mathlib.Tactic.FieldSimp
import Mathlib.Tactic.Linarith
import StereoMapping.Proofs.Geometry.RigidMotion

/-!
# `Proofs.Geometry.Matrix` — the matrix of a rotation, and the way back

The 3x3 matrices that alignment computes with are records of rows. Here they are read as matrices of linear
algebra, whose products and determinants have a theory, and the rotation of a unit quaternion as one of them.

Reading a quaternion off a rotation matrix divides by four times one of its components. Which one is chosen
depends on the matrix, and what matters is that it is never the zero one: the quaternion that comes out is the
given one or its opposite, and both rotate alike.

## Contents
- `Vec3.toVec`, `Mat3.toMatrix`, with one lemma for each operation.
- `Quaternion.matrix`: the matrix of a rotation; `mulVec_matrix`, `transpose_mul_matrix`, `det_matrix`.
- `Quaternion.scaled`: a quaternion or its opposite; `Quaternion.ofMatrix_matrix`.
-/

namespace StereoMapping

open Matrix

attribute [ext] Mat3

/-! ## Vectors and matrices of linear algebra -/

namespace Vec3

/-- The vector of the coordinates. -/
def toVec (v : Vec3 ℝ) : Fin 3 → ℝ := ![v.x, v.y, v.z]

theorem toVec_injective : Function.Injective toVec := by
  intro u v h
  ext
  · exact congrFun h 0
  · exact congrFun h 1
  · exact congrFun h 2

theorem toVec_surjective : Function.Surjective toVec := by
  intro f
  refine ⟨⟨f 0, f 1, f 2⟩, ?_⟩
  funext i
  fin_cases i <;> rfl

@[simp] theorem toVec_zero : (zero : Vec3 ℝ).toVec = 0 := by
  funext i
  fin_cases i <;> rfl

@[simp] theorem toVec_add (u v : Vec3 ℝ) : (u + v).toVec = u.toVec + v.toVec := by
  funext i
  fin_cases i <;> rfl

@[simp] theorem toVec_unscale (v : Vec3 ℝ) (k : ℝ) : (v.unscale k).toVec = k⁻¹ • v.toVec := by
  funext i
  fin_cases i <;> simp [toVec, unscale, div_eq_inv_mul]

end Vec3

namespace Mat3

/-- The matrix of the rows. -/
def toMatrix (m : Mat3 ℝ) : Matrix (Fin 3) (Fin 3) ℝ := of ![m.row0.toVec, m.row1.toVec, m.row2.toVec]

theorem toMatrix_injective : Function.Injective toMatrix := by
  intro m n h
  have hrow (i : Fin 3) : m.toMatrix i = n.toMatrix i := congrFun h i
  apply Mat3.ext
  · exact Vec3.toVec_injective (hrow 0)
  · exact Vec3.toVec_injective (hrow 1)
  · exact Vec3.toVec_injective (hrow 2)

theorem toMatrix_surjective : Function.Surjective toMatrix := by
  intro w
  refine ⟨⟨⟨w 0 0, w 0 1, w 0 2⟩, ⟨w 1 0, w 1 1, w 1 2⟩, ⟨w 2 0, w 2 1, w 2 2⟩⟩, ?_⟩
  ext i j
  fin_cases i <;> fin_cases j <;> rfl

@[simp] theorem toMatrix_zero : (zero : Mat3 ℝ).toMatrix = 0 := by
  ext i j
  fin_cases i <;> fin_cases j <;> rfl

@[simp] theorem toMatrix_identity : (identity : Mat3 ℝ).toMatrix = 1 := by
  ext i j
  fin_cases i <;> fin_cases j <;> rfl

@[simp] theorem toMatrix_diagonal (d : Vec3 ℝ) : (diagonal d).toMatrix = Matrix.diagonal d.toVec := by
  ext i j
  fin_cases i <;> fin_cases j <;> rfl

@[simp] theorem toMatrix_transpose (m : Mat3 ℝ) : m.transpose.toMatrix = m.toMatrixᵀ := by
  ext i j
  fin_cases i <;> fin_cases j <;> rfl

@[simp] theorem toMatrix_add (m n : Mat3 ℝ) : (m + n).toMatrix = m.toMatrix + n.toMatrix := by
  ext i j
  fin_cases i <;> fin_cases j <;> rfl

@[simp] theorem toMatrix_mul (m n : Mat3 ℝ) : (m * n).toMatrix = m.toMatrix * n.toMatrix := by
  ext i j
  rw [Matrix.mul_apply, Fin.sum_univ_three]
  fin_cases i <;> fin_cases j <;> rfl

@[simp] theorem toMatrix_outer (u v : Vec3 ℝ) : (outer u v).toMatrix = vecMulVec u.toVec v.toVec := by
  ext i j
  fin_cases i <;> fin_cases j <;> rfl

theorem det_toMatrix (m : Mat3 ℝ) : m.toMatrix.det = m.det := by
  rw [det_fin_three]
  simp only [toMatrix, Vec3.toVec, of_apply, cons_val]
  unfold det
  ring

end Mat3

/-! ## The matrix of a rotation -/

namespace Quaternion

/-- The matrix whose columns are the images of the axes. -/
noncomputable def matrix (q : Quaternion ℝ) : Mat3 ℝ :=
  Mat3.transpose ⟨q.rotate ⟨1, 0, 0⟩, q.rotate ⟨0, 1, 0⟩, q.rotate ⟨0, 0, 1⟩⟩

theorem matrix_eq (q : Quaternion ℝ) : q.matrix =
    ⟨⟨1 - 2 * (q.y * q.y + q.z * q.z), 2 * (q.x * q.y - q.w * q.z), 2 * (q.x * q.z + q.w * q.y)⟩,
     ⟨2 * (q.x * q.y + q.w * q.z), 1 - 2 * (q.x * q.x + q.z * q.z), 2 * (q.y * q.z - q.w * q.x)⟩,
     ⟨2 * (q.x * q.z - q.w * q.y), 2 * (q.y * q.z + q.w * q.x), 1 - 2 * (q.x * q.x + q.y * q.y)⟩⟩ := by
  unfold matrix Mat3.transpose
  simp only [rotate_eq]
  ext <;> ring

/-- The matrix acts as the rotation does. -/
theorem mulVec_matrix (q : Quaternion ℝ) (v : Vec3 ℝ) : q.matrix.toMatrix *ᵥ v.toVec = (q.rotate v).toVec := by
  rw [matrix_eq, rotate_eq]
  funext i
  fin_cases i <;> simp [Mat3.toMatrix, Vec3.toVec, Matrix.mulVec, dotProduct, Fin.sum_univ_three] <;> ring

theorem matrix_conjugate (q : Quaternion ℝ) : q.conjugate.matrix = q.matrix.transpose := by
  simp only [matrix_eq, conjugate_eq, Mat3.transpose]
  ext <;> ring

/-- **The matrix of a unit quaternion is orthogonal.** -/
theorem transpose_mul_matrix {q : Quaternion ℝ} (h : q.normSquared = 1) :
    q.matrix.toMatrixᵀ * q.matrix.toMatrix = 1 := by
  apply mulVec_injective
  funext f
  obtain ⟨v, rfl⟩ := Vec3.toVec_surjective f
  rw [← mulVec_mulVec, mulVec_matrix, ← Mat3.toMatrix_transpose, ← matrix_conjugate, mulVec_matrix,
    rotate_conjugate h, one_mulVec]

/-- The matrix of a unit quaternion is no reflection. -/
theorem det_matrix {q : Quaternion ℝ} (h : q.normSquared = 1) : q.matrix.toMatrix.det = 1 := by
  have hmultiple : q.matrix.det = 1 + 4 * (q.x * q.x + q.y * q.y + q.z * q.z) * (q.normSquared - 1) := by
    rw [matrix_eq, normSquared_eq]
    unfold Mat3.det
    ring
  rw [Mat3.det_toMatrix, hmultiple, h, sub_self, mul_zero, add_zero]

/-! ## A quaternion and its opposite -/

/-- All components multiplied by one number. -/
def scaled (s : ℝ) (q : Quaternion ℝ) : Quaternion ℝ := ⟨s * q.x, s * q.y, s * q.z, s * q.w⟩

theorem normSquared_scaled {s : ℝ} (hs : s * s = 1) (q : Quaternion ℝ) :
    (scaled s q).normSquared = q.normSquared := by
  have hmultiple : (scaled s q).normSquared = s * s * q.normSquared := by
    simp only [scaled, normSquared_eq]
    ring
  rw [hmultiple, hs, one_mul]

/-- Opposite quaternions rotate alike. -/
theorem rotate_scaled {s : ℝ} (hs : s * s = 1) (q : Quaternion ℝ) (v : Vec3 ℝ) :
    (scaled s q).rotate v = q.rotate v := by
  have hmultiple : (scaled s q).rotate v = v + (q.rotate v - v).scale (s * s) := by
    simp only [rotate_eq, scaled, Vec3.add_def, Vec3.sub_def, Vec3.scale]
    ext <;> ring
  rw [hmultiple, hs]
  simp only [Vec3.add_def, Vec3.sub_def, Vec3.scale]
  ext <;> ring

/-- The sense of a component that is not zero. -/
theorem sense_mul_self {c : ℝ} (hc : c ≠ 0) : c / |c| * (c / |c|) = 1 := by
  rw [div_mul_div_comm, abs_mul_abs_self, div_self (mul_ne_zero hc hc)]

/-- The divisor of the conversion is four times the size of the chosen component. -/
theorem divisor_eq {c e : ℝ} (h : e = 4 * (c * c)) : Scalar.sqrt e * Scalar.two = 4 * |c| := by
  have hsquare : e = (2 * c) * (2 * c) := by
    rw [h]
    ring
  rw [hsquare, Scalar.real_sqrt, Real.sqrt_mul_self_eq_abs, Scalar.real_two, abs_mul, abs_two]
  ring

/-- Products with the chosen component give the others, in its sense. -/
theorem quotient_eq {c t e : ℝ} (hc : c ≠ 0) (h : e = 4 * (c * t)) : e / (4 * |c|) = c / |c| * t := by
  have habs : |c| ≠ 0 := abs_ne_zero.mpr hc
  rw [h]
  field_simp

/-- The chosen component itself comes out positive. -/
theorem quarter_eq {c : ℝ} (hc : c ≠ 0) : 1 / Scalar.ofNat 4 * (4 * |c|) = c / |c| * c := by
  have hfour : (Scalar.ofNat 4 : ℝ) = 4 := Nat.cast_ofNat
  have habs : |c| ≠ 0 := abs_ne_zero.mpr hc
  calc 1 / Scalar.ofNat 4 * (4 * |c|) = |c| := by rw [hfour]; ring
    _ = |c| * |c| / |c| := (mul_div_cancel_right₀ |c| habs).symm
    _ = c / |c| * c := by rw [abs_mul_abs_self, div_mul_eq_mul_div]

/-- If neither of the other imaginary components is the largest, nor the trace positive, the last component is not
zero: were it zero, so would be the others, and the trace would be three. -/
theorem z_ne_zero {q : Quaternion ℝ} (h : q.x * q.x + q.z * q.z + (q.y * q.y + q.w * q.w) = 1)
    (hw : 4 * (q.w * q.w) ≤ 1) (hx : ¬ (q.y * q.y < q.x * q.x ∧ q.z * q.z < q.x * q.x))
    (hy : q.y * q.y ≤ q.z * q.z) : q.z ≠ 0 := by
  intro hz
  rw [hz, mul_zero] at h hx hy
  have hyzero : q.y * q.y = 0 := le_antisymm hy (mul_self_nonneg q.y)
  have hxzero : q.x * q.x = 0 := by
    by_contra hne
    have hpos : 0 < q.x * q.x := lt_of_le_of_ne (mul_self_nonneg q.x) (Ne.symm hne)
    exact hx ⟨lt_of_eq_of_lt hyzero hpos, hpos⟩
  linarith

/-- **A rotation matrix gives back its quaternion or the opposite one.** -/
theorem ofMatrix_matrix {q : Quaternion ℝ} (h : q.normSquared = 1) :
    ∃ s : ℝ, s * s = 1 ∧ ofMatrix q.matrix = scaled s q := by
  rw [normSquared_eq] at h
  rw [matrix_eq]
  unfold ofMatrix
  dsimp only
  simp only [Bool.and_eq_true, Scalar.real_lt]
  split
  case isTrue htrace =>
    have hw : q.w ≠ 0 := by
      intro hzero
      rw [hzero] at h
      linarith
    refine ⟨q.w / |q.w|, sense_mul_self hw, ?_⟩
    rw [divisor_eq (c := q.w) (by linarith)]
    unfold scaled
    congr 1
    · exact quotient_eq hw (by ring)
    · exact quotient_eq hw (by ring)
    · exact quotient_eq hw (by ring)
    · exact quarter_eq hw
  case isFalse htrace =>
    split
    case isTrue hlargest =>
      have hx : q.x ≠ 0 := by
        intro hzero
        rw [hzero] at hlargest
        linarith [mul_self_nonneg q.y, hlargest.1]
      refine ⟨q.x / |q.x|, sense_mul_self hx, ?_⟩
      rw [divisor_eq (c := q.x) (by linarith)]
      unfold scaled
      congr 1
      · exact quarter_eq hx
      · exact quotient_eq hx (by ring)
      · exact quotient_eq hx (by ring)
      · exact quotient_eq hx (by ring)
    case isFalse hsmaller =>
      split
      case isTrue hlarger =>
        have hy : q.y ≠ 0 := by
          intro hzero
          rw [hzero] at hlarger
          linarith [mul_self_nonneg q.z]
        refine ⟨q.y / |q.y|, sense_mul_self hy, ?_⟩
        rw [divisor_eq (c := q.y) (by linarith)]
        unfold scaled
        congr 1
        · exact quotient_eq hy (by ring)
        · exact quarter_eq hy
        · exact quotient_eq hy (by ring)
        · exact quotient_eq hy (by ring)
      case isFalse hnotlarger =>
        have hz : q.z ≠ 0 := by
          apply z_ne_zero h (by linarith) ?_ (by linarith)
          rintro ⟨hyx, hzx⟩
          exact hsmaller ⟨by linarith, by linarith⟩
        refine ⟨q.z / |q.z|, sense_mul_self hz, ?_⟩
        rw [divisor_eq (c := q.z) (by linarith)]
        unfold scaled
        congr 1
        · exact quotient_eq hz (by ring)
        · exact quotient_eq hz (by ring)
        · exact quarter_eq hz
        · exact quotient_eq hz (by ring)

end Quaternion

end StereoMapping
