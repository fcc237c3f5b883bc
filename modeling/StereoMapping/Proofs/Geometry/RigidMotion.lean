import Mathlib.Algebra.Group.Subgroup.Defs
import Mathlib.Tactic.Ring
import StereoMapping.Geometry.Pose
import StereoMapping.Proofs.Number.Real

/-!
# `Proofs.Geometry.RigidMotion` — poses as elements of a group

A rigid motion is a permutation of space that keeps distances. In exact arithmetic the motion of every valid
pose is one, `Pose.rigid?`, and composition and inverse of poses are those of the group. The polynomial
identities of unit quaternions that this rests on hold up to multiples of `|q|² - 1`; each is stated with the
multiple, and used where that vanishes.

## Contents
- `Quaternion.rotate_eq`: a rotation in coordinates; `rotate_mul`, `rotate_conjugate`, `normSquared_rotate`.
- `Motion.apply_mul`, `inverse_apply`, `apply_inverse`: motions with unit rotations compose and invert.
- `rigidMotions`, `Motion.rigid`, `Pose.rigid?`.
- `Pose.rigid?_compose`, `Pose.rigid?_inverse`: the operations on poses are those of the group.
-/

namespace StereoMapping

attribute [ext] Vec3 Quaternion

/-! ## Rotations -/

namespace Quaternion

/-- A rotation in coordinates. -/
theorem rotate_eq (q : Quaternion ℝ) (v : Vec3 ℝ) : q.rotate v =
    ⟨v.x + 2 * (q.w * (q.y * v.z - q.z * v.y) + q.y * (q.x * v.y - q.y * v.x) - q.z * (q.z * v.x - q.x * v.z)),
     v.y + 2 * (q.w * (q.z * v.x - q.x * v.z) + q.z * (q.y * v.z - q.z * v.y) - q.x * (q.x * v.y - q.y * v.x)),
     v.z + 2 * (q.w * (q.x * v.y - q.y * v.x) + q.x * (q.z * v.x - q.x * v.z) - q.y * (q.y * v.z - q.z * v.y))⟩ := by
  ext <;> simp only [rotate, imaginary, Vec3.cross, Vec3.scale, Vec3.add_def, Scalar.real_two] <;> ring

theorem normSquared_eq (q : Quaternion ℝ) : q.normSquared = q.x * q.x + q.z * q.z + (q.y * q.y + q.w * q.w) :=
  rfl

theorem mul_eq (a b : Quaternion ℝ) : a * b =
    ⟨a.w * b.x + a.x * b.w + a.y * b.z - a.z * b.y, a.w * b.y - a.x * b.z + a.y * b.w + a.z * b.x,
     a.w * b.z + a.x * b.y - a.y * b.x + a.z * b.w, a.w * b.w - a.x * b.x - a.y * b.y - a.z * b.z⟩ := rfl

theorem conjugate_eq (q : Quaternion ℝ) : q.conjugate = ⟨-q.x, -q.y, -q.z, q.w⟩ := rfl

theorem normSquared_mul (a b : Quaternion ℝ) : (a * b).normSquared = a.normSquared * b.normSquared := by
  simp only [mul_eq, normSquared_eq]
  ring

theorem normSquared_conjugate (q : Quaternion ℝ) : q.conjugate.normSquared = q.normSquared := by
  simp only [conjugate_eq, normSquared_eq]
  ring

theorem normSquared_identity : (identity : Quaternion ℝ).normSquared = 1 := by
  simp [normSquared_eq, identity]

theorem rotate_identity (v : Vec3 ℝ) : identity.rotate v = v := by
  rw [rotate_eq]
  ext <;> simp [identity]

theorem rotate_add (q : Quaternion ℝ) (u v : Vec3 ℝ) : q.rotate (u + v) = q.rotate u + q.rotate v := by
  simp only [rotate_eq, Vec3.add_def]
  ext <;> ring

theorem rotate_sub (q : Quaternion ℝ) (u v : Vec3 ℝ) : q.rotate (u - v) = q.rotate u - q.rotate v := by
  simp only [rotate_eq, Vec3.sub_def]
  ext <;> ring

/-- **Rotations by unit quaternions compose.** -/
theorem rotate_mul {a b : Quaternion ℝ} (ha : a.normSquared = 1) (hb : b.normSquared = 1) (v : Vec3 ℝ) :
    (a * b).rotate v = a.rotate (b.rotate v) := by
  -- without the norms the two sides differ by multiples of how far these are from one
  have hx : ((a * b).rotate v).x - (a.rotate (b.rotate v)).x =
      (a.normSquared - 1) * ((b.rotate v).x - b.normSquared * v.x) +
        (b.normSquared - 1) * ((a.rotate v).x + (a.normSquared - 2) * v.x) := by
    simp only [rotate_eq, mul_eq, normSquared_eq]
    ring
  have hy : ((a * b).rotate v).y - (a.rotate (b.rotate v)).y =
      (a.normSquared - 1) * ((b.rotate v).y - b.normSquared * v.y) +
        (b.normSquared - 1) * ((a.rotate v).y + (a.normSquared - 2) * v.y) := by
    simp only [rotate_eq, mul_eq, normSquared_eq]
    ring
  have hz : ((a * b).rotate v).z - (a.rotate (b.rotate v)).z =
      (a.normSquared - 1) * ((b.rotate v).z - b.normSquared * v.z) +
        (b.normSquared - 1) * ((a.rotate v).z + (a.normSquared - 2) * v.z) := by
    simp only [rotate_eq, mul_eq, normSquared_eq]
    ring
  rw [ha, hb, sub_self, zero_mul, zero_mul, add_zero] at hx hy hz
  ext
  · exact sub_eq_zero.mp hx
  · exact sub_eq_zero.mp hy
  · exact sub_eq_zero.mp hz

/-- The conjugate of a unit quaternion is its inverse. -/
theorem conjugate_mul {q : Quaternion ℝ} (h : q.normSquared = 1) : q.conjugate * q = identity := by
  rw [normSquared_eq] at h
  ext <;> simp only [mul_eq, conjugate_eq, identity]
  · ring
  · ring
  · ring
  · rw [← h]
    ring

/-- The conjugate of a unit quaternion rotates back. -/
theorem rotate_conjugate {q : Quaternion ℝ} (h : q.normSquared = 1) (v : Vec3 ℝ) :
    q.conjugate.rotate (q.rotate v) = v := by
  rw [← rotate_mul ((normSquared_conjugate q).trans h) h, conjugate_mul h, rotate_identity]

theorem rotate_rotate_conjugate {q : Quaternion ℝ} (h : q.normSquared = 1) (v : Vec3 ℝ) :
    q.rotate (q.conjugate.rotate v) = v := by
  have hback : q.conjugate.conjugate = q := by
    simp only [conjugate_eq, neg_neg]
  have hself := rotate_conjugate ((normSquared_conjugate q).trans h) v
  rw [hback] at hself
  exact hself

/-- **Rotations by unit quaternions keep lengths.** -/
theorem normSquared_rotate {q : Quaternion ℝ} (h : q.normSquared = 1) (v : Vec3 ℝ) :
    (q.rotate v).normSquared = v.normSquared := by
  have hmultiple : (q.rotate v).normSquared - v.normSquared =
      4 * (q.imaginary.cross v).normSquared * (q.normSquared - 1) := by
    simp only [rotate_eq, normSquared_eq, Vec3.normSquared, Vec3.dot, Vec3.cross, imaginary]
    ring
  rw [h, sub_self, mul_zero] at hmultiple
  exact sub_eq_zero.mp hmultiple

/-- A quaternion that is not zero has a unit direction. -/
theorem normSquared_normalize {q : Quaternion ℝ} (h : 0 < q.normSquared) : q.normalize.normSquared = 1 := by
  have hroot : q.norm * q.norm = q.normSquared := Real.mul_self_sqrt (le_of_lt h)
  have hne : q.normSquared ≠ 0 := ne_of_gt h
  have hquotient : q.normalize.normSquared = q.normSquared / (q.norm * q.norm) := by
    simp only [normalize, normSquared_eq]
    ring
  rw [hquotient, hroot, div_self hne]

theorem norm_of_normSquared {q : Quaternion ℝ} (h : q.normSquared = 1) : q.norm = 1 := by
  show Real.sqrt q.normSquared = 1
  rw [h, Real.sqrt_one]

/-- A unit quaternion is its own direction. -/
theorem normalize_eq {q : Quaternion ℝ} (h : q.normSquared = 1) : q.normalize = q := by
  unfold normalize
  rw [norm_of_normSquared h]
  ext <;> exact div_one _

end Quaternion

/-! ## Motions -/

namespace Motion

theorem apply_eq (m : Motion ℝ) (p : Vec3 ℝ) : m.apply p = m.rotation.rotate p + m.translation := rfl

theorem apply_mul {m n : Motion ℝ} (hm : m.rotation.normSquared = 1) (hn : n.rotation.normSquared = 1)
    (p : Vec3 ℝ) : (m * n).apply p = m.apply (n.apply p) := by
  show (m.rotation * n.rotation).rotate p + (m.translation + m.rotation.rotate n.translation) = _
  rw [Quaternion.rotate_mul hm hn, apply_eq, apply_eq, Quaternion.rotate_add]
  simp only [Vec3.add_def]
  ext <;> ring

theorem inverse_apply {m : Motion ℝ} (h : m.rotation.normSquared = 1) (p : Vec3 ℝ) :
    m.inverse.apply (m.apply p) = p := by
  show m.rotation.conjugate.rotate (m.rotation.rotate p + m.translation)
    + m.rotation.conjugate.rotate (-m.translation) = p
  rw [← Quaternion.rotate_add, ← Quaternion.rotate_conjugate h p]
  congr 1
  rw [Quaternion.rotate_conjugate h p]
  simp only [Vec3.add_def, Vec3.neg_def]
  ext <;> ring

theorem apply_inverse {m : Motion ℝ} (h : m.rotation.normSquared = 1) (p : Vec3 ℝ) :
    m.apply (m.inverse.apply p) = p := by
  show m.rotation.rotate (m.rotation.conjugate.rotate p + m.rotation.conjugate.rotate (-m.translation))
    + m.translation = p
  rw [← Quaternion.rotate_add, Quaternion.rotate_rotate_conjugate h]
  simp only [Vec3.add_def, Vec3.neg_def]
  ext <;> ring

/-- A motion with a unit rotation keeps distances. -/
theorem normSquared_apply_sub {m : Motion ℝ} (h : m.rotation.normSquared = 1) (p q : Vec3 ℝ) :
    (m.apply p - m.apply q).normSquared = (p - q).normSquared := by
  have hsub : m.apply p - m.apply q = m.rotation.rotate (p - q) := by
    rw [apply_eq, apply_eq, Quaternion.rotate_sub]
    simp only [Vec3.add_def, Vec3.sub_def]
    ext <;> ring
  rw [hsub, Quaternion.normSquared_rotate h]

end Motion

/-! ## The group -/

/-- The permutations of space that keep distances. -/
def rigidMotions : Subgroup (Equiv.Perm (Vec3 ℝ)) where
  carrier := {f | ∀ p q, (f p - f q).normSquared = (p - q).normSquared}
  one_mem' := by
    intro p q
    rfl
  mul_mem' := by
    intro f g hf hg p q
    exact (hf (g p) (g q)).trans (hg p q)
  inv_mem' := by
    intro f hf p q
    have hback := hf (f⁻¹ p) (f⁻¹ q)
    have hp : f (f⁻¹ p) = p := f.apply_symm_apply p
    have hq : f (f⁻¹ q) = q := f.apply_symm_apply q
    rw [hp, hq] at hback
    exact hback.symm

/-- A rigid motion of space. -/
abbrev RigidMotion := ↥rigidMotions

theorem RigidMotion.ext {f g : RigidMotion} (h : ∀ p, f.1 p = g.1 p) : f = g :=
  Subtype.ext (Equiv.ext h)

namespace Motion

/-- A motion with a unit rotation, as a rigid motion. -/
noncomputable def rigid (m : Motion ℝ) (h : m.rotation.normSquared = 1) : RigidMotion :=
  ⟨⟨m.apply, m.inverse.apply, inverse_apply h, apply_inverse h⟩, normSquared_apply_sub h⟩

theorem rigid_mul {m n : Motion ℝ} (hm : m.rotation.normSquared = 1) (hn : n.rotation.normSquared = 1) :
    (m * n).rigid ((Quaternion.normSquared_mul _ _).trans (by rw [hm, hn, one_mul]))
      = m.rigid hm * n.rigid hn :=
  RigidMotion.ext (apply_mul hm hn)

theorem rigid_inverse {m : Motion ℝ} (h : m.rotation.normSquared = 1) :
    m.inverse.rigid ((Quaternion.normSquared_conjugate _).trans h) = (m.rigid h)⁻¹ :=
  RigidMotion.ext fun _ => rfl

end Motion

/-! ## Poses -/

namespace Pose

/-- A pose is valid if its orientation is long enough. -/
theorem isValid_iff {p : Pose ℝ} : p.isValid = true ↔ Scalar.epsilon < p.orientation.normSquared := by
  unfold isValid
  simp [Vec3.isFinite, Quaternion.isFinite]

theorem normSquared_of_isValid {p : Pose ℝ} (h : p.isValid = true) :
    p.orientation.normalize.normSquared = 1 :=
  Quaternion.normSquared_normalize (lt_trans Scalar.real_epsilon.1 (isValid_iff.mp h))

/-- The rigid motion of a valid pose. -/
noncomputable def rigid? (p : Pose ℝ) : Option RigidMotion :=
  if h : p.isValid = true then
    some (Motion.rigid ⟨p.orientation.normalize, p.position⟩ (normSquared_of_isValid h))
  else none

theorem isValid_of_rigid? {p : Pose ℝ} {g : RigidMotion} (h : p.rigid? = some g) : p.isValid = true := by
  unfold rigid? at h
  split at h
  · assumption
  · cases h

/-- The motion of a pose is a rigid motion if its pose is read as one. -/
theorem exists_toMotion? {p : Pose ℝ} {g : RigidMotion} (h : p.rigid? = some g) :
    ∃ (m : Motion ℝ) (hunit : m.rotation.normSquared = 1), p.toMotion? = some m ∧ m.rigid hunit = g := by
  have hvalid := isValid_of_rigid? h
  unfold rigid? at h
  rw [dif_pos hvalid] at h
  refine ⟨_, normSquared_of_isValid hvalid, ?_, Option.some.inj h⟩
  unfold toMotion?
  rw [if_pos hvalid]

/-- The pose of a motion is read as that motion. -/
theorem rigid?_ofMotion {m : Motion ℝ} (h : m.rotation.normSquared = 1) :
    (ofMotion m).rigid? = some (m.rigid h) := by
  have hvalid : (ofMotion m).isValid = true := by
    rw [isValid_iff]
    exact lt_of_lt_of_eq Scalar.real_epsilon.2 h.symm
  unfold rigid?
  rw [dif_pos hvalid]
  congr 2
  show (⟨m.rotation.normalize, m.translation⟩ : Motion ℝ) = m
  rw [Quaternion.normalize_eq h]

/-- **Inverses of poses are those of their rigid motions.** -/
theorem rigid?_inverse {p : Pose ℝ} {g : RigidMotion} (h : p.rigid? = some g) :
    ∃ q, p.inverse? = some q ∧ q.rigid? = some g⁻¹ := by
  obtain ⟨m, hunit, hmotion, rfl⟩ := exists_toMotion? h
  refine ⟨ofMotion m.inverse, ?_, ?_⟩
  · unfold inverse?
    rw [hmotion]
    rfl
  · rw [rigid?_ofMotion ((Quaternion.normSquared_conjugate _).trans hunit), Motion.rigid_inverse]

/-- **Composition of poses is that of their rigid motions.** -/
theorem rigid?_compose {p q : Pose ℝ} {f g : RigidMotion} (hp : p.rigid? = some f) (hq : q.rigid? = some g) :
    ∃ r, p.compose? q = some r ∧ r.rigid? = some (f * g) := by
  obtain ⟨m, hm, hmotion, rfl⟩ := exists_toMotion? hp
  obtain ⟨n, hn, hmotion', rfl⟩ := exists_toMotion? hq
  refine ⟨ofMotion (m * n), ?_, ?_⟩
  · unfold compose?
    rw [hmotion, hmotion']
  · rw [← Motion.rigid_mul hm hn]
    exact rigid?_ofMotion _

theorem exists_rigid?_of_isValid {p : Pose ℝ} (h : p.isValid = true) : ∃ g, p.rigid? = some g := by
  unfold rigid?
  rw [dif_pos h]
  exact ⟨_, rfl⟩

end Pose

end StereoMapping
