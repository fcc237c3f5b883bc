import Mathlib.Algebra.Group.Basic
import StereoMapping.Proofs.Geometry.Matrix
import StereoMapping.Proofs.Geometry.RigidMotion

/-!
# `Proofs.Geometry.Composition` — the group laws of valid poses

A pose is read as a motion once, and there its orientation is divided by its norm. From then on everything is done with
unit quaternions, which form a group together with the translations: products and conjugates of unit quaternions are
unit, and their rotations compose. A motion of this group, written as a pose, is valid and read back as itself. So the
laws of the group are laws of poses, as equations of positions and quaternions and not only of the maps that these
stand for, under which a quaternion and its opposite would be the same.

## Contents
- `Quaternion.mul_mul`, `Quaternion.normalize_scaled`: products; the direction of a multiple.
- `UnitMotion`: the group of motions with unit quaternions.
- `Pose.Describes`: the motion that a pose is read as, with `Describes.compose`, `Describes.inverse`.
- `Pose.compose?_eq_none_iff`: what is not composed, over any scalars.
-/

namespace StereoMapping

/-! ## Quaternions -/

namespace Quaternion

theorem mul_mul (a b c : Quaternion ℝ) : a * b * c = a * (b * c) := by
  simp only [mul_eq]
  ext <;> ring

theorem identity_mul (q : Quaternion ℝ) : identity * q = q := by
  ext <;> simp [mul_eq, identity]

theorem mul_identity (q : Quaternion ℝ) : q * identity = q := by
  ext <;> simp [mul_eq, identity]

theorem rotate_neg (q : Quaternion ℝ) (v : Vec3 ℝ) : q.rotate (-v) = -q.rotate v := by
  simp only [rotate_eq, Vec3.neg_def]
  ext <;> ring

/-- A positive multiple has the same direction. -/
theorem normalize_scaled {s : ℝ} (hs : 0 < s) (q : Quaternion ℝ) : (scaled s q).normalize = q.normalize := by
  have hnorm : (scaled s q).norm = s * q.norm := by
    have hsquare : (scaled s q).normSquared = s ^ 2 * q.normSquared := by
      simp only [scaled, normSquared_eq]
      ring
    show Real.sqrt (scaled s q).normSquared = s * Real.sqrt q.normSquared
    rw [hsquare, Real.sqrt_mul (sq_nonneg s), Real.sqrt_sq hs.le]
  simp only [normalize, hnorm]
  ext <;> exact mul_div_mul_left _ _ hs.ne'

end Quaternion

/-! ## The group of motions -/

attribute [ext] Motion

/-- A motion whose rotation is a unit quaternion. -/
abbrev UnitMotion : Type := {m : Motion ℝ // m.rotation.normSquared = 1}

namespace UnitMotion

theorem normSquared_mul (m n : UnitMotion) : (m.1 * n.1).rotation.normSquared = 1 :=
  (Quaternion.normSquared_mul m.1.rotation n.1.rotation).trans (by rw [m.2, n.2, one_mul])

/-- Rotations compose, and so do the translations that they turn. -/
theorem mul_mul (m n k : UnitMotion) : m.1 * n.1 * k.1 = m.1 * (n.1 * k.1) := by
  apply Motion.ext
  · exact Quaternion.mul_mul m.1.rotation n.1.rotation k.1.rotation
  · show m.1.translation + m.1.rotation.rotate n.1.translation
        + (m.1.rotation * n.1.rotation).rotate k.1.translation
      = m.1.translation + m.1.rotation.rotate (n.1.translation + n.1.rotation.rotate k.1.translation)
    rw [Quaternion.rotate_mul m.2 n.2, Quaternion.rotate_add]
    simp only [Vec3.add_def]
    ext <;> ring

theorem identity_mul (m : UnitMotion) : Motion.identity * m.1 = m.1 := by
  apply Motion.ext
  · exact Quaternion.identity_mul m.1.rotation
  · show Vec3.zero + Quaternion.identity.rotate m.1.translation = m.1.translation
    rw [Quaternion.rotate_identity]
    ext <;> simp [Vec3.zero]

theorem mul_identity (m : UnitMotion) : m.1 * Motion.identity = m.1 := by
  apply Motion.ext
  · exact Quaternion.mul_identity m.1.rotation
  · show m.1.translation + m.1.rotation.rotate Vec3.zero = m.1.translation
    rw [Quaternion.rotate_eq]
    ext <;> simp [Vec3.zero]

/-- The translation of the inverse is the opposite one, turned back. -/
theorem inverse_mul (m : UnitMotion) : m.1.inverse * m.1 = Motion.identity := by
  apply Motion.ext
  · exact Quaternion.conjugate_mul m.2
  · show m.1.rotation.conjugate.rotate (-m.1.translation) + m.1.rotation.conjugate.rotate m.1.translation = Vec3.zero
    rw [Quaternion.rotate_neg]
    ext <;> simp [Vec3.zero]

noncomputable instance : Group UnitMotion where
  mul m n := ⟨m.1 * n.1, normSquared_mul m n⟩
  one := ⟨.identity, Quaternion.normSquared_identity⟩
  inv m := ⟨m.1.inverse, (Quaternion.normSquared_conjugate m.1.rotation).trans m.2⟩
  mul_assoc m n k := Subtype.ext (mul_mul m n k)
  one_mul m := Subtype.ext (identity_mul m)
  mul_one m := Subtype.ext (mul_identity m)
  inv_mul_cancel m := Subtype.ext (inverse_mul m)

end UnitMotion

/-! ## Poses -/

namespace Pose

/-- Composition fails exactly if one of the poses is not valid. -/
theorem compose?_eq_none_iff {α : Type} [Scalar α] (a b : Pose α) :
    a.compose? b = none ↔ a.isValid = false ∨ b.isValid = false := by
  unfold compose? toMotion?
  cases a.isValid <;> cases b.isValid <;> simp

/-- A valid pose is read as a motion. -/
def Describes (p : Pose ℝ) (m : UnitMotion) : Prop := p.toMotion? = some m.1

theorem exists_describes {p : Pose ℝ} (h : p.isValid = true) :
    ∃ m : UnitMotion, p.Describes m ∧ m.1 = ⟨p.orientation.normalize, p.position⟩ :=
  ⟨⟨⟨p.orientation.normalize, p.position⟩, normSquared_of_isValid h⟩, if_pos h, rfl⟩

/-- **A motion, written as a pose, is read back as itself.** -/
theorem describes_ofMotion (m : UnitMotion) : (ofMotion m.1).Describes m := by
  have hvalid : (ofMotion m.1).isValid = true := isValid_iff.mpr (lt_of_lt_of_eq Scalar.real_epsilon.2 m.2.symm)
  unfold Describes toMotion?
  rw [if_pos hvalid]
  show some (⟨m.1.rotation.normalize, m.1.translation⟩ : Motion ℝ) = some m.1
  rw [Quaternion.normalize_eq m.2]

theorem Describes.isValid {p : Pose ℝ} {m : UnitMotion} (h : p.Describes m) : p.isValid = true := by
  unfold Describes toMotion? at h
  split at h
  · assumption
  · cases h

theorem Describes.compose {p q : Pose ℝ} {m n : UnitMotion} (hp : p.Describes m) (hq : q.Describes n) :
    p.compose? q = some (ofMotion (m * n).1) := by
  unfold Describes at hp hq
  unfold compose?
  rw [hp, hq]
  rfl

theorem Describes.inverse {p : Pose ℝ} {m : UnitMotion} (hp : p.Describes m) :
    p.inverse? = some (ofMotion m⁻¹.1) := by
  unfold Describes at hp
  unfold inverse?
  rw [hp]
  rfl

/-- The pose with a multiple of its orientation. -/
def scaleOrientation (s : ℝ) (p : Pose ℝ) : Pose ℝ := { p with orientation := p.orientation.scaled s }

/-- **A positive factor of the orientation is lost** when a pose is read. -/
theorem toMotion?_scaleOrientation {s : ℝ} {p : Pose ℝ} (hs : 0 < s) (hp : p.isValid = true)
    (hscaled : (p.scaleOrientation s).isValid = true) : (p.scaleOrientation s).toMotion? = p.toMotion? := by
  unfold toMotion?
  rw [if_pos hp, if_pos hscaled]
  show some (⟨(p.orientation.scaled s).normalize, p.position⟩ : Motion ℝ) = _
  rw [Quaternion.normalize_scaled hs]

end Pose

open Pose in
/-- **Valid poses compose as rigid motions**, whatever the norms of their orientations. Composites and inverses of valid
poses are valid and have unit orientations; a composite moves every point as its second part and then its first one do;
composition is associative; composed with its inverse on either side a pose is the identity, and the inverse of the
inverse is the pose with its orientation normalized; a positive factor of the orientation that keeps the pose valid
makes no difference to anything. Of all poses, exactly those of which one is not valid have no composite. -/
theorem valid_poses_compose {p q r : Pose ℝ} (hp : p.isValid = true) (hq : q.isValid = true) (hr : r.isValid = true) :
    (∃ c, p.compose? q = some c ∧ c.isValid = true ∧ c.orientation.norm = 1 ∧
        ∃ m n k, p.toMotion? = some m ∧ q.toMotion? = some n ∧ c.toMotion? = some k ∧
          ∀ x, k.apply x = m.apply (n.apply x)) ∧
      (∃ i, p.inverse? = some i ∧ i.isValid = true ∧ i.orientation.norm = 1 ∧
        p.compose? i = some identity ∧ i.compose? p = some identity ∧
        i.inverse? = some { p with orientation := p.orientation.normalize }) ∧
      (∃ c d e, p.compose? q = some c ∧ q.compose? r = some d ∧ c.compose? r = some e ∧ p.compose? d = some e) ∧
      (∀ s : ℝ, 0 < s → (p.scaleOrientation s).isValid = true →
        (p.scaleOrientation s).toMotion? = p.toMotion? ∧ (p.scaleOrientation s).inverse? = p.inverse? ∧
        ∀ o : Pose ℝ, (p.scaleOrientation s).compose? o = p.compose? o ∧
          o.compose? (p.scaleOrientation s) = o.compose? p) ∧
      ∀ a b : Pose ℝ, a.compose? b = none ↔ a.isValid = false ∨ b.isValid = false := by
  obtain ⟨m, hm, hmotion⟩ := exists_describes hp
  obtain ⟨n, hn, -⟩ := exists_describes hq
  obtain ⟨k, hk, -⟩ := exists_describes hr
  refine ⟨?_, ?_, ?_, ?_, compose?_eq_none_iff⟩
  · have hmn := describes_ofMotion (m * n)
    exact ⟨_, hm.compose hn, hmn.isValid, Quaternion.norm_of_normSquared (m * n).2, _, _, _, hm, hn, hmn,
      Motion.apply_mul m.2 n.2⟩
  · have hinverse := describes_ofMotion m⁻¹
    refine ⟨_, hm.inverse, hinverse.isValid, Quaternion.norm_of_normSquared (m⁻¹).2, ?_, ?_, ?_⟩
    · rw [hm.compose hinverse, mul_inv_cancel]
      rfl
    · rw [hinverse.compose hm, inv_mul_cancel]
      rfl
    · rw [hinverse.inverse, inv_inv, hmotion]
      rfl
  · refine ⟨_, _, _, hm.compose hn, hn.compose hk, (describes_ofMotion (m * n)).compose hk, ?_⟩
    rw [hm.compose (describes_ofMotion (n * k)), mul_assoc]
  · intro s hs hscaled
    have hread := toMotion?_scaleOrientation hs hp hscaled
    refine ⟨hread, ?_, ?_⟩
    · unfold inverse?
      rw [hread]
    · intro o
      unfold compose?
      rw [hread]
      exact ⟨rfl, rfl⟩

open Pose in
/-- A half turn about a diagonal axis, given by a quaternion of norm five, a shift, and the half turn again. -/
theorem valid_poses_compose_halfTurn :
    (⟨⟨1, -2, 3⟩, ⟨3, 0, 4, 0⟩⟩ : Pose ℝ).isValid = true ∧ (ofTranslation 0 0 7 : Pose ℝ).isValid = true ∧
      (∃ i, (⟨⟨1, -2, 3⟩, ⟨3, 0, 4, 0⟩⟩ : Pose ℝ).inverse? = some i ∧
        (⟨⟨1, -2, 3⟩, ⟨3, 0, 4, 0⟩⟩ : Pose ℝ).compose? i = some identity) ∧
      ∃ c d e, (⟨⟨1, -2, 3⟩, ⟨3, 0, 4, 0⟩⟩ : Pose ℝ).compose? (ofTranslation 0 0 7) = some c ∧
        (ofTranslation 0 0 7 : Pose ℝ).compose? ⟨⟨1, -2, 3⟩, ⟨3, 0, 4, 0⟩⟩ = some d ∧
        c.compose? ⟨⟨1, -2, 3⟩, ⟨3, 0, 4, 0⟩⟩ = some e ∧
        (⟨⟨1, -2, 3⟩, ⟨3, 0, 4, 0⟩⟩ : Pose ℝ).compose? d = some e := by
  have hlarge : ∀ n : ℝ, 1 ≤ n → Scalar.epsilon < n := fun n hn => lt_of_lt_of_le Scalar.real_epsilon.2 hn
  have hturn : (⟨⟨1, -2, 3⟩, ⟨3, 0, 4, 0⟩⟩ : Pose ℝ).isValid = true := by
    rw [isValid_iff, Quaternion.normSquared_eq]
    exact hlarge _ (by norm_num)
  have hshift : (ofTranslation 0 0 7 : Pose ℝ).isValid = true := by
    rw [isValid_iff]
    exact hlarge _ Quaternion.normSquared_identity.ge
  obtain ⟨-, ⟨i, hinverse, -, -, hcompose, -⟩, hassoc, -⟩ := valid_poses_compose hturn hshift hturn
  exact ⟨hturn, hshift, ⟨i, hinverse, hcompose⟩, hassoc⟩

end StereoMapping
