import Mathlib.Tactic.FieldSimp
import Mathlib.Tactic.Linarith
import StereoMapping.Camera.Rig
import StereoMapping.Proofs.Number.Real

/-!
# `Proofs.Camera.Rig` — pixels and disparities of a rig, and the points they show

A point in front of a rig is seen at a pixel of the left camera and, in the right one, at the same row and as many
columns further left as its disparity says. In exact arithmetic this is a bijection between the points of positive
depth and the pixels with a positive disparity, and `StereoRig.point?` is its inverse: projecting and going back
along the ray undo each other for any calibration, and the depth `fx b / d` has the disparity `d`.

## Contents
- `Intrinsics.pixel`, `StereoRig.leftPixel`, `StereoRig.rightPixel`: where a point is seen.
- `Intrinsics.pixel_backProject`, `Intrinsics.backProject_pixel`: projection and its inverse.
- `StereoRig.Sees`, `StereoRig.point?_eq_some_iff`: a point is found exactly from what is seen of it.
-/

namespace StereoMapping

/-! ## One camera -/

namespace Intrinsics

/-- The pixel of a point. -/
def pixel {S : Type} [Scalar S] (k : Intrinsics S) (p : Vec3 S) : Vec2 S :=
  ⟨(k.project p).x / (k.project p).z, (k.project p).y / (k.project p).z⟩

variable {k : Intrinsics ℝ}

theorem validate_eq_ok_iff : k.validate = .ok () ↔ 0 < k.fx ∧ 0 < k.fy := by
  unfold validate
  by_cases h : 0 < k.fx ∧ 0 < k.fy
  · rw [if_pos (by simp [h])]
    exact iff_of_true rfl h
  · rw [if_neg (by simpa using h)]
    exact iff_of_false (fun hok => nomatch hok) h

/-- The pixel of a point on the ray of a pixel is that pixel. -/
theorem pixel_backProject (hfx : k.fx ≠ 0) (hfy : k.fy ≠ 0) (p : Vec2 ℝ) {depth : ℝ} (hdepth : depth ≠ 0) :
    k.pixel (k.backProject p depth) = p := by
  obtain ⟨x, y⟩ := p
  simp only [pixel, project, backProject, Vec2.mk.injEq]
  constructor
  · field_simp
    ring
  · field_simp
    ring

/-- A point is on the ray of its pixel, at its depth. -/
theorem backProject_pixel (hfx : k.fx ≠ 0) (hfy : k.fy ≠ 0) {p : Vec3 ℝ} (hdepth : p.z ≠ 0) :
    k.backProject (k.pixel p) p.z = p := by
  obtain ⟨x, y, z⟩ := p
  have hz : z ≠ 0 := hdepth
  simp only [pixel, project, backProject, Vec3.mk.injEq, and_true]
  constructor
  · field_simp
    ring
  · field_simp
    ring

/-- A point moved along the first axis is seen in the same row. -/
theorem pixel_moved {p : Vec3 ℝ} (hdepth : p.z ≠ 0) (b : ℝ) :
    k.pixel ⟨p.x - b, p.y, p.z⟩ = ⟨(k.pixel p).x - k.fx * b / p.z, (k.pixel p).y⟩ := by
  simp only [pixel, project, Vec2.mk.injEq, and_true]
  field_simp
  ring

end Intrinsics

/-! ## Two cameras -/

namespace StereoRig

/-- The pixel of a point in the left image. -/
def leftPixel {S : Type} [Scalar S] (rig : StereoRig S) (p : Vec3 S) : Vec2 S := rig.intrinsics.pixel p

/-- The pixel of a point in the right image. -/
def rightPixel {S : Type} [Scalar S] (rig : StereoRig S) (p : Vec3 S) : Vec2 S :=
  rig.intrinsics.pixel ⟨p.x - rig.baseline, p.y, p.z⟩

/-- A point in front of the rig is seen at a left pixel, at the right pixel that a disparity gives, and has that
disparity. -/
structure Sees (rig : StereoRig ℝ) (point : Vec3 ℝ) (left : Vec2 ℝ) (disparity : ℝ) : Prop where
  in_front : 0 < point.z
  left_eq : rig.leftPixel point = left
  right_eq : rig.rightPixel point = ⟨left.x - disparity, left.y⟩
  disparity_eq : rig.disparity point = disparity

variable {rig : StereoRig ℝ}

theorem validate_eq_ok_iff : rig.validate = .ok () ↔
    0 < rig.intrinsics.fx ∧ 0 < rig.intrinsics.fy ∧ 0 < rig.baseline := by
  unfold validate
  rw [← and_assoc, ← Intrinsics.validate_eq_ok_iff]
  cases rig.intrinsics.validate with
  | error e => exact iff_of_false (fun hok => nomatch hok) (fun hok => nomatch hok.1)
  | ok _ =>
    by_cases h : 0 < rig.baseline
    · have hlt : Scalar.lt 0 rig.baseline = true := (Scalar.real_lt _ _).mpr h
      simp [bind, Except.bind, pure, Except.pure, h, hlt]
    · have hlt : Scalar.lt 0 rig.baseline = false :=
        Bool.eq_false_iff.mpr fun hlt => h ((Scalar.real_lt _ _).mp hlt)
      simp [bind, Except.bind, throw, throwThe, MonadExceptOf.throw, h, hlt]

/-- Every point in front of the rig is seen. -/
theorem sees (rig : StereoRig ℝ) {p : Vec3 ℝ} (hdepth : 0 < p.z) : rig.Sees p (rig.leftPixel p) (rig.disparity p) where
  in_front := hdepth
  left_eq := rfl
  right_eq := Intrinsics.pixel_moved hdepth.ne' rig.baseline
  disparity_eq := rfl

theorem disparity_pos (h : rig.validate = .ok ()) {p : Vec3 ℝ} (hdepth : 0 < p.z) : 0 < rig.disparity p := by
  obtain ⟨hfx, _, hbaseline⟩ := validate_eq_ok_iff.mp h
  exact div_pos (mul_pos hfx hbaseline) hdepth

theorem point?_of_pos {left : Vec2 ℝ} {d : ℝ} (hd : 0 < d) :
    rig.point? left d = some (rig.intrinsics.backProject left (rig.intrinsics.fx * rig.baseline / d)) := by
  unfold point?
  rw [if_pos ((Scalar.real_lt 0 d).mpr hd)]

theorem point?_of_not_pos {left : Vec2 ℝ} {d : ℝ} (hd : ¬ 0 < d) : rig.point? left d = none := by
  unfold point?
  rw [if_neg fun h => hd ((Scalar.real_lt 0 d).mp h)]

/-- What is found at a pixel with a positive disparity is in front of the rig, and is seen there. -/
theorem sees_of_pos (h : rig.validate = .ok ()) (left : Vec2 ℝ) {d : ℝ} (hd : 0 < d) :
    rig.Sees (rig.intrinsics.backProject left (rig.intrinsics.fx * rig.baseline / d)) left d := by
  obtain ⟨hfx, hfy, hbaseline⟩ := validate_eq_ok_iff.mp h
  have hlength : 0 < rig.intrinsics.fx * rig.baseline := mul_pos hfx hbaseline
  have hdepth : 0 < rig.intrinsics.fx * rig.baseline / d := div_pos hlength hd
  have hleft : rig.leftPixel (rig.intrinsics.backProject left (rig.intrinsics.fx * rig.baseline / d)) = left :=
    Intrinsics.pixel_backProject hfx.ne' hfy.ne' left hdepth.ne'
  have hdisparity : rig.disparity (rig.intrinsics.backProject left (rig.intrinsics.fx * rig.baseline / d)) = d :=
    div_div_cancel₀ hlength.ne'
  have hsees := rig.sees (p := rig.intrinsics.backProject left (rig.intrinsics.fx * rig.baseline / d)) hdepth
  rw [hleft, hdisparity] at hsees
  exact hsees

/-- **A point is found from a pixel and a disparity exactly if this is what is seen of it.** -/
theorem point?_eq_some_iff (h : rig.validate = .ok ()) {left : Vec2 ℝ} {d : ℝ} {p : Vec3 ℝ} :
    rig.point? left d = some p ↔ rig.Sees p left d := by
  constructor
  · intro hpoint
    by_cases hd : 0 < d
    · rw [point?_of_pos hd] at hpoint
      obtain rfl := Option.some.inj hpoint
      exact sees_of_pos h left hd
    · rw [point?_of_not_pos hd] at hpoint
      cases hpoint
  · intro hsees
    obtain ⟨hfx, hfy, hbaseline⟩ := validate_eq_ok_iff.mp h
    have hd : 0 < d := hsees.disparity_eq ▸ disparity_pos h hsees.in_front
    have hdepth : rig.intrinsics.fx * rig.baseline / d = p.z := by
      rw [← hsees.disparity_eq]
      exact div_div_cancel₀ (mul_pos hfx hbaseline).ne'
    rw [point?_of_pos hd, hdepth, ← hsees.left_eq]
    exact congrArg some (Intrinsics.backProject_pixel hfx.ne' hfy.ne' hsees.in_front.ne')

end StereoRig

end StereoMapping
