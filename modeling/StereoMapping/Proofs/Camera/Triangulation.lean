import Mathlib.Tactic.Linarith
import Mathlib.Tactic.NormNum
import StereoMapping.Component.Builtin
import StereoMapping.Proofs.Camera.Rig
import StereoMapping.Proofs.Number.Stored

/-!
# `Proofs.Camera.Triangulation` — what is triangulated from matched pixels

The geometry of a rig is that of real numbers (`Proofs.Camera.Rig`). A triangulation gets its pixels from storage,
where a coordinate may also be no number, and gives one point for each match, a placeholder where there is none. On
numbers the two agree, so what a match of real pixels gives is the point that is seen there.

## Contents
- `Vec2.stored`, `StereoRig.stored`, `StereoRig.point?_stored`: storing loses nothing.
- `StereoRig.Places`, `StereoRig.places_triangulate`: one match; `StereoRig.triangulate_matchOf`, one point.
- `StereoRig.stereo_bijection`: points and pixels with disparities, and lists of them.
-/

namespace StereoMapping

/-! ## Stored pixels and rigs -/

/-- A pixel in storage. -/
def Vec2.stored (p : Vec2 ℝ) : Vec2 Stored := ⟨.number p.x, .number p.y⟩

/-- The parameters of a camera in storage. -/
def Intrinsics.stored (k : Intrinsics ℝ) : Intrinsics Stored :=
  ⟨k.centre.stored, .number k.focalLength, k.scaling.stored, .number k.skew⟩

/-- A rig in storage. -/
def StereoRig.stored (rig : StereoRig ℝ) : StereoRig Stored := ⟨rig.intrinsics.stored, .number rig.baseline⟩

/-- A stored pixel is valid if both coordinates are numbers. -/
theorem Vec2.isValid_iff_stored {p : Vec2 Stored} : p.isValid = true ↔ ∃ q : Vec2 ℝ, p = q.stored := by
  obtain ⟨x, y⟩ := p
  constructor
  · intro h
    cases x with
    | none => cases h
    | some x =>
      cases y with
      | none => cases h
      | some y => exact ⟨⟨x, y⟩, rfl⟩
  · rintro ⟨q, hq⟩
    rw [hq]
    rfl

namespace StereoRig

variable {rig : StereoRig ℝ}

theorem point?_stored (rig : StereoRig ℝ) (p : Vec2 ℝ) (d : ℝ) :
    rig.stored.point? p.stored (.number d) = (rig.point? p d).map Vec3.narrow := by
  unfold point?
  rw [show Scalar.lt (0 : Stored) (.number d) = Scalar.lt 0 d from rfl]
  split <;> rfl

/-! ## One match -/

/-- The match of the pixels at which a point is seen. -/
noncomputable def matchOf (rig : StereoRig ℝ) (p : Vec3 ℝ) (probability : Stored) : Correspondence (Vec2 Stored) Stored :=
  ⟨(rig.leftPixel p).stored, (rig.rightPixel p).stored, probability⟩

/-- What a match of two numbers gives. -/
theorem triangulate_stored {c : Correspondence (Vec2 Stored) Stored} {p q : Vec2 ℝ} (hsource : c.source = p.stored)
    (hsink : c.sink = q.stored) :
    rig.stored.triangulate c = ((rig.point? p (p.x - q.x)).map Vec3.narrow).getD .invalid := by
  have hvalid : c.isValid = true := by
    unfold Correspondence.isValid
    rw [hsource, hsink]
    rfl
  unfold triangulate
  rw [if_pos hvalid, hsource, hsink, ← point?_stored]
  rfl

/-- A match gives a valid point exactly if both ends are valid and the disparity is positive, and else a
placeholder. The point is the one that is seen at the left pixel with that disparity. -/
structure Places (rig : StereoRig ℝ) (c : Correspondence (Vec2 Stored) Stored) (point : Vec3 Stored) : Prop where
  valid_iff : point.isValid = true ↔ c.isValid = true ∧ Scalar.lt 0 (c.source.x - c.sink.x) = true
  placeholder : point.isValid = false → point = .invalid
  seen : point.isValid = true → ∃ left d p, c.source = left.stored ∧ c.source.x - c.sink.x = .number d ∧
    rig.Sees p left d ∧ point = p.narrow

theorem unplaced {c : Correspondence (Vec2 Stored) Stored}
    (h : ¬ (c.isValid = true ∧ Scalar.lt 0 (c.source.x - c.sink.x) = true)) : rig.Places c .invalid where
  valid_iff := iff_of_false Bool.false_ne_true h
  placeholder _ := rfl
  seen hvalid := nomatch hvalid

theorem places_triangulate (h : rig.validate = .ok ()) (c : Correspondence (Vec2 Stored) Stored) :
    rig.Places c (rig.stored.triangulate c) := by
  by_cases hvalid : c.isValid = true
  · obtain ⟨hsource, hsink⟩ := Bool.and_eq_true_iff.mp hvalid
    obtain ⟨p, hp⟩ := Vec2.isValid_iff_stored.mp hsource
    obtain ⟨q, hq⟩ := Vec2.isValid_iff_stored.mp hsink
    have hdisparity : c.source.x - c.sink.x = .number (p.x - q.x) := by
      rw [hp, hq]
      rfl
    have hlt : Scalar.lt 0 (c.source.x - c.sink.x) = true ↔ 0 < p.x - q.x := by
      rw [hdisparity]
      exact Scalar.real_lt 0 (p.x - q.x)
    rw [triangulate_stored hp hq]
    by_cases hd : 0 < p.x - q.x
    · have hsees := sees_of_pos h p hd
      rw [(point?_eq_some_iff h).mpr hsees]
      exact {
        valid_iff := iff_of_true rfl ⟨hvalid, hlt.mpr hd⟩
        placeholder := fun hinvalid => nomatch hinvalid
        seen := fun _ => ⟨p, _, _, hp, hdisparity, hsees, rfl⟩ }
    · rw [point?_of_not_pos hd]
      exact unplaced fun hboth => hd (hlt.mp hboth.2)
  · unfold triangulate
    rw [if_neg hvalid]
    exact unplaced fun hboth => hvalid hboth.1

/-- A point in front of the rig comes back from the pixels at which it is seen. -/
theorem triangulate_matchOf (h : rig.validate = .ok ()) {p : Vec3 ℝ} (hdepth : 0 < p.z) (probability : Stored) :
    rig.stored.triangulate (rig.matchOf p probability) = p.narrow := by
  have hsees := rig.sees hdepth
  have hd : (rig.leftPixel p).x - (rig.rightPixel p).x = rig.disparity p := by
    rw [hsees.right_eq]
    exact sub_sub_cancel _ _
  rw [triangulate_stored rfl rfl, hd, (point?_eq_some_iff h).mpr hsees]
  rfl

/-! ## Lists of matches -/

/-- What a new triangulation gives for the camera of a rig and a right camera in some pose. -/
noncomputable def triangulation (rig : StereoRig ℝ) (cs : Correspondences (Vec2 Stored) Stored) (right : Pose ℝ) :
    Cloud Stored :=
  ((matchTriangulation.new ⟨rig.intrinsics.stored⟩).run (cs, right)).2

/-- At the distance of the baseline, each match is triangulated by the rig. -/
theorem triangulation_eq (h : rig.validate = .ok ()) {right : Pose ℝ} (hright : right.position.norm = rig.baseline)
    (cs : Correspondences (Vec2 Stored) Stored) :
    rig.triangulation cs right = .ofPoints (cs.map rig.stored.triangulate) := by
  have hbaseline : Scalar.lt 0 rig.baseline = true := (Scalar.real_lt _ _).mpr (validate_eq_ok_iff.mp h).2.2
  have hpoints : StereoMapping.triangulate rig.intrinsics.stored cs right.position = cs.map rig.stored.triangulate := by
    unfold StereoMapping.triangulate
    rw [hright]
    refine congrArg (fun f => Array.map f cs) (funext fun c => ?_)
    rw [if_pos]
    · rfl
    · exact hbaseline
  show Cloud.mk (#[] ++ StereoMapping.triangulate rig.intrinsics.stored cs right.position) 0 = _
  rw [hpoints, Array.empty_append]
  rfl

/-- **Points and pixels with disparities correspond one to one**, for a valid rig of any calibration. What is found
at a pixel with a positive disparity is in front of the rig and seen there, in both images, and every point in front
of the rig is found from what is seen of it. So a triangulation gives back any list of points in front of the rig
from the matches of their pixels, and from any list of matches one point each, with placeholders exactly where an
end is invalid or the disparity is not positive. -/
theorem stereo_bijection (h : rig.validate = .ok ()) :
    (∀ (left : Vec2 ℝ) (d : ℝ), 0 < d → ∃ p, rig.point? left d = some p ∧ rig.Sees p left d) ∧
    (∀ p : Vec3 ℝ, 0 < p.z → rig.point? (rig.leftPixel p) (rig.disparity p) = some p) ∧
    ∀ right : Pose ℝ, right.position.norm = rig.baseline →
      (∀ points : List (Vec3 ℝ × Stored), (∀ e ∈ points, 0 < e.1.z) →
        rig.triangulation (points.map fun e => rig.matchOf e.1 e.2).toArray right
          = .ofPoints (points.map fun e => e.1.narrow).toArray) ∧
      ∀ cs : Correspondences (Vec2 Stored) Stored, (rig.triangulation cs right).points.size = cs.size ∧
        ∀ (i : Nat) c, cs[i]? = some c → ∃ point, (rig.triangulation cs right).points[i]? = some point ∧ rig.Places c point := by
  refine ⟨fun left d hd => ?_, fun p hdepth => ?_, fun right hright => ⟨fun points hpoints => ?_, fun cs => ?_⟩⟩
  · exact ⟨_, (point?_eq_some_iff h).mpr (sees_of_pos h left hd), sees_of_pos h left hd⟩
  · exact (point?_eq_some_iff h).mpr (rig.sees hdepth)
  · rw [triangulation_eq h hright, List.map_toArray, List.map_map]
    refine congrArg (fun points => Cloud.ofPoints (List.toArray points)) (List.map_congr_left fun e he => ?_)
    exact triangulate_matchOf h (hpoints e he) e.2
  · rw [triangulation_eq h hright]
    refine ⟨Array.size_map, fun i c hc => ⟨rig.stored.triangulate c, ?_, places_triangulate h c⟩⟩
    show (cs.map rig.stored.triangulate)[i]? = _
    rw [Array.getElem?_map, hc]
    rfl

/-- A rig with skew, whose pixels are not square. -/
noncomputable def skewedRig : StereoRig ℝ := ⟨⟨⟨1, 0⟩, 1, ⟨Scalar.two, 1⟩, 1⟩, 1⟩

/-- A match whose right pixel is right of the left one. -/
def crossedMatch : Correspondence (Vec2 Stored) Stored := ⟨Vec2.stored ⟨0, 0⟩, Vec2.stored ⟨1, 0⟩, .number 1⟩

/-- A point of a skewed rig comes back from its pixels; a match with a negative disparity has no point. -/
theorem stereo_bijection_skewed : skewedRig.validate = .ok () ∧
    (Pose.ofTranslation (-1) 0 0 : Pose ℝ).position.norm = skewedRig.baseline ∧
    skewedRig.leftPixel ⟨1, 1, 2⟩ = ⟨5 / 2, 1 / 2⟩ ∧ skewedRig.disparity ⟨1, 1, 2⟩ = 1 ∧
    (∃ p, skewedRig.point? ⟨5 / 2, 1 / 2⟩ 1 = some p ∧ skewedRig.Sees p ⟨5 / 2, 1 / 2⟩ 1) ∧
    skewedRig.point? ⟨5 / 2, 1 / 2⟩ 1 = some ⟨1, 1, 2⟩ ∧
    skewedRig.triangulation #[skewedRig.matchOf ⟨1, 1, 2⟩ 1] (.ofTranslation (-1) 0 0)
      = .ofPoints #[(⟨1, 1, 2⟩ : Vec3 ℝ).narrow] ∧
    (skewedRig.triangulation #[crossedMatch] (.ofTranslation (-1) 0 0)).points[0]? = some .invalid := by
  have hvalid : skewedRig.validate = .ok () := by
    refine validate_eq_ok_iff.mpr ⟨?_, ?_, ?_⟩ <;> norm_num [skewedRig, Intrinsics.fx, Intrinsics.fy]
  have hnorm : (Pose.ofTranslation (-1) 0 0 : Pose ℝ).position.norm = skewedRig.baseline := by
    simp [Pose.ofTranslation, Vec3.norm, Vec3.normSquared, Vec3.dot, skewedRig]
  have hleft : skewedRig.leftPixel ⟨1, 1, 2⟩ = ⟨5 / 2, 1 / 2⟩ := by
    norm_num [leftPixel, Intrinsics.pixel, Intrinsics.project, Intrinsics.fx, Intrinsics.fy, skewedRig]
  have hdisparity : skewedRig.disparity ⟨1, 1, 2⟩ = 1 := by
    norm_num [disparity, Intrinsics.fx, skewedRig]
  obtain ⟨hfound, hback, hlists⟩ := stereo_bijection hvalid
  obtain ⟨hpoints, hplaces⟩ := hlists (.ofTranslation (-1) 0 0) hnorm
  have hdepth : (0 : ℝ) < 2 := two_pos
  have hpoint := hback ⟨1, 1, 2⟩ hdepth
  rw [hleft, hdisparity] at hpoint
  refine ⟨hvalid, hnorm, hleft, hdisparity, hfound ⟨5 / 2, 1 / 2⟩ 1 one_pos, hpoint, ?_, ?_⟩
  · refine hpoints [(⟨1, 1, 2⟩, 1)] fun e he => ?_
    rw [List.mem_singleton.mp he]
    exact hdepth
  · obtain ⟨point, hat, hplaced⟩ := (hplaces #[crossedMatch]).2 0 crossedMatch rfl
    rw [hat]
    refine congrArg some (hplaced.placeholder (Bool.eq_false_iff.mpr fun hpointValid => ?_))
    have hlt : Scalar.lt (0 : ℝ) (0 - 1) = true := (hplaced.valid_iff.mp hpointValid).2
    have hpositive : (0 : ℝ) < 0 - 1 := (Scalar.real_lt _ _).mp hlt
    linarith

end StereoRig

end StereoMapping
