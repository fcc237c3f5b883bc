import StereoMapping.Geometry.Motion
import StereoMapping.Geometry.Decomposition

/-!
# `Geometry.Alignment` — the rigid motion that best aligns matched points

`align?` is the closed-form least-squares solution: both point sets are centred, their cross-covariance
`h = Σ (s - s₀)(t - t₀)ᵀ` is decomposed as `u * diagonal s * vt`, and the rotation is `v * uᵀ`, the last
axis reversed if that would be a reflection. With fewer than three pairs, or points on a line, the
rotation is not determined and there is no answer.
-/

namespace StereoMapping

/-- Points matched by pairs: the first of each pair is moved onto the second. -/
abbrev PointPairs (α : Type) := List (Vec3 α × Vec3 α)

variable {α : Type} [Scalar α]

namespace Alignment

/-- Mean of the points, which must not be empty. -/
def centroid (points : List (Vec3 α)) : Vec3 α :=
  (points.foldl (· + ·) Vec3.zero).unscale (Scalar.ofNat points.length)

/-- Squared distance between the image of a source point and its sink point. -/
def residual (m : Motion α) (pair : Vec3 α × Vec3 α) : α := (m.apply pair.1 - pair.2).normSquared

/-- Root mean square of the residuals, the mean taken over `count` points; zero when there are none. -/
def rmsError (m : Motion α) (count : Nat) (pairs : PointPairs α) : α :=
  if count = 0 then 0
  else Scalar.sqrt (Scalar.sum (pairs.map (residual m)) / Scalar.ofNat count)

/-- Cross-covariance of the centred pairs. -/
def covariance (pairs : PointPairs α) (source sink : Vec3 α) : Mat3 α :=
  pairs.foldl (fun h pair => h + Mat3.outer (pair.1 - source) (pair.2 - sink)) Mat3.zero

/-- One billionth: ratio of the two first singular values below which points lie on a line. -/
def degeneracy : α := 1 / Scalar.ofNat 1000000000

/-- The proper rotation `v * uᵀ`, its last axis reversed if it is a reflection. -/
def rotationOf (f : SingularValues α) : Mat3 α :=
  let v := f.vt.transpose
  let ut := f.u.transpose
  let last : α := if Scalar.lt (v * ut).det 0 then -1 else 1
  v * Mat3.diagonal ⟨1, 1, last⟩ * ut

/-- Least-squares rigid motion of the sources onto the sinks. -/
def align? [Decomposing α] (pairs : PointPairs α) : Option (Motion α) :=
  if pairs.length < 3 then none
  else
    let source := centroid (pairs.map Prod.fst)
    let sink := centroid (pairs.map Prod.snd)
    let f := Decomposing.decompose (covariance pairs source sink)
    if !(Scalar.lt 0 f.values.x) || Scalar.le f.values.y (degeneracy * f.values.x) then none
    else
      let rotation := Quaternion.ofMatrix (rotationOf f)
      some ⟨rotation, sink - rotation.rotate source⟩

end Alignment

end StereoMapping
