import Mathlib.Analysis.CStarAlgebra.Matrix
import StereoMapping.Proofs.Geometry.Alignment
import StereoMapping.Proofs.Geometry.Rotation

/-!
# `Proofs.Geometry.LeastSquares` — alignment finds the best motion

No rigid motion brings the sources closer to their sinks, in the sum of the squared distances, than the one that
`Alignment.align?` returns. Nothing is asked of the pairs: the sinks need not be a moved copy of the sources, and may be
nearer to a mirrored one.

For a motion with the rotation `r`, the sum of the squared distances has three parts (`squaredError_eq`): one of the
pairs alone, twice the trace of `r * h` taken away, where `h` is the cross-covariance, and as many times as there are
pairs the squared distance by which the centroid of the sources misses that of the sinks. The motion of alignment does
not miss it, so the trace is what counts. Between the axes of the decomposition it is the trace of a stretch after an
orthogonal matrix, whose determinant does not depend on `r`. If that is one, the trace is at most the sum of the
stretches, as no entry of an orthogonal matrix is more than one. If it is minus one, the trace of the orthogonal matrix
itself is at most one, and the smallest stretch counts against the two others (`trace_stretch_le`). The rotation of
alignment attains both bounds.

## Contents
- `trace_stretch_le`: traces of stretched orthogonal matrices.
- `Alignment.squaredError`, `Alignment.squaredError_eq`.
- `Alignment.isRotation_rotationOf`, `Alignment.trace_le_rotationOf`: the rotation of the factors, which has the greatest
  trace.
- `Alignment.align?_spec`, `Alignment.squaredError_le`, `Alignment.align?_leastSquares`.
-/

namespace StereoMapping

open Matrix

/-! ## Stretched orthogonal matrices -/

section Stretch

variable {w : Matrix (Fin 3) (Fin 3) ℝ}

theorem entry_le_one (hw : w * wᵀ = 1) (i j : Fin 3) : w i j ≤ 1 := by
  have hunitary : w ∈ unitaryGroup (Fin 3) ℝ := mem_unitaryGroup_iff.mpr hw
  exact le_of_abs_le (entry_norm_bound_of_unitary hunitary i j)

theorem trace_stretch (d : Fin 3 → ℝ) (w : Matrix (Fin 3) (Fin 3) ℝ) :
    (diagonal d * w).trace = d 0 * w 0 0 + d 1 * w 1 1 + d 2 * w 2 2 := by
  rw [trace_fin_three, diagonal_mul, diagonal_mul, diagonal_mul]

/-- **A stretch has the greatest trace without an orthogonal matrix after it**, or with the smallest axis reversed if
that matrix must be a reflection. -/
theorem trace_stretch_le {d : Fin 3 → ℝ} (hw : w * wᵀ = 1) (hfirst : d 1 ≤ d 0) (hsecond : d 2 ≤ d 1)
    (hnonneg : 0 ≤ d 2) : (diagonal d * w).trace ≤ d 0 + d 1 + w.det * d 2 := by
  have h0 := entry_le_one hw 0 0
  have h1 := entry_le_one hw 1 1
  have h2 := entry_le_one hw 2 2
  rw [trace_stretch]
  rcases mul_self_eq_one_iff.mp (det_mul_self_of_orthogonal hw) with hdet | hdet
  · rw [hdet]
    calc d 0 * w 0 0 + d 1 * w 1 1 + d 2 * w 2 2 ≤ d 0 * 1 + d 1 * 1 + d 2 * 1 := by
          gcongr
          · linarith
          · linarith
      _ = d 0 + d 1 + 1 * d 2 := by ring
  · -- what the two larger stretches exceed the smallest by counts at most once, and the smallest itself with the trace
    have htrace : w 0 0 + w 1 1 + w 2 2 ≤ 1 := by
      rw [← trace_fin_three]
      exact Mat3.trace_le_one (mul_eq_one_comm.mp hw) hdet
    rw [hdet]
    calc d 0 * w 0 0 + d 1 * w 1 1 + d 2 * w 2 2
        = (d 0 - d 2) * w 0 0 + (d 1 - d 2) * w 1 1 + d 2 * (w 0 0 + w 1 1 + w 2 2) := by ring
      _ ≤ (d 0 - d 2) * 1 + (d 1 - d 2) * 1 + d 2 * 1 := by
          gcongr
          linarith
      _ = d 0 + d 1 + -1 * d 2 := by ring

end Stretch

/-! ## Vectors -/

namespace Vec3

theorem toVec_sub (u v : Vec3 ℝ) : (u - v).toVec = u.toVec - v.toVec := by
  funext i
  fin_cases i <;> rfl

theorem dotProduct_toVec (u v : Vec3 ℝ) : u.toVec ⬝ᵥ v.toVec = u.dot v := by
  unfold dot
  simp [toVec, dotProduct, Fin.sum_univ_three]

theorem normSquared_nonneg (v : Vec3 ℝ) : 0 ≤ v.normSquared :=
  add_nonneg (add_nonneg (mul_self_nonneg v.x) (mul_self_nonneg v.y)) (mul_self_nonneg v.z)

theorem normSquared_add (u v : Vec3 ℝ) : (u + v).normSquared = u.normSquared + 2 * u.dot v + v.normSquared := by
  simp only [normSquared, dot, add_def]
  ring

theorem normSquared_sub (u v : Vec3 ℝ) : (u - v).normSquared = u.normSquared + v.normSquared - 2 * u.dot v := by
  simp only [normSquared, dot, sub_def]
  ring

end Vec3

namespace Mat3

variable {r : Mat3 ℝ}

@[simp] theorem toVec_apply (r : Mat3 ℝ) (v : Vec3 ℝ) : (r.apply v).toVec = r.toMatrix *ᵥ v.toVec := by
  funext i
  fin_cases i <;> simp [apply, toMatrix, Vec3.toVec, Vec3.dot, Matrix.mulVec, dotProduct, Fin.sum_univ_three]

/-- Rotations keep lengths. -/
theorem IsRotation.normSquared_apply (hr : r.IsRotation) (v : Vec3 ℝ) : (r.apply v).normSquared = v.normSquared := by
  unfold Vec3.normSquared
  rw [← Vec3.dotProduct_toVec, toVec_apply, dotProduct_mulVec, ← mulVec_transpose, mulVec_mulVec,
    (isRotation_iff.mp hr).1, one_mulVec, Vec3.dotProduct_toVec]

theorem IsRotation.normSquared_apply_sub (hr : r.IsRotation) (u v : Vec3 ℝ) :
    (r.apply u - v).normSquared = u.normSquared + v.normSquared - 2 * (r.apply u).dot v := by
  rw [Vec3.normSquared_sub, hr.normSquared_apply]

/-- Turned outer products have the inner product of the turned vector as their trace. -/
theorem trace_mul_outer (r : Mat3 ℝ) (u v : Vec3 ℝ) :
    (r.toMatrix * (outer u v).toMatrix).trace = (r.apply u).dot v := by
  rw [toMatrix_outer, mul_vecMulVec, trace_vecMulVec, ← toVec_apply, Vec3.dotProduct_toVec]

end Mat3

/-! ## Sums of squared distances -/

namespace Alignment

/-- Sum of the squared distances between the images of the sources and their sinks. -/
noncomputable def squaredError (f : Vec3 ℝ → Vec3 ℝ) (pairs : PointPairs ℝ) : ℝ :=
  (pairs.map fun pair => (f pair.1 - pair.2).normSquared).sum

/-- Sum of the squared distances of the points from their centroids. -/
noncomputable def spread (pairs : PointPairs ℝ) : ℝ :=
  (pairs.map fun pair => (pair.1 - centroid (pairs.map Prod.fst)).normSquared
    + (pair.2 - centroid (pairs.map Prod.snd)).normSquared).sum

/-- Distance between two matched points once both centroids are at the origin and the source is turned. -/
noncomputable def offset (r : Mat3 ℝ) (pairs : PointPairs ℝ) (pair : Vec3 ℝ × Vec3 ℝ) : Vec3 ℝ :=
  r.apply (pair.1 - centroid (pairs.map Prod.fst)) - (pair.2 - centroid (pairs.map Prod.snd))

/-- Distance by which a motion misses the centroid of the sinks. -/
noncomputable def miss (r : Mat3 ℝ) (t : Vec3 ℝ) (pairs : PointPairs ℝ) : Vec3 ℝ :=
  r.apply (centroid (pairs.map Prod.fst)) + t - centroid (pairs.map Prod.snd)

/-- About their centroid, points add up to nothing. -/
theorem sum_centred (points : List (Vec3 ℝ)) : (points.map fun p => (p - centroid points).toVec).sum = 0 := by
  have hshift (c : Vec3 ℝ) (rest : List (Vec3 ℝ)) :
      (rest.map fun p => (p - c).toVec).sum = (rest.map Vec3.toVec).sum - (rest.length : ℝ) • c.toVec := by
    induction rest with
    | nil => simp
    | cons p rest ih =>
      rw [List.map_cons, List.sum_cons, ih, Vec3.toVec_sub, List.map_cons, List.sum_cons, List.length_cons,
        Nat.cast_succ, add_smul, one_smul]
      abel
  rcases eq_or_ne points [] with rfl | hsome
  · rfl
  · have hlength : (points.length : ℝ) ≠ 0 := Nat.cast_ne_zero.mpr (List.length_pos_iff.mpr hsome).ne'
    rw [hshift, toVec_centroid, smul_smul, mul_inv_cancel₀ hlength, one_smul, sub_self]

theorem sum_offset (r : Mat3 ℝ) (pairs : PointPairs ℝ) :
    (pairs.map fun pair => (offset r pairs pair).toVec).sum = 0 := by
  have hsplit (source sink : Vec3 ℝ) (rest : PointPairs ℝ) :
      (rest.map fun pair => (r.apply (pair.1 - source) - (pair.2 - sink)).toVec).sum =
        r.toMatrix *ᵥ ((rest.map Prod.fst).map fun p => (p - source).toVec).sum
          - ((rest.map Prod.snd).map fun p => (p - sink).toVec).sum := by
    induction rest with
    | nil => simp
    | cons pair rest ih =>
      rw [List.map_cons, List.sum_cons, ih, Vec3.toVec_sub, Mat3.toVec_apply]
      simp only [List.map_cons, List.sum_cons, mulVec_add]
      abel
  unfold offset
  rw [hsplit, sum_centred, sum_centred, mulVec_zero, sub_zero]

/-- **The cross-covariance, turned, has the agreement of the centred points as its trace.** -/
theorem trace_mul_covariance (r : Mat3 ℝ) (pairs : PointPairs ℝ) (source sink : Vec3 ℝ) :
    (r.toMatrix * (covariance pairs source sink).toMatrix).trace =
      (pairs.map fun pair => (r.apply (pair.1 - source)).dot (pair.2 - sink)).sum := by
  have hsum (start : Mat3 ℝ) :
      (r.toMatrix * (pairs.foldl (fun h pair => h + Mat3.outer (pair.1 - source) (pair.2 - sink)) start).toMatrix).trace
        = (r.toMatrix * start.toMatrix).trace
          + (pairs.map fun pair => (r.apply (pair.1 - source)).dot (pair.2 - sink)).sum := by
    induction pairs generalizing start with
    | nil => simp
    | cons pair rest ih =>
      rw [List.foldl_cons, ih, Mat3.toMatrix_add, Matrix.mul_add, trace_add, Mat3.trace_mul_outer, List.map_cons,
        List.sum_cons, add_assoc]
  unfold covariance
  rw [hsum, Mat3.toMatrix_zero, Matrix.mul_zero, trace_zero, zero_add]

/-- The squared lengths of shifted vectors. -/
theorem sum_normSquared_add {ι : Type} (items : List ι) (v : ι → Vec3 ℝ) (c : Vec3 ℝ) :
    (items.map fun i => (v i + c).normSquared).sum =
      (items.map fun i => (v i).normSquared).sum + 2 * ((items.map fun i => (v i).toVec).sum ⬝ᵥ c.toVec)
        + items.length * c.normSquared := by
  induction items with
  | nil => simp
  | cons i rest ih =>
    rw [List.map_cons, List.sum_cons, ih, Vec3.normSquared_add]
    simp only [List.map_cons, List.sum_cons, add_dotProduct, Vec3.dotProduct_toVec, List.length_cons, Nat.cast_succ]
    ring

theorem sum_normSquared_offset {r : Mat3 ℝ} (hr : r.IsRotation) (pairs : PointPairs ℝ) :
    (pairs.map fun pair => (offset r pairs pair).normSquared).sum =
      spread pairs - 2 * (r.toMatrix * (crossCovariance pairs).toMatrix).trace := by
  have hsplit (source sink : Vec3 ℝ) (rest : PointPairs ℝ) :
      (rest.map fun pair => (r.apply (pair.1 - source) - (pair.2 - sink)).normSquared).sum =
        (rest.map fun pair => (pair.1 - source).normSquared + (pair.2 - sink).normSquared).sum
          - 2 * (rest.map fun pair => (r.apply (pair.1 - source)).dot (pair.2 - sink)).sum := by
    induction rest with
    | nil => simp
    | cons pair rest ih =>
      rw [List.map_cons, List.sum_cons, ih, hr.normSquared_apply_sub, List.map_cons, List.sum_cons, List.map_cons,
        List.sum_cons]
      ring
  unfold crossCovariance
  rw [trace_mul_covariance]
  exact hsplit _ _ pairs

/-- **The parts of the squared error**: the spread of the points, twice the agreement, and the miss of the centroid. -/
theorem squaredError_eq {r : Mat3 ℝ} (hr : r.IsRotation) (t : Vec3 ℝ) (pairs : PointPairs ℝ) :
    squaredError (fun p => r.apply p + t) pairs =
      spread pairs - 2 * (r.toMatrix * (crossCovariance pairs).toMatrix).trace
        + pairs.length * (miss r t pairs).normSquared := by
  have hshifted (pair : Vec3 ℝ × Vec3 ℝ) : r.apply pair.1 + t - pair.2 = offset r pairs pair + miss r t pairs := by
    apply Vec3.toVec_injective
    simp only [offset, miss, Vec3.toVec_add, Vec3.toVec_sub, Mat3.toVec_apply, mulVec_sub]
    abel
  unfold squaredError
  simp only [hshifted]
  rw [sum_normSquared_add, sum_offset, zero_dotProduct, mul_zero, add_zero, sum_normSquared_offset hr]

end Alignment

/-! ## The rotation of the factors -/

namespace SingularValues

variable {f : SingularValues ℝ} {h : Mat3 ℝ}

/-- The trace of a turned matrix, seen between the axes of its factors. -/
theorem Factors.trace_mul (hf : f.Factors h) (r : Mat3 ℝ) :
    (r.toMatrix * h.toMatrix).trace = (diagonal f.values.toVec * f.between r).trace := by
  calc (r.toMatrix * h.toMatrix).trace
      = (r.toMatrix * (f.u.toMatrix * diagonal f.values.toVec) * f.vt.toMatrix).trace := by
        rw [← hf.toMatrix_eq, Matrix.mul_assoc r.toMatrix]
    _ = (f.vt.toMatrix * (r.toMatrix * (f.u.toMatrix * diagonal f.values.toVec))).trace := trace_mul_comm _ _
    _ = (f.between r * diagonal f.values.toVec).trace := by simp only [between, Matrix.mul_assoc]
    _ = (diagonal f.values.toVec * f.between r).trace := trace_mul_comm _ _

/-- **No rotation has a greater trace** than the values of the factors allow. -/
theorem Factors.trace_mul_le (hf : f.Factors h) {r : Mat3 ℝ} (hr : r.IsRotation) :
    (r.toMatrix * h.toMatrix).trace ≤ f.values.x + f.values.y + f.sense * f.values.z := by
  obtain ⟨horthogonal, hproper⟩ := Mat3.isRotation_iff.mp hr
  rw [hf.trace_mul, ← f.det_between hproper]
  exact trace_stretch_le (hf.between_orthogonal horthogonal) hf.first hf.second hf.nonneg

end SingularValues

namespace Alignment

variable {f : SingularValues ℝ} {h : Mat3 ℝ}

theorem between_rotationOf (hf : f.Factors h) : f.between (rotationOf f) = diagonal ![1, 1, f.sense] := by
  calc f.between (rotationOf f)
      = f.vt.toMatrix * f.vt.toMatrixᵀ * diagonal ![1, 1, f.sense] * (f.u.toMatrixᵀ * f.u.toMatrix) := by
        simp only [SingularValues.between, toMatrix_rotationOf hf, Matrix.mul_assoc]
    _ = diagonal ![1, 1, f.sense] := by
        rw [hf.vt_mul_transpose, hf.transpose_mul_u, Matrix.one_mul, Matrix.mul_one]

/-- **The rotation of the factors is a proper one.** -/
theorem isRotation_rotationOf (hf : f.Factors h) : (rotationOf f).IsRotation := by
  have hcorrection : diagonal ![1, 1, f.sense] * diagonal ![1, 1, f.sense] = 1 := by
    rw [diagonal_mul_diagonal, ← diagonal_one]
    congr 1
    funext i
    fin_cases i
    · exact one_mul 1
    · exact one_mul 1
    · exact hf.sense_mul_self
  apply Mat3.isRotation_iff.mpr
  rw [toMatrix_rotationOf hf]
  constructor
  · calc (f.vt.toMatrixᵀ * diagonal ![1, 1, f.sense] * f.u.toMatrixᵀ)ᵀ
          * (f.vt.toMatrixᵀ * diagonal ![1, 1, f.sense] * f.u.toMatrixᵀ)
        = f.u.toMatrix * (diagonal ![1, 1, f.sense] * (f.vt.toMatrix * f.vt.toMatrixᵀ)
            * diagonal ![1, 1, f.sense]) * f.u.toMatrixᵀ := by
          simp only [transpose_mul, transpose_transpose, diagonal_transpose, Matrix.mul_assoc]
      _ = 1 := by
          rw [hf.vt_mul_transpose, Matrix.mul_one, hcorrection, Matrix.mul_one, mul_eq_one_comm.mp hf.transpose_mul_u]
  · rw [det_mul, det_mul, det_transpose, det_transpose, det_diagonal, Fin.prod_univ_three]
    calc f.vt.toMatrix.det * (1 * 1 * f.sense) * f.u.toMatrix.det
        = f.vt.toMatrix.det * f.u.toMatrix.det * f.sense := by ring
      _ = 1 := by rw [← f.sense_eq, hf.sense_mul_self]

/-- It has the greatest trace of all. -/
theorem trace_le_rotationOf (hf : f.Factors h) {r : Mat3 ℝ} (hr : r.IsRotation) :
    (r.toMatrix * h.toMatrix).trace ≤ ((rotationOf f).toMatrix * h.toMatrix).trace := by
  have hattained : ((rotationOf f).toMatrix * h.toMatrix).trace
      = f.values.x + f.values.y + f.sense * f.values.z := by
    rw [hf.trace_mul, between_rotationOf hf, trace_stretch]
    simp [Vec3.toVec, mul_comm]
  rw [hattained]
  exact hf.trace_mul_le hr

/-! ## Alignment -/

/-- **The motion of alignment.** Its rotation is that of the factors, and it moves the one centroid to the other. -/
theorem align?_spec [Decomposing ℝ] {pairs : PointPairs ℝ} {m : Motion ℝ} (h : align? pairs = some m)
    (hfactors : (factors pairs).Factors (crossCovariance pairs)) :
    m.rotation.normSquared = 1 ∧ m.rotation.matrix = rotationOf (factors pairs) ∧
      m.apply (centroid (pairs.map Prod.fst)) = centroid (pairs.map Prod.snd) := by
  have hdeterminate : Determinate pairs := by
    by_contra hnot
    rw [align?_eq_none hnot] at h
    cases h
  obtain ⟨hunit, hmatrix⟩ := Quaternion.ofMatrix_spec (isRotation_rotationOf hfactors)
  rw [align?_of_determinate hdeterminate] at h
  cases h
  refine ⟨hunit, hmatrix, ?_⟩
  rw [Motion.apply_eq]
  simp only [Vec3.add_def, Vec3.sub_def]
  ext <;> ring

theorem apply_matrix (m : Motion ℝ) (p : Vec3 ℝ) : m.apply p = m.rotation.matrix.apply p + m.translation := by
  apply Vec3.toVec_injective
  rw [toVec_apply, Vec3.toVec_add, Mat3.toVec_apply]

/-- **A rotation of the greatest trace that does not miss the centroid has the least squared error.** -/
theorem squaredError_le {pairs : PointPairs ℝ} {r s : Mat3 ℝ} (hr : r.IsRotation) (hs : s.IsRotation) {t : Vec3 ℝ}
    (hcentroid : miss r t pairs = .zero)
    (htrace : (s.toMatrix * (crossCovariance pairs).toMatrix).trace
      ≤ (r.toMatrix * (crossCovariance pairs).toMatrix).trace) (u : Vec3 ℝ) :
    squaredError (fun p => r.apply p + t) pairs ≤ squaredError (fun p => s.apply p + u) pairs := by
  have hnone : (Vec3.zero : Vec3 ℝ).normSquared = 0 := by simp [Vec3.normSquared, Vec3.dot, Vec3.zero]
  have hmiss : 0 ≤ (pairs.length : ℝ) * (miss s u pairs).normSquared :=
    mul_nonneg (Nat.cast_nonneg _) (Vec3.normSquared_nonneg _)
  rw [squaredError_eq hr, squaredError_eq hs, hcentroid, hnone]
  linarith

/-- **Alignment is the least-squares rigid motion.** Whatever points are matched, the motion it returns is a proper
rotation and a shift, moves the centroid of the sources to that of the sinks, and no other proper rotation and shift has
a smaller sum of squared distances. -/
theorem align?_leastSquares [Decomposing ℝ] {sources sinks : List (Vec3 ℝ)} (hlength : sources.length = sinks.length)
    (hfactors : (Decomposing.decompose (crossCovariance (sources.zip sinks))).Factors
      (crossCovariance (sources.zip sinks)))
    {m : Motion ℝ} (h : align? (sources.zip sinks) = some m) :
    (m.rotation.matrix.IsRotation ∧ ∀ p, m.apply p = m.rotation.matrix.apply p + m.translation) ∧
    m.apply (centroid sources) = centroid sinks ∧
    ∀ (r : Mat3 ℝ) (t : Vec3 ℝ), r.IsRotation →
      squaredError m.apply (sources.zip sinks) ≤ squaredError (fun p => r.apply p + t) (sources.zip sinks) := by
  obtain ⟨hunit, hmatrix, hcentroid⟩ := align?_spec h hfactors
  have hrotation := Quaternion.isRotation_matrix hunit
  have happly : m.apply = fun p => m.rotation.matrix.apply p + m.translation := funext (apply_matrix m)
  have hmiss : miss m.rotation.matrix m.translation (sources.zip sinks) = .zero := by
    unfold miss
    rw [← apply_matrix, hcentroid]
    ext <;> exact sub_self _
  have hsources : (sources.zip sinks).map Prod.fst = sources := List.map_fst_zip hlength.le
  have hsinks : (sources.zip sinks).map Prod.snd = sinks := List.map_snd_zip hlength.ge
  rw [hsources, hsinks] at hcentroid
  refine ⟨⟨hrotation, apply_matrix m⟩, hcentroid, ?_⟩
  intro r t hr
  rw [happly]
  apply squaredError_le hrotation hr hmiss
  rw [hmatrix]
  exact trace_le_rotationOf hfactors hr

/-! ### Points and their mirror images

Four corners of a box, and the same seen in a mirror: the orthogonal matrix that fits best is the mirror, and alignment
must not take it. -/

/-- Reversal of the last axis. -/
noncomputable def mirror (p : Vec3 ℝ) : Vec3 ℝ := ⟨p.x, p.y, -p.z⟩

/-- Four corners of a box, no two on one edge. -/
noncomputable def corners : List (Vec3 ℝ) :=
  [⟨Scalar.two, Scalar.two, 1⟩, ⟨Scalar.two, -Scalar.two, -1⟩, ⟨-Scalar.two, Scalar.two, -1⟩,
    ⟨-Scalar.two, -Scalar.two, 1⟩]

/-- Factors of the cross-covariance of the corners and their mirror images. -/
noncomputable def mirrorFactors : SingularValues ℝ :=
  ⟨Mat3.diagonal ⟨1, 1, -1⟩, ⟨Scalar.ofNat 16, Scalar.ofNat 16, Scalar.ofNat 4⟩, .identity⟩

theorem values_mirrorFactors : mirrorFactors.values.toVec = ![16, 16, 4] := by
  funext i
  fin_cases i <;> exact Nat.cast_ofNat

theorem centroid_corners : centroid corners = .zero ∧ centroid (corners.map mirror) = .zero := by
  constructor
  · apply Vec3.toVec_injective
    rw [toVec_centroid]
    funext i
    fin_cases i <;> norm_num [corners, Vec3.toVec, Vec3.zero]
  · apply Vec3.toVec_injective
    rw [toVec_centroid]
    funext i
    fin_cases i <;> norm_num [corners, mirror, Vec3.toVec, Vec3.zero]

theorem crossCovariance_corners :
    (crossCovariance (corners.zip (corners.map mirror))).toMatrix = diagonal ![16, 16, -4] := by
  have hsources : (corners.zip (corners.map mirror)).map Prod.fst = corners := List.map_fst_zip (by simp)
  have hsinks : (corners.zip (corners.map mirror)).map Prod.snd = corners.map mirror := List.map_snd_zip (by simp)
  unfold crossCovariance
  rw [hsources, hsinks, centroid_corners.1, centroid_corners.2]
  unfold covariance corners mirror
  ext i j
  fin_cases i <;> fin_cases j <;> norm_num [Vec3.toVec, Vec3.zero, vecMulVec_apply]

theorem mirrorFactors_factors : mirrorFactors.Factors (crossCovariance (corners.zip (corners.map mirror))) := by
  refine ⟨?_, ?_, ?_, le_refl _, ?_, ?_⟩
  · apply Mat3.toMatrix_injective
    rw [crossCovariance_corners, Mat3.toMatrix_mul, Mat3.toMatrix_mul, Mat3.toMatrix_diagonal, values_mirrorFactors]
    ext i j
    fin_cases i <;> fin_cases j <;> norm_num [mirrorFactors, Vec3.toVec]
  · apply Mat3.toMatrix_injective
    ext i j
    fin_cases i <;> fin_cases j <;> simp [mirrorFactors, Vec3.toVec]
  · apply Mat3.toMatrix_injective
    simp [mirrorFactors]
  · show ((4 : ℕ) : ℝ) ≤ ((16 : ℕ) : ℝ)
    norm_num
  · show (0 : ℝ) ≤ ((4 : ℕ) : ℝ)
    norm_num

/-- A decomposition that knows this matrix. -/
noncomputable local instance : Decomposing ℝ := ⟨fun _ => mirrorFactors⟩

theorem align?_leastSquares_mirrored :
    corners.length = (corners.map mirror).length ∧ squaredError mirror (corners.zip (corners.map mirror)) = 0 ∧
    (Decomposing.decompose (crossCovariance (corners.zip (corners.map mirror)))).Factors
      (crossCovariance (corners.zip (corners.map mirror))) ∧
    ∃ m : Motion ℝ, align? (corners.zip (corners.map mirror)) = some m ∧
      (m.rotation.matrix.IsRotation ∧ ∀ p, m.apply p = m.rotation.matrix.apply p + m.translation) ∧
      m.apply (centroid corners) = centroid (corners.map mirror) ∧
      ∀ (r : Mat3 ℝ) (t : Vec3 ℝ), r.IsRotation →
        squaredError m.apply (corners.zip (corners.map mirror))
          ≤ squaredError (fun p => r.apply p + t) (corners.zip (corners.map mirror)) := by
  have hlength : corners.length = (corners.map mirror).length := (List.length_map mirror).symm
  have hmirrored : squaredError mirror (corners.zip (corners.map mirror)) = 0 := by
    simp [squaredError, corners, mirror, Vec3.normSquared, Vec3.dot]
  have hdeterminate : Determinate (corners.zip (corners.map mirror)) := by
    refine ⟨?_, ?_, ?_⟩
    · simp [corners]
    · show (0 : ℝ) < ((16 : ℕ) : ℝ)
      norm_num
    · show 1 / ((1000000000 : ℕ) : ℝ) * ((16 : ℕ) : ℝ) < ((16 : ℕ) : ℝ)
      norm_num
  exact ⟨hlength, hmirrored, mirrorFactors_factors, _, align?_of_determinate hdeterminate,
    align?_leastSquares hlength mirrorFactors_factors (align?_of_determinate hdeterminate)⟩

end Alignment

end StereoMapping
