import StereoMapping.Geometry.Vector

/-!
# `Geometry.Decomposition` — singular value decomposition of 3x3 matrices

Alignment needs a decomposition `h = u * diagonal values * vt` with orthogonal `u` and `vt` and
non-negative, decreasing values. `Decomposing` is the interface it relies on; the instance for 64-bit
numbers orthogonalises the columns by plane rotations, a fixed number of sweeps over the three pairs.

The matrix is divided by its largest entry first, so that no square leaves the range of the scalars.
A matrix with an entry that is not finite has no decomposition: its values are non-numbers.
-/

namespace StereoMapping

/-- The factors of `u * diagonal values * vt`. -/
structure SingularValues (α : Type) where
  u : Mat3 α
  values : Vec3 α
  vt : Mat3 α

/-- Scalars whose 3x3 matrices can be decomposed. -/
class Decomposing (α : Type) where
  decompose : Mat3 α → SingularValues α

namespace SingularValues

variable {α : Type} [Scalar α]

/-- A column `a` of the matrix being orthogonalised, with the column `v` of the rotations so far. -/
structure Axis (α : Type) where
  a : Vec3 α
  v : Vec3 α

/-- Plane rotation that makes two columns orthogonal. -/
def Axis.orthogonalize (p q : Axis α) : Axis α × Axis α :=
  let alpha := p.a.normSquared
  let beta := q.a.normSquared
  let gamma := p.a.dot q.a
  if Scalar.le (Scalar.abs gamma) (Scalar.epsilon * Scalar.sqrt (alpha * beta) / Scalar.ofNat 16) then
    (p, q)
  else
    let zeta := (beta - alpha) / (Scalar.two * gamma)
    let size := 1 / (Scalar.abs zeta + Scalar.sqrt (1 + zeta * zeta))
    let t := if Scalar.lt zeta 0 then -size else size
    let c := 1 / Scalar.sqrt (1 + t * t)
    let s := c * t
    (⟨p.a.scale c - q.a.scale s, p.v.scale c - q.v.scale s⟩,
     ⟨p.a.scale s + q.a.scale c, p.v.scale s + q.v.scale c⟩)

/-- One sweep over the three pairs of columns. -/
def sweep (axes : Axis α × Axis α × Axis α) : Axis α × Axis α × Axis α :=
  let (x, y, z) := axes
  let (x, y) := x.orthogonalize y
  let (x, z) := x.orthogonalize z
  let (y, z) := y.orthogonalize z
  (x, y, z)

/-- `n` sweeps. -/
def sweeps : Nat → Axis α × Axis α × Axis α → Axis α × Axis α × Axis α
  | 0, axes => axes
  | n + 1, axes => sweeps n (sweep axes)

/-- The two columns, the longer one first. -/
def byLength (p q : Axis α) : Axis α × Axis α :=
  if Scalar.lt p.a.normSquared q.a.normSquared then (q, p) else (p, q)

/-- Largest absolute value of an entry. -/
def largestEntry (m : Mat3 α) : α :=
  [m.row0, m.row1, m.row2].foldl
    (fun best row => [row.x, row.y, row.z].foldl
      (fun best e => if Scalar.lt best (Scalar.abs e) then Scalar.abs e else best) best) 0

/-- Decomposition of a matrix with finite entries, not all of them zero. -/
def ofMatrix (m : Mat3 α) : SingularValues α :=
  let unit := largestEntry m
  let columns := m.transpose
  let start (a v : Vec3 α) : Axis α := ⟨a.unscale unit, v⟩
  let (x, y, z) := sweeps 40
    (start columns.row0 ⟨1, 0, 0⟩, start columns.row1 ⟨0, 1, 0⟩, start columns.row2 ⟨0, 0, 1⟩)
  let (x, y) := byLength x y
  let (y, z) := byLength y z
  let (x, y) := byLength x y
  let u0 := x.a.unscale x.a.norm
  let u1 := if Scalar.lt 0 y.a.norm then y.a.unscale y.a.norm else .zero
  -- The last axis is known up to its sense, and its own column may be nothing but rounding noise.
  let third := u0.cross u1
  let u2 := if Scalar.lt (z.a.dot third) 0 then -third else third
  { u := Mat3.transpose ⟨u0, u1, u2⟩
    values := ⟨x.a.norm * unit, y.a.norm * unit, z.a.norm * unit⟩
    vt := ⟨x.v, y.v, z.v⟩ }

/-- Decomposition of any matrix. -/
def decompose (m : Mat3 α) : SingularValues α :=
  if m.row0.isFinite && m.row1.isFinite && m.row2.isFinite then
    if Scalar.lt 0 (largestEntry m) then ofMatrix m else ⟨.identity, .zero, .identity⟩
  else ⟨.identity, .invalid, .identity⟩

end SingularValues

instance : Decomposing Float where
  decompose := SingularValues.decompose

end StereoMapping
