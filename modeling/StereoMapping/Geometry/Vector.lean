import StereoMapping.Number.Scalar

/-!
# `Geometry.Vector` — points and vectors of the plane and of space

A point is valid when no coordinate is a non-number. Producers of points use a non-number to say "no value
at this index", so that the index of a point keeps its meaning.

Sums of products are associated from the left, coordinate after coordinate.
-/

namespace StereoMapping

/-- A point of an image. -/
structure Vec2 (α : Type) where
  x : α
  y : α
  deriving DecidableEq, Inhabited

/-- A point or vector of space. -/
structure Vec3 (α : Type) where
  x : α
  y : α
  z : α
  deriving DecidableEq, Inhabited

/-- A 3x3 matrix, by rows. -/
structure Mat3 (α : Type) where
  row0 : Vec3 α
  row1 : Vec3 α
  row2 : Vec3 α

variable {α : Type} [Scalar α]

namespace Vec2

/-- No coordinate is a non-number. -/
def isValid (p : Vec2 α) : Bool := !(Scalar.isNaN p.x || Scalar.isNaN p.y)

end Vec2

namespace Vec3

/-- No coordinate is a non-number. -/
def isValid (p : Vec3 α) : Bool := !(Scalar.isNaN p.x || Scalar.isNaN p.y || Scalar.isNaN p.z)

/-- The placeholder of a point that could not be determined. -/
def invalid : Vec3 α := ⟨Scalar.nan, Scalar.nan, Scalar.nan⟩

/-- The origin. -/
def zero : Vec3 α := ⟨0, 0, 0⟩

def add (a b : Vec3 α) : Vec3 α := ⟨a.x + b.x, a.y + b.y, a.z + b.z⟩

def sub (a b : Vec3 α) : Vec3 α := ⟨a.x - b.x, a.y - b.y, a.z - b.z⟩

def neg (a : Vec3 α) : Vec3 α := ⟨-a.x, -a.y, -a.z⟩

/-- Product by a scalar on the right. -/
def scale (a : Vec3 α) (k : α) : Vec3 α := ⟨a.x * k, a.y * k, a.z * k⟩

/-- Quotient by a scalar. -/
def unscale (a : Vec3 α) (k : α) : Vec3 α := ⟨a.x / k, a.y / k, a.z / k⟩

instance : Add (Vec3 α) := ⟨add⟩
instance : Sub (Vec3 α) := ⟨sub⟩
instance : Neg (Vec3 α) := ⟨neg⟩

def dot (a b : Vec3 α) : α := a.x * b.x + a.y * b.y + a.z * b.z

def cross (a b : Vec3 α) : Vec3 α :=
  ⟨a.y * b.z - a.z * b.y, a.z * b.x - a.x * b.z, a.x * b.y - a.y * b.x⟩

def normSquared (a : Vec3 α) : α := a.dot a

def norm (a : Vec3 α) : α := Scalar.sqrt a.normSquared

/-- Every coordinate is finite. -/
def isFinite (a : Vec3 α) : Bool := Scalar.isFinite a.x && Scalar.isFinite a.y && Scalar.isFinite a.z

/-- The same point in working precision. -/
def widen {S D : Type} [Precision S D] (p : Vec3 S) : Vec3 D :=
  ⟨Precision.widen p.x, Precision.widen p.y, Precision.widen p.z⟩

/-- The point rounded to storage precision. -/
def narrow {S D : Type} [Precision S D] (p : Vec3 D) : Vec3 S :=
  ⟨Precision.narrow p.x, Precision.narrow p.y, Precision.narrow p.z⟩

@[simp] theorem add_def (a b : Vec3 α) : a + b = ⟨a.x + b.x, a.y + b.y, a.z + b.z⟩ := rfl

@[simp] theorem sub_def (a b : Vec3 α) : a - b = ⟨a.x - b.x, a.y - b.y, a.z - b.z⟩ := rfl

@[simp] theorem neg_def (a : Vec3 α) : -a = ⟨-a.x, -a.y, -a.z⟩ := rfl

end Vec3

namespace Mat3

def zero : Mat3 α := ⟨.zero, .zero, .zero⟩

def identity : Mat3 α := ⟨⟨1, 0, 0⟩, ⟨0, 1, 0⟩, ⟨0, 0, 1⟩⟩

/-- The diagonal matrix of a vector. -/
def diagonal (d : Vec3 α) : Mat3 α := ⟨⟨d.x, 0, 0⟩, ⟨0, d.y, 0⟩, ⟨0, 0, d.z⟩⟩

def transpose (m : Mat3 α) : Mat3 α :=
  ⟨⟨m.row0.x, m.row1.x, m.row2.x⟩, ⟨m.row0.y, m.row1.y, m.row2.y⟩, ⟨m.row0.z, m.row1.z, m.row2.z⟩⟩

def add (a b : Mat3 α) : Mat3 α := ⟨a.row0 + b.row0, a.row1 + b.row1, a.row2 + b.row2⟩

/-- Product of a matrix and a column vector. -/
def apply (m : Mat3 α) (v : Vec3 α) : Vec3 α := ⟨m.row0.dot v, m.row1.dot v, m.row2.dot v⟩

def mul (a b : Mat3 α) : Mat3 α :=
  let c := b.transpose
  ⟨⟨a.row0.dot c.row0, a.row0.dot c.row1, a.row0.dot c.row2⟩,
   ⟨a.row1.dot c.row0, a.row1.dot c.row1, a.row1.dot c.row2⟩,
   ⟨a.row2.dot c.row0, a.row2.dot c.row1, a.row2.dot c.row2⟩⟩

/-- The matrix `a bᵀ` of two columns. -/
def outer (a b : Vec3 α) : Mat3 α :=
  ⟨⟨a.x * b.x, a.x * b.y, a.x * b.z⟩, ⟨a.y * b.x, a.y * b.y, a.y * b.z⟩,
   ⟨a.z * b.x, a.z * b.y, a.z * b.z⟩⟩

/-- Determinant, expanded along the first row. -/
def det (m : Mat3 α) : α :=
  m.row0.x * (m.row1.y * m.row2.z - m.row2.y * m.row1.z)
    - m.row0.y * (m.row1.x * m.row2.z - m.row2.x * m.row1.z)
    + m.row0.z * (m.row1.x * m.row2.y - m.row2.x * m.row1.y)

instance : Add (Mat3 α) := ⟨add⟩
instance : Mul (Mat3 α) := ⟨mul⟩

end Mat3

end StereoMapping
