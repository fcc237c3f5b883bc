import StereoMapping.Number.Numeral

/-!
# `Number.Scalar` — the arithmetic that the geometry is written over

Every numeric definition of the library is polymorphic in its scalars. The running program takes 32-bit
points and 64-bit poses; a proof in exact arithmetic instantiates the very same definitions with an exact
field. Comparisons are Boolean and need not be total, since a scalar may fail to be a number.

## Contents
- `Scalar`: ring operations, comparisons, square root, special values, integer conversions, numerals.
- `Precision`: a storage scalar and the working scalar that it is widened to.
- Instances for `Float32` and `Float`.
-/

namespace StereoMapping

/-- The scalars that images, points and motions are computed with. -/
class Scalar (α : Type) extends Zero α, One α, Add α, Sub α, Mul α, Div α, Neg α where
  /-- The scalar nearest to a natural number. -/
  ofNat : Nat → α
  lt : α → α → Bool
  le : α → α → Bool
  /-- Numerical equality: it does not tell the two zeros apart, and nothing equals a non-number. -/
  eq : α → α → Bool
  isNaN : α → Bool
  isFinite : α → Bool
  /-- The value that is not a number. -/
  nan : α
  infinity : α
  /-- Gap between one and the next scalar. -/
  epsilon : α
  sqrt : α → α
  abs : α → α
  /-- Angle of the direction `(x, y)`, given as `atan2 y x`. -/
  atan2 : α → α → α
  /-- Nearest whole number, a half away from zero. -/
  round : α → α
  /-- Floor, brought into the range of 64-bit signed integers. -/
  floorInt64 : α → Int64
  /-- Nearest whole number, a half away from zero, in the same range. -/
  roundInt64 : α → Int64
  /-- Integer part, brought into the range of 64-bit counts. -/
  truncate : α → Nat
  /-- Decimal text of the scalar. -/
  numeral : α → Numeral
  /-- The scalar nearest to a decimal text. -/
  ofNumeral : Numeral → α

/-- Storage scalars `S`, computed with as working scalars `D` where precision matters. -/
class Precision (S : Type) (D : outParam Type) where
  widen : S → D
  narrow : D → S

export Precision (widen narrow)

namespace Scalar

variable {α : Type} [Scalar α]

/-- The scalar two. -/
def two : α := ofNat 2

/-- The negative zero, where a plain sum starts: adding it changes no scalar, not even a zero. -/
def negZero : α := -(0 : α)

/-- Sum of scalars, first to last. -/
def sum (xs : List α) : α := xs.foldl (· + ·) negZero

/-- The lesser of two scalars. A non-number gives way to the other one. -/
def least (a b : α) : α := if isNaN a then b else if isNaN b then a else if lt b a then b else a

end Scalar

/-- A count as a 32-bit number. -/
def float32OfNat (n : Nat) : Float32 :=
  if n ≤ largestWord then n.toUInt64.toFloat32 else float32 false (Format.single.roundDyadic n 0)

/-- A count as a 64-bit number. -/
def float64OfNat (n : Nat) : Float :=
  if n ≤ largestWord then n.toUInt64.toFloat else float64 false (Format.double.roundDyadic n 0)

instance : Scalar Float where
  zero := 0
  one := 1
  ofNat := float64OfNat
  lt a b := a < b
  le a b := a ≤ b
  eq a b := a == b
  isNaN := Float.isNaN
  isFinite := Float.isFinite
  nan := nan64
  infinity := infinity64
  epsilon := Float.ofBits 0x3cb0000000000000
  sqrt := Float.sqrt
  abs := Float.abs
  atan2 := Float.atan2
  round := roundFloat64
  floorInt64 x := (shape64 x).floorInt64
  roundInt64 x := (shape64 x).roundInt64
  truncate x := (shape64 x).truncateNat
  numeral := numeral64
  ofNumeral := Numeral.toFloat

instance : Scalar Float32 where
  zero := 0
  one := 1
  ofNat := float32OfNat
  lt a b := a < b
  le a b := a ≤ b
  eq a b := a == b
  isNaN := Float32.isNaN
  isFinite := Float32.isFinite
  nan := nan32
  infinity := infinity32
  epsilon := Float32.ofBits 0x34000000
  sqrt := Float32.sqrt
  abs := Float32.abs
  atan2 := Float32.atan2
  round := roundFloat32
  floorInt64 x := (shape32 x).floorInt64
  roundInt64 x := (shape32 x).roundInt64
  truncate x := (shape32 x).truncateNat
  numeral := numeral32
  ofNumeral n := narrowFloat n.toFloat

instance : Precision Float32 Float where
  widen := widenFloat
  narrow := narrowFloat

end StereoMapping
