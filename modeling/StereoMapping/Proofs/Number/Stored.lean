import Mathlib.Analysis.SpecialFunctions.Complex.Arg
import Mathlib.Data.Option.NAry
import StereoMapping.Proofs.Number.Real

/-!
# `Proofs.Number.Stored` — exact storage scalars with a value that is no number

Points are stored with non-numbers in them: that is how a point says that it is none. The real numbers
(`Proofs.Number.Real`) have no such value, so that over them every point is valid. Here the storage scalars are a
real number or none. Operations with none give none, no comparison with it holds, and working with the real numbers
is exact as before.

As with the real numbers, no scalar is infinite, and zero stands in.
-/

namespace StereoMapping

/-- A real number, or none. -/
def Stored : Type := Option ℝ

namespace Stored

/-- A stored number. -/
def number (x : ℝ) : Stored := some x

/-- A relation that holds of numbers only. -/
def compare (r : ℝ → ℝ → Bool) (a b : Stored) : Bool := (Option.map₂ r a b).getD false

/-- What is read off a number, with a value for none. -/
def read {β : Type} (f : ℝ → β) (default : β) (a : Stored) : β := (Option.map f a).getD default

end Stored

open Stored in
noncomputable instance : Scalar Stored where
  zero := number 0
  one := number 1
  add := Option.map₂ (· + ·)
  sub := Option.map₂ (· - ·)
  mul := Option.map₂ (· * ·)
  div := Option.map₂ (· / ·)
  neg := Option.map (- ·)
  ofNat n := number n
  lt := compare Scalar.lt
  le := compare Scalar.le
  eq := compare Scalar.eq
  isNaN a := Option.isNone a
  isFinite a := Option.isSome a
  nan := none
  infinity := number 0
  epsilon := number Scalar.epsilon
  sqrt := Option.map Scalar.sqrt
  abs := Option.map Scalar.abs
  atan2 := Option.map₂ Scalar.atan2
  round := Option.map Scalar.round
  floorInt64 := read Scalar.floorInt64 0
  roundInt64 := read Scalar.roundInt64 0
  truncate := read Scalar.truncate 0
  numeral := read Scalar.numeral .notANumber
  ofNumeral n := if n = .notANumber then none else number n.toReal

noncomputable instance : Precision Stored ℝ where
  widen := Stored.read id 0
  narrow := Stored.number

end StereoMapping
