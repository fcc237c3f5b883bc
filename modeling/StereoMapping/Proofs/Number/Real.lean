import Mathlib.Analysis.SpecialFunctions.Complex.Arg
import StereoMapping.Number.Scalar

/-!
# `Proofs.Number.Real` — exact arithmetic

The real numbers as scalars. Every operation is exact, every scalar is finite and a number, and storing one
loses nothing. Statements about poses and motions that would only hold up to rounding in the running program
are made here about the same definitions.

There is no real number that is not a number, and none that is infinite. Zero stands in for both; it is never
told apart by `isNaN` or `isFinite`.
-/

namespace StereoMapping

/-- The value of a decimal numeral, zero for a special one. -/
noncomputable def Numeral.toReal : Numeral → ℝ
  | .finite negative digits exponent => (if negative then -1 else 1) * digits * 10 ^ exponent
  | _ => 0

/-- The nearest whole number, a half away from zero. -/
noncomputable def roundReal (x : ℝ) : ℤ := if x < 0 then -⌊1 / 2 - x⌋ else ⌊x + 1 / 2⌋

open Classical in
noncomputable instance : Scalar ℝ where
  ofNat n := n
  lt a b := decide (a < b)
  le a b := decide (a ≤ b)
  eq a b := decide (a = b)
  isNaN _ := false
  isFinite _ := true
  nan := 0
  infinity := 0
  epsilon := 1 / 2 ^ 52
  sqrt := Real.sqrt
  abs x := |x|
  atan2 y x := Complex.arg ⟨x, y⟩
  round x := roundReal x
  floorInt64 x := Shape.clampInt64 ⌊x⌋
  roundInt64 x := Shape.clampInt64 (roundReal x)
  truncate x := min largestWord ⌊x⌋₊
  numeral x := if h : ∃ n : Numeral, n.toReal = x then h.choose else .notANumber
  ofNumeral := Numeral.toReal

noncomputable instance : Precision ℝ ℝ := ⟨id, id⟩

namespace Scalar

@[simp] theorem real_two : (two : ℝ) = 2 := by
  unfold two
  exact Nat.cast_ofNat

@[simp] theorem real_lt (a b : ℝ) : lt a b = true ↔ a < b := decide_eq_true_iff

@[simp] theorem real_le (a b : ℝ) : le a b = true ↔ a ≤ b := decide_eq_true_iff

@[simp] theorem real_isFinite (a : ℝ) : isFinite a = true := rfl

@[simp] theorem real_sqrt (a : ℝ) : sqrt a = Real.sqrt a := rfl

/-- The gap after one is positive and less than one. -/
theorem real_epsilon : 0 < (epsilon : ℝ) ∧ (epsilon : ℝ) < 1 := by
  show 0 < (1 : ℝ) / 2 ^ 52 ∧ (1 : ℝ) / 2 ^ 52 < 1
  norm_num

end Scalar

end StereoMapping
