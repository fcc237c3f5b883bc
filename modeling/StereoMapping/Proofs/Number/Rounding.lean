import Mathlib.Algebra.Order.Field.Power
import Mathlib.Data.Rat.Cast.Order
import Mathlib.Tactic.FieldSimp
import Mathlib.Tactic.Linarith
import Mathlib.Tactic.Positivity
import Mathlib.Tactic.Ring
import StereoMapping.Number.Numeral

/-!
# `Proofs.Number.Rounding` — what rounds to a number

A quotient of whole numbers is rounded in three steps: its exponent is found from the lengths of the two numbers, its
unit from the exponent, and the whole number of units nearest to it, where a tie goes to the even one. The numbers of
a format are told apart by significand and exponent, and each has a neighbourhood of values around it, closed for an
even significand and open for an odd one, which reaches half as far down below a power of two. Every quotient in the
neighbourhood of a number is rounded to the pattern of that number. Quotients are rationals here; shifts divide them
by powers of two.

## Contents
- `pow_toNat_div_pow_toNat`, `cast_shift_div_shift`, `le_shift_iff`: quotients of powers and of shifted numbers.
- `Format.floorLog2_spec`: the exponent of a quotient.
- `Format.RoundsTo`, `divideToEven_eq`, `roundRatio_eq`: the nearest whole number of units.
- `Format.Represents`, `Format.pattern`, `Neighbourhood.Holds`: numbers and their neighbourhoods.
- `eq_border_of_lt`, `roundsTo_below_border`, `pattern_border`: what is just below a power of two.
- `Format.roundRatio_of_holds`: what is in the neighbourhood of a number is rounded to it.
-/

namespace StereoMapping

/-! ## Quotients of shifted numbers -/

/-- A power is a quotient of two, of which one is one. -/
theorem pow_toNat_div_pow_toNat {b : ℚ} (hb : b ≠ 0) (k : Int) : b ^ k.toNat / b ^ (-k).toNat = b ^ k := by
  have hsplit : k = (k.toNat : Int) - (-k).toNat := by omega
  conv_rhs => rw [hsplit, zpow_sub₀ hb, zpow_natCast, zpow_natCast]

/-- A shift of the one or the other number divides their quotient by a power of two. -/
theorem cast_shift_div_shift (a b : Nat) (g : Int) :
    ((a <<< (-g).toNat : Nat) : ℚ) / (b <<< g.toNat : Nat) = a / b / 2 ^ g := by
  rw [Nat.shiftLeft_eq, Nat.shiftLeft_eq, ← pow_toNat_div_pow_toNat two_ne_zero]
  push_cast
  field_simp

theorem le_shift_iff {a b : Nat} {g : Int} (hb : 0 < b) :
    b <<< g.toNat ≤ a <<< (-g).toNat ↔ (2 : ℚ) ^ g ≤ a / b := by
  have hshift : (0 : ℚ) < (b <<< g.toNat : Nat) := by
    rw [Nat.cast_pos, Nat.shiftLeft_eq]
    positivity
  have hpow : (0 : ℚ) < 2 ^ g := by positivity
  rw [← Nat.cast_le (α := ℚ), ← one_le_div hshift, cast_shift_div_shift, one_le_div hpow]

/-! ## The exponent of a quotient -/

theorem zpow_log2_le {n : Nat} (h : 0 < n) : (2 : ℚ) ^ (n.log2 : Int) ≤ n := by
  rw [zpow_natCast]
  exact_mod_cast Nat.log2_self_le (Nat.ne_of_gt h)

theorem lt_zpow_log2_succ {n : Nat} : (n : ℚ) < 2 ^ ((n.log2 : Int) + 1) := by
  have hcast : ((n.log2 : Int) + 1) = ((n.log2 + 1 : Nat) : Int) := rfl
  rw [hcast, zpow_natCast]
  exact_mod_cast Nat.lt_log2_self

namespace Format

/-- The exponents of the two numbers leave two candidates for that of their quotient. -/
theorem between_log2_sub {num den : Nat} (hnum : 0 < num) (hden : 0 < den) :
    (2 : ℚ) ^ ((num.log2 : Int) - den.log2 - 1) ≤ num / den ∧
      (num / den : ℚ) < 2 ^ ((num.log2 : Int) - den.log2 + 1) := by
  have hd : (0 : ℚ) < den := by exact_mod_cast hden
  constructor
  · rw [le_div_iff₀ hd]
    calc (2 : ℚ) ^ ((num.log2 : Int) - den.log2 - 1) * den
        ≤ 2 ^ ((num.log2 : Int) - den.log2 - 1) * 2 ^ ((den.log2 : Int) + 1) := by
          exact mul_le_mul_of_nonneg_left (le_of_lt lt_zpow_log2_succ) (by positivity)
      _ = 2 ^ (num.log2 : Int) := by
          rw [← zpow_add₀ (by norm_num)]
          congr 1
          omega
      _ ≤ num := zpow_log2_le hnum
  · rw [div_lt_iff₀ hd]
    calc (num : ℚ) < 2 ^ ((num.log2 : Int) + 1) := lt_zpow_log2_succ
      _ = 2 ^ ((num.log2 : Int) - den.log2 + 1) * 2 ^ (den.log2 : Int) := by
          rw [← zpow_add₀ (by norm_num)]
          congr 1
          omega
      _ ≤ 2 ^ ((num.log2 : Int) - den.log2 + 1) * den :=
          mul_le_mul_of_nonneg_left (zpow_log2_le hden) (by positivity)

/-- **The exponent of a quotient** is that of the largest power of two below it. -/
theorem floorLog2_spec {num den : Nat} (hnum : 0 < num) (hden : 0 < den) :
    (2 : ℚ) ^ floorLog2 num den ≤ num / den ∧ (num / den : ℚ) < 2 ^ (floorLog2 num den + 1) := by
  obtain ⟨hlow, hhigh⟩ := between_log2_sub hnum hden
  set g : Int := (num.log2 : Int) - den.log2 with hg
  have hreached : (if 0 ≤ g then den <<< g.toNat ≤ num else den ≤ num <<< (-g).toNat) ↔
      (2 : ℚ) ^ g ≤ num / den := by
    rw [← le_shift_iff hden]
    by_cases h : 0 ≤ g
    · have hneg : (-g).toNat = 0 := by omega
      rw [if_pos h, hneg, Nat.shiftLeft_zero]
    · have hpos : g.toNat = 0 := by omega
      rw [if_neg h, hpos, Nat.shiftLeft_zero]
  have hvalue : floorLog2 num den = if (2 : ℚ) ^ g ≤ num / den then g else g - 1 := by
    unfold floorLog2
    simp only [← hg, hreached]
  rw [hvalue]
  by_cases h : (2 : ℚ) ^ g ≤ num / den
  · rw [if_pos h]
    exact ⟨h, hhigh⟩
  · rw [if_neg h, sub_add_cancel]
    exact ⟨hlow, lt_of_not_ge h⟩

/-! ## Rounding a quotient to a whole number -/

/-- A whole number is the one that a value rounds to: it is within a half, and an odd one is nearer than that. -/
structure RoundsTo (q : ℚ) (k : Nat) : Prop where
  low : (k : ℚ) - 1 / 2 ≤ q
  high : q ≤ k + 1 / 2
  odd : k % 2 = 1 → (k : ℚ) - 1 / 2 < q ∧ q < k + 1 / 2

/-- The same without fractions. -/
theorem RoundsTo.cross_mul {num den k : Nat} (hden : 0 < den) (h : RoundsTo (num / den) k) :
    2 * k * den ≤ 2 * num + den ∧ 2 * num ≤ 2 * k * den + den ∧
      (k % 2 = 1 → 2 * k * den < 2 * num + den ∧ 2 * num < 2 * k * den + den) := by
  have hd : (0 : ℚ) < den := by exact_mod_cast hden
  obtain ⟨hlow, hhigh, hodd⟩ := h
  rw [sub_le_iff_le_add, div_add' _ _ _ hd.ne', le_div_iff₀ hd] at hlow
  rw [div_le_iff₀ hd] at hhigh
  rw [sub_lt_iff_lt_add, div_add' _ _ _ hd.ne', lt_div_iff₀ hd, div_lt_iff₀ hd] at hodd
  refine ⟨?_, ?_, fun hk => ?_⟩
  · have : (2 * k * den : ℚ) ≤ 2 * num + den := by linarith
    exact_mod_cast this
  · have : (2 * num : ℚ) ≤ 2 * k * den + den := by linarith
    exact_mod_cast this
  · obtain ⟨habove, hbelow⟩ := hodd hk
    have habove' : (2 * k * den : ℚ) < 2 * num + den := by linarith
    have hbelow' : (2 * num : ℚ) < 2 * k * den + den := by linarith
    exact ⟨by exact_mod_cast habove', by exact_mod_cast hbelow'⟩

theorem divideToEven_eq {num den k : Nat} (hden : 0 < den) (h : RoundsTo (num / den) k) : divideToEven num den = k := by
  obtain ⟨hlow, hhigh, hodd⟩ := h.cross_mul hden
  have hdiv := Nat.div_add_mod num den
  have hmod := Nat.mod_lt num hden
  unfold divideToEven
  generalize num / den = q at hdiv ⊢
  generalize num % den = r at hdiv hmod ⊢
  -- the quotient is the nearest number or the one below it
  have hle : q ≤ k := by
    have : 2 * q * den < (2 * k + 2) * den := by nlinarith
    have := Nat.lt_of_mul_lt_mul_right this
    omega
  have hge : k ≤ q + 1 := by
    have : 2 * k * den < (2 * q + 3) * den := by nlinarith
    have := Nat.lt_of_mul_lt_mul_right this
    omega
  obtain rfl | rfl : k = q ∨ k = q + 1 := by omega
  · have hdown : ¬(den < 2 * r ∨ 2 * r = den ∧ k % 2 = 1) := by
      rintro (hlt | ⟨heq, hparity⟩)
      · nlinarith
      · have := (hodd hparity).2
        nlinarith
    exact if_neg hdown
  · have hup : den < 2 * r ∨ 2 * r = den ∧ q % 2 = 1 := by
      by_cases hlt : den < 2 * r
      · exact .inl hlt
      · refine .inr ⟨by nlinarith, ?_⟩
        by_contra hparity
        have := (hodd (by omega)).1
        nlinarith
    exact if_pos hup

/-- Rounding is done in the unit of the value, which leaves `precision` digits unless the value is too small. -/
theorem roundRatio_eq {f : Format} {num den k : Nat} {unit : Int} (hnum : 0 < num) (hden : 0 < den)
    (hunit : max f.least (floorLog2 num den + 1 - f.precision) = unit) (h : RoundsTo (num / den / 2 ^ unit) k) :
    f.roundRatio num den = f.assemble k unit := by
  have hshift : 0 < den <<< unit.toNat := by
    rw [Nat.shiftLeft_eq]
    positivity
  rw [← cast_shift_div_shift] at h
  have hround := divideToEven_eq hshift h
  unfold roundRatio
  rw [if_neg (Nat.ne_of_gt hnum)]
  simp only [hunit]
  by_cases hsign : 0 ≤ unit
  · have hneg : (-unit).toNat = 0 := by omega
    rw [hneg, Nat.shiftLeft_zero] at hround
    rw [if_pos hsign, hround]
  · have hpos : unit.toNat = 0 := by omega
    rw [hpos, Nat.shiftLeft_zero] at hround
    rw [if_neg hsign, hround]

/-! ## The numbers of a format -/

/-- **A number of a format** other than zero: its significand has `precision` digits, or its exponent is the least. -/
structure Represents (f : Format) (m : Nat) (e : Int) : Prop where
  pos : 0 < m
  fits : m < 2 ^ f.precision
  least_le : f.least ≤ e
  normal : 2 ^ (f.precision - 1) ≤ m ∨ e = f.least

/-- The pattern of a number. -/
def pattern (f : Format) (m : Nat) (e : Int) : Nat := (e - f.least).toNat * 2 ^ (f.precision - 1) + m

theorem assemble_eq (f : Format) (m : Nat) (e : Int) : f.assemble m e = min f.infinity (f.pattern m e) := by
  unfold assemble pattern
  rw [Nat.shiftLeft_eq]

end Format

/-- What a neighbourhood in units of `2 ^ u` holds. -/
structure Neighbourhood.Holds (n : Neighbourhood) (u : Int) (q : ℚ) : Prop where
  lower_le : n.lower * 2 ^ u ≤ q
  le_upper : q ≤ n.upper * 2 ^ u
  strict : n.closed = false → n.lower * 2 ^ u < q ∧ q < n.upper * 2 ^ u

namespace Format

theorem le_floorLog2 {num den : Nat} {a : Int} (hnum : 0 < num) (hden : 0 < den) (h : (2 : ℚ) ^ a ≤ num / den) :
    a ≤ floorLog2 num den := by
  have hlt := lt_of_le_of_lt h (floorLog2_spec hnum hden).2
  rw [zpow_lt_zpow_iff_right₀ (by norm_num)] at hlt
  omega

theorem floorLog2_lt {num den : Nat} {a : Int} (hnum : 0 < num) (hden : 0 < den) (h : (num / den : ℚ) < 2 ^ a) :
    floorLog2 num den < a := by
  have hlt := lt_of_le_of_lt (floorLog2_spec hnum hden).1 h
  rwa [zpow_lt_zpow_iff_right₀ (by norm_num)] at hlt

/-- The units of a neighbourhood are quarters of the unit of its number. -/
theorem zpow_eq_quarter (e : Int) : (2 : ℚ) ^ e = 4 * 2 ^ (e - 2) := by
  rw [zpow_sub₀ (by norm_num)]
  ring

theorem lower_neighbourhood {f : Format} {m : Nat} {e : Int} (hm : 0 < m) :
    ((f.neighbourhood m e).lower : ℚ)
      = if m = 2 ^ (f.precision - 1) ∧ f.least < e then 4 * (m : ℚ) - 1 else 4 * (m : ℚ) - 2 := by
  unfold neighbourhood
  rw [Nat.one_shiftLeft]
  split
  · rw [Nat.cast_sub (by omega)]
    push_cast
    ring
  · rw [Nat.cast_sub (by omega)]
    push_cast
    ring

/-- In the unit of a number, its neighbourhood rounds to the significand. -/
theorem roundsTo_of_holds {f : Format} {m : Nat} {e : Int} {q : ℚ} (hm : 0 < m)
    (h : (f.neighbourhood m e).Holds (e - 2) q) : RoundsTo (q / 2 ^ e) m := by
  have hunit : (0 : ℚ) < 2 ^ (e - 2) := by positivity
  have hquarter := zpow_eq_quarter e
  have hpow : (0 : ℚ) < 2 ^ e := by positivity
  have hlower : 4 * (m : ℚ) - 2 ≤ (f.neighbourhood m e).lower := by
    rw [lower_neighbourhood hm]
    split <;> linarith
  have hupper : ((f.neighbourhood m e).upper : ℚ) = 4 * m + 2 := by
    unfold neighbourhood
    push_cast
    ring
  have hleft : (4 * (m : ℚ) - 2) * 2 ^ (e - 2) ≤ (f.neighbourhood m e).lower * 2 ^ (e - 2) :=
    mul_le_mul_of_nonneg_right hlower (le_of_lt hunit)
  obtain ⟨hlow, hhigh, hstrict⟩ := h
  rw [hupper] at hhigh hstrict
  refine ⟨?_, ?_, fun hodd => ?_⟩
  · rw [le_div_iff₀ hpow, hquarter]
    linarith
  · rw [div_le_iff₀ hpow, hquarter]
    linarith
  · have hopen : (f.neighbourhood m e).closed = false := by
      show (m % 2 == 0) = false
      rw [hodd]
      rfl
    obtain ⟨h1, h2⟩ := hstrict hopen
    rw [lt_div_iff₀ hpow, div_lt_iff₀ hpow, hquarter]
    constructor <;> linarith

/-- What is in the neighbourhood of a number is not below half of its unit. -/
theorem le_of_holds {f : Format} {m : Nat} {e : Int} {q : ℚ} (hm : 0 < m)
    (h : (f.neighbourhood m e).Holds (e - 2) q) : (2 : ℚ) ^ (e - 1) ≤ q := by
  have hlow := (roundsTo_of_holds hm h).low
  have hpow : (0 : ℚ) < 2 ^ e := by positivity
  have hone : (1 : ℚ) ≤ m := by exact_mod_cast hm
  rw [le_div_iff₀ hpow] at hlow
  rw [zpow_sub_one₀ (by norm_num)]
  nlinarith

/-- It is below the next power of two. -/
theorem lt_of_holds {f : Format} {m : Nat} {e : Int} {q : ℚ} (hm : 0 < m) (hfits : m < 2 ^ f.precision)
    (h : (f.neighbourhood m e).Holds (e - 2) q) : q < 2 ^ (f.precision + e : Int) := by
  have hhigh := (roundsTo_of_holds hm h).high
  have hpow : (0 : ℚ) < 2 ^ e := by positivity
  have hle : (m : ℚ) + 1 ≤ 2 ^ f.precision := by exact_mod_cast hfits
  rw [div_le_iff₀ hpow] at hhigh
  rw [zpow_add₀ (by norm_num), zpow_natCast]
  nlinarith

/-- The least value of full precision in a unit is that of the hidden digit. -/
theorem zpow_fullPrecision {f : Format} (hprecision : 0 < f.precision) (e : Int) :
    (2 : ℚ) ^ (f.precision - 1 + e : Int) = (2 ^ (f.precision - 1) : Nat) * 2 ^ e := by
  have hcast : (f.precision - 1 : Int) = (f.precision - 1 : Nat) := (Nat.cast_sub hprecision).symm
  rw [zpow_add₀ (by norm_num), hcast, zpow_natCast]
  push_cast
  rfl

/-- Only the neighbourhood of a power of two reaches below the values of full precision. -/
theorem eq_border_of_lt {f : Format} {m : Nat} {e : Int} {q : ℚ} (hprecision : 0 < f.precision)
    (hm : f.Represents m e) (hunit : f.least < e) (h : (f.neighbourhood m e).Holds (e - 2) q)
    (hlt : q < 2 ^ (f.precision - 1 + e : Int)) : m = 2 ^ (f.precision - 1) := by
  by_contra hother
  have hlower := h.lower_le
  rw [lower_neighbourhood hm.pos, if_neg fun hborder => hother hborder.1] at hlower
  rw [zpow_fullPrecision hprecision, zpow_eq_quarter e] at hlt
  have hleast : 2 ^ (f.precision - 1) ≤ m := hm.normal.resolve_right hunit.ne'
  have hnext : ((2 ^ (f.precision - 1) : Nat) : ℚ) + 1 ≤ m := by
    have : 2 ^ (f.precision - 1) + 1 ≤ m := by omega
    exact_mod_cast this
  have hquarter : (0 : ℚ) < 2 ^ (e - 2) := by positivity
  nlinarith

/-- Just below a power of two the unit is half as large, and what is near that power rounds to twice its
significand. -/
theorem roundsTo_below_border {f : Format} {m : Nat} {e : Int} {q : ℚ} (hm : 0 < m)
    (hborder : m = 2 ^ (f.precision - 1)) (hunit : f.least < e) (h : (f.neighbourhood m e).Holds (e - 2) q)
    (hlt : q < m * 2 ^ e) : (m : ℚ) * 2 ^ (e - 1) ≤ q ∧ RoundsTo (q / 2 ^ (e - 1)) (2 * m) := by
  have hlower := h.lower_le
  rw [lower_neighbourhood hm, if_pos ⟨hborder, hunit⟩] at hlower
  rw [zpow_eq_quarter e] at hlt
  have hquarter : (0 : ℚ) < 2 ^ (e - 2) := by positivity
  have hhalf : (2 : ℚ) ^ (e - 1) = 2 * 2 ^ (e - 2) := by
    rw [zpow_sub₀ (by norm_num), zpow_sub₀ (by norm_num)]
    ring
  have hone : (1 : ℚ) ≤ m := by exact_mod_cast hm
  refine ⟨?_, ?_, ?_, fun hodd => by omega⟩
  · rw [hhalf]
    nlinarith
  · rw [le_div_iff₀ (by positivity), hhalf]
    push_cast
    linarith
  · rw [div_le_iff₀ (by positivity), hhalf]
    push_cast
    nlinarith

/-- A power of two has the same pattern in both units. -/
theorem pattern_border {f : Format} {m : Nat} {e : Int} (hborder : m = 2 ^ (f.precision - 1)) (hunit : f.least < e) :
    f.pattern (2 * m) (e - 1) = f.pattern m e := by
  unfold pattern
  have hsucc : (e - f.least).toNat = (e - 1 - f.least).toNat + 1 := by omega
  rw [hsucc, Nat.add_mul, hborder]
  omega

/-- **What rounds to a number.** Every quotient in the neighbourhood of a number has the pattern of that number. -/
theorem roundRatio_of_holds {f : Format} {num den m : Nat} {e : Int} (hprecision : 0 < f.precision)
    (hm : f.Represents m e) (hfinite : f.pattern m e ≤ f.infinity) (hnum : 0 < num) (hden : 0 < den)
    (h : (f.neighbourhood m e).Holds (e - 2) (num / den)) : f.roundRatio num den = f.pattern m e := by
  have hexponent := floorLog2_lt hnum hden (lt_of_holds hm.pos hm.fits h)
  have hleast := hm.least_le
  have hplace : ∀ (unit : Int) (k : Nat), max f.least (floorLog2 num den + 1 - f.precision) = unit →
      RoundsTo (num / den / 2 ^ unit) k → f.pattern k unit = f.pattern m e →
      f.roundRatio num den = f.pattern m e := by
    intro unit k hunit hk hpattern
    rw [roundRatio_eq hnum hden hunit hk, assemble_eq, hpattern, Nat.min_eq_right hfinite]
  -- the unit is that of the number, unless the quotient has fewer digits in it and it is not the least one
  by_cases hreached : e = f.least ∨ (2 : ℚ) ^ (f.precision - 1 + e : Int) ≤ num / den
  · refine hplace e m ?_ (roundsTo_of_holds hm.pos h) rfl
    rcases hreached with rfl | hge
    · omega
    · have := le_floorLog2 hnum hden hge
      omega
  · obtain ⟨hne, hnot⟩ := not_or.mp hreached
    have hunit : f.least < e := lt_of_le_of_ne hleast (Ne.symm hne)
    have hbefore := lt_of_not_ge hnot
    have hborder := eq_border_of_lt hprecision hm hunit h hbefore
    have hbelow := hbefore
    rw [zpow_fullPrecision hprecision, ← hborder] at hbelow
    obtain ⟨hge, hround⟩ := roundsTo_below_border hm.pos hborder hunit h hbelow
    rw [hborder, ← zpow_fullPrecision hprecision] at hge
    have hlow := le_floorLog2 hnum hden hge
    have hhigh := floorLog2_lt hnum hden hbefore
    exact hplace (e - 1) (2 * m) (by omega) hround (pattern_border hborder hunit)

end Format
end StereoMapping
