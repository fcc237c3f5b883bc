import Mathlib
import StereoMapping.Proofs.Number.Numeral
import StereoMapping.Proofs.Number.Rounding
import StereoMapping.Proofs.Number.Special

/-!
# `Proofs.Number.Shortest` — the shortest numeral of a number reads back

The search for the shortest decimal tries one grid after another and takes a point only if it lies among the reals
that round to the number. Reading rounds a quotient of whole numbers, so any decimal of that value, with more or
fewer zeros, leads back to the pattern of the number. Powers of ten that are settled without a quotient are beyond
all of these decimals.

The whole library is imported for its lemmas about packed numbers, which no smaller part of it passes on.

## Contents
- `Neighbourhood.Admits`, `admits_of_onGrid?`, `Admits.holds`: what a grid point that is taken satisfies.
- `Format.holds_shortest`: the shortest decimal rounds to its number.
- `Format.ofDecimal_of_holds`: decimals that round to a number are read as its pattern.
- `Format.shape_finite`, `Format.shape_infinite`, `float64_bits`, `float64_inj`: a number, its shape and its pattern.
- `toFloat_of_same_numeral64`: every number of 64 bits is read back.
- `Numeral.IsBelowRange`, `toFloat_eq_negative_infinity_iff`: which numerals are read as negative infinity.
-/

namespace StereoMapping

open Float.Model.UnpackedFloat (unpack isNaNBits pack_unpack)

/-! ## Decimals in a neighbourhood -/

theorem ten_pow_div_ten_pow (k : Int) : ((10 ^ k.toNat : Nat) : ℚ) / (10 ^ (-k).toNat : Nat) = 10 ^ k := by
  push_cast
  exact pow_toNat_div_pow_toNat (by norm_num) k

namespace Neighbourhood

/-- A grid point in a neighbourhood, as it is tested. -/
structure Admits (n : Neighbourhood) (u k : Int) (c : Nat) : Prop where
  lower_le : n.lower * (10 ^ (-k).toNat <<< u.toNat) ≤ c * (10 ^ k.toNat <<< (-u).toNat)
  le_upper : c * (10 ^ k.toNat <<< (-u).toNat) ≤ n.upper * (10 ^ (-k).toNat <<< u.toNat)
  strict : n.closed = false → n.lower * (10 ^ (-k).toNat <<< u.toNat) < c * (10 ^ k.toNat <<< (-u).toNat) ∧
    c * (10 ^ k.toNat <<< (-u).toNat) < n.upper * (10 ^ (-k).toNat <<< u.toNat)

theorem admits_of_onGrid? {n : Neighbourhood} {u k : Int} {c : Nat} (h : n.onGrid? u k = some c) :
    n.Admits u k c := by
  have hinside : ∀ c, (if n.closed then
        n.lower * (10 ^ (-k).toNat <<< u.toNat) ≤ c * (10 ^ k.toNat <<< (-u).toNat) &&
          c * (10 ^ k.toNat <<< (-u).toNat) ≤ n.upper * (10 ^ (-k).toNat <<< u.toNat)
      else n.lower * (10 ^ (-k).toNat <<< u.toNat) < c * (10 ^ k.toNat <<< (-u).toNat) &&
          c * (10 ^ k.toNat <<< (-u).toNat) < n.upper * (10 ^ (-k).toNat <<< u.toNat)) = true → n.Admits u k c := by
    intro c hc
    cases hclosed : n.closed with
    | true =>
      rw [hclosed] at hc
      simp only [if_true, Bool.and_eq_true, decide_eq_true_eq] at hc
      exact ⟨hc.1, hc.2, fun hopen => absurd (hclosed.symm.trans hopen) (by decide)⟩
    | false =>
      rw [hclosed] at hc
      simp only [Bool.false_eq_true, if_false, Bool.and_eq_true, decide_eq_true_eq] at hc
      exact ⟨Nat.le_of_lt hc.1, Nat.le_of_lt hc.2, fun _ => hc⟩
  unfold onGrid? at h
  simp only [Nat.pow_eq] at h
  split at h
  · rename_i hdown hup
    split at h
    · exact Option.some.inj h ▸ hinside _ hdown
    · exact Option.some.inj h ▸ hinside _ hup
  · rename_i hdown _
    exact Option.some.inj h ▸ hinside _ hdown
  · rename_i _ hup
    exact Option.some.inj h ▸ hinside _ hup
  · cases h

/-- A grid point that is taken lies in the neighbourhood. -/
theorem Admits.holds {n : Neighbourhood} {u k : Int} {c : Nat} (h : n.Admits u k c) : n.Holds u (c * 10 ^ k) := by
  have hunit : (0 : ℚ) < (10 ^ (-k).toNat <<< u.toNat : Nat) := by
    rw [Nat.cast_pos, Nat.shiftLeft_eq]
    positivity
  have hpow : (0 : ℚ) < 2 ^ u := by positivity
  have hratio : ((10 ^ k.toNat <<< (-u).toNat : Nat) : ℚ) / (10 ^ (-k).toNat <<< u.toNat : Nat) = 10 ^ k / 2 ^ u := by
    rw [cast_shift_div_shift, ten_pow_div_ten_pow]
  rw [div_eq_div_iff hunit.ne' hpow.ne'] at hratio
  -- both sides are compared in units of the test
  have hscaled : ((c * (10 ^ k.toNat <<< (-u).toNat) : Nat) : ℚ) * (2 : ℚ) ^ u
      = c * (10 : ℚ) ^ k * (10 ^ (-k).toNat <<< u.toNat : Nat) := by
    rw [Nat.cast_mul, mul_assoc, hratio, ← mul_assoc]
  have hbound : ∀ b : Nat, (b : ℚ) * (2 : ℚ) ^ u * (10 ^ (-k).toNat <<< u.toNat : Nat)
      = ((b * (10 ^ (-k).toNat <<< u.toNat) : Nat) : ℚ) * (2 : ℚ) ^ u := by
    intro b
    rw [Nat.cast_mul]
    ring
  have hle : ∀ {a b : Nat}, a ≤ b → (a : ℚ) * 2 ^ u ≤ b * 2 ^ u := fun hab =>
    mul_le_mul_of_nonneg_right (by exact_mod_cast hab) (le_of_lt hpow)
  have hlt : ∀ {a b : Nat}, a < b → (a : ℚ) * 2 ^ u < b * 2 ^ u := fun hab =>
    mul_lt_mul_of_pos_right (by exact_mod_cast hab) hpow
  obtain ⟨hlow, hhigh, hstrict⟩ := h
  refine ⟨?_, ?_, fun hopen => ⟨?_, ?_⟩⟩
  · refine le_of_mul_le_mul_right ?_ hunit
    rw [hbound, ← hscaled]
    exact hle hlow
  · refine le_of_mul_le_mul_right ?_ hunit
    rw [hbound, ← hscaled]
    exact hle hhigh
  · refine lt_of_mul_lt_mul_right ?_ (le_of_lt hunit)
    rw [hbound, ← hscaled]
    exact hlt (hstrict hopen).1
  · refine lt_of_mul_lt_mul_right ?_ (le_of_lt hunit)
    rw [hbound, ← hscaled]
    exact hlt (hstrict hopen).2

end Neighbourhood

namespace Format

/-- A number lies in its own neighbourhood. -/
theorem holds_self {f : Format} {m : Nat} {e : Int} (hm : 0 < m) :
    (f.neighbourhood m e).Holds (e - 2) (m * 2 ^ e) := by
  have hunit : (0 : ℚ) < 2 ^ (e - 2) := by positivity
  have hlower : ((f.neighbourhood m e).lower : ℚ) < 4 * m := by
    rw [lower_neighbourhood hm]
    split <;> linarith
  have hupper : (4 * m : ℚ) < (f.neighbourhood m e).upper := by
    unfold neighbourhood
    push_cast
    linarith
  have hlow := mul_lt_mul_of_pos_right hlower hunit
  have hhigh := mul_lt_mul_of_pos_right hupper hunit
  rw [zpow_eq_quarter e, ← mul_assoc, mul_comm (m : ℚ) 4]
  exact ⟨le_of_lt hlow, le_of_lt hhigh, fun _ => ⟨hlow, hhigh⟩⟩

/-- The digits of the number itself, in a power of ten. -/
theorem cast_exact (m : Nat) (e : Int) :
    ((m <<< e.toNat * Nat.pow 5 (-e).toNat : Nat) : ℚ) * 10 ^ min e 0 = m * 2 ^ e := by
  have hmin : min e 0 = -((-e).toNat : Int) := by omega
  have hten : (10 : ℚ) ^ (-e).toNat = 2 ^ (-e).toNat * 5 ^ (-e).toNat := by
    rw [← mul_pow]
    norm_num
  rw [Nat.pow_eq, Nat.shiftLeft_eq, hmin, zpow_neg, zpow_natCast, hten, ← pow_toNat_div_pow_toNat two_ne_zero]
  push_cast
  field_simp

/-- **The shortest decimal** of a number lies in its neighbourhood. -/
theorem holds_shortest {f : Format} {m : Nat} {e : Int} (hm : 0 < m) :
    (f.neighbourhood m e).Holds (e - 2) ((f.shortest m e).1 * 10 ^ (f.shortest m e).2) := by
  unfold shortest
  dsimp only
  generalize hfound : List.findSome? _ (List.range 24) = found
  cases found with
  | some result =>
    obtain ⟨i, _, hgrid⟩ := List.exists_of_findSome?_eq_some hfound
    obtain ⟨digits, hdigits, rfl⟩ := Option.map_eq_some_iff.mp hgrid
    exact (Neighbourhood.admits_of_onGrid? hdigits).holds
  | none =>
    -- no grid is fine enough, so all digits are written
    have hself := holds_self (f := f) (e := e) hm
    rw [← cast_exact] at hself
    exact hself

/-! ## Decimals to numbers of 64 bits -/

/-- Numbers of 64 bits are below this power of two and above that one. -/
theorem double_exponent_le {m : Nat} {e : Int} (hm : double.Represents m e)
    (hfinite : double.pattern m e < double.infinity) : e ≤ 971 := by
  obtain ⟨_, _, hleast, hnormal⟩ := hm
  unfold pattern at hfinite
  show e ≤ 971
  change (e - (-1074)).toNat * 2 ^ 52 + m < 0x7ff0000000000000 at hfinite
  change -1074 ≤ e at hleast
  change 2 ^ 52 ≤ m ∨ e = -1074 at hnormal
  rcases hnormal with hhidden | rfl
  · omega
  · omega

theorem zpow_three_mul (k : Int) : (2 : ℚ) ^ (3 * k) = 8 ^ k := by
  rw [zpow_mul]
  norm_num

/-- A decimal below the largest power of two has no large exponent. -/
theorem exponent_le_of_lt {digits : Nat} {exponent : Int} (hdigits : 0 < digits)
    (h : (digits * 10 ^ exponent : ℚ) < 2 ^ (1024 : Int)) : ¬ 400 < exponent := by
  intro hlarge
  have hone : (1 : ℚ) ≤ digits := by exact_mod_cast hdigits
  have hten : (10 : ℚ) ^ (400 : Int) ≤ 10 ^ exponent := zpow_le_zpow_right₀ (by norm_num) (by omega)
  have hpowers : (2 : ℚ) ^ (1024 : Int) ≤ 10 ^ (400 : Int) :=
    calc (2 : ℚ) ^ (1024 : Int) ≤ 2 ^ (3 * 400 : Int) := zpow_le_zpow_right₀ (by norm_num) (by decide)
      _ = 8 ^ (400 : Int) := zpow_three_mul 400
      _ ≤ 10 ^ (400 : Int) := zpow_le_zpow_left₀ (by decide) (by norm_num) (by norm_num)
  have hle : (10 : ℚ) ^ exponent ≤ digits * 10 ^ exponent :=
    le_mul_of_one_le_left (le_of_lt (by positivity)) hone
  exact absurd (lt_of_le_of_lt (le_trans (le_trans hpowers hten) hle) h) (lt_irrefl _)

/-- A decimal above the least power of two is not settled as zero: ten times as many digits make up for a power of
ten. -/
theorem le_exponent_of_le {digits : Nat} {exponent : Int} (h : (2 : ℚ) ^ (-1075 : Int) ≤ digits * 10 ^ exponent) :
    ¬ exponent + digits.log2 < -400 := by
  intro hsmall
  have height : (10 : ℚ) ^ exponent ≤ 2 ^ (3 * exponent) := by
    rw [zpow_three_mul]
    obtain ⟨n, hn⟩ := Int.eq_ofNat_of_zero_le (show 0 ≤ -exponent by omega)
    have he : exponent = -(n : Int) := by omega
    rw [he, zpow_neg, zpow_neg, zpow_natCast, zpow_natCast]
    exact inv_anti₀ (by positivity) (pow_le_pow_left₀ (by norm_num) (by norm_num) n)
  have hvalue : (digits * 10 ^ exponent : ℚ) < 2 ^ ((digits.log2 : Int) + 1) * 2 ^ (3 * exponent) :=
    mul_lt_mul_of_lt_of_le_of_nonneg_of_pos lt_zpow_log2_succ height (by positivity) (by positivity)
  rw [← zpow_add₀ (by norm_num)] at hvalue
  have hless : (2 : ℚ) ^ ((digits.log2 : Int) + 1 + 3 * exponent) ≤ 2 ^ (-1075 : Int) :=
    zpow_le_zpow_right₀ (by norm_num) (by omega)
  exact absurd (lt_of_le_of_lt h (lt_of_lt_of_le hvalue hless)) (lt_irrefl _)

/-- **Decimals that round to a number** of 64 bits: all that lie in its neighbourhood, however they are written. -/
theorem ofDecimal_of_holds {m digits : Nat} {e exponent : Int} (hm : double.Represents m e)
    (hfinite : double.pattern m e < double.infinity)
    (h : (double.neighbourhood m e).Holds (e - 2) (digits * 10 ^ exponent)) :
    double.ofDecimal digits exponent = double.pattern m e := by
  have hlarge := double_exponent_le hm hfinite
  have hsmall : -1074 ≤ e := hm.least_le
  have hpos := hm.pos
  have hlow : (2 : ℚ) ^ (-1075 : Int) ≤ digits * 10 ^ exponent :=
    le_trans (zpow_le_zpow_right₀ (by norm_num) (by omega)) (le_of_holds hpos h)
  have hhigh : (digits * 10 ^ exponent : ℚ) < 2 ^ (1024 : Int) :=
    lt_of_lt_of_le (lt_of_holds hpos hm.fits h)
      (zpow_le_zpow_right₀ (by norm_num) (show (53 : Int) + e ≤ 1024 by omega))
  have hdigits : 0 < digits := by
    rw [Nat.pos_iff_ne_zero]
    rintro rfl
    rw [Nat.cast_zero, zero_mul] at hlow
    exact absurd hlow (not_le_of_gt (by positivity))
  -- the bounds of the search for extreme exponents are not reached
  have hsettled : ¬ 400 < exponent := exponent_le_of_lt hdigits hhigh
  have htiny : ¬ exponent + digits.log2 < -400 := le_exponent_of_le hlow
  unfold ofDecimal
  rw [if_neg (Nat.ne_of_gt hdigits), if_neg hsettled, if_neg htiny]
  simp only [Nat.pow_eq]
  have hratio := ten_pow_div_ten_pow exponent
  by_cases hsign : 0 ≤ exponent
  · rw [if_pos hsign]
    refine roundRatio_of_holds (by decide) hm (Nat.le_of_lt hfinite) (by positivity) Nat.one_pos ?_
    have hvalue : ((digits * 10 ^ exponent.toNat : Nat) : ℚ) / (1 : Nat) = digits * 10 ^ exponent := by
      have hneg : (-exponent).toNat = 0 := by omega
      rw [hneg, pow_zero] at hratio
      rw [Nat.cast_mul, mul_div_assoc, hratio]
    rw [hvalue]
    exact h
  · rw [if_neg hsign]
    refine roundRatio_of_holds (by decide) hm (Nat.le_of_lt hfinite) hdigits (by positivity) ?_
    have hvalue : (digits : ℚ) / (10 ^ (-exponent).toNat : Nat) = digits * 10 ^ exponent := by
      have hpos : exponent.toNat = 0 := by omega
      rw [hpos, pow_zero, Nat.cast_one] at hratio
      rw [← hratio, mul_one_div]
    rw [hvalue]
    exact h

/-! ## Patterns -/

/-- A finite value is zero, with the pattern zero, or a number with its own pattern. -/
theorem shape_finite {f : Format} (hprecision : 0 < f.precision) {negative sign : Bool} {bits m : Nat} {e : Int}
    (h : f.shape negative bits = .finite sign m e) :
    sign = negative ∧ bits < f.infinity ∧ (m = 0 ∧ bits = 0 ∨ f.Represents m e ∧ f.pattern m e = bits) := by
  unfold shape at h
  rw [Nat.one_shiftLeft] at h
  by_cases hbeyond : f.infinity < bits
  · rw [if_pos hbeyond] at h
    cases h
  by_cases hinfinite : bits = f.infinity
  · rw [if_neg hbeyond, if_pos hinfinite] at h
    cases h
  rw [if_neg hbeyond, if_neg hinfinite] at h
  dsimp only at h
  have hhidden : 0 < 2 ^ (f.precision - 1) := by positivity
  have htwice : 2 ^ f.precision = 2 ^ (f.precision - 1) + 2 ^ (f.precision - 1) := by
    rw [← Nat.two_mul, ← pow_succ']
    congr 1
    omega
  have hdiv := Nat.div_add_mod bits (2 ^ (f.precision - 1))
  have hmod := Nat.mod_lt bits hhidden
  generalize bits / 2 ^ (f.precision - 1) = biased at h hdiv
  generalize bits % 2 ^ (f.precision - 1) = rest at h hdiv hmod
  -- without a biased exponent there is no hidden digit
  by_cases hsubnormal : biased = 0
  · rw [if_pos hsubnormal] at h
    obtain ⟨rfl, rfl, rfl⟩ := Shape.finite.inj h
    rw [hsubnormal, Nat.mul_zero, Nat.zero_add] at hdiv
    refine ⟨rfl, by omega, ?_⟩
    by_cases hzero : rest = 0
    · exact .inl ⟨hzero, by omega⟩
    · refine .inr ⟨⟨by omega, by omega, Int.le_refl _, .inr rfl⟩, ?_⟩
      unfold pattern
      rw [Int.sub_self, Int.toNat_zero, Nat.zero_mul, Nat.zero_add, hdiv]
  · rw [if_neg hsubnormal] at h
    obtain ⟨rfl, rfl, rfl⟩ := Shape.finite.inj h
    refine ⟨rfl, by omega, .inr ⟨⟨by omega, by omega, by omega, .inl (by omega)⟩, ?_⟩⟩
    unfold pattern
    obtain ⟨exponent, rfl⟩ := Nat.exists_eq_succ_of_ne_zero hsubnormal
    have hexponent : (f.least + (exponent.succ : Nat) - 1 - f.least).toNat = exponent := by omega
    rw [hexponent, ← hdiv, Nat.mul_succ, Nat.mul_comm]
    omega

theorem shape_infinite {f : Format} {negative sign : Bool} {bits : Nat} (h : f.shape negative bits = .infinite sign) :
    sign = negative ∧ bits = f.infinity := by
  unfold shape at h
  split at h
  · cases h
  · split at h
    · exact ⟨(Shape.infinite.inj h).symm, by assumption⟩
    · dsimp only at h
      split at h <;> cases h

end Format

theorem toNat_and_low (bits : UInt64) : (bits &&& 0x7fffffffffffffff).toNat = bits.toNat % 2 ^ 63 := by
  rw [UInt64.toNat_and]
  exact Nat.and_two_pow_sub_one_eq_mod _ 63

/-- A number of 64 bits is made of its sign and its unsigned pattern. -/
theorem float64_bits (x : Float) :
    float64 (x.toBits >>> 63 == 1) (x.toBits &&& 0x7fffffffffffffff).toNat = x := by
  suffices hbits : ∀ b : UInt64, (if (b >>> 63 == 1) = true
      then (b &&& 0x7fffffffffffffff).toNat.toUInt64 ||| 0x8000000000000000
      else (b &&& 0x7fffffffffffffff).toNat.toUInt64) = b by
    unfold float64
    rw [hbits, Float.ofBits_toBits]
  intro b
  have hlow := toNat_and_low b
  have hword : (b &&& 0x7fffffffffffffff).toNat.toUInt64 = b &&& 0x7fffffffffffffff := UInt64.ofNat_toNat
  have htop : (b >>> 63).toNat = b.toNat / 2 ^ 63 := by
    rw [UInt64.toNat_shiftRight]
    exact Nat.shiftRight_eq_div_pow _ _
  have hlt := b.toNat_lt
  rw [hword]
  by_cases hsign : b.toNat < 2 ^ 63
  · have hpositive : (b >>> 63 == 1) = false := by
      rw [beq_eq_false_iff_ne, Ne, ← UInt64.toNat_inj, htop]
      show ¬ b.toNat / 2 ^ 63 = 1
      omega
    rw [hpositive, if_neg Bool.false_ne_true, ← UInt64.toNat_inj, hlow, Nat.mod_eq_of_lt hsign]
  · have hnegative : (b >>> 63 == 1) = true := by
      rw [beq_iff_eq, ← UInt64.toNat_inj, htop]
      show b.toNat / 2 ^ 63 = 1
      omega
    have hsum := Nat.two_pow_add_eq_or_of_lt (Nat.mod_lt b.toNat (Nat.two_pow_pos 63)) 1
    rw [hnegative, if_pos rfl, ← UInt64.toNat_inj, UInt64.toNat_or, hlow]
    show b.toNat % 2 ^ 63 ||| 2 ^ 63 = b.toNat
    rw [Nat.mul_one] at hsum
    rw [Nat.or_comm, ← hsum]
    omega

/-- A pattern is kept unless it is one of what is not a number. -/
theorem toBits_ofBits {bits : UInt64} (h : bits.toNat % 2 ^ 63 ≤ Format.double.infinity) :
    (Float.ofBits bits).toBits = bits := by
  have hnumber : signOf (unpack .binary64 bits.toBitVec) ≠ none := by
    have hsign : sign64 (Float.ofBits bits) = signOf (unpack .binary64 bits.toBitVec) := sign64_pack _
    rw [← hsign]
    exact fun heq => Nat.not_lt_of_le h ((sign64_ofBits bits).mp heq)
  have hkept : ¬ @isNaNBits .binary64 bits.toBitVec = true := by
    intro hnan
    rw [signOf_unpack, if_pos (of_decide_eq_true hnan)] at hnumber
    exact hnumber rfl
  have hpack := @pack_unpack .binary64 bits.toBitVec (by decide)
  rw [if_neg hkept] at hpack
  exact UInt64.toBitVec_inj.mp hpack

theorem toNat_toBits_float64 {negative : Bool} {bits : Nat} (h : bits ≤ Format.double.infinity) :
    (float64 negative bits).toBits.toNat = (if negative then 2 ^ 63 else 0) + bits := by
  have hlt : bits < 2 ^ 63 := Nat.lt_of_le_of_lt h (by decide)
  have hword : bits.toUInt64.toNat = bits := by
    rw [Nat.toUInt64, UInt64.toNat_ofNat']
    exact Nat.mod_eq_of_lt (by omega)
  unfold float64
  cases negative with
  | false =>
    rw [if_neg Bool.false_ne_true, if_neg Bool.false_ne_true, toBits_ofBits, hword, Nat.zero_add]
    rw [hword, Nat.mod_eq_of_lt hlt]
    exact h
  | true =>
    have hsum := Nat.two_pow_add_eq_or_of_lt hlt 1
    rw [Nat.mul_one] at hsum
    have hvalue : (bits.toUInt64 ||| 0x8000000000000000).toNat = 2 ^ 63 + bits := by
      rw [UInt64.toNat_or, hword, hsum, Nat.or_comm]
      rfl
    rw [if_pos rfl, if_pos rfl, toBits_ofBits, hvalue]
    rw [hvalue, Nat.add_mod_left, Nat.mod_eq_of_lt hlt]
    exact h

/-- Signed patterns of numbers are different numbers. -/
theorem float64_inj {negative negative' : Bool} {bits bits' : Nat} (h : bits ≤ Format.double.infinity)
    (h' : bits' ≤ Format.double.infinity) :
    float64 negative bits = float64 negative' bits' ↔ negative = negative' ∧ bits = bits' := by
  refine ⟨fun heq => ?_, fun heq => by rw [heq.1, heq.2]⟩
  have hbits : (float64 negative bits).toBits.toNat = (float64 negative' bits').toBits.toNat := by rw [heq]
  rw [toNat_toBits_float64 h, toNat_toBits_float64 h'] at hbits
  have hlt : bits < 2 ^ 63 := Nat.lt_of_le_of_lt h (by decide)
  have hlt' : bits' < 2 ^ 63 := Nat.lt_of_le_of_lt h' (by decide)
  cases negative <;> cases negative' <;> simp at hbits ⊢ <;> omega

/-! ## Reading back -/

theorem Format.numeral_zero {f : Format} {negative : Bool} {e : Int} :
    f.numeral (.finite negative 0 e) = .finite negative 0 0 := rfl

theorem Format.numeral_finite {f : Format} {negative : Bool} {m : Nat} {e : Int} (hm : 0 < m) :
    f.numeral (.finite negative m e) = .finite negative (f.shortest m e).1 (f.shortest m e).2 :=
  if_neg (Nat.ne_of_gt hm)

/-- A pattern beyond infinity is the one of the value that is not a number. -/
theorem eq_nan64_of_shape {x : Float} (h : shape64 x = .notANumber) : x = nan64 := by
  have hbeyond := Format.shape_eq_notANumber_iff.mp h
  rw [toNat_and_low] at hbeyond
  have hnan : Scalar.isNaN x = true := by
    rw [← sign64_eq_none_iff, ← Float.ofBits_toBits x]
    exact (sign64_ofBits x.toBits).mpr hbeyond
  change x.isNaN = true at hnan
  rw [Float.isNaN_eq_decide_eq_nan, decide_eq_true_eq] at hnan
  exact hnan

/-- **The shortest numeral reads back**: every 64-bit number, special values included, is the number nearest to its
numeral, however that is written. -/
theorem toFloat_of_same_numeral64 {x : Float} {n : Numeral} (h : (numeral64 x).Same n) : n.toFloat = x := by
  have hbits := float64_bits x
  unfold numeral64 at h
  cases hshape : shape64 x with
  | notANumber =>
    rw [hshape] at h
    cases h
    exact (eq_nan64_of_shape hshape).symm
  | infinite negative =>
    obtain ⟨rfl, hinfinity⟩ := Format.shape_infinite hshape
    rw [hshape] at h
    cases h
    rw [hinfinity] at hbits
    exact hbits
  | finite negative m e =>
    obtain ⟨rfl, hfinite, hvalue⟩ := Format.shape_finite (by decide) hshape
    rw [hshape] at h
    have hread : ∀ {digits : Nat} {exponent : Int},
        Format.double.ofDecimal digits exponent = (x.toBits &&& 0x7fffffffffffffff).toNat →
        (Numeral.finite (x.toBits >>> 63 == 1) digits exponent).toFloat = x := by
      intro digits exponent hpattern
      show float64 _ (Format.double.ofDecimal digits exponent) = x
      rw [hpattern, hbits]
    rcases hvalue with ⟨rfl, hzero⟩ | ⟨hm, hpattern⟩
    · -- a zero of either sign has the one digit
      rw [Format.numeral_zero] at h
      cases h with
      | finite _ hsame =>
        apply hread
        rw [Nat.cast_zero, zero_mul, eq_comm, mul_eq_zero, Nat.cast_eq_zero] at hsame
        have hdigits := hsame.resolve_right (by positivity)
        rw [hdigits, hzero]
        rfl
    · rw [Format.numeral_finite hm.pos] at h
      cases h with
      | finite _ hsame =>
        apply hread
        rw [← hpattern] at hfinite ⊢
        exact Format.ofDecimal_of_holds hm hfinite (hsame ▸ Format.holds_shortest hm.pos)

/-! ## Negative infinity -/

/-- One number has the numeral that cannot be read. -/
theorem numeral64_eq_negative_infinity_iff {x : Float} :
    numeral64 x = .infinite true ↔ x = float64 true Format.double.infinity := by
  constructor
  · intro h
    cases hshape : shape64 x with
    | notANumber =>
      unfold numeral64 at h
      rw [hshape] at h
      cases h
    | infinite negative =>
      unfold numeral64 at h
      rw [hshape] at h
      cases h
      obtain ⟨hsign, hinfinity⟩ := Format.shape_infinite hshape
      rw [← float64_bits x, ← hsign, hinfinity]
    | finite negative m e =>
      unfold numeral64 Format.numeral at h
      rw [hshape] at h
      dsimp only at h
      split at h <;> cases h
  · rintro rfl
    decide +kernel

theorem Format.roundRatio_le (f : Format) (num den : Nat) : f.roundRatio num den ≤ f.infinity := by
  unfold roundRatio
  dsimp only
  split
  · exact Nat.zero_le _
  · split <;> exact Nat.min_le_left _ _

theorem Format.ofDecimal_le (f : Format) (digits : Nat) (exponent : Int) :
    f.ofDecimal digits exponent ≤ f.infinity := by
  unfold ofDecimal
  split
  · exact Nat.zero_le _
  split
  · exact Nat.le_refl _
  split
  · exact Nat.zero_le _
  split <;> exact Format.roundRatio_le _ _ _

/-- A negative decimal beyond all finite numbers. -/
def Numeral.IsBelowRange (n : Numeral) : Prop := ∃ digits exponent,
  n = .finite true digits exponent ∧ Format.double.ofDecimal digits exponent = Format.double.infinity

theorem toFloat_eq_negative_infinity_iff {n : Numeral} :
    n.toFloat = float64 true Format.double.infinity ↔ n = .infinite true ∨ n.IsBelowRange := by
  cases n with
  | notANumber =>
    refine iff_of_false (fun heq => absurd (congrArg Float.toBits heq) (by decide +kernel)) ?_
    rintro (heq | ⟨_, _, heq, _⟩) <;> cases heq
  | infinite negative =>
    show float64 negative Format.double.infinity = _ ↔ _
    rw [float64_inj (Nat.le_refl _) (Nat.le_refl _)]
    constructor
    · rintro ⟨rfl, _⟩
      exact .inl rfl
    · rintro (heq | ⟨_, _, heq, _⟩)
      · exact ⟨Numeral.infinite.inj heq, rfl⟩
      · cases heq
  | finite negative digits exponent =>
    show float64 negative (Format.double.ofDecimal digits exponent) = _ ↔ _
    rw [float64_inj (Format.ofDecimal_le _ _ _) (Nat.le_refl _)]
    constructor
    · rintro ⟨rfl, hbits⟩
      exact .inr ⟨digits, exponent, rfl, hbits⟩
    · rintro (heq | ⟨digits', exponent', heq, hbits⟩)
      · cases heq
      · obtain ⟨rfl, rfl, rfl⟩ := Numeral.finite.inj heq
        exact ⟨rfl, hbits⟩
end StereoMapping
