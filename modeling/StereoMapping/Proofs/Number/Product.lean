import StereoMapping.Proofs.Number.Order
import StereoMapping.Proofs.Number.Rounding
import StereoMapping.Proofs.Number.Special

/-!
# `Proofs.Number.Product` — products of 32-bit numbers are in the order of their factors

A product is computed exactly and rounded once. Rounding keeps the order of values, although it is done in different
units for values of different size: what is rounded in a larger unit has all the digits of a significand, and what is
rounded in a smaller one has no more of them. Packing keeps the order too, as it only makes what is too large infinite.
So a share of a distance is not less than the same share of a lesser one. All of this is about numbers that are not
negative; between these, comparing exponents and significands is comparing values.

## Contents
- `Format.RoundsAt`, `Format.RoundsAt.le`: rounding in the unit of a value.
- `Reads`, `Reads.le_iff`, `Reads.scalar_lt_iff`: what a number stands for, and comparisons.
- `Residue`, `exists_roundsAt`: rounding of significands is rounding of values.
- `Unpacks`, `unpacks`: what a pattern stands for, told by its fields.
- `reads_unpack_pack`, `Float32.mul_le_mul_left`: products.
-/

namespace StereoMapping

open Float.Model (UnpackedFloat totalExponent)
open Float.Model.Format (binary32)
open Float.Model.UnpackedFloat (Accuracy ExtendedMantissa Sign roundWithAccuracy shiftToTargetExponent pack unpack
  packComponents packedInfinity unpackExponent unpackMantissa unpackSign unpackExponent_packComponents
  unpackMantissa_packComponents)

/-! ## Rounding keeps the order -/

namespace Format

theorem RoundsTo.self (n : Nat) : RoundsTo n n :=
  ⟨by linarith, by linarith, fun _ => ⟨by linarith, by linarith⟩⟩

theorem RoundsTo.le {q q' : ℚ} {k k' : Nat} (h : RoundsTo q k) (h' : RoundsTo q' k') (hq : q ≤ q') : k ≤ k' := by
  by_contra hlt
  have hsucc : (k' : ℚ) + 1 ≤ k := by exact_mod_cast Nat.not_le.mp hlt
  have hlow := h.low
  have hhigh := h'.high
  -- both values are half way between the two numbers, of which one is odd
  obtain rfl : k = k' + 1 := by
    have hle : (k : ℚ) ≤ k' + 1 := by linarith
    exact_mod_cast le_antisymm hle hsucc
  rcases Nat.mod_two_eq_zero_or_one k' with heven | hodd
  · have hstrict := (h.odd (by omega)).1
    push_cast at hstrict hlow
    linarith
  · have hstrict := (h'.odd hodd).2
    push_cast at hlow
    linarith

/-- A value is rounded to a whole number of units that leave it the digits of a significand, or of the least ones. -/
structure RoundsAt (f : Format) (q : ℚ) (k : Nat) (u : Int) : Prop where
  least_le : f.least ≤ u
  lt : q < 2 ^ (f.precision : Int) * 2 ^ u
  normal : u = f.least ∨ 2 ^ (f.precision - 1 : Int) * 2 ^ u ≤ q
  nearest : RoundsTo (q / 2 ^ u) k

section

variable {f : Format} {q q' : ℚ} {k k' : Nat} {u u' : Int}

theorem RoundsAt.le_pow (h : f.RoundsAt q k u) : k ≤ 2 ^ f.precision := by
  have hpow : (0 : ℚ) < 2 ^ u := by positivity
  have hlt := h.lt
  rw [← div_lt_iff₀ hpow, zpow_natCast] at hlt
  refine h.nearest.le (RoundsTo.self _) ?_
  push_cast
  exact hlt.le

theorem RoundsAt.pow_le (hprecision : 0 < f.precision) (h : f.RoundsAt q k u) (hu : f.least < u) :
    2 ^ (f.precision - 1) ≤ k := by
  have hpow : (0 : ℚ) < 2 ^ u := by positivity
  have hle := h.normal.resolve_left (ne_of_gt hu)
  have hcast : ((f.precision : Int) - 1) = ((f.precision - 1 : Nat) : Int) := by omega
  rw [← le_div_iff₀ hpow, hcast, zpow_natCast] at hle
  refine (RoundsTo.self _).le h.nearest ?_
  push_cast
  exact hle

/-- The unit of a value grows with it. -/
theorem RoundsAt.unit_le (h : f.RoundsAt q k u) (h' : f.RoundsAt q' k' u') (hq : q ≤ q') : u ≤ u' := by
  by_contra hlt
  have hleast := h'.least_le
  have hlow := h.normal.resolve_left (by omega)
  have hpow := (hlow.trans hq).trans_lt h'.lt
  rw [← zpow_add₀ two_ne_zero, ← zpow_add₀ two_ne_zero, zpow_lt_zpow_iff_right₀ one_lt_two] at hpow
  omega

/-- All digits of a significand are less than one more digit in a larger unit. -/
theorem pow_mul_zpow_le {p : Nat} (hp : 0 < p) (h : u < u') : (2 : ℚ) ^ p * 2 ^ u ≤ 2 ^ (p - 1) * 2 ^ u' := by
  have hunit : (2 : ℚ) * 2 ^ u ≤ 2 ^ u' := by
    rw [← zpow_one_add₀ two_ne_zero]
    exact zpow_le_zpow_right₀ one_le_two (by omega)
  calc (2 : ℚ) ^ p * 2 ^ u = 2 ^ (p - 1) * (2 * 2 ^ u) := by
        rw [← mul_assoc, ← pow_succ, Nat.sub_add_cancel hp]
    _ ≤ 2 ^ (p - 1) * 2 ^ u' := mul_le_mul_of_nonneg_left hunit (by positivity)

/-- **Rounding keeps the order.** -/
theorem RoundsAt.le (hprecision : 0 < f.precision) (h : f.RoundsAt q k u) (h' : f.RoundsAt q' k' u') (hq : q ≤ q') :
    (k : ℚ) * 2 ^ u ≤ k' * 2 ^ u' := by
  have hpow : (0 : ℚ) < 2 ^ u := by positivity
  rcases (h.unit_le h' hq).eq_or_lt with rfl | hlt
  · have hle := h.nearest.le h'.nearest ((div_le_div_iff_of_pos_right hpow).mpr hq)
    exact mul_le_mul_of_nonneg_right (Nat.cast_le.mpr hle) hpow.le
  · -- in the larger unit there are all the digits of a significand, and in the smaller one no more of them
    have hk : (k : ℚ) ≤ 2 ^ f.precision := by exact_mod_cast h.le_pow
    have hk' : (2 : ℚ) ^ (f.precision - 1) ≤ k' := by
      exact_mod_cast h'.pow_le hprecision (h.least_le.trans_lt hlt)
    calc (k : ℚ) * 2 ^ u ≤ 2 ^ f.precision * 2 ^ u := mul_le_mul_of_nonneg_right hk hpow.le
      _ ≤ 2 ^ (f.precision - 1) * 2 ^ u' := pow_mul_zpow_le hprecision hlt
      _ ≤ k' * 2 ^ u' := mul_le_mul_of_nonneg_right hk' (by positivity)

end

/-- Of two numbers of a format the one with the greater exponent is greater. -/
theorem Represents.lt_of_exponent_lt {f : Format} {m m' : Nat} {e e' : Int} (hprecision : 0 < f.precision)
    (h : f.Represents m e) (h' : f.Represents m' e') (he : e < e') : (m : ℚ) * 2 ^ e < m' * 2 ^ e' := by
  have hpow : (0 : ℚ) < 2 ^ e := by positivity
  have hleast := h.least_le
  have hm : (m : ℚ) < 2 ^ f.precision := by exact_mod_cast h.fits
  have hm' : (2 : ℚ) ^ (f.precision - 1) ≤ m' := by exact_mod_cast h'.normal.resolve_right (by omega)
  calc (m : ℚ) * 2 ^ e < 2 ^ f.precision * 2 ^ e := mul_lt_mul_of_pos_right hm hpow
    _ ≤ 2 ^ (f.precision - 1) * 2 ^ e' := pow_mul_zpow_le hprecision he
    _ ≤ m' * 2 ^ e' := mul_le_mul_of_nonneg_right hm' (by positivity)

/-- The numbers of a format are in the order of their exponents, and then of their significands. -/
theorem Represents.le_iff {f : Format} {m m' : Nat} {e e' : Int} (hprecision : 0 < f.precision)
    (h : f.Represents m e) (h' : f.Represents m' e') :
    toLex (e, (m : Int)) ≤ toLex (e', (m' : Int)) ↔ (m : ℚ) * 2 ^ e ≤ m' * 2 ^ e' := by
  rw [Prod.Lex.toLex_le_toLex]
  rcases lt_trichotomy e e' with hlt | rfl | hgt
  · exact iff_of_true (.inl hlt) (h.lt_of_exponent_lt hprecision h' hlt).le
  · have hpow : (0 : ℚ) < 2 ^ e := by positivity
    rw [mul_le_mul_iff_left₀ hpow, Nat.cast_le]
    simp
  · refine iff_of_false ?_ (not_le.mpr (h'.lt_of_exponent_lt hprecision h hgt))
    rintro (hlt | ⟨rfl, -⟩)
    · exact absurd hlt hgt.asymm
    · exact absurd hgt (lt_irrefl _)

end Format

/-! ## What an unpacked number stands for -/

/-- A 32-bit number that is not negative, with its significand and exponent as the format has them, and its value. -/
inductive Reads : UnpackedFloat → WithTop ℚ → Prop
  | zero (sign : Sign) : Reads (.zero sign) 0
  | finite {m : Nat} {e : Int} (hm : 0 < m) (h : Format.single.Represents m e) :
      Reads (.finite .positive m e hm) ((m * 2 ^ e : ℚ) : WithTop ℚ)
  | infinity : Reads (.infinity .positive) ⊤

/-- Values are not negative. -/
theorem Reads.nonneg {x : UnpackedFloat} {v : WithTop ℚ} (h : Reads x v) : 0 ≤ v := by
  cases h with
  | zero sign => exact le_refl 0
  | finite hm _ =>
    rw [← WithTop.coe_zero, WithTop.coe_le_coe]
    positivity
  | infinity => exact le_top

/-- Places of numbers that are not infinite are in the order of their exponents and significands. -/
theorem finite_le_finite_iff {m m' : Nat} {e e' : Int} (hm : 0 < m) (hm' : 0 < m') :
    (UnpackedFloat.finite .positive m e hm).le (.finite .positive m' e' hm') = true ↔
      toLex (e, (m : Int)) ≤ toLex (e', (m' : Int)) := by
  rw [StereoMapping.le_iff]
  show (∃ a ∈ some (toLex ((1 : Int), toLex (e, (m : Int)))), ∃ b ∈ some (toLex ((1 : Int), toLex (e', (m' : Int)))),
    a ≤ b) ↔ _
  simp [Prod.Lex.toLex_le_toLex]

/-- **Numbers compare as their values do.** -/
theorem Reads.le_iff {x y : UnpackedFloat} {v w : WithTop ℚ} (hx : Reads x v) (hy : Reads y w) :
    x.le y = true ↔ v ≤ w := by
  have hw := hy.nonneg
  cases hx with
  | zero sign => cases hy <;> exact iff_of_true rfl hw
  | @finite m e hm h =>
    have hpositive : (0 : WithTop ℚ) < ((m * 2 ^ e : ℚ) : WithTop ℚ) := by
      rw [← WithTop.coe_zero, WithTop.coe_lt_coe]
      positivity
    cases hy with
    | zero sign => exact iff_of_false Bool.false_ne_true (not_le.mpr hpositive)
    | finite hm' h' =>
      rw [finite_le_finite_iff, h.le_iff (by decide) h', WithTop.coe_le_coe]
    | infinity => exact iff_of_true rfl le_top
  | infinity =>
    cases hy with
    | zero sign => exact iff_of_false Bool.false_ne_true (not_le.mpr (WithTop.coe_lt_top 0))
    | finite hm' h' => exact iff_of_false Bool.false_ne_true (not_le.mpr (WithTop.coe_lt_top _))
    | infinity => exact iff_of_true rfl le_rfl

theorem reads_zero : Reads (0 : Float32).toModel.unpack 0 := Reads.zero .positive

section

variable {x y : Float32} {v w : WithTop ℚ}

theorem Reads.scalar_le_iff (hx : Reads x.toModel.unpack v) (hy : Reads y.toModel.unpack w) :
    Scalar.le x y = true ↔ v ≤ w :=
  (decide_eq_true_iff.trans decide_eq_true_iff).trans (hx.le_iff hy)

theorem Reads.scalar_lt_iff (hx : Reads x.toModel.unpack v) (hy : Reads y.toModel.unpack w) :
    Scalar.lt x y = true ↔ v < w := by
  have hrank : rank32 x ≠ ⊥ := (le_iff_rank.mp ((hx.scalar_le_iff hx).mpr le_rfl)).1
  have hrank' : rank32 y ≠ ⊥ := (le_iff_rank.mp ((hy.scalar_le_iff hy).mpr le_rfl)).1
  rw [lt_iff_rank, and_iff_right hrank, ← not_le, ← not_le, ← hy.scalar_le_iff hx, le_iff_rank, and_iff_right hrank']

end

/-! ## Rounding of significands -/

/-- A significand with its two residual bits tells where a value is between it and the next one: at it or above, below
the middle, in the middle or above it. -/
structure Residue (em : ExtendedMantissa) (q : ℚ) : Prop where
  low : (em.mantissa : ℚ) ≤ q
  high : q < em.mantissa + 1
  round_iff : em.roundBit = true ↔ (em.mantissa : ℚ) + 1 / 2 ≤ q
  sticky_iff : em.stickyBit = false ↔ q = em.mantissa ∨ q = (em.mantissa : ℚ) + 1 / 2

theorem Residue.exact (m : Nat) : Residue (.ofMantissaAndAccuracy m .exact) m :=
  ⟨le_rfl, lt_add_one _, iff_of_false Bool.false_ne_true (not_le.mpr (lt_add_of_pos_right _ one_half_pos)),
    iff_of_true rfl (.inl rfl)⟩

/-- Without residual digits it is the value. -/
theorem Residue.exact_iff {em : ExtendedMantissa} {q : ℚ} (h : Residue em q) :
    (em.roundBit || em.stickyBit) = false ↔ q = em.mantissa := by
  rw [Bool.or_eq_false_iff, h.sticky_iff, ← Bool.not_eq_true, h.round_iff]
  constructor
  · rintro ⟨hbelow, hvalue | hvalue⟩
    · exact hvalue
    · exact absurd hvalue.ge hbelow
  · intro hvalue
    exact ⟨by linarith, .inl hvalue⟩

/-- Shifted by one digit it stands for the half of the value. -/
theorem Residue.shiftRightOne {em : ExtendedMantissa} {q : ℚ} (h : Residue em q) :
    Residue em.shiftRightOne (q / 2) := by
  have hresidue := h.exact_iff
  obtain ⟨m, round, sticky⟩ := em
  have hlow : (m : ℚ) ≤ q := h.low
  have hhigh : q < m + 1 := h.high
  have hsplit : (m : ℚ) = 2 * (m / 2 : Nat) + (m % 2 : Nat) := by exact_mod_cast (Nat.div_add_mod m 2).symm
  -- the digit that is shifted out is the new round one, and both old ones go into the sticky one
  unfold ExtendedMantissa.shiftRightOne
  rcases Nat.mod_two_eq_zero_or_one m with heven | hodd
  · rw [heven, Nat.cast_zero, add_zero] at hsplit
    refine ⟨?_, ?_, ?_, ?_⟩ <;> dsimp only
    · linarith
    · linarith
    · rw [heven]
      exact iff_of_false Bool.false_ne_true (by linarith)
    · rw [hresidue]
      constructor
      · intro hq
        left
        linarith
      · rintro (hq | hq) <;> linarith
  · rw [hodd, Nat.cast_one] at hsplit
    refine ⟨?_, ?_, ?_, ?_⟩ <;> dsimp only
    · linarith
    · linarith
    · rw [hodd]
      exact iff_of_true rfl (by linarith)
    · rw [hresidue]
      constructor
      · intro hq
        right
        linarith
      · rintro (hq | hq) <;> linarith

theorem Residue.shiftRight {em : ExtendedMantissa} {q : ℚ} (h : Residue em q) (n : Nat) :
    Residue (em >>> n) (q / 2 ^ n) := by
  change Residue (n.repeat ExtendedMantissa.shiftRightOne em) _
  induction n with
  | zero => rwa [pow_zero, div_one]
  | succ n ih =>
    rw [pow_succ, ← div_div]
    exact ih.shiftRightOne

/-- The significand is rounded as the value is. -/
theorem Residue.roundsTo {em : ExtendedMantissa} {q : ℚ} (h : Residue em q) : Format.RoundsTo q em.roundedMantissa := by
  obtain ⟨m, round, sticky⟩ := em
  obtain ⟨hlow, hhigh, hround, hsticky⟩ := h
  dsimp only at hlow hhigh hround hsticky
  cases round <;> cases sticky
  case false.false =>
    have hbelow : ¬ (m : ℚ) + 1 / 2 ≤ q := fun hle => Bool.false_ne_true (hround.mpr hle)
    obtain rfl : q = m := (hsticky.mp rfl).resolve_right fun hq => hbelow hq.ge
    exact Format.RoundsTo.self m
  case false.true =>
    have hbelow : q < (m : ℚ) + 1 / 2 := not_le.mp fun hle => Bool.false_ne_true (hround.mpr hle)
    exact ⟨by show (m : ℚ) - 1 / 2 ≤ q; linarith, hbelow.le, fun _ => ⟨by show (m : ℚ) - 1 / 2 < q; linarith, hbelow⟩⟩
  case true.false =>
    -- in the middle, the even one of the two numbers
    have hmiddle : q = (m : ℚ) + 1 / 2 := by
      rcases hsticky.mp rfl with rfl | hq
      · have habove := hround.mp rfl
        linarith
      · exact hq
    have hk : (ExtendedMantissa.mk m true false).roundedMantissa = m + m % 2 := rfl
    rw [hk, hmiddle]
    rcases Nat.mod_two_eq_zero_or_one m with heven | hodd
    · rw [heven, add_zero]
      exact ⟨by linarith, le_rfl, fun hodd => by omega⟩
    · rw [hodd]
      refine ⟨?_, ?_, fun hnext => by omega⟩
      · push_cast
        linarith
      · push_cast
        linarith
  case true.true =>
    have hle : (m : ℚ) + 1 / 2 ≤ q := hround.mp rfl
    have habove : (m : ℚ) + 1 / 2 < q :=
      lt_of_le_of_ne hle fun hq => Bool.false_ne_true (hsticky.mpr (.inr hq.symm)).symm
    have hk : (ExtendedMantissa.mk m true true).roundedMantissa = m + 1 := rfl
    rw [hk]
    refine ⟨?_, ?_, fun _ => ⟨?_, ?_⟩⟩ <;> push_cast <;> linarith

/-- A significand with a residue is that significand. -/
theorem mantissa_ofMantissaAndAccuracy (m : Nat) (accuracy : Accuracy) :
    (ExtendedMantissa.ofMantissaAndAccuracy m accuracy).mantissa = m := by
  rcases accuracy with _ | (_ | _ | _) <;> rfl

/-- A shift to an exponent that is not less. -/
theorem shiftToTargetExponent_eq {m : Nat} {e u : Int} (accuracy : Accuracy)
    (hu : binary32.targetExponent (totalExponent m e) = u) (he : e ≤ u) :
    shiftToTargetExponent binary32 m e accuracy
      = (ExtendedMantissa.ofMantissaAndAccuracy m accuracy >>> (u - e).toNat, u) := by
  have hexponent : e + ((u - e).toNat : Int) = u := by omega
  unfold shiftToTargetExponent Float.Model.UnpackedFloat.shiftToExponent
  rw [hu]
  exact congrArg (Prod.mk _) hexponent

theorem targetExponent_eq (m : Nat) (e : Int) :
    binary32.targetExponent (totalExponent m e)
      = max ((m.log2 : Int) + 1 + e - 24) (-149) := rfl

/-- A rounded significand may have one digit too many, which is then zero. -/
theorem reads_carry {k : Nat} {u : Int} (hleast : -149 ≤ u) (hk : k ≤ 2 ^ 24) (hnormal : u = -149 ∨ 2 ^ 23 ≤ k) :
    Reads (if h : (shiftToTargetExponent binary32 k u .exact).1.mantissa = 0 then .zero .positive
        else .finite .positive (shiftToTargetExponent binary32 k u .exact).1.mantissa
          (shiftToTargetExponent binary32 k u .exact).2 (Nat.pos_of_ne_zero h))
      ((k * 2 ^ u : ℚ) : WithTop ℚ) := by
  -- only `2 ^ 24` has a digit too many, and is written in the next unit
  rcases hk.lt_or_eq with hlt | rfl
  · have hlog : k.log2 ≤ 23 := by
      rcases Nat.eq_zero_or_pos k with rfl | hpos
      · decide
      · exact Nat.le_of_lt_succ ((Nat.log2_lt hpos.ne').mpr hlt)
    have hfull : u = -149 ∨ 23 ≤ k.log2 := hnormal.imp_right fun hle => (Nat.le_log2 (by omega)).mpr hle
    have hshift := shiftToTargetExponent_eq (m := k) (e := u) (u := u) .exact
      ((targetExponent_eq k u).trans (by omega)) le_rfl
    rw [Int.sub_self] at hshift
    rw [hshift]
    rcases Nat.eq_zero_or_pos k with rfl | hpos
    · rw [Nat.cast_zero, zero_mul]
      exact Reads.zero _
    · show Reads (if h : k = 0 then _ else .finite .positive k u (Nat.pos_of_ne_zero h)) _
      rw [dif_neg hpos.ne']
      exact Reads.finite hpos ⟨hpos, hlt, hleast, hnormal.symm⟩
  · have hshift := shiftToTargetExponent_eq (m := 2 ^ 24) (e := u) (u := u + 1) .exact
      ((targetExponent_eq _ u).trans (by rw [Nat.log2_two_pow]; omega)) (by omega)
    rw [add_sub_cancel_left] at hshift
    rw [hshift]
    have hvalue : ((2 ^ 24 : Nat) * 2 ^ u : ℚ) = (2 ^ 23 : Nat) * 2 ^ (u + 1) := by
      rw [zpow_add_one₀ two_ne_zero]
      push_cast
      ring
    rw [hvalue]
    have hrepresents : Format.single.Represents (2 ^ 23) (u + 1) :=
      ⟨by decide, by decide, hleast.trans (Int.le_add_one le_rfl), .inl le_rfl⟩
    exact Reads.finite hrepresents.pos hrepresents

/-- The unit of a value leaves it the digits of a significand, or it is the least one. The value is that of a
significand or between it and the next one. -/
theorem bounds_of_unit {m : Nat} {q : ℚ} {e u : Int} (hlow : (m : ℚ) ≤ q) (hhigh : q < m + 1)
    (hu : max ((m.log2 : Int) + 1 + e - 24) (-149) = u) (he : e ≤ u) :
    q * 2 ^ e < 2 ^ (24 : Int) * 2 ^ u ∧ (u = -149 ∨ (2 : ℚ) ^ (23 : Int) * 2 ^ u ≤ q * 2 ^ e) := by
  have hpow : (0 : ℚ) < 2 ^ e := by positivity
  have hdigits : (m : ℚ) + 1 ≤ 2 ^ ((m.log2 : Int) + 1) := by
    have hcast : ((m.log2 : Int) + 1) = ((m.log2 + 1 : Nat) : Int) := rfl
    rw [hcast, zpow_natCast]
    exact_mod_cast Nat.lt_log2_self
  constructor
  · calc q * 2 ^ e < 2 ^ ((m.log2 : Int) + 1) * 2 ^ e := mul_lt_mul_of_pos_right (hhigh.trans_le hdigits) hpow
      _ = 2 ^ ((m.log2 : Int) + 1 + e) := (zpow_add₀ two_ne_zero _ _).symm
      _ ≤ 2 ^ ((24 : Int) + u) := zpow_le_zpow_right₀ one_le_two (by omega)
      _ = 2 ^ (24 : Int) * 2 ^ u := zpow_add₀ two_ne_zero _ _
  · rcases Nat.eq_zero_or_pos m with rfl | hm
    · -- without a digit there is no unit but the least one
      have hlog : (Nat.log2 0 : Int) = 0 := by decide
      exact .inl (by omega)
    rcases max_choice ((m.log2 : Int) + 1 + e - 24) (-149) with hmax | hmax
    · right
      have hexponent : (23 : Int) + u = m.log2 + e := by omega
      calc (2 : ℚ) ^ (23 : Int) * 2 ^ u = 2 ^ ((m.log2 : Int) + e) := by
            rw [← zpow_add₀ two_ne_zero, hexponent]
        _ = 2 ^ (m.log2 : Int) * 2 ^ e := zpow_add₀ two_ne_zero _ _
        _ ≤ q * 2 ^ e := mul_le_mul_of_nonneg_right ((zpow_log2_le hm).trans hlow) hpow.le
    · exact .inl (hu.symm.trans hmax)

/-- A significand that is shifted to a unit stands for its value in that unit. -/
theorem residue_shiftRight {em : ExtendedMantissa} {q : ℚ} (h : Residue em q) {e u : Int} (he : e ≤ u) :
    Residue (em >>> (u - e).toNat) (q * 2 ^ e / 2 ^ u) := by
  have hpow : (0 : ℚ) < 2 ^ e := by positivity
  have hsplit : (2 : ℚ) ^ u = 2 ^ e * 2 ^ (u - e).toNat := by
    rw [← zpow_natCast, ← zpow_add₀ two_ne_zero]
    congr 1
    omega
  rw [hsplit, mul_comm q, mul_div_mul_left _ _ hpow.ne']
  exact h.shiftRight _

/-- **Rounding of a significand is rounding of its value**, in the unit of the value. -/
theorem exists_roundsAt {m : Nat} {e : Int} {accuracy : Accuracy} {q : ℚ}
    (h : Residue (.ofMantissaAndAccuracy m accuracy) q) (he : e ≤ max ((m.log2 : Int) + 1 + e - 24) (-149)) :
    ∃ k u, Format.single.RoundsAt (q * 2 ^ e) k u ∧
      Reads (roundWithAccuracy binary32 .positive m e accuracy) ((k * 2 ^ u : ℚ) : WithTop ℚ) := by
  obtain ⟨u, hu⟩ : ∃ u, max ((m.log2 : Int) + 1 + e - 24) (-149) = u := ⟨_, rfl⟩
  rw [hu] at he
  have hleast : -149 ≤ u := by omega
  have hmantissa := mantissa_ofMantissaAndAccuracy m accuracy
  obtain ⟨hbelow, hdigits⟩ := bounds_of_unit (hmantissa ▸ h.low) (hmantissa ▸ h.high) hu he
  have hresidue := residue_shiftRight h he
  have hshift := shiftToTargetExponent_eq accuracy ((targetExponent_eq m e).trans hu) he
  generalize ExtendedMantissa.ofMantissaAndAccuracy m accuracy >>> (u - e).toNat = em at hresidue hshift
  have hat : Format.single.RoundsAt (q * 2 ^ e) em.roundedMantissa u :=
    ⟨hleast, hbelow, hdigits, hresidue.roundsTo⟩
  refine ⟨em.roundedMantissa, u, hat, ?_⟩
  unfold roundWithAccuracy
  rw [hshift]
  refine reads_carry hleast hat.le_pow (or_iff_not_imp_left.mpr ?_)
  intro hu
  exact hat.pow_le (by decide) (lt_of_le_of_ne hleast (Ne.symm hu))

/-! ## Packed numbers -/

theorem finite_congr {sign sign' : Sign} {m m' : Nat} {e e' : Int} {hm : 0 < m} {hm' : 0 < m'}
    (hsign : sign = sign') (h : m = m') (h' : e = e') :
    UnpackedFloat.finite sign m e hm = .finite sign' m' e' hm' := by
  subst hsign h h'
  rfl

/-- A significand with its hidden digit. -/
theorem toNat_hidden {n : Nat} (mantissa : BitVec n) : (1#1 ++ mantissa).toNat = 2 ^ n + mantissa.toNat := by
  rw [BitVec.toNat_append, ← Nat.shiftLeft_add_eq_or_of_lt mantissa.isLt, BitVec.toNat_one (by decide),
    Nat.one_shiftLeft]

/-- What a pattern stands for, told by its fields: a special value at the largest exponent, a number without hidden
digit at the least one, and a number with a hidden digit at all others. -/
inductive Unpacks (b : BitVec binary32.numBits) : UnpackedFloat → Prop
  | infinity (hexponent : unpackExponent b = -1#_) (hmantissa : unpackMantissa b = 0#_) :
      Unpacks b (.infinity (Sign.ofBitVec (unpackSign b)))
  | notANumber (hexponent : unpackExponent b = -1#_) : Unpacks b .notANumber
  | zero (hexponent : unpackExponent b = 0#_) (hmantissa : unpackMantissa b = 0#_) :
      Unpacks b (.zero (Sign.ofBitVec (unpackSign b)))
  | subnormal (hexponent : unpackExponent b = 0#_) (hm : 0 < (unpackMantissa b).toNat) :
      Unpacks b (.finite (Sign.ofBitVec (unpackSign b)) (unpackMantissa b).toNat (-149) hm)
  | normal (hlargest : unpackExponent b ≠ -1#_) (hzero : unpackExponent b ≠ 0#_)
      (hm : 0 < (1#1 ++ unpackMantissa b).toNat) :
      Unpacks b (.finite (Sign.ofBitVec (unpackSign b)) (1#1 ++ unpackMantissa b).toNat
        ((unpackExponent b).toNat - 150) hm)

theorem unpacks (b : BitVec binary32.numBits) : Unpacks b (unpack binary32 b) := by
  by_cases hlargest : unpackExponent b = -1#_
  · by_cases hmantissa : unpackMantissa b = 0#_
    · have hvalue : unpack binary32 b = .infinity (Sign.ofBitVec (unpackSign b)) :=
        (if_pos hlargest).trans (if_pos hmantissa)
      exact hvalue ▸ .infinity hlargest hmantissa
    · have hvalue : unpack binary32 b = .notANumber := (if_pos hlargest).trans (if_neg hmantissa)
      exact hvalue ▸ .notANumber hlargest
  by_cases hzero : unpackExponent b = 0#_
  · by_cases hmantissa : unpackMantissa b = 0#_
    · have hvalue : unpack binary32 b = .zero (Sign.ofBitVec (unpackSign b)) :=
        (if_neg hlargest).trans ((if_pos hzero).trans (dif_pos hmantissa))
      exact hvalue ▸ .zero hzero hmantissa
    · have hm : 0 < (unpackMantissa b).toNat := Nat.pos_of_ne_zero fun h => hmantissa (BitVec.eq_of_toNat_eq h)
      have hvalue : unpack binary32 b
          = .finite (Sign.ofBitVec (unpackSign b)) (unpackMantissa b).toNat (-149) hm :=
        (if_neg hlargest).trans ((if_pos hzero).trans ((dif_neg hmantissa).trans
          (finite_congr rfl rfl (by rw [hzero]; rfl))))
      exact hvalue ▸ .subnormal hzero hm
  · have hm : 0 < (1#1 ++ unpackMantissa b).toNat := by
      rw [toNat_hidden]
      exact Nat.add_pos_left (Nat.two_pow_pos _) _
    have hvalue : unpack binary32 b = .finite (Sign.ofBitVec (unpackSign b)) (1#1 ++ unpackMantissa b).toNat
        ((unpackExponent b).toNat - 150) hm := (if_neg hlargest).trans (if_neg hzero)
    exact hvalue ▸ .normal hlargest hzero hm

/-- A finite number has significand and exponent as the format has them. -/
theorem represents_of_unpack {b : BitVec binary32.numBits} {sign : Sign} {m : Nat}
    {e : Int} {hm : 0 < m} (h : unpack binary32 b = .finite sign m e hm) :
    Format.single.Represents m e := by
  have hmantissa := (unpackMantissa b).isLt
  have hunpacks := unpacks b
  rw [h] at hunpacks
  cases hunpacks with
  | subnormal _ _ => exact ⟨hm, hmantissa.trans (by decide), by decide, .inr (by decide)⟩
  | normal _ hzero _ =>
    have hpos : 0 < (unpackExponent b).toNat := by
      rw [Nat.pos_iff_ne_zero]
      intro hnone
      exact hzero (BitVec.eq_of_toNat_eq hnone)
    rw [toNat_hidden]
    refine ⟨by omega, ?_, ?_, .inl (Nat.le_add_right _ _)⟩
    · calc 2 ^ 23 + (unpackMantissa b).toNat < 2 ^ 23 + 2 ^ 23 :=
            Nat.add_lt_add_left hmantissa _
        _ = 2 ^ 24 := by decide
    · show (-149 : Int) ≤ _ - 150
      omega

/-- Above the greatest finite numbers everything is infinite. -/
def capped (v : WithTop ℚ) : WithTop ℚ := if v < ((2 ^ 128 : ℚ) : WithTop ℚ) then v else ⊤

theorem capped_le {v w : WithTop ℚ} (h : v ≤ w) : capped v ≤ capped w := by
  unfold capped
  by_cases hw : w < ((2 ^ 128 : ℚ) : WithTop ℚ)
  · rw [if_pos hw, if_pos (h.trans_lt hw)]
    exact h
  · rw [if_neg hw]
    exact le_top

section Components

variable {exponent : BitVec 8} {mantissa : BitVec 23}

theorem ofBitVec_unpackSign (sign : Sign) :
    Sign.ofBitVec (unpackSign (packComponents binary32 sign exponent mantissa))
      = sign := by
  rw [unpackSign_packComponents]
  cases sign <;> rfl

/-- With a hidden digit. -/
theorem unpack_normal (hlargest : exponent ≠ -1#_) (hzero : exponent ≠ 0#_) (hm : 0 < (1#1 ++ mantissa).toNat) :
    unpack binary32 (packComponents binary32 .positive exponent mantissa)
      = .finite .positive (1#1 ++ mantissa).toNat (exponent.toNat - 150) hm := by
  have hexponent : unpackExponent (packComponents binary32 .positive exponent mantissa) = exponent :=
    unpackExponent_packComponents
  have hmantissa : unpackMantissa (packComponents binary32 .positive exponent mantissa) = mantissa :=
    unpackMantissa_packComponents
  exact (if_neg (hexponent.symm ▸ hlargest)).trans ((if_neg (hexponent.symm ▸ hzero)).trans
    (finite_congr (ofBitVec_unpackSign .positive) (by rw [hmantissa]) (by rw [hexponent]; rfl)))

/-- Without a hidden digit, at the least exponent. -/
theorem unpack_subnormal (hm : 0 < mantissa.toNat) :
    unpack binary32 (packComponents binary32 .positive 0#_ mantissa)
      = .finite .positive mantissa.toNat (-149) hm := by
  have hexponent : unpackExponent (packComponents binary32 .positive 0#_ mantissa) = 0#_ :=
    unpackExponent_packComponents
  have hkept : unpackMantissa (packComponents binary32 .positive 0#_ mantissa) = mantissa :=
    unpackMantissa_packComponents
  have hlargest : (0#8 : BitVec 8) ≠ -1#8 := by decide
  have hmantissa : mantissa ≠ 0#_ := by
    rintro rfl
    exact absurd hm (Nat.lt_irrefl 0)
  exact (if_neg (hexponent.symm ▸ hlargest)).trans ((if_pos hexponent).trans ((dif_neg (hkept.symm ▸ hmantissa)).trans
    (finite_congr (ofBitVec_unpackSign .positive) (by rw [hkept]) (by rw [hexponent]; rfl))))

theorem unpack_packedInfinity : unpack binary32
    (packedInfinity binary32 .positive) = .infinity .positive := by
  rfl

theorem unpack_pack_zero (sign : Sign) : unpack binary32 (pack binary32 (.zero sign)) = .zero sign := by
  cases sign <;> rfl

theorem unpack_pack_infinity : unpack binary32 (pack binary32 (.infinity .positive)) = .infinity .positive := by
  rfl

end Components

theorem capped_infinite {m : Nat} {e : Int} (h : Format.single.Represents m e) (he : 105 ≤ e) :
    capped ((m * 2 ^ e : ℚ) : WithTop ℚ) = ⊤ := by
  have hm : (2 : ℚ) ^ 23 ≤ m := by
    have hleast : Format.single.least = -149 := rfl
    exact_mod_cast h.normal.resolve_right (by omega)
  have hunit : (2 : ℚ) ^ 105 ≤ 2 ^ e := by
    rw [← zpow_natCast]
    exact zpow_le_zpow_right₀ one_le_two he
  refine if_neg (not_lt.mpr (WithTop.coe_le_coe.mpr ?_))
  calc (2 : ℚ) ^ 128 = 2 ^ 23 * 2 ^ 105 := by norm_num
    _ ≤ (m : ℚ) * 2 ^ e := mul_le_mul hm hunit (by positivity) (Nat.cast_nonneg m)

theorem capped_finite {m : Nat} {e : Int} (h : Format.single.Represents m e) (he : e < 105) :
    capped ((m * 2 ^ e : ℚ) : WithTop ℚ) = ((m * 2 ^ e : ℚ) : WithTop ℚ) := by
  have hm : (m : ℚ) < 2 ^ 24 := by exact_mod_cast h.fits
  have hunit : (2 : ℚ) ^ e ≤ 2 ^ 104 := by
    rw [← zpow_natCast]
    exact zpow_le_zpow_right₀ one_le_two (Int.lt_add_one_iff.mp he)
  refine if_pos (WithTop.coe_lt_coe.mpr ?_)
  calc (m : ℚ) * 2 ^ e < 2 ^ 24 * 2 ^ e := mul_lt_mul_of_pos_right hm (by positivity)
    _ ≤ 2 ^ 24 * 2 ^ 104 := mul_le_mul_of_nonneg_left hunit (by positivity)
    _ = 2 ^ 128 := by norm_num

/-- How a finite number is packed. -/
theorem pack_finite {m : Nat} {e : Int} (hm : 0 < m) :
    pack binary32 (.finite .positive m e hm)
      = if 256 ≤ (e + 150).toNat + 1 then packedInfinity binary32 .positive
        else if m.log2 + 1 = 24 then
          packComponents binary32 .positive
            (BitVec.ofNat 8 (e + 150).toNat) (BitVec.ofNat 23 m)
        else packComponents binary32 .positive 0#_ (BitVec.ofNat 23 m) := by
  have hbiased : e + 150 = e + 127 + 23 := by omega
  rw [hbiased]
  rfl

theorem unpack_pack_infinite {m : Nat} {e : Int} (hm : 0 < m) (he : 105 ≤ e) :
    unpack binary32 (pack binary32 (.finite .positive m e hm))
      = .infinity .positive := by
  rw [pack_finite, if_pos (by omega), unpack_packedInfinity]

theorem unpack_pack_finite {m : Nat} {e : Int} (hm : 0 < m) (h : Format.single.Represents m e) (he : e < 105) :
    unpack binary32 (pack binary32 (.finite .positive m e hm))
      = .finite .positive m e hm := by
  have hfits : m < 2 ^ 24 := h.fits
  have hleast : -149 ≤ e := h.least_le
  rw [pack_finite, if_neg (by omega)]
  -- a normal number has its hidden digit and a biased exponent between the two special ones
  by_cases hnormal : 2 ^ 23 ≤ m
  · have hlog : m.log2 + 1 = 24 :=
      congrArg (· + 1) ((Nat.log2_eq_iff hm.ne').mpr ⟨hnormal, hfits⟩)
    have hexponent : (BitVec.ofNat 8 (e + 150).toNat).toNat = (e + 150).toNat := Nat.mod_eq_of_lt (by omega)
    have hmantissa : (1#1 ++ BitVec.ofNat 23 m).toNat = m := by
      rw [toNat_hidden, BitVec.toNat_ofNat]
      omega
    have hlargest : BitVec.ofNat 8 (e + 150).toNat ≠ -1#_ := fun heq => by
      have hnat := congrArg BitVec.toNat heq
      rw [hexponent] at hnat
      have hones : (-1#8 : BitVec 8).toNat = 255 := rfl
      omega
    have hzero : BitVec.ofNat 8 (e + 150).toNat ≠ 0#_ := fun heq => by
      have hnat := congrArg BitVec.toNat heq
      rw [hexponent, BitVec.toNat_zero] at hnat
      omega
    rw [if_pos hlog, unpack_normal hlargest hzero (hmantissa.symm ▸ hm)]
    exact finite_congr rfl hmantissa (by rw [hexponent]; omega)
  · have hlog : ¬ m.log2 + 1 = 24 := fun hlog =>
      hnormal ((Nat.log2_eq_iff hm.ne').mp (Nat.succ.inj hlog)).1
    have hmantissa : (BitVec.ofNat 23 m).toNat = m := Nat.mod_eq_of_lt (Nat.not_le.mp hnormal)
    rw [if_neg hlog, unpack_subnormal (hmantissa.symm ▸ hm)]
    exact finite_congr rfl hmantissa (h.normal.resolve_left hnormal).symm

/-- **Packing keeps the values that are not too large**, and makes the others infinite. -/
theorem reads_unpack_pack {x : UnpackedFloat} {v : WithTop ℚ} (h : Reads x v) :
    Reads (unpack binary32 (pack binary32 x)) (capped v) := by
  cases h with
  | zero sign =>
    have hsmall : (0 : WithTop ℚ) < ((2 ^ 128 : ℚ) : WithTop ℚ) := WithTop.coe_lt_coe.mpr (by positivity)
    rw [unpack_pack_zero, capped, if_pos hsmall]
    exact Reads.zero sign
  | @finite m e hm h =>
    by_cases hlarge : 105 ≤ e
    · rw [unpack_pack_infinite hm hlarge, capped_infinite h hlarge]
      exact Reads.infinity
    · rw [unpack_pack_finite hm h (Int.not_le.mp hlarge), capped_finite h (Int.not_le.mp hlarge)]
      exact Reads.finite hm h
  | infinity =>
    rw [unpack_pack_infinity]
    exact Reads.infinity

/-! ## Products -/

/-- A value and what it is rounded to. -/
inductive Rounded : WithTop ℚ → WithTop ℚ → Prop
  | number {q : ℚ} {k : Nat} {u : Int} (h : Format.single.RoundsAt q k u) :
      Rounded (q : WithTop ℚ) ((k * 2 ^ u : ℚ) : WithTop ℚ)
  | top : Rounded ⊤ ⊤

theorem Rounded.le {v v' w w' : WithTop ℚ} (hv : Rounded v v') (hw : Rounded w w') (h : v ≤ w) : v' ≤ w' := by
  cases hw with
  | top => exact le_top
  | number hw =>
    cases hv with
    | top => exact absurd h (not_le.mpr (WithTop.coe_lt_top _))
    | number hv => exact WithTop.coe_le_coe.mpr (hv.le (by decide) hw (WithTop.coe_le_coe.mp h))

theorem rounded_zero : Rounded 0 0 := by
  have hzero : Format.single.RoundsAt 0 0 (-149) := by
    refine ⟨le_rfl, by positivity, .inl rfl, ?_⟩
    rw [zero_div]
    exact_mod_cast Format.RoundsTo.self 0
  have h := Rounded.number hzero
  rwa [Nat.cast_zero, zero_mul] at h

/-- Two significands have digits enough for the product to be rounded in a unit that is not less than theirs. -/
theorem product_exponent_le {m m' : Nat} {e e' : Int} (h : Format.single.Represents m e)
    (h' : Format.single.Represents m' e') :
    e + e' ≤ max (((m * m').log2 : Int) + 1 + (e + e') - 24) (-149) := by
  have hpos : m * m' ≠ 0 := Nat.mul_ne_zero h.pos.ne' h'.pos.ne'
  have hdigits : ∀ {k n : Nat}, 2 ^ 23 ≤ k → 0 < n → 2 ^ 23 ≤ k * n := fun hk hn =>
    hk.trans (Nat.le_mul_of_pos_right _ hn)
  have hleast : Format.single.least = -149 := rfl
  have hlog : 2 ^ 23 ≤ m * m' → 23 ≤ (m * m').log2 := (Nat.le_log2 hpos).mpr
  rcases h.normal with hm | he
  · have hlog := hlog (hdigits hm h'.pos)
    omega
  · rcases h'.normal with hm' | he'
    · have hlog := hlog (Nat.mul_comm m m' ▸ hdigits hm' h.pos)
      omega
    · omega

/-- **A product is the exact one, rounded.** -/
theorem reads_mul {m : Nat} {e : Int} (hm : 0 < m) (h : Format.single.Represents m e) {x : UnpackedFloat}
    {v : WithTop ℚ} (hx : Reads x v) :
    ∃ w, Rounded (v.map fun q => (m * 2 ^ e : ℚ) * q) w ∧
      Reads (UnpackedFloat.mul binary32 (.finite .positive m e hm) x) w := by
  cases hx with
  | zero sign =>
    refine ⟨0, ?_, Reads.zero _⟩
    rw [WithTop.map_zero, mul_zero]
    exact rounded_zero
  | @finite m' e' hm' h' =>
    obtain ⟨k, u, hat, hreads⟩ := exists_roundsAt (Residue.exact (m * m')) (product_exponent_le h h')
    refine ⟨_, ?_, hreads⟩
    have hvalue : (m * 2 ^ e * (m' * 2 ^ e') : ℚ) = (m * m' : Nat) * 2 ^ (e + e') := by
      rw [zpow_add₀ two_ne_zero]
      push_cast
      ring
    rw [WithTop.map_coe, hvalue]
    exact Rounded.number hat
  | infinity => exact ⟨⊤, Rounded.top, Reads.infinity⟩

/-- A number that is not negative stands for a value. -/
theorem exists_reads {x : Float32} (h : Scalar.le 0 x = true) : ∃ v, Reads x.toModel.unpack v := by
  -- what is not below zero in the order of places has no negative sign, unless it is zero
  obtain ⟨zero, hzero, place, hplace, hle⟩ := le_iff_place.mp h
  obtain rfl : toLex ((0 : Int), toLex ((0 : Int), (0 : Int))) = zero := Option.some.inj hzero
  cases hx : x.toModel.unpack with
  | notANumber =>
    rw [hx] at hplace
    cases hplace
  | zero sign => exact ⟨_, Reads.zero sign⟩
  | infinity sign =>
    cases sign with
    | positive => exact ⟨_, Reads.infinity⟩
    | negative =>
      rw [hx] at hplace
      obtain rfl := Option.some.inj hplace
      exact absurd hle (by decide)
  | finite sign m e hm =>
    cases sign with
    | positive => exact ⟨_, Reads.finite hm (represents_of_unpack hx)⟩
    | negative =>
      rw [hx] at hplace
      obtain rfl := Option.some.inj hplace
      rw [Prod.Lex.toLex_le_toLex] at hle
      rcases hle with hlt | ⟨heq, -⟩
      · exact absurd hlt (show ¬ (0 : Int) < -1 by decide)
      · exact absurd heq (show ¬ (0 : Int) = -1 by decide)

theorem scalar_le_trans {x y z : Float32} (h : Scalar.le x y = true) (h' : Scalar.le y z = true) :
    Scalar.le x z = true := by
  obtain ⟨a, ha, b, hb, hab⟩ := le_iff_place.mp h
  obtain ⟨b', hb', c, hc, hbc⟩ := le_iff_place.mp h'
  obtain rfl := Option.mem_unique hb hb'
  exact le_iff_place.mpr ⟨a, ha, c, hc, hab.trans hbc⟩

/-- A finite number above zero. -/
theorem exists_finite {r : Float32} (hpositive : Scalar.lt 0 r = true) (hfinite : Scalar.isFinite r = true) :
    ∃ m e hm, r.toModel.unpack = .finite .positive m e hm ∧ Format.single.Represents m e := by
  have hfinite : r.toModel.unpack.isFinite = true := hfinite
  obtain ⟨v, hreads⟩ := exists_reads (Scalar.Ordered.le_of_lt _ _ hpositive)
  generalize hr : r.toModel.unpack = unpacked at hreads hfinite
  cases hreads with
  | zero sign =>
    obtain ⟨zero, hzero, place, hplace, hlt⟩ := lt_iff_place.mp hpositive
    rw [hr] at hplace
    obtain rfl := Option.some.inj (hzero.symm.trans hplace)
    exact absurd hlt (lt_irrefl _)
  | @finite m e hm h => exact ⟨m, e, hm, rfl, h⟩
  | infinity => cases hfinite

/-- **The same share of a greater number is not less.** -/
theorem mul_le_mul_of_scalar_le {r x y : Float32} (hr : Scalar.lt 0 r = true) (hfinite : Scalar.isFinite r = true)
    (hx : Scalar.le 0 x = true) (hxy : Scalar.le x y = true) : Scalar.le (r * x) (r * y) = true := by
  obtain ⟨m, e, hm, hunpack, hrepresents⟩ := exists_finite hr hfinite
  obtain ⟨v, hv⟩ := exists_reads hx
  obtain ⟨w, hw⟩ := exists_reads (scalar_le_trans hx hxy)
  have hvw : v ≤ w := (hv.scalar_le_iff hw).mp hxy
  obtain ⟨v', hrounded, hreads⟩ := reads_mul hm hrepresents hv
  obtain ⟨w', hrounded', hreads'⟩ := reads_mul hm hrepresents hw
  have hscale : Monotone fun q : ℚ => (m * 2 ^ e : ℚ) * q := monotone_mul_left_of_nonneg (by positivity)
  have hle : v' ≤ w' := hrounded.le hrounded' (hscale.withTop_map hvw)
  have hproduct : ∀ z : Float32, (r * z).toModel.unpack = unpack binary32
      (pack binary32 (.mul binary32 (.finite .positive m e hm) z.toModel.unpack)) := by
    intro z
    rw [← hunpack]
    rfl
  have hpacked := reads_unpack_pack hreads
  have hpacked' := reads_unpack_pack hreads'
  rw [← hproduct] at hpacked hpacked'
  exact (hpacked.scalar_le_iff hpacked').mpr (capped_le hle)

end StereoMapping
