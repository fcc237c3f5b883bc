import Mathlib.Algebra.Order.Floor.Semifield
import Mathlib.Data.Rat.Floor
import StereoMapping.Proofs.Number.Product

/-!
# `Proofs.Number.Sum` — sums and counts in 32 bits, and their whole parts

A sum is computed exactly, in the unit of the lesser summand, and rounded once; a count is rounded once. Before that the
significand gets digits where it has too few, which changes its unit and not its value. As rounding keeps the order of
values, what is compared as rounded sums and counts is compared rightly as long as it is told apart at all: a rounded
sum below a rounded count comes from a sum below that count. The whole part of a number is that of its value.

## Contents
- `exists_round`, `reads_normalize`: rounding in any unit.
- `rounded_natCast`, `reads_ofNat`: counts of 24 digits are exact, all others rounded once.
- `Reads.add`: sums.
- `add_lt_of_scalar_lt`: a rounded sum below a rounded count.
- `shape32_of_reads`, `truncate_of_reads`: the whole part of a number.
-/

namespace StereoMapping

open Float.Model (UnpackedFloat totalExponent)
open Float.Model.Format (binary32)
open Float.Model.UnpackedFloat (Sign decreaseExponent roundWithAccuracy pack unpack unpackExponent unpackMantissa
  unpackSign)

/-! ## Rounding in any unit -/

/-- More digits in a lesser unit. -/
theorem decreaseExponent_value (m : Nat) (e u : Int) :
    ((decreaseExponent m e u).1 : ℚ) * 2 ^ (decreaseExponent m e u).2 = m * 2 ^ e := by
  unfold decreaseExponent
  dsimp only
  rw [Nat.shiftLeft_eq, Nat.cast_mul, Nat.cast_pow, Nat.cast_ofNat, ← zpow_natCast, mul_assoc,
    ← zpow_add₀ two_ne_zero, add_sub_cancel]

theorem decreaseExponent_exponent (m : Nat) {e u : Int} (h : u ≤ e) : (decreaseExponent m e u).2 = u := by
  unfold decreaseExponent
  dsimp only
  omega

theorem log2_shiftLeft {m : Nat} (hm : 0 < m) (n : Nat) : (m <<< n).log2 = m.log2 + n := by
  have hpow : 0 < 2 ^ n := Nat.two_pow_pos n
  rw [Nat.shiftLeft_eq, Nat.log2_eq_iff (Nat.mul_pos hm hpow).ne', pow_add, Nat.add_right_comm, pow_add]
  exact ⟨Nat.mul_le_mul_right _ (Nat.log2_self_le hm.ne'), Nat.mul_lt_mul_of_pos_right Nat.lt_log2_self hpow⟩

/-- **A value is rounded, whatever unit it comes in.** -/
theorem exists_round {m : Nat} (hm : 0 < m) (e : Int) : ∃ w, Rounded ((m * 2 ^ e : ℚ) : WithTop ℚ) w ∧
    Reads (UnpackedFloat.round binary32 .positive m e) w := by
  obtain ⟨u, hu⟩ : ∃ u, binary32.targetExponent (totalExponent m e) = u := ⟨_, rfl⟩
  have htarget := (targetExponent_eq m e).symm.trans hu
  have hvalue := decreaseExponent_value m e u
  have hround : UnpackedFloat.round binary32 .positive m e = roundWithAccuracy binary32 .positive
      (decreaseExponent m e u).1 (decreaseExponent m e u).2 .exact := by
    unfold UnpackedFloat.round
    rw [hu]
  have hpos : 0 < (decreaseExponent m e u).1 := by
    unfold decreaseExponent
    dsimp only
    rw [Nat.shiftLeft_eq]
    exact Nat.mul_pos hm (Nat.two_pow_pos _)
  have hlog : (decreaseExponent m e u).1.log2 = m.log2 + (e - u).toNat := log2_shiftLeft hm _
  have hexponent : (decreaseExponent m e u).2 = e - (e - u).toNat := rfl
  obtain ⟨k, v, hat, hreads⟩ := exists_roundsAt (e := (decreaseExponent m e u).2) (Residue.exact _) (by
    rw [hlog, hexponent]
    push_cast
    omega)
  rw [hvalue] at hat
  rw [hround]
  exact ⟨_, Rounded.number hat, hreads⟩

theorem reads_normalize (m : Nat) (e : Int) : ∃ w, Rounded ((m * 2 ^ e : ℚ) : WithTop ℚ) w ∧
    Reads (UnpackedFloat.normalize binary32 m e .positive) w := by
  unfold UnpackedFloat.normalize
  rcases Nat.eq_zero_or_pos m with rfl | hm
  · refine ⟨0, ?_, Reads.zero _⟩
    rw [Nat.cast_zero, zero_mul]
    exact rounded_zero
  · have hcompare : compare (m : Int) 0 = .gt := compare_gt_iff_gt.mpr (by exact_mod_cast hm)
    rw [hcompare]
    exact exists_round hm e

/-! ## Counts -/

/-- Numbers of the format are not changed. -/
theorem rounded_of_represents {m : Nat} {e : Int} (h : Format.single.Represents m e) :
    Rounded ((m * 2 ^ e : ℚ) : WithTop ℚ) ((m * 2 ^ e : ℚ) : WithTop ℚ) := by
  have hpow : (0 : ℚ) < 2 ^ e := by positivity
  refine Rounded.number ⟨h.least_le, ?_, ?_, ?_⟩
  · have hfits : (m : ℚ) < 2 ^ (24 : Int) := by exact_mod_cast h.fits
    exact mul_lt_mul_of_pos_right hfits hpow
  · refine h.normal.symm.imp_right fun hdigits => ?_
    have hdigits : (2 : ℚ) ^ (23 : Int) ≤ m := by exact_mod_cast hdigits
    exact mul_le_mul_of_nonneg_right hdigits hpow.le
  · rw [mul_div_cancel_right₀ _ hpow.ne']
    exact Format.RoundsTo.self m

/-- **Counts of 24 digits are exact.** -/
theorem rounded_natCast {n : Nat} (h : n < 2 ^ 24) : Rounded ((n : ℚ) : WithTop ℚ) ((n : ℚ) : WithTop ℚ) := by
  rcases Nat.eq_zero_or_pos n with rfl | hn
  · rw [Nat.cast_zero]
    exact rounded_zero
  · have hlog : n.log2 < 24 := (Nat.log2_lt hn.ne').mpr h
    have hpos : 0 < n <<< (23 - n.log2) := by
      rw [Nat.shiftLeft_eq]
      exact Nat.mul_pos hn (Nat.two_pow_pos _)
    have hdigits : (n <<< (23 - n.log2)).log2 = 23 := by
      rw [log2_shiftLeft hn]
      omega
    obtain ⟨hlow, hhigh⟩ := (Nat.log2_eq_iff hpos.ne').mp hdigits
    have hrepresents : Format.single.Represents (n <<< (23 - n.log2)) (n.log2 - 23) :=
      ⟨hpos, hhigh, show (-149 : Int) ≤ _ by omega, .inl hlow⟩
    have hvalue : ((n <<< (23 - n.log2) : Nat) : ℚ) * 2 ^ ((n.log2 : Int) - 23) = n := by
      have hexponent : ((23 - n.log2 : Nat) : Int) + (n.log2 - 23) = 0 := by omega
      rw [Nat.shiftLeft_eq, Nat.cast_mul, Nat.cast_pow, Nat.cast_ofNat, ← zpow_natCast, mul_assoc,
        ← zpow_add₀ two_ne_zero, hexponent, zpow_zero, mul_one]
    have hrounded := rounded_of_represents hrepresents
    rwa [hvalue] at hrounded

/-- **A count is rounded once.** -/
theorem reads_ofNat {n : Nat} (h : n ≤ largestWord) : ∃ w, Rounded ((n : ℚ) : WithTop ℚ) w ∧
    Reads (Scalar.ofNat n : Float32).toModel.unpack (capped w) := by
  obtain ⟨w, hrounded, hreads⟩ := reads_normalize n 0
  rw [zpow_zero, mul_one] at hrounded
  have hword : n.toUInt64.toNat = n := Nat.mod_eq_of_lt (Nat.lt_succ_of_le h)
  have hcount : (Scalar.ofNat n : Float32).toModel.unpack = unpack binary32
      (pack binary32 (.normalize binary32 n 0 .positive)) := by
    have hof : (Scalar.ofNat n : Float32) = n.toUInt64.toFloat32 := if_pos h
    rw [hof]
    show unpack binary32 (pack binary32 (.normalize binary32 n.toUInt64.toNat 0 .positive)) = _
    rw [hword]
  rw [hcount]
  exact ⟨w, hrounded, reads_unpack_pack hreads⟩

/-! ## Sums -/

theorem Reads.rounded_self {x : UnpackedFloat} {v : WithTop ℚ} (h : Reads x v) : Rounded v v := by
  cases h with
  | zero sign => exact rounded_zero
  | finite hm h => exact rounded_of_represents h
  | infinity => exact Rounded.top

/-- **A sum is the exact one, rounded.** -/
theorem Reads.add {x y : UnpackedFloat} {v w : WithTop ℚ} (hx : Reads x v) (hy : Reads y w) :
    ∃ s, Rounded (v + w) s ∧ Reads (x.add binary32 y) s := by
  cases hx with
  | zero sign =>
    rw [zero_add]
    refine ⟨w, hy.rounded_self, ?_⟩
    cases hy with
    | zero other =>
      cases sign <;> cases other <;> exact Reads.zero _
    | finite hm h => exact Reads.finite hm h
    | infinity => exact Reads.infinity
  | @finite m e hm h =>
    cases hy with
    | zero sign =>
      rw [add_zero]
      exact ⟨_, rounded_of_represents h, Reads.finite hm h⟩
    | @finite m' e' hm' h' =>
      -- both are written in the lower unit, where their sum is exact before it is rounded
      obtain ⟨u, hu⟩ : ∃ u, min e e' = u := ⟨_, rfl⟩
      obtain ⟨s, hrounded, hreads⟩ := reads_normalize ((decreaseExponent m e u).1 + (decreaseExponent m' e' u).1) u
      have hvalue := decreaseExponent_value m e u
      have hvalue' := decreaseExponent_value m' e' u
      rw [decreaseExponent_exponent _ (hu ▸ min_le_left e e')] at hvalue
      rw [decreaseExponent_exponent _ (hu ▸ min_le_right e e')] at hvalue'
      rw [Nat.cast_add, add_mul, hvalue, hvalue'] at hrounded
      refine ⟨s, hrounded, ?_⟩
      rw [Nat.cast_add] at hreads
      subst hu
      exact hreads
    | infinity => exact ⟨⊤, Rounded.top, Reads.infinity⟩
  | infinity =>
    rw [WithTop.top_add]
    refine ⟨⊤, Rounded.top, ?_⟩
    cases hy <;> exact Reads.infinity

/-- **A rounded sum below a rounded count** is that of values whose sum is below the count. -/
theorem add_lt_of_scalar_lt {x y : Float32} {v w : WithTop ℚ} {n : Nat} (hx : Reads x.toModel.unpack v)
    (hy : Reads y.toModel.unpack w) (hn : n ≤ largestWord) (hlt : Scalar.lt (x + y) (Scalar.ofNat n) = true) :
    v + w < ((n : ℚ) : WithTop ℚ) := by
  obtain ⟨s, hsum, hreads⟩ := hx.add hy
  obtain ⟨t, hcount, hreads'⟩ := reads_ofNat hn
  have hpacked : Reads (x + y).toModel.unpack (capped s) := reads_unpack_pack hreads
  by_contra hle
  have hts : t ≤ s := hcount.le hsum (not_lt.mp hle)
  exact absurd ((hpacked.scalar_lt_iff hreads').mp hlt) (not_lt.mpr (capped_le hts))

/-! ## Whole parts -/

/-- Exponent and significand of a finite pattern. -/
theorem shape_single (negative : Bool) {biased rest : Nat} (hbiased : biased < 255) (hrest : rest < 2 ^ 23) :
    Format.single.shape negative (biased * 2 ^ 23 + rest) =
      if biased = 0 then .finite negative rest (-149) else .finite negative (rest + 2 ^ 23) (biased - 150) := by
  have hdiv : (biased * 2 ^ 23 + rest) / 2 ^ 23 = biased := by omega
  have hmod : (biased * 2 ^ 23 + rest) % 2 ^ 23 = rest := by omega
  have hbelow : ¬ 0x7f800000 < biased * 2 ^ 23 + rest := by omega
  have hfinite : ¬ biased * 2 ^ 23 + rest = 0x7f800000 := by omega
  have hexponent : (-149 : Int) + biased - 1 = biased - 150 := by omega
  unfold Format.shape
  refine (if_neg hbelow).trans ((if_neg hfinite).trans ?_)
  show (if (biased * 2 ^ 23 + rest) / 2 ^ 23 = 0 then Shape.finite negative ((biased * 2 ^ 23 + rest) % 2 ^ 23) (-149)
    else .finite negative ((biased * 2 ^ 23 + rest) % 2 ^ 23 + 2 ^ 23)
      (-149 + ((biased * 2 ^ 23 + rest) / 2 ^ 23 : Nat) - 1)) = _
  rw [hdiv, hmod, hexponent]

section Bits

variable {x : Float32} {b : BitVec binary32.numBits}

theorem shape32_eq (hb : x.toBits.toBitVec = b) : shape32 x = Format.single.shape (x.toBits >>> 31 == 1)
    ((unpackExponent b).toNat * 2 ^ 23 + (unpackMantissa b).toNat) := by
  have hlow : (x.toBits &&& 0x7fffffff).toNat = b.toNat % 2 ^ 31 := by
    rw [UInt32.toNat_and, ← hb]
    exact Nat.and_two_pow_sub_one_eq_mod _ 31
  have hexponent : (unpackExponent b).toNat = b.toNat / 2 ^ 23 % 2 ^ 8 := by
    rw [toNat_unpackExponent, Nat.shiftRight_eq_div_pow]
    rfl
  have hmantissa : (unpackMantissa b).toNat = b.toNat % 2 ^ 23 := toNat_unpackMantissa b
  have hsplit : b.toNat % 2 ^ 31 = (unpackExponent b).toNat * 2 ^ 23 + (unpackMantissa b).toNat := by
    rw [hexponent, hmantissa]
    omega
  rw [← hsplit, ← hlow]
  rfl

theorem signBit_eq_false (hb : x.toBits.toBitVec = b) (h : Sign.ofBitVec (unpackSign b) = .positive) :
    (x.toBits >>> 31 == 1) = false := by
  have hsign : (unpackSign b).toNat = b.toNat / 2 ^ 31 := by
    have hlt : b.toNat < 2 ^ 32 := b.isLt
    unfold unpackSign
    rw [BitVec.toNat_cast, BitVec.extractLsb_toNat, Nat.shiftRight_eq_div_pow]
    show b.toNat / 2 ^ 31 % 2 ^ 1 = _
    omega
  have hzero : unpackSign b = 0#1 := by
    by_contra hone
    unfold Sign.ofBitVec at h
    rw [if_neg hone] at h
    cases h
  rw [beq_eq_false_iff_ne, Ne, ← UInt32.toNat_inj, UInt32.toNat_shiftRight]
  show ¬ x.toBits.toBitVec.toNat >>> 31 = 1
  rw [hb, Nat.shiftRight_eq_div_pow, ← hsign, hzero]
  decide

end Bits

/-- A number that is not infinite has the shape of its value. -/
theorem shape32_of_reads {x : Float32} {q : ℚ} (h : Reads x.toModel.unpack (q : WithTop ℚ)) :
    ∃ negative m e, shape32 x = .finite negative m e ∧ q = m * 2 ^ e ∧ (m = 0 ∨ negative = false) := by
  obtain ⟨b, hb⟩ : ∃ b : BitVec binary32.numBits, x.toBits.toBitVec = b := ⟨_, rfl⟩
  have hunpack : x.toModel.unpack = unpack binary32 b := by
    rw [← hb]
    rfl
  have hpositive := signBit_eq_false hb
  rw [shape32_eq hb]
  have hunpacks := unpacks b
  rw [hunpack] at h
  generalize unpack binary32 b = value at h hunpacks
  generalize (x.toBits >>> 31 == 1) = negative at hpositive
  cases hunpacks with
  | infinity _ _ =>
    generalize Sign.ofBitVec (unpackSign b) = sign at h
    cases h
  | notANumber _ => cases h
  | zero hzero hnone =>
    have hexponent : (unpackExponent b).toNat = 0 := congrArg BitVec.toNat hzero
    have hmantissa : (unpackMantissa b).toNat = 0 := congrArg BitVec.toNat hnone
    rw [shape_single negative (by omega) (unpackMantissa b).isLt, if_pos hexponent]
    cases h
    exact ⟨_, _, _, rfl, by rw [hmantissa, Nat.cast_zero, zero_mul], .inl hmantissa⟩
  | subnormal hzero hm =>
    have hexponent : (unpackExponent b).toNat = 0 := congrArg BitVec.toNat hzero
    rw [shape_single negative (by omega) (unpackMantissa b).isLt, if_pos hexponent]
    generalize Sign.ofBitVec (unpackSign b) = sign at h hpositive
    cases h
    exact ⟨_, _, _, rfl, rfl, .inr (hpositive rfl)⟩
  | normal hlargest hnonzero hm =>
    have hbiased : (unpackExponent b).toNat < 255 := by
      have hlt : (unpackExponent b).toNat < 256 := (unpackExponent b).isLt
      have hne : (unpackExponent b).toNat ≠ 255 := fun heq => hlargest (BitVec.eq_of_toNat_eq heq)
      omega
    have hexponent : (unpackExponent b).toNat ≠ 0 := fun heq => hnonzero (BitVec.eq_of_toNat_eq heq)
    rw [shape_single negative hbiased (unpackMantissa b).isLt, if_neg hexponent]
    generalize Sign.ofBitVec (unpackSign b) = sign at h hpositive
    cases h
    refine ⟨_, _, _, rfl, ?_, .inr (hpositive rfl)⟩
    rw [toNat_hidden, Nat.add_comm]

/-- **The whole part of a number** is that of its value, as far as a word goes. -/
theorem truncate_of_reads {x : Float32} {q : ℚ} (h : Reads x.toModel.unpack (q : WithTop ℚ)) :
    Scalar.truncate x = min largestWord ⌊q⌋₊ := by
  obtain ⟨negative, m, e, hshape, rfl, hsign⟩ := shape32_of_reads h
  have htruncate : Scalar.truncate x = (Shape.finite negative m e).truncateNat := congrArg Shape.truncateNat hshape
  have hfloor : (Shape.floor false m e).toNat = ⌊(m * 2 ^ e : ℚ)⌋₊ := by
    unfold Shape.floor
    -- a whole number, or one with digits behind the point
    rcases le_or_gt 0 e with he | he
    · obtain ⟨k, rfl⟩ := Int.eq_ofNat_of_zero_le he
      rw [if_pos he, if_neg Bool.false_ne_true, Int.toNat_natCast, Int.toNat_natCast, Nat.shiftLeft_eq, zpow_natCast]
      exact_mod_cast (Nat.floor_natCast (R := ℚ) (m * 2 ^ k)).symm
    · obtain ⟨k, hk⟩ : ∃ k : Nat, (-e).toNat = k := ⟨_, rfl⟩
      obtain rfl : e = -(k : Int) := by omega
      rw [if_neg (not_le.mpr he), hk, zpow_neg, zpow_natCast, ← div_eq_mul_inv]
      dsimp only
      rw [if_neg Bool.false_ne_true, Int.toNat_natCast, Nat.shiftRight_eq_div_pow]
      exact_mod_cast (Nat.floor_div_eq_div (K := ℚ) m (2 ^ k)).symm
  rw [htruncate]
  unfold Shape.truncateNat
  dsimp only
  rcases hsign with rfl | rfl
  · rw [Nat.cast_zero, zero_mul, Nat.floor_zero] at hfloor ⊢
    cases negative with
    | true => rfl
    | false => rw [if_neg Bool.false_ne_true, if_neg fun h => h.2 rfl, hfloor]
  · rw [if_neg Bool.false_ne_true, hfloor]
    split
    · rename_i hlarge
      refine (Nat.min_eq_left (Nat.le_floor ?_)).symm
      have hm : (1 : ℚ) ≤ m := by exact_mod_cast Nat.pos_of_ne_zero hlarge.2
      calc ((largestWord : Nat) : ℚ) ≤ 2 ^ (64 : Int) := by
            unfold largestWord
            norm_num
        _ ≤ 2 ^ e := zpow_le_zpow_right₀ one_le_two hlarge.1
        _ ≤ m * 2 ^ e := le_mul_of_one_le_left (by positivity) hm
    · rfl

end StereoMapping
