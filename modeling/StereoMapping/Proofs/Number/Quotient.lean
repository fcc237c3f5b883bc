import StereoMapping.Proofs.Number.Sum

/-!
# `Proofs.Number.Quotient` — quotients and shares of counts in 32 bits

A division leaves a whole part and a rest, and the rest says where the quotient is between two significands: that is all
that rounding asks for, so a quotient too is the exact one, rounded once.

A share is the quotient of two counts of which the first is the lesser one. Both are rounded before they are divided.
Rounding cannot bring the share out of the bounds of shares, above zero and up to one, but it can bring it to one: this
happens exactly if the two counts are rounded to the same number, as two different numbers of the format are further
apart than one and the number below it. Counts of up to 24 digits are told apart.

## Contents
- `residue_div`, `reads_div`: the rest of a division, and quotients.
- `div_le_of_lt`: how close two numbers of the format can be, compared with the greater one.
- `exists_reads_count`, `ofNat_lt_ofNat`: counts of a word as numbers, and which of them are told apart.
- `Share`, `share_bounds`: shares of counts.
-/

namespace StereoMapping

open Float.Model (UnpackedFloat totalExponent)
open Float.Model.Format (binary32)
open Float.Model.UnpackedFloat (ExtendedMantissa accuracyOfFraction divCore pack unpack)

/-! ## Quotients -/

/-- A significand and a proper fraction. -/
theorem residue_add {k : Nat} {f : ℚ} {round sticky : Bool} (hpos : 0 < f) (hlt : f < 1)
    (hround : round = true ↔ 1 / 2 ≤ f) (hsticky : sticky = false ↔ f = 1 / 2) :
    Residue ⟨k, round, sticky⟩ (k + f) where
  low := by dsimp only; linarith
  high := by dsimp only; linarith
  round_iff := by
    dsimp only
    rw [hround, add_le_add_iff_left]
  sticky_iff := by
    dsimp only
    rw [hsticky, add_right_inj, add_eq_left, or_iff_right hpos.ne']

/-- The whole part of a quotient and the rest tell where the quotient is. -/
theorem residue_div (m : Nat) {d : Nat} (hd : 0 < d) :
    Residue (.ofMantissaAndAccuracy (m / d) (accuracyOfFraction (m % d) d)) (m / d) := by
  have hpos : (0 : ℚ) < d := Nat.cast_pos.mpr hd
  have hrest : ((m % d : Nat) : ℚ) < d := Nat.cast_lt.mpr (Nat.mod_lt m hd)
  have hvalue : (m / d : ℚ) = (m / d : Nat) + (m % d : Nat) / d := by
    have hsplit : (d : ℚ) * (m / d : Nat) + (m % d : Nat) = m := by exact_mod_cast Nat.div_add_mod m d
    rw [div_eq_iff hpos.ne', add_mul, div_mul_cancel₀ _ hpos.ne', mul_comm, hsplit]
  have hlt : ((m % d : Nat) : ℚ) / d < 1 := (div_lt_one hpos).mpr hrest
  rw [hvalue]
  generalize m / d = k
  generalize m % d = r at hlt
  unfold accuracyOfFraction
  split
  · rename_i hzero
    rw [hzero, Nat.cast_zero, zero_div, add_zero]
    exact Residue.exact k
  · rename_i hnonzero
    have hpositive : 0 < (r : ℚ) / d := div_pos (Nat.cast_pos.mpr (Nat.pos_of_ne_zero hnonzero)) hpos
    have hhalf : 1 / 2 ≤ (r : ℚ) / d ↔ d ≤ 2 * r := by
      rw [div_le_div_iff₀ two_pos hpos, one_mul, mul_comm]
      exact_mod_cast Iff.rfl
    have hmiddle : (r : ℚ) / d = 1 / 2 ↔ 2 * r = d := by
      rw [div_eq_div_iff hpos.ne' two_ne_zero, one_mul, mul_comm]
      exact_mod_cast Iff.rfl
    -- the rest against half of the divisor decides on both digits
    cases hcompare : compare (2 * r) d with
    | lt =>
      rw [Nat.compare_eq_lt] at hcompare
      exact residue_add hpositive hlt (by rw [hhalf]; simp; omega) (by rw [hmiddle]; simp; omega)
    | eq =>
      rw [Nat.compare_eq_eq] at hcompare
      exact residue_add hpositive hlt (by rw [hhalf]; simp; omega) (by rw [hmiddle]; simp; omega)
    | gt =>
      rw [Nat.compare_eq_gt] at hcompare
      exact residue_add hpositive hlt (by rw [hhalf]; simp; omega) (by rw [hmiddle]; simp; omega)

/-- The whole part of a quotient has all the digits of a significand, unless its unit is the least one already. -/
theorem quotient_exponent_le {m m' : Nat} {e e' t : Int} (hm : 0 < m) (hm' : 0 < m')
    (ht : t = min (e - e') (binary32.targetExponent (totalExponent m e - totalExponent m' e'))) :
    t ≤ max (((m <<< (e - e' - t).toNat / m').log2 : Int) + 1 + t - 24) (-149) := by
  have htarget : binary32.targetExponent (totalExponent m e - totalExponent m' e')
      = max ((m.log2 : Int) + 1 + e - (m'.log2 + 1 + e') - 24) (-149) := rfl
  rw [htarget] at ht
  rcases le_or_gt t (-149) with hleast | hleast
  · exact hleast.trans (le_max_right _ _)
  · obtain ⟨s, hs⟩ : ∃ s, (e - e' - t).toNat = s := ⟨_, rfl⟩
    have hdigits : 2 ^ 23 ≤ m <<< s / m' := by
      rw [Nat.le_div_iff_mul_le hm', Nat.shiftLeft_eq]
      calc 2 ^ 23 * m' ≤ 2 ^ 23 * 2 ^ (m'.log2 + 1) := Nat.mul_le_mul_left _ Nat.lt_log2_self.le
        _ = 2 ^ (23 + (m'.log2 + 1)) := (pow_add _ _ _).symm
        _ ≤ 2 ^ (m.log2 + s) := Nat.pow_le_pow_right two_pos (by omega)
        _ = 2 ^ m.log2 * 2 ^ s := pow_add _ _ _
        _ ≤ m * 2 ^ s := Nat.mul_le_mul_right _ (Nat.log2_self_le hm.ne')
    have hlog : 23 ≤ (m <<< s / m').log2 := (Nat.le_log2 (by omega)).mpr hdigits
    rw [hs]
    omega

/-- **A quotient is the exact one, rounded.** -/
theorem reads_div {m m' : Nat} (e e' : Int) (hm : 0 < m) (hm' : 0 < m') :
    ∃ w, Rounded ((m * 2 ^ e / (m' * 2 ^ e') : ℚ) : WithTop ℚ) w ∧
      Reads (UnpackedFloat.div binary32 (.finite .positive m e hm) (.finite .positive m' e' hm')) w := by
  obtain ⟨t, ht⟩ : ∃ t, t = min (e - e') (binary32.targetExponent (totalExponent m e - totalExponent m' e')) := ⟨_, rfl⟩
  have hle : t ≤ e - e' := ht ▸ min_le_left _ _
  obtain ⟨k, u, hat, hreads⟩ := exists_roundsAt (residue_div (m <<< (e - e' - t).toNat) hm')
    (quotient_exponent_le hm hm' ht)
  have hvalue : ((m <<< (e - e' - t).toNat : Nat) / m' : ℚ) * 2 ^ t = m * 2 ^ e / (m' * 2 ^ e') := by
    have hexponent : (((e - e' - t).toNat : Nat) : Int) + t = e - e' := by omega
    rw [Nat.shiftLeft_eq, Nat.cast_mul, Nat.cast_pow, Nat.cast_ofNat, ← zpow_natCast, mul_div_right_comm, mul_assoc,
      ← zpow_add₀ two_ne_zero, hexponent, zpow_sub₀ two_ne_zero, div_mul_div_comm]
  rw [hvalue] at hat
  subst ht
  exact ⟨_, Rounded.number hat, hreads⟩

/-! ## Numbers of a format -/

/-- **Two numbers of the format** are apart by the last digit of the greater one, or by half of it. -/
theorem div_le_of_lt {m m' : Nat} {e e' : Int} (h : Format.single.Represents m e) (h' : Format.single.Represents m' e')
    (hlt : (m * 2 ^ e : ℚ) < m' * 2 ^ e') : (m * 2 ^ e / (m' * 2 ^ e') : ℚ) ≤ (2 ^ 24 - 1) / 2 ^ 24 := by
  have hpow : (0 : ℚ) < 2 ^ e := by positivity
  have hpos : (0 : ℚ) < m' * 2 ^ e' := mul_pos (Nat.cast_pos.mpr h'.pos) (by positivity)
  have hm : m < 2 ^ 24 := h.fits
  have hm' : m' < 2 ^ 24 := h'.fits
  have hplaces := (Format.Represents.le_iff (by decide) h' h).not.mpr (not_le.mpr hlt)
  rw [not_le, Prod.Lex.toLex_lt_toLex] at hplaces
  rw [div_le_div_iff₀ hpos (by positivity)]
  rcases hplaces with he | ⟨heq, hlast⟩
  · -- the greater number has all its digits, in a unit that is twice as large at least
    have hdigits : 2 ^ 23 ≤ m' := h'.normal.resolve_right (ne_of_gt (h.least_le.trans_lt he))
    have hunit : (2 : ℚ) * 2 ^ e ≤ 2 ^ e' := by
      rw [← zpow_one_add₀ two_ne_zero]
      exact zpow_le_zpow_right₀ one_le_two (by omega)
    have hm : (m : ℚ) ≤ 2 ^ 24 - 1 := by
      have hsucc : (m : ℚ) + 1 ≤ 2 ^ 24 := by exact_mod_cast hm
      linarith
    have hdigits : (2 : ℚ) ^ 23 ≤ m' := by exact_mod_cast hdigits
    calc (m * 2 ^ e : ℚ) * 2 ^ 24 ≤ (2 ^ 24 - 1) * 2 ^ e * 2 ^ 24 := by gcongr
      _ = (2 ^ 24 - 1) * (2 ^ 23 * (2 * 2 ^ e)) := by ring
      _ ≤ (2 ^ 24 - 1) * (m' * 2 ^ e') := by
          refine mul_le_mul_of_nonneg_left ?_ (by norm_num)
          gcongr
  · obtain rfl : e = e' := heq
    have hlast : m < m' := by exact_mod_cast (show (m : Int) < m' from hlast)
    have hgap : m * 2 ^ 24 + m' ≤ 2 ^ 24 * m' := by omega
    have hgap : (m : ℚ) * 2 ^ 24 + m' ≤ 2 ^ 24 * m' := by exact_mod_cast hgap
    calc (m * 2 ^ e : ℚ) * 2 ^ 24 = m * 2 ^ 24 * 2 ^ e := mul_right_comm _ _ _
      _ ≤ (2 ^ 24 - 1) * m' * 2 ^ e := mul_le_mul_of_nonneg_right (by linarith) hpow.le
      _ = (2 ^ 24 - 1) * (m' * 2 ^ e) := mul_assoc _ _ _

/-- Numbers with all digits are not changed. -/
theorem rounded_of_digits {m : Nat} {e : Int} {q : ℚ} (hlow : 2 ^ 23 ≤ m) (hhigh : m < 2 ^ 24) (he : -149 ≤ e)
    (hq : (m * 2 ^ e : ℚ) = q) : Rounded (q : WithTop ℚ) (q : WithTop ℚ) :=
  hq ▸ rounded_of_represents ⟨(by decide : 0 < 2 ^ 23).trans_le hlow, hhigh, he, .inl hlow⟩

/-! ## Counts of a word -/

/-- Counts up to that of a word are numbers above zero. -/
theorem exists_reads_count {n : Nat} (hn : 0 < n) (hmax : n ≤ 2 ^ 32) :
    ∃ m e hm, (Scalar.ofNat n : Float32).toModel.unpack = .finite .positive m e hm ∧ Format.single.Represents m e ∧
      Rounded ((n : ℚ) : WithTop ℚ) ((m * 2 ^ e : ℚ) : WithTop ℚ) ∧ (1 : ℚ) ≤ m * 2 ^ e ∧
      (m * 2 ^ e : ℚ) ≤ 2 ^ 32 := by
  obtain ⟨w, hrounded, hreads⟩ := reads_ofNat (hmax.trans (by decide))
  have hone := rounded_of_digits (m := 2 ^ 23) (e := -23) (q := 1) le_rfl (by decide) (by decide) (by norm_num)
  have hword := rounded_of_digits (m := 2 ^ 23) (e := 9) (q := 2 ^ 32) le_rfl (by decide) (by decide) (by norm_num)
  have hlow : (1 : ℚ) ≤ n := by exact_mod_cast hn
  have hhigh : (n : ℚ) ≤ 2 ^ 32 := by exact_mod_cast hmax
  have hlow := hone.le hrounded (WithTop.coe_le_coe.mpr hlow)
  have hhigh := hrounded.le hword (WithTop.coe_le_coe.mpr hhigh)
  have hcapped : capped w = w := if_pos (hhigh.trans_lt (WithTop.coe_lt_coe.mpr (by norm_num)))
  rw [hcapped] at hreads
  generalize hx : (Scalar.ofNat n : Float32).toModel.unpack = unpacked at hreads
  cases hreads with
  | zero sign => exact absurd (WithTop.coe_le_coe.mp hlow) (not_le.mpr one_pos)
  | @finite m e hm h =>
    exact ⟨m, e, hm, rfl, h, hrounded, WithTop.coe_le_coe.mp hlow, WithTop.coe_le_coe.mp hhigh⟩
  | infinity => exact absurd hhigh (not_le.mpr (WithTop.coe_lt_top _))

/-- **Counts of 24 digits are told apart** from all greater ones. -/
theorem ofNat_lt_ofNat {a b : Nat} (hab : a < b) (ha : a < 2 ^ 24) (hb : b ≤ 2 ^ 32) :
    Scalar.lt (Scalar.ofNat a : Float32) (Scalar.ofNat b) = true := by
  obtain ⟨v, hrounded, hreads⟩ := reads_ofNat (n := a) (hab.le.trans (hb.trans (by decide)))
  obtain ⟨m, e, hm, hy, h, hrounded', -, -⟩ := exists_reads_count (Nat.zero_lt_of_lt hab) hb
  have hv : v ≤ ((a : ℚ) : WithTop ℚ) := hrounded.le (rounded_natCast ha) le_rfl
  have hcapped : capped v = v := by
    have hfits : (a : ℚ) < 2 ^ 24 := by exact_mod_cast ha
    exact if_pos (hv.trans_lt (WithTop.coe_lt_coe.mpr (hfits.trans (by norm_num))))
  rw [hcapped] at hreads
  -- the next count is not changed either, though the greatest one has 25 digits
  have hnext : Rounded (((a + 1 : Nat) : ℚ) : WithTop ℚ) (((a + 1 : Nat) : ℚ) : WithTop ℚ) := by
    rcases (Nat.succ_le_of_lt ha).lt_or_eq with hlt | heq
    · exact rounded_natCast hlt
    · rw [Nat.succ_eq_add_one] at heq
      rw [heq]
      exact rounded_of_digits (m := 2 ^ 23) (e := 1) le_rfl (by decide) (by decide) (by norm_num)
  have hle : ((a + 1 : Nat) : ℚ) ≤ b := by exact_mod_cast hab
  have hw := hnext.le hrounded' (WithTop.coe_le_coe.mpr hle)
  have hlt : (a : ℚ) < (a + 1 : Nat) := by exact_mod_cast Nat.lt_succ_self a
  exact (hreads.scalar_lt_iff (hy ▸ Reads.finite hm h)).mpr
    (hv.trans_lt ((WithTop.coe_lt_coe.mpr hlt).trans_le hw))

/-! ## Shares of counts -/

theorem reads_one : Reads (1 : Float32).toModel.unpack ((1 : ℚ) : WithTop ℚ) := by
  have hunpack : (1 : Float32).toModel.unpack = .finite .positive (2 ^ 23) (-23) (by decide) := rfl
  have hvalue : (((2 ^ 23 : Nat) : ℚ) * 2 ^ (-23 : Int)) = 1 := by norm_num
  have hreads := Reads.finite (m := 2 ^ 23) (e := -23) (by decide) ⟨by decide, by decide, by decide, .inl (by decide)⟩
  rwa [hvalue, ← hunpack] at hreads

/-- A share in 32 bits: the numbers of both counts, and the quotient of these, rounded. -/
structure Share (a b m m' : Nat) (e e' : Int) (w : WithTop ℚ) : Prop where
  part : Reads (Scalar.ofNat a : Float32).toModel.unpack ((m * 2 ^ e : ℚ) : WithTop ℚ)
  whole : Reads (Scalar.ofNat b : Float32).toModel.unpack ((m' * 2 ^ e' : ℚ) : WithTop ℚ)
  represents : Format.single.Represents m e
  represents' : Format.single.Represents m' e'
  one_le : (1 : ℚ) ≤ m * 2 ^ e
  le : (m * 2 ^ e : ℚ) ≤ m' * 2 ^ e'
  le_pow : (m' * 2 ^ e' : ℚ) ≤ 2 ^ 32
  rounded : Rounded ((m * 2 ^ e / (m' * 2 ^ e') : ℚ) : WithTop ℚ) w
  reads : Reads (Scalar.ofNat a / Scalar.ofNat b : Float32).toModel.unpack (capped w)

section

variable {a b m m' : Nat} {e e' : Int} {w : WithTop ℚ}

theorem exists_share (ha : 0 < a) (hab : a ≤ b) (hb : b ≤ 2 ^ 32) : ∃ m m' e e' w, Share a b m m' e e' w := by
  obtain ⟨m, e, hm, hx, h, hrounded, hone, -⟩ := exists_reads_count ha (hab.trans hb)
  obtain ⟨m', e', hm', hy, h', hrounded', -, hpow⟩ := exists_reads_count (ha.trans_le hab) hb
  obtain ⟨w, hquotient, hreads⟩ := reads_div e e' hm hm'
  have hshare : (Scalar.ofNat a / Scalar.ofNat b : Float32).toModel.unpack
      = unpack binary32 (pack binary32 (.div binary32 (.finite .positive m e hm) (.finite .positive m' e' hm'))) := by
    rw [← hx, ← hy]
    rfl
  have hle := hrounded.le hrounded' (WithTop.coe_le_coe.mpr (Nat.cast_le.mpr hab))
  exact ⟨m, m', e, e', w, {
    part := hx ▸ Reads.finite hm h
    whole := hy ▸ Reads.finite hm' h'
    represents := h
    represents' := h'
    one_le := hone
    le := WithTop.coe_le_coe.mp hle
    le_pow := hpow
    rounded := hquotient
    reads := hshare ▸ reads_unpack_pack hreads }⟩

theorem Share.whole_pos (h : Share a b m m' e e' w) : (0 : ℚ) < m' * 2 ^ e' := one_pos.trans_le (h.one_le.trans h.le)

theorem Share.le_one (h : Share a b m m' e e' w) : w ≤ ((1 : ℚ) : WithTop ℚ) :=
  h.rounded.le (rounded_of_digits (m := 2 ^ 23) (e := -23) le_rfl (by decide) (by decide) (by norm_num))
    (WithTop.coe_le_coe.mpr ((div_le_one h.whole_pos).mpr h.le))

/-- The quotient is not packed as an infinite one. -/
theorem Share.reads_rounded (h : Share a b m m' e e' w) :
    Reads (Scalar.ofNat a / Scalar.ofNat b : Float32).toModel.unpack w := by
  have hcapped : capped w = w := if_pos (h.le_one.trans_lt (WithTop.coe_lt_coe.mpr (by norm_num)))
  rw [← hcapped]
  exact h.reads

/-- The least share is that of one in the greatest count. -/
theorem Share.pos (h : Share a b m m' e e' w) : 0 < w := by
  have hleast := rounded_of_digits (m := 2 ^ 23) (e := -55) (q := 1 / 2 ^ 32) le_rfl (by decide) (by decide)
    (by norm_num)
  have hbound : (1 / 2 ^ 32 : ℚ) ≤ m * 2 ^ e / (m' * 2 ^ e') := by
    rw [div_le_div_iff₀ (by positivity) h.whole_pos, one_mul]
    calc (m' * 2 ^ e' : ℚ) ≤ 2 ^ 32 := h.le_pow
      _ ≤ m * 2 ^ e * 2 ^ 32 := le_mul_of_one_le_left (by positivity) h.one_le
  have hw := hleast.le h.rounded (WithTop.coe_le_coe.mpr hbound)
  exact lt_of_lt_of_le (WithTop.coe_lt_coe.mpr (by positivity)) hw

/-- **A share is one** if both counts are the same number, and only then. -/
theorem Share.lt_one_iff (h : Share a b m m' e e' w) :
    w < ((1 : ℚ) : WithTop ℚ) ↔ (m * 2 ^ e : ℚ) < m' * 2 ^ e' := by
  constructor
  · intro hlt
    refine lt_of_le_of_ne h.le fun heq => absurd hlt (not_lt.mpr ?_)
    have hone := rounded_of_digits (m := 2 ^ 23) (e := -23) (q := 1) le_rfl (by decide) (by decide) (by norm_num)
    exact hone.le h.rounded (WithTop.coe_le_coe.mpr (by rw [heq, div_self h.whole_pos.ne']))
  · intro hlt
    -- the number below one
    have hbelow := rounded_of_digits (m := 2 ^ 24 - 1) (e := -24) (q := (2 ^ 24 - 1) / 2 ^ 24) (by decide) (by decide)
      (by decide) (by norm_num)
    have hw := h.rounded.le hbelow (WithTop.coe_le_coe.mpr (div_le_of_lt h.represents h.represents' hlt))
    exact hw.trans_lt (WithTop.coe_lt_coe.mpr (by norm_num))

end

/-- **A share of a count in 32 bits** is above zero and not above one, and below one exactly if the numbers tell the two
counts apart. -/
theorem share_bounds {a b : Nat} (ha : 0 < a) (hab : a ≤ b) (hb : b ≤ 2 ^ 32) :
    Scalar.lt 0 (Scalar.ofNat a / Scalar.ofNat b : Float32) = true ∧
      Scalar.le (Scalar.ofNat a / Scalar.ofNat b : Float32) 1 = true ∧
      (Scalar.lt (Scalar.ofNat a / Scalar.ofNat b : Float32) 1 = true ↔
        Scalar.lt (Scalar.ofNat a : Float32) (Scalar.ofNat b) = true) := by
  obtain ⟨m, m', e, e', w, h⟩ := exists_share ha hab hb
  rw [reads_zero.scalar_lt_iff h.reads_rounded, h.reads_rounded.scalar_le_iff reads_one,
    h.reads_rounded.scalar_lt_iff reads_one, h.part.scalar_lt_iff h.whole, WithTop.coe_lt_coe]
  exact ⟨h.pos, h.le_one, h.lt_one_iff⟩

end StereoMapping
