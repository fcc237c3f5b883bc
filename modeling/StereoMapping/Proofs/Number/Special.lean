import StereoMapping.Geometry.Vector

/-!
# `Proofs.Number.Special` — infinity, and what is not a number

A 64-bit result is computed on unpacked values, a sign with a mantissa and an exponent or a special value, and
packed again. Packing may turn a value into an infinite one or into a zero, but it keeps the sign, and it keeps
whether there is a number at all. This is followed through the distance of two points: a difference from something
finite, squares, sums of what is not negative, a square root. None of them makes a non-number of numbers, although
infinite ones may occur, and each of them keeps one that is there.

## Contents
- `signOf`, `signOf_pack`: the sign of a value, which packing keeps; `signOf_sub_ne_none`, `signOf_mul_self`,
  `signOf_add_positive`, `signOf_sqrt_positive`: the operations.
- `Vec3.sign64_norm`, `Vec3.norm_le_infinity`, `Vec3.norm_le_eq_false`: bounds of a norm.
- `isNaN_widen`, `Vec3.isValid_widen`: 32-bit points in 64 bits.
-/

namespace StereoMapping

open Float.Model.UnpackedFloat (Sign unpack pack packComponents unpackSign unpackExponent unpackMantissa)

/-! ## Packed values -/

/-- The sign of a number, none for a value that is not a number. -/
def signOf : Float.Model.UnpackedFloat → Option Sign
  | .notANumber => none
  | .infinity sign => some sign
  | .zero sign => some sign
  | .finite sign _ _ _ => some sign

section Packing

variable {spec : Float.Model.Format}

theorem unpackSign_packComponents {sign : Sign} {exponent : BitVec spec.exponentBits}
    {mantissa : BitVec spec.mantissaBitsWithoutImplicit} :
    unpackSign (packComponents spec sign exponent mantissa) = sign.toBitVec := by
  ext i hi
  obtain rfl : i = 0 := by omega
  unfold unpackSign packComponents
  simp [BitVec.getLsbD_append, BitVec.getElem_append]

/-- Only the largest exponent with a mantissa is not a number. -/
theorem signOf_unpack (b : BitVec spec.numBits) : signOf (unpack spec b)
    = if unpackExponent b = -1#_ ∧ unpackMantissa b ≠ 0#_ then none else some (Sign.ofBitVec (unpackSign b)) := by
  by_cases hexponent : unpackExponent b = -1#_
  · by_cases hmantissa : unpackMantissa b = 0#_
    · have hvalue : unpack spec b = .infinity (Sign.ofBitVec (unpackSign b)) :=
        (if_pos hexponent).trans (if_pos hmantissa)
      rw [hvalue, if_neg fun h => h.2 hmantissa]
      rfl
    · have hvalue : unpack spec b = .notANumber := (if_pos hexponent).trans (if_neg hmantissa)
      rw [hvalue, if_pos ⟨hexponent, hmantissa⟩]
      rfl
  · rw [if_neg fun h => hexponent h.1]
    by_cases hzero : unpackExponent b = 0#_
    · by_cases hmantissa : unpackMantissa b = 0#_
      · exact congrArg signOf ((if_neg hexponent).trans ((if_pos hzero).trans (dif_pos hmantissa)))
      · exact congrArg signOf ((if_neg hexponent).trans ((if_pos hzero).trans (dif_neg hmantissa)))
    · exact congrArg signOf ((if_neg hexponent).trans (if_neg hzero))

theorem signOf_packComponents {sign : Sign} {exponent : BitVec spec.exponentBits}
    {mantissa : BitVec spec.mantissaBitsWithoutImplicit} :
    signOf (unpack spec (packComponents spec sign exponent mantissa))
      = if exponent = -1#_ ∧ mantissa ≠ 0#_ then none else some sign := by
  have hsign : Sign.ofBitVec sign.toBitVec = sign := by cases sign <;> rfl
  rw [signOf_unpack, Float.Model.UnpackedFloat.unpackExponent_packComponents,
    Float.Model.UnpackedFloat.unpackMantissa_packComponents, unpackSign_packComponents, hsign]

theorem zero_ne_allOnes : (0#_ : BitVec spec.exponentBits) ≠ -1#_ := by
  have he := spec.he
  have hpow : 2 ^ 1 ≤ 2 ^ spec.exponentBits := Nat.pow_le_pow_right (by decide) he
  rw [BitVec.neg_one_eq_allOnes, Ne, ← BitVec.toNat_inj, BitVec.toNat_allOnes, BitVec.toNat_zero]
  omega

/-- **Packing keeps the sign**, and whether the value is a number. -/
theorem signOf_pack (x : Float.Model.UnpackedFloat) : signOf (unpack spec (pack spec x)) = signOf x := by
  fun_cases pack with
  | case1 =>
    have hm := spec.hm
    -- the quiet bit is the highest of the mantissa, so it is there
    have hquiet : (1#_ <<< (spec.mantissaBitsWithoutImplicit - 1) : BitVec spec.mantissaBitsWithoutImplicit) ≠ 0#_ := by
      have hbit : 2 ^ (spec.mantissaBitsWithoutImplicit - 1) < 2 ^ spec.mantissaBitsWithoutImplicit :=
        Nat.pow_lt_pow_right (by decide) (by omega)
      rw [Ne, ← BitVec.toNat_inj, BitVec.toNat_shiftLeft, BitVec.toNat_zero, BitVec.toNat_ofNat,
        Nat.mod_eq_of_lt (Nat.one_lt_two_pow (Nat.ne_of_gt hm)), Nat.one_shiftLeft, Nat.mod_eq_of_lt hbit]
      exact Nat.ne_of_gt (Nat.two_pow_pos _)
    unfold Float.Model.UnpackedFloat.packedNaN
    rw [signOf_packComponents, if_pos ⟨rfl, hquiet⟩]
    rfl
  | case2 sign =>
    unfold Float.Model.UnpackedFloat.packedInfinity
    rw [signOf_packComponents, if_neg (fun h => h.2 rfl)]
    rfl
  | case3 sign =>
    unfold Float.Model.UnpackedFloat.packedZero
    rw [signOf_packComponents, if_neg (fun h => h.2 rfl)]
    rfl
  | case4 sign m e hm biased hlarge =>
    unfold Float.Model.UnpackedFloat.packedInfinity
    rw [signOf_packComponents, if_neg (fun h => h.2 rfl)]
    rfl
  | case5 sign m e hm actual biased hfits hnormal =>
    -- the largest exponent is left to the special values, which were told apart before
    have hexponent : BitVec.ofNat spec.exponentBits biased ≠ -1#_ := by
      rw [BitVec.neg_one_eq_allOnes, Ne, ← BitVec.toNat_inj, BitVec.toNat_allOnes, BitVec.toNat_ofNat,
        Nat.mod_eq_of_lt (by omega)]
      omega
    rw [signOf_packComponents, if_neg (fun h => hexponent h.1)]
    rfl
  | case6 sign m e hm actual biased hfits hsubnormal =>
    rw [signOf_packComponents, if_neg (fun h => zero_ne_allOnes h.1)]
    rfl

theorem toNat_unpackExponent (b : BitVec spec.numBits) : (unpackExponent b).toNat
    = (b.toNat >>> spec.mantissaBitsWithoutImplicit) % (1 <<< spec.exponentBits) := by
  have he := spec.he
  unfold unpackExponent
  rw [BitVec.toNat_cast, BitVec.extractLsb_toNat, Nat.one_shiftLeft]
  congr 2
  omega

theorem toNat_unpackMantissa (b : BitVec spec.numBits) :
    (unpackMantissa b).toNat = b.toNat % (1 <<< spec.mantissaBitsWithoutImplicit) := by
  have hm := spec.hm
  unfold unpackMantissa
  rw [BitVec.toNat_cast, BitVec.extractLsb_toNat, Nat.shiftRight_zero, Nat.one_shiftLeft]
  congr 2
  omega

/-- Such a pattern in numbers: all bits of the exponent and some bit of the mantissa. -/
theorem signOf_unpack_eq_none_iff (b : BitVec spec.numBits) : signOf (unpack spec b) = none ↔
    (b.toNat >>> spec.mantissaBitsWithoutImplicit) % (1 <<< spec.exponentBits) = 1 <<< spec.exponentBits - 1 ∧
      b.toNat % (1 <<< spec.mantissaBitsWithoutImplicit) ≠ 0 := by
  rw [signOf_unpack, ← toNat_unpackExponent, ← toNat_unpackMantissa, Nat.one_shiftLeft]
  simp only [ite_eq_left_iff, reduceCtorEq, imp_false, Decidable.not_not]
  rw [← BitVec.toNat_inj, Ne, ← BitVec.toNat_inj, BitVec.neg_one_eq_allOnes, BitVec.toNat_allOnes]
  exact Iff.rfl

end Packing

/-! ## Operations -/

section Operations

open Float.Model.UnpackedFloat (roundWithAccuracy)

variable {spec : Float.Model.Format}

/-- What is rounded away to nothing leaves a zero of the same sign. -/
theorem signOf_ofMantissa {sign : Sign} (m : Nat) (e : Int) :
    signOf (if h : m = 0 then .zero sign else .finite sign m e (Nat.pos_of_ne_zero h)) = some sign := by
  by_cases h : m = 0
  · exact congrArg signOf (dif_pos h)
  · exact congrArg signOf (dif_neg h)

theorem signOf_roundWithAccuracy {sign : Sign} {m : Nat} {e : Int} {accuracy : Float.Model.UnpackedFloat.Accuracy} :
    signOf (roundWithAccuracy spec sign m e accuracy) = some sign := by
  unfold roundWithAccuracy
  exact signOf_ofMantissa _ _

theorem signOf_normalize {m : Int} {e : Int} :
    signOf (Float.Model.UnpackedFloat.normalize spec m e .positive) = some (if 0 ≤ m then .positive else .negative) := by
  unfold Float.Model.UnpackedFloat.normalize Float.Model.UnpackedFloat.round
  cases h : compare m 0 with
  | lt =>
    rw [if_neg (Int.not_le.mpr (Std.compare_eq_lt.mp h))]
    exact signOf_roundWithAccuracy
  | eq =>
    rw [if_pos (Int.le_of_eq (Std.compare_eq_iff_eq.mp h).symm)]
    rfl
  | gt =>
    rw [if_pos (Int.le_of_lt (Std.compare_eq_gt.mp h))]
    exact signOf_roundWithAccuracy

variable {x y : Float.Model.UnpackedFloat}

theorem eq_notANumber_of_none (h : signOf x = none) : x = .notANumber := by
  cases x with
  | notANumber => rfl
  | infinity sign => cases h
  | zero sign => cases h
  | finite sign m e hm => cases h

theorem signOf_sub_eq_none (hy : signOf y = none) : signOf (x.sub spec y) = none := by
  obtain rfl := eq_notANumber_of_none hy
  cases x <;> rfl

/-- A difference from something finite is a number if the other one is. -/
theorem signOf_sub_ne_none (hx : x.isFinite = true) (hy : signOf y ≠ none) : signOf (x.sub spec y) ≠ none := by
  cases x with
  | notANumber => cases hx
  | infinity sign => cases hx
  | zero sign =>
    cases y with
    | notANumber => exact absurd rfl hy
    | infinity other => exact Option.some_ne_none _
    | zero other => cases sign <;> cases other <;> exact Option.some_ne_none _
    | finite other m e hm => exact Option.some_ne_none _
  | finite sign m e hm =>
    cases y with
    | notANumber => exact absurd rfl hy
    | infinity other => exact Option.some_ne_none _
    | zero other => exact Option.some_ne_none _
    | finite other m' e' hm' =>
      -- two finite values are subtracted exactly, and rounding gives a number
      intro hnone
      exact absurd (signOf_normalize.symm.trans hnone) (Option.some_ne_none _)

/-- A square is not negative. -/
theorem signOf_mul_self : signOf (x.mul spec x) = (signOf x).map fun _ => .positive := by
  cases x with
  | notANumber => rfl
  | infinity sign => cases sign <;> rfl
  | zero sign => cases sign <;> rfl
  | finite sign m e hm =>
    refine signOf_roundWithAccuracy.trans ?_
    cases sign <;> rfl

theorem signOf_add_eq_none (h : signOf x = none ∨ signOf y = none) : signOf (x.add spec y) = none := by
  rcases h with hx | hy
  · obtain rfl := eq_notANumber_of_none hx
    rfl
  · obtain rfl := eq_notANumber_of_none hy
    cases x <;> rfl

/-- A sum of two numbers that are not negative is one: it does not take infinity from itself. -/
theorem signOf_add_positive (hx : signOf x = some .positive) (hy : signOf y = some .positive) :
    signOf (x.add spec y) = some .positive := by
  cases x with
  | notANumber => cases hx
  | infinity sign =>
    obtain rfl := Option.some.inj hx
    cases y with
    | notANumber => cases hy
    | infinity other =>
      obtain rfl := Option.some.inj hy
      rfl
    | zero other => rfl
    | finite other m e hm => rfl
  | zero sign =>
    obtain rfl := Option.some.inj hx
    cases y with
    | notANumber => cases hy
    | infinity other => exact hy
    | zero other =>
      obtain rfl := Option.some.inj hy
      rfl
    | finite other m e hm => exact hy
  | finite sign m e hm =>
    obtain rfl := Option.some.inj hx
    cases y with
    | notANumber => cases hy
    | infinity other => exact hy
    | zero other => rfl
    | finite other m' e' hm' =>
      obtain rfl := Option.some.inj hy
      refine signOf_normalize.trans ?_
      rw [if_pos]
      exact Int.add_nonneg (Int.natCast_nonneg _) (Int.natCast_nonneg _)

theorem signOf_sqrt_eq_none (hx : signOf x = none) : signOf (x.sqrt spec) = none := by
  obtain rfl := eq_notANumber_of_none hx
  rfl

theorem signOf_sqrt_positive (hx : signOf x = some .positive) : signOf (x.sqrt spec) = some .positive := by
  cases x with
  | notANumber => cases hx
  | infinity sign =>
    obtain rfl := Option.some.inj hx
    rfl
  | zero sign => exact hx
  | finite sign m e hm =>
    obtain rfl := Option.some.inj hx
    exact signOf_roundWithAccuracy

theorem le_eq_false_of_none (hx : signOf x = none) : x.le y = false := by
  obtain rfl := eq_notANumber_of_none hx
  cases y <;> rfl

/-- Infinity bounds all numbers. -/
theorem le_infinity_iff : x.le (.infinity .positive) = true ↔ signOf x ≠ none := by
  cases x with
  | notANumber => exact ⟨fun h => absurd h Bool.false_ne_true, fun h => absurd rfl h⟩
  | infinity sign => cases sign <;> exact ⟨fun _ => Option.some_ne_none _, fun _ => rfl⟩
  | zero sign => exact ⟨fun _ => Option.some_ne_none _, fun _ => rfl⟩
  | finite sign m e hm => cases sign <;> exact ⟨fun _ => Option.some_ne_none _, fun _ => rfl⟩

end Operations

/-! ## Numbers of 64 bits -/

/-- The sign of a 64-bit number, none for the value that is not a number. -/
def sign64 (x : Float) : Option Sign := signOf x.toModel.unpack

theorem sign64_pack (x : Float.Model.UnpackedFloat) : sign64 (.ofModel (.pack x)) = signOf x := signOf_pack x

theorem isNaN_eq (x : Float) : Scalar.isNaN x = (sign64 x).isNone := by
  show x.toModel.unpack.isNaN = (signOf x.toModel.unpack).isNone
  cases x.toModel.unpack <;> rfl

theorem sign64_eq_none_iff {x : Float} : sign64 x = none ↔ Scalar.isNaN x = true := by
  rw [isNaN_eq, Option.isNone_iff_eq_none]

theorem sign64_sub_eq_none_iff {x y : Float} (hx : Scalar.isFinite x = true) :
    sign64 (x - y) = none ↔ sign64 y = none := by
  have hsub : sign64 (x - y) = signOf (x.toModel.unpack.sub .binary64 y.toModel.unpack) := sign64_pack _
  rw [hsub]
  exact ⟨fun h => Classical.byContradiction fun hy => signOf_sub_ne_none hx hy h, signOf_sub_eq_none⟩

theorem sign64_mul_self (x : Float) : sign64 (x * x) = (sign64 x).map fun _ => .positive :=
  (sign64_pack _).trans signOf_mul_self

theorem sign64_add_eq_none {x y : Float} (h : sign64 x = none ∨ sign64 y = none) : sign64 (x + y) = none :=
  (sign64_pack _).trans (signOf_add_eq_none h)

theorem sign64_add_positive {x y : Float} (hx : sign64 x = some .positive) (hy : sign64 y = some .positive) :
    sign64 (x + y) = some .positive :=
  (sign64_pack _).trans (signOf_add_positive hx hy)

theorem le_eq (x y : Float) : Scalar.le x y = x.toModel.unpack.le y.toModel.unpack :=
  Bool.eq_iff_iff.mpr (decide_eq_true_iff.trans decide_eq_true_iff)

namespace Vec3

theorem isValid_iff {v : Vec3 Float} :
    v.isValid = true ↔ sign64 v.x ≠ none ∧ sign64 v.y ≠ none ∧ sign64 v.z ≠ none := by
  unfold isValid
  rw [isNaN_eq, isNaN_eq, isNaN_eq]
  cases sign64 v.x <;> cases sign64 v.y <;> cases sign64 v.z <;> simp

theorem isValid_eq_false_iff {v : Vec3 Float} :
    v.isValid = false ↔ sign64 v.x = none ∨ sign64 v.y = none ∨ sign64 v.z = none := by
  unfold isValid
  rw [isNaN_eq, isNaN_eq, isNaN_eq]
  cases sign64 v.x <;> cases sign64 v.y <;> cases sign64 v.z <;> simp

/-- **A norm is a number** if all coordinates are, infinite or not, and then it is not negative. -/
theorem sign64_norm (v : Vec3 Float) : sign64 v.norm = if v.isValid then some .positive else none := by
  have hsquare : ∀ x : Float, sign64 x ≠ none → sign64 (x * x) = some .positive := by
    intro x hx
    obtain ⟨sign, hsign⟩ := Option.ne_none_iff_exists'.mp hx
    rw [sign64_mul_self, hsign]
    rfl
  have hlost : ∀ x : Float, sign64 x = none → sign64 (x * x) = none := by
    intro x hx
    rw [sign64_mul_self, hx]
    rfl
  cases hvalid : v.isValid with
  | true =>
    obtain ⟨hx, hy, hz⟩ := isValid_iff.mp hvalid
    have hsum : sign64 (v.x * v.x + v.y * v.y + v.z * v.z) = some .positive :=
      sign64_add_positive (sign64_add_positive (hsquare _ hx) (hsquare _ hy)) (hsquare _ hz)
    exact (sign64_pack _).trans (signOf_sqrt_positive hsum)
  | false =>
    have hsum : sign64 (v.x * v.x + v.y * v.y + v.z * v.z) = none := by
      rcases isValid_eq_false_iff.mp hvalid with hx | hy | hz
      · exact sign64_add_eq_none (.inl (sign64_add_eq_none (.inl (hlost _ hx))))
      · exact sign64_add_eq_none (.inl (sign64_add_eq_none (.inr (hlost _ hy))))
      · exact sign64_add_eq_none (.inr (hlost _ hz))
    exact (sign64_pack _).trans (signOf_sqrt_eq_none hsum)

/-- **Infinity bounds the norm** of every vector that is valid, and of no other. -/
theorem norm_le_infinity (v : Vec3 Float) : Scalar.le v.norm infinity64 = v.isValid := by
  have hinfinity : infinity64.toModel.unpack = .infinity .positive := by rfl
  have hsign : signOf v.norm.toModel.unpack = if v.isValid then some .positive else none := sign64_norm v
  rw [le_eq, hinfinity]
  cases hvalid : v.isValid with
  | true =>
    rw [hvalid] at hsign
    exact le_infinity_iff.mpr (by rw [hsign]; exact Option.some_ne_none _)
  | false =>
    rw [hvalid] at hsign
    exact le_eq_false_of_none hsign

/-- No bound holds for the norm of a vector that is not valid. -/
theorem norm_le_eq_false {v : Vec3 Float} (h : v.isValid = false) (bound : Float) :
    Scalar.le v.norm bound = false := by
  have hsign : signOf v.norm.toModel.unpack = if v.isValid then some .positive else none := sign64_norm v
  rw [h] at hsign
  rw [le_eq]
  exact le_eq_false_of_none hsign

/-- **A difference is valid** if the subtracted point is, for a point that is finite. -/
theorem isValid_sub {p q : Vec3 Float} (hp : p.isFinite = true) : (p - q).isValid = q.isValid := by
  unfold isFinite at hp
  simp only [Bool.and_eq_true] at hp
  obtain ⟨⟨hx, hy⟩, hz⟩ := hp
  rw [Bool.eq_iff_iff, isValid_iff, isValid_iff]
  exact and_congr (not_congr (sign64_sub_eq_none_iff hx)) (and_congr (not_congr (sign64_sub_eq_none_iff hy))
    (not_congr (sign64_sub_eq_none_iff hz)))

theorem isValid_sub_of_invalid (p : Vec3 Float) {q : Vec3 Float} (hq : q.isValid = false) :
    (p - q).isValid = false := by
  have hsub : ∀ x y : Float, sign64 y = none → sign64 (x - y) = none :=
    fun x y hy => (sign64_pack _).trans (signOf_sub_eq_none hy)
  rw [isValid_eq_false_iff] at hq ⊢
  exact hq.imp (hsub _ _) (Or.imp (hsub _ _) (hsub _ _))

end Vec3

/-! ## From 32 to 64 bits -/

/-- A pattern is not a number if it is beyond that of infinity. -/
theorem sign64_ofBits (bits : UInt64) :
    sign64 (Float.ofBits bits) = none ↔ Format.double.infinity < bits.toNat % 0x8000000000000000 := by
  have hbits : sign64 (Float.ofBits bits) = signOf (unpack .binary64 bits.toBitVec) := sign64_pack _
  rw [hbits, signOf_unpack_eq_none_iff, Nat.shiftRight_eq_div_pow]
  show bits.toNat / 0x10000000000000 % 0x800 = 0x7ff ∧ bits.toNat % 0x10000000000000 ≠ 0 ↔
    0x7ff0000000000000 < bits.toNat % 0x8000000000000000
  omega

theorem Format.shape_eq_notANumber_iff {f : Format} {negative : Bool} {pattern : Nat} :
    f.shape negative pattern = .notANumber ↔ f.infinity < pattern := by
  unfold shape
  split
  · exact iff_of_true rfl (by assumption)
  · refine iff_of_false ?_ (by assumption)
    split
    · exact Shape.noConfusion
    · dsimp only
      split <;> exact Shape.noConfusion

theorem Format.roundDyadic_le (f : Format) (m : Nat) (e : Int) : f.roundDyadic m e ≤ f.infinity := by
  have hassemble : ∀ significand unit, f.assemble significand unit ≤ f.infinity := fun _ _ => Nat.min_le_left _ _
  unfold roundDyadic
  dsimp only
  split
  · exact Nat.zero_le _
  · split
    · exact Nat.le_refl _
    · split <;> exact hassemble _ _

/-- The same for 32 bits, as the shape of a number says. -/
theorem isNaN32 (x : Float32) : Scalar.isNaN x = true ↔ shape32 x = .notANumber := by
  have hsign : Scalar.isNaN x = (signOf (unpack .binary32 x.toBits.toBitVec)).isNone := by
    show (unpack .binary32 x.toBits.toBitVec).isNaN = _
    cases unpack .binary32 x.toBits.toBitVec <;> rfl
  have hlow : (x.toBits &&& 0x7fffffff).toNat = x.toBits.toNat % 0x80000000 := by
    rw [UInt32.toNat_and]
    exact Nat.and_two_pow_sub_one_eq_mod _ 31
  have hshape : shape32 x = .notANumber ↔ Format.single.infinity < x.toBits.toNat % 0x80000000 := by
    rw [← hlow]
    exact Format.shape_eq_notANumber_iff
  rw [hsign, Option.isNone_iff_eq_none, signOf_unpack_eq_none_iff, hshape, Nat.shiftRight_eq_div_pow]
  show x.toBits.toNat / 0x800000 % 0x100 = 0xff ∧ x.toBits.toNat % 0x800000 ≠ 0 ↔
    0x7f800000 < x.toBits.toNat % 0x80000000
  omega

/-- A pattern up to that of infinity is a number under either sign. -/
theorem sign64_float64 (negative : Bool) {pattern : Nat} (h : pattern ≤ Format.double.infinity) :
    sign64 (float64 negative pattern) ≠ none := by
  have hfits : pattern < 0x8000000000000000 := Nat.lt_of_le_of_lt h (by decide)
  have hword : pattern.toUInt64.toNat = pattern := by
    show pattern % 2 ^ 64 = pattern
    omega
  unfold float64
  rw [Ne, sign64_ofBits, Nat.not_lt]
  cases negative with
  | false =>
    show pattern.toUInt64.toNat % 0x8000000000000000 ≤ _
    rw [hword, Nat.mod_eq_of_lt hfits]
    exact h
  | true =>
    -- the bit of the sign is above those that are looked at
    have hor : (pattern ||| 0x8000000000000000) % 2 ^ 63 = pattern % 2 ^ 63 ||| 0 := Nat.or_mod_two_pow
    show (pattern.toUInt64 ||| 0x8000000000000000).toNat % 2 ^ 63 ≤ _
    rw [UInt64.toNat_or, hword]
    exact (hor.trans ((Nat.or_zero _).trans (Nat.mod_eq_of_lt hfits))).symm ▸ h

/-- **Widening keeps** whether a value is a number. -/
theorem isNaN_widen (x : Float32) : Scalar.isNaN (widen x : Float) = Scalar.isNaN x := by
  have hwiden : (widen x : Float) = (shape32 x).toFloat := rfl
  rw [Bool.eq_iff_iff, isNaN32, ← sign64_eq_none_iff, hwiden]
  cases shape32 x with
  | notANumber => exact iff_of_true rfl rfl
  | infinite negative => exact iff_of_false (sign64_float64 negative (Nat.le_refl _)) Shape.noConfusion
  | finite negative m e =>
    exact iff_of_false (sign64_float64 negative (Format.double.roundDyadic_le m e)) Shape.noConfusion

theorem Vec3.isValid_widen (p : Vec3 Float32) : (p.widen : Vec3 Float).isValid = p.isValid := by
  unfold isValid widen
  rw [isNaN_widen, isNaN_widen, isNaN_widen]

end StereoMapping
