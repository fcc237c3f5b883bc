import Mathlib.Algebra.Order.Field.Power
import Mathlib.Data.Rat.Cast.Order
import Mathlib.Tactic.FieldSimp
import Mathlib.Tactic.Ring
import StereoMapping.Number.Numeral

/-!
# `Proofs.Number.Numeral` — the text of a numeral is scanned back

A numeral is written with a whole part, and a point and a fraction if there are digits after the point. What is
scanned need not be the same digits with the same power of ten, since zeros are written out, but it has the same
meaning. The text may be followed by anything that does not go on with it. Negative infinity is the one numeral whose
text is not scanned: a sign is read before digits only.

## Contents
- `Numeral.Same`: numerals of one meaning.
- `ofDigits_digitChars`, `spanDigits_append`: digits of a number, read back.
- `Parts`, `exists_parts`: the two parts of a positional text, and their value.
- `Numeral.Ends`, `scan?_chars`: every numeral but one is scanned back; `scan?_negative_infinity`: that one is not.
- `IsNumeralChar`, `isNumeralChar_of_mem_chars`, `exists_cons_of_scan?`: characters of what is written and scanned.
-/

namespace StereoMapping

namespace Numeral

/-- Numerals of one meaning: the same special value, or finite ones of the same sign and the same value. -/
inductive Same : Numeral → Numeral → Prop
  | notANumber : Same .notANumber .notANumber
  | infinite (negative : Bool) : Same (.infinite negative) (.infinite negative)
  | finite (negative : Bool) {digits digits' : Nat} {exponent exponent' : Int}
    (h : (digits * 10 ^ exponent : ℚ) = digits' * 10 ^ exponent') :
    Same (.finite negative digits exponent) (.finite negative digits' exponent')

/-! ## Digits -/

theorem ofDigits_eq (cs : List Char) : ofDigits cs = Nat.ofDigitChars 10 cs 0 := Nat.ofDigitChars_eq_foldl.symm

/-- The digits of a number have its value. -/
theorem ofDigits_digitChars (n : Nat) : ofDigits (digitChars n) = n := by
  rw [ofDigits_eq]
  exact Nat.ofDigitChars_ten_toDigits

theorem isDigit_of_mem_digitChars {n : Nat} {c : Char} (h : c ∈ digitChars n) : c.isDigit = true :=
  Nat.isDigit_of_mem_toDigits (by decide) (by decide) h

theorem digitChars_ne_nil {n : Nat} : digitChars n ≠ [] := Nat.toDigits_ne_nil

/-- Zeros in front do not count. -/
theorem ofDigits_zeros (k : Nat) (cs : List Char) : ofDigits (List.replicate k '0' ++ cs) = ofDigits cs := by
  rw [ofDigits_eq, ofDigits_eq, Nat.ofDigitChars_append, Nat.ofDigitChars_replicate_zero, Nat.mul_zero]

/-- Zeros behind are powers of ten. -/
theorem ofDigits_append_zeros (cs : List Char) (k : Nat) :
    ofDigits (cs ++ List.replicate k '0') = ofDigits cs * 10 ^ k := by
  rw [ofDigits_eq, ofDigits_eq, Nat.ofDigitChars_append, Nat.ofDigitChars_replicate_zero, Nat.mul_comm]

/-- The longest run of digits in front of something else. -/
theorem spanDigits_append {digits rest : List Char} (hdigits : ∀ c ∈ digits, c.isDigit = true)
    (hrest : ∀ c ∈ rest.head?, c.isDigit = false) : spanDigits (digits ++ rest) = (digits, rest) := by
  unfold spanDigits
  rw [List.span_eq_takeWhile_dropWhile]
  induction digits with
  | nil =>
    cases rest with
    | nil => rfl
    | cons c rest =>
      have hc : c.isDigit = false := hrest c rfl
      rw [List.nil_append, List.takeWhile_cons_of_neg (by simp [hc]), List.dropWhile_cons_of_neg (by simp [hc])]
  | cons d digits ih =>
    have hd : d.isDigit = true := hdigits d List.mem_cons_self
    have hrec := Prod.mk.inj (ih fun c hc => hdigits c (List.mem_cons_of_mem d hc))
    rw [List.cons_append, List.takeWhile_cons_of_pos hd, List.dropWhile_cons_of_pos hd, hrec.1, hrec.2]

/-! ## Positional text -/

/-- A text is a whole part, and a fraction behind a point if there is one. The digits of both have a value. -/
structure Parts (text whole fraction : List Char) (value : ℚ) : Prop where
  digits : ∀ c ∈ whole ++ fraction, c.isDigit = true
  whole_ne_nil : whole ≠ []
  text_eq : text = whole ++ (if fraction = [] then [] else '.' :: fraction)
  value_eq : (ofDigits (whole ++ fraction) * 10 ^ (-(fraction.length : Int)) : ℚ) = value

theorem isDigit_of_mem_zeros {k : Nat} {c : Char} (h : c ∈ List.replicate k '0') : c.isDigit = true := by
  rw [List.eq_of_mem_replicate h]
  rfl

/-- Zeros behind the digits, and no point. -/
theorem parts_zeros (n : Nat) {exponent : Int} (h : 0 ≤ exponent) :
    Parts (digitChars n ++ List.replicate exponent.toNat '0') (digitChars n ++ List.replicate exponent.toNat '0') []
      (n * 10 ^ exponent) where
  digits := by
    rw [List.append_nil]
    exact List.forall_mem_append.mpr
      ⟨fun c hc => isDigit_of_mem_digitChars hc, fun c hc => isDigit_of_mem_zeros hc⟩
  whole_ne_nil := List.append_ne_nil_of_left_ne_nil digitChars_ne_nil _
  text_eq := by rw [if_pos rfl, List.append_nil]
  value_eq := by
    rw [List.append_nil, ofDigits_append_zeros, ofDigits_digitChars, List.length_nil, Nat.cast_zero, neg_zero,
      zpow_zero, mul_one, Nat.cast_mul, Nat.cast_pow, ← zpow_natCast, Int.toNat_of_nonneg h]
    rfl

/-- A point between the digits. -/
theorem parts_split (n : Nat) {places : Nat} (hplaces : 0 < places) (h : places < (digitChars n).length) :
    Parts ((digitChars n).take ((digitChars n).length - places) ++
        '.' :: (digitChars n).drop ((digitChars n).length - places))
      ((digitChars n).take ((digitChars n).length - places)) ((digitChars n).drop ((digitChars n).length - places))
      (n * 10 ^ (-places : Int)) where
  digits := by
    rw [List.take_append_drop]
    exact fun c hc => isDigit_of_mem_digitChars hc
  whole_ne_nil := by
    rw [Ne, List.take_eq_nil_iff]
    exact not_or.mpr ⟨by omega, digitChars_ne_nil⟩
  text_eq := by
    have hfraction : (digitChars n).drop ((digitChars n).length - places) ≠ [] := by
      rw [Ne, List.drop_eq_nil_iff]
      omega
    rw [if_neg hfraction]
  value_eq := by
    have hlength : ((digitChars n).drop ((digitChars n).length - places)).length = places := by
      rw [List.length_drop]
      omega
    rw [List.take_append_drop, ofDigits_digitChars, hlength]

/-- A point, and zeros in front of the digits. -/
theorem parts_padded (n : Nat) {places : Nat} (h : (digitChars n).length ≤ places) :
    Parts ('0' :: '.' :: (List.replicate (places - (digitChars n).length) '0' ++ digitChars n)) ['0']
      (List.replicate (places - (digitChars n).length) '0' ++ digitChars n) (n * 10 ^ (-places : Int)) where
  digits := by
    rw [← List.append_assoc]
    exact List.forall_mem_append.mpr
      ⟨fun c hc => isDigit_of_mem_zeros (k := places - (digitChars n).length + 1) hc,
        fun c hc => isDigit_of_mem_digitChars hc⟩
  whole_ne_nil := List.cons_ne_nil _ _
  text_eq := by
    rw [if_neg (List.append_ne_nil_of_right_ne_nil _ digitChars_ne_nil)]
    rfl
  value_eq := by
    have hlength : (List.replicate (places - (digitChars n).length) '0' ++ digitChars n).length = places := by
      rw [List.length_append, List.length_replicate]
      omega
    have hone : (['0'] : List Char) = List.replicate 1 '0' := rfl
    rw [hone, ofDigits_zeros, ofDigits_zeros, ofDigits_digitChars, hlength]

/-- **A positional text has two parts** of the value of its numeral. -/
theorem exists_parts (n : Nat) (exponent : Int) :
    ∃ whole fraction, Parts (positional (digitChars n) exponent) whole fraction (n * 10 ^ exponent) := by
  unfold positional
  by_cases hn : digitChars n = ['0']
  · -- zero has one digit, whatever its power of ten
    have hvalue : n = 0 := by
      rw [← ofDigits_digitChars n, hn]
      rfl
    have hzero := parts_zeros 0 (le_refl 0)
    rw [Nat.cast_zero, zero_mul] at hzero
    rw [if_pos hn, hvalue, Nat.cast_zero, zero_mul]
    exact ⟨_, _, hzero⟩
  rw [if_neg hn]
  by_cases hsign : 0 ≤ exponent
  · rw [if_pos hsign]
    exact ⟨_, _, parts_zeros n hsign⟩
  rw [if_neg hsign]
  have hexponent : exponent = -((-exponent).toNat : Int) := by omega
  have hplaces : 0 < (-exponent).toNat := by omega
  generalize (-exponent).toNat = places at hexponent hplaces ⊢
  subst hexponent
  dsimp only
  by_cases hpoint : places < (digitChars n).length
  · rw [if_pos hpoint]
    exact ⟨_, _, parts_split n hplaces hpoint⟩
  · rw [if_neg hpoint]
    exact ⟨_, _, parts_padded n (Nat.not_lt.mp hpoint)⟩

/-! ## Scanning -/

/-- What follows a numeral does not go on with it. -/
def Ends (rest : List Char) : Prop := ∀ c ∈ rest.head?, c.isDigit = false ∧ c ≠ '.' ∧ c ≠ 'e' ∧ c ≠ 'E'

theorem scanExponent?_of_ends {rest : List Char} (h : Ends rest) : scanExponent? rest = some (0, rest) := by
  cases rest with
  | nil => rfl
  | cons c rest =>
    obtain ⟨_, _, he, hE⟩ := h c rfl
    exact if_neg (not_or.mpr ⟨he, hE⟩)

/-- The two parts of a positional text are found in front of what ends it. -/
theorem scanMantissa?_parts {whole fraction rest : List Char} (hdigits : ∀ c ∈ whole ++ fraction, c.isDigit = true)
    (hwhole : whole ≠ []) (hrest : Ends rest) :
    scanMantissa? (whole ++ (if fraction = [] then [] else '.' :: fraction) ++ rest)
      = some (whole, fraction, rest) := by
  obtain ⟨hw, hf⟩ := List.forall_mem_append.mp hdigits
  have hend : ∀ c ∈ rest.head?, c.isDigit = false := fun c hc => (hrest c hc).1
  obtain ⟨d, whole, rfl⟩ := List.exists_cons_of_ne_nil hwhole
  unfold scanMantissa?
  by_cases hfraction : fraction = []
  · -- no point may be found behind the whole part
    rw [if_pos hfraction, List.append_nil, spanDigits_append hw hend, hfraction]
    cases rest with
    | nil => rfl
    | cons c rest =>
      have hpoint : c ≠ '.' := (hrest c rfl).2.1
      split
      · rename_i heq
        cases heq
      · rename_i heq
        cases heq
      · rename_i heq
        exact absurd (List.cons.inj (Prod.mk.inj heq).2).1 hpoint
      · rename_i heq
        obtain ⟨rfl, rfl⟩ := Prod.mk.inj heq
        rfl
  · have hpoint : ∀ c ∈ ('.' :: (fraction ++ rest)).head?, c.isDigit = false := by
      intro c hc
      obtain rfl := Option.mem_some_iff.mp hc
      rfl
    have htext : d :: whole ++ '.' :: fraction ++ rest = (d :: whole) ++ '.' :: (fraction ++ rest) :=
      List.append_assoc (d :: whole) ('.' :: fraction) rest
    rw [if_neg hfraction, htext, spanDigits_append hw hpoint]
    simp only [spanDigits_append hf hend]

/-- A text that starts with a digit has no sign. -/
theorem scanSign_of_isDigit {c : Char} {cs : List Char} (h : c.isDigit = true) :
    scanSign (c :: cs) = (false, c :: cs) := by
  unfold scanSign
  split
  · rename_i heq
    rw [(List.cons.inj heq).1] at h
    exact absurd h (by decide)
  · rename_i heq
    rw [(List.cons.inj heq).1] at h
    exact absurd h (by decide)
  · rfl

/-- The parts of a decimal without a power of ten, behind its sign. -/
theorem scan?_of_parts {cs unsigned whole fraction rest : List Char} {negative : Bool}
    (hsign : scanSign cs = (negative, unsigned)) (hparts : scanMantissa? unsigned = some (whole, fraction, rest))
    (hrest : Ends rest) :
    scan? cs = some (.finite negative (ofDigits (whole ++ fraction)) (-fraction.length), rest) := by
  unfold scan?
  rw [hsign]
  simp only [hparts, scanExponent?_of_ends hrest]
  rw [Int.zero_sub]

/-- **A numeral is scanned back** from its text, in front of anything that does not go on with it. -/
theorem scan?_chars {n : Numeral} {rest : List Char} (hn : n ≠ .infinite true) (hrest : Ends rest) :
    ∃ n', scan? (n.chars ++ rest) = some (n', rest) ∧ n.Same n' := by
  cases n with
  | notANumber => exact ⟨.notANumber, rfl, .notANumber⟩
  | infinite negative =>
    cases negative with
    | true => exact absurd rfl hn
    | false => exact ⟨.infinite false, rfl, .infinite false⟩
  | finite negative digits exponent =>
    obtain ⟨whole, fraction, hdigits, hwhole, htext, hvalue⟩ := exists_parts digits exponent
    have hparts := scanMantissa?_parts hdigits hwhole hrest
    refine ⟨.finite negative (ofDigits (whole ++ fraction)) (-fraction.length), ?_, .finite negative hvalue.symm⟩
    have hchars : (finite negative digits exponent).chars
        = if negative then '-' :: positional (digitChars digits) exponent
          else positional (digitChars digits) exponent := rfl
    rw [hchars, htext]
    cases negative with
    | true => exact scan?_of_parts rfl hparts hrest
    | false =>
      obtain ⟨d, whole, rfl⟩ := List.exists_cons_of_ne_nil hwhole
      exact scan?_of_parts (scanSign_of_isDigit (hdigits d List.mem_cons_self)) hparts hrest

/-- Negative infinity is written with a sign that is not read before a word. -/
theorem scan?_negative_infinity (rest : List Char) : scan? ((infinite true).chars ++ rest) = none := rfl

/-- No text is scanned as negative infinity. -/
theorem ne_of_scan? {cs rest : List Char} {n : Numeral} (h : scan? cs = some (n, rest)) : n ≠ .infinite true := by
  rintro rfl
  unfold scan? at h
  dsimp only at h
  split at h
  · split at h <;> cases h
  · split at h
    · cases h
    · split at h <;> cases h

/-! ## Characters -/

/-- A character from `+` to `z`. All those of numerals are, while white space and number signs are not. -/
def IsNumeralChar (c : Char) : Prop := '+'.toNat ≤ c.toNat ∧ c.toNat ≤ 'z'.toNat

instance : DecidablePred IsNumeralChar := fun _ => inferInstanceAs (Decidable (_ ∧ _))

theorem isNumeralChar_of_isDigit {c : Char} (h : c.isDigit = true) : IsNumeralChar c := by
  obtain ⟨hlow, hhigh⟩ := Char.isDigit_iff_toNat.mp h
  exact ⟨Nat.le_trans (by decide) hlow, Nat.le_trans hhigh (by decide)⟩

theorem isNumeralChar_of_toLower {c : Char} (h : IsNumeralChar c.toLower) : IsNumeralChar c := by
  unfold Char.toLower at h
  split at h
  · rename_i hupper
    exact ⟨Nat.le_trans (by decide) (UInt32.le_iff_toNat_le.mp hupper.1),
      Nat.le_trans (UInt32.le_iff_toNat_le.mp hupper.2) (by decide)⟩
  · exact h

/-- The characters of a numeral. -/
theorem isNumeralChar_of_mem_chars {n : Numeral} {c : Char} (h : c ∈ n.chars) : IsNumeralChar c := by
  have hword : ∀ c ∈ ['N', 'a', 'N'] ++ ['-', 'i', 'n', 'f'], IsNumeralChar c := by simp [IsNumeralChar]
  cases n with
  | notANumber => exact hword c (List.mem_append_left _ h)
  | infinite negative =>
    refine hword c (List.mem_append_right _ ?_)
    cases negative with
    | true => exact h
    | false => exact List.mem_cons_of_mem _ h
  | finite negative digits exponent =>
    obtain ⟨whole, fraction, hdigits, _, htext, _⟩ := exists_parts digits exponent
    have hpositional : ∀ c ∈ positional (digitChars digits) exponent, IsNumeralChar c := by
      intro c hc
      have hchar : c.isDigit = true ∨ c = '.' := by
        rw [htext] at hc
        rcases List.mem_append.mp hc with hc | hc
        · exact .inl (hdigits c (List.mem_append_left _ hc))
        · split at hc
          · cases hc
          · exact (List.mem_cons.mp hc).symm.imp_left fun hc => hdigits c (List.mem_append_right _ hc)
      rcases hchar with hdigit | rfl
      · exact isNumeralChar_of_isDigit hdigit
      · decide
    cases negative with
    | true =>
      rcases List.mem_cons.mp h with rfl | h
      · decide
      · exact hpositional c h
    | false => exact hpositional c h

theorem scanWord?_cons_eq_none {w c : Char} (word cs : List Char) (h : c.toLower ≠ w) :
    scanWord? (w :: word) (c :: cs) = none := if_neg fun heq => h (List.cons.inj heq).1

/-- No numeral starts with another character. -/
theorem scan?_cons_eq_none {c : Char} (hc : ¬ IsNumeralChar c) (rest : List Char) : scan? (c :: rest) = none := by
  have hother : ∀ d, IsNumeralChar d → c ≠ d := fun d hd heq => hc (heq ▸ hd)
  have hsign : scanSign (c :: rest) = (false, c :: rest) := by
    unfold scanSign
    split
    · rename_i heq
      exact absurd (List.cons.inj heq).1 (hother '-' (by decide))
    · rename_i heq
      exact absurd (List.cons.inj heq).1 (hother '+' (by decide))
    · rfl
  have hspan : spanDigits (c :: rest) = ([], c :: rest) := by
    refine spanDigits_append (List.forall_mem_nil _) fun d hd => ?_
    obtain rfl := Option.mem_some_iff.mp hd
    exact Bool.eq_false_iff.mpr fun hdigit => hc (isNumeralChar_of_isDigit hdigit)
  have hmantissa : scanMantissa? (c :: rest) = none := by
    unfold scanMantissa?
    rw [hspan]
    split
    · rename_i heq
      exact absurd (List.cons.inj (Prod.mk.inj heq).2).1 (hother '.' (by decide))
    · rfl
    · rename_i hwhole heq
      exact absurd (Prod.mk.inj heq).1.symm hwhole
    · rename_i hwhole _ heq
      exact absurd (Prod.mk.inj heq).1.symm hwhole
  -- words are read without regard to case
  have hlower : ∀ w, IsNumeralChar w → c.toLower ≠ w := fun w hw heq =>
    hc (isNumeralChar_of_toLower (heq ▸ hw))
  unfold scan?
  rw [hsign]
  simp only [hmantissa]
  rw [scanWord?_cons_eq_none _ _ (hlower 'n' (by decide)), scanWord?_cons_eq_none _ _ (hlower 'i' (by decide))]

/-- A text starts with a character of a numeral if one is scanned. -/
theorem exists_cons_of_scan? {cs : List Char} {r : Numeral × List Char} (h : scan? cs = some r) :
    ∃ c rest, cs = c :: rest ∧ IsNumeralChar c := by
  cases cs with
  | nil => cases h
  | cons c rest =>
    refine ⟨c, rest, rfl, ?_⟩
    by_contra hc
    rw [scan?_cons_eq_none hc] at h
    cases h

end Numeral

end StereoMapping
