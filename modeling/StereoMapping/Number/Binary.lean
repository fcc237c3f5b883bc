/-!
# `Number.Binary` — the two binary floating-point formats and exact rounding into them

Everything the library needs to know about a floating-point number beyond its arithmetic is said here
on exact integers, so that conversions, cell indices and decimal text stay inside the logic.

## Contents
- `Format`: precision, unit exponent and the pattern of infinity; `Format.single`, `Format.double`.
- `Shape`: what a bit pattern stands for (a sign, a whole number and a power of two, or a special value).
- `Format.roundDyadic`, `Format.roundRatio`: the pattern nearest to an exact positive value, ties to
  the even pattern, overflow to infinity.
- Conversions between the two formats, rounding to whole numbers, saturating integer conversion.

A positive value is laid out so that patterns and values have the same order: the pattern of
`s * 2 ^ (least + k)` is `k * 2 ^ (precision - 1) + s`. A carry out of the significand is then the
next exponent, and nothing special happens at the border of the subnormal numbers.
-/

namespace StereoMapping

/-- The largest unsigned number of 64 bits. -/
def largestWord : Nat := 0xffffffffffffffff

/-- A binary interchange format. -/
structure Format where
  /-- Bits of a significand, the hidden one included. -/
  precision : Nat
  /-- Exponent of the least positive value. -/
  least : Int
  /-- Pattern of positive infinity, which bounds the patterns of finite values. -/
  infinity : Nat

/-- Numbers of 32 bits. -/
def Format.single : Format := ⟨24, -149, 0x7f800000⟩

/-- Numbers of 64 bits. -/
def Format.double : Format := ⟨53, -1074, 0x7ff0000000000000⟩

/-- What a bit pattern stands for. A finite value is `±significand * 2 ^ exponent`. -/
inductive Shape where
  | notANumber
  | infinite (negative : Bool)
  | finite (negative : Bool) (significand : Nat) (exponent : Int)
  deriving DecidableEq

namespace Format

/-- Value of an unsigned pattern under a sign. -/
def shape (f : Format) (negative : Bool) (pattern : Nat) : Shape :=
  if f.infinity < pattern then .notANumber
  else if pattern = f.infinity then .infinite negative
  else
    let hidden := 1 <<< (f.precision - 1)
    let biased := pattern / hidden
    let rest := pattern % hidden
    if biased = 0 then .finite negative rest f.least
    else .finite negative (rest + hidden) (f.least + biased - 1)

/-- `m / 2 ^ k` to the nearest whole number, a half to the even one. -/
def shiftToEven (m k : Nat) : Nat :=
  let q := m >>> k
  let rest := m - q <<< k
  let half := 1 <<< (k - 1)
  if k = 0 then m
  else if half < rest ∨ (rest = half ∧ q % 2 = 1) then q + 1 else q

/-- `num / den` to the nearest whole number, a half to the even one. -/
def divideToEven (num den : Nat) : Nat :=
  let q := num / den
  let rest := 2 * (num % den)
  if den < rest ∨ (rest = den ∧ q % 2 = 1) then q + 1 else q

/-- Pattern of `significand * 2 ^ unit`, or of infinity above the largest finite value. -/
def assemble (f : Format) (significand : Nat) (unit : Int) : Nat :=
  min f.infinity ((unit - f.least).toNat <<< (f.precision - 1) + significand)

/-- Pattern nearest to `m * 2 ^ e`. -/
def roundDyadic (f : Format) (m : Nat) (e : Int) : Nat :=
  if m = 0 then 0
  else
    let unit := max f.least (e + m.log2 + 1 - f.precision)
    if f.infinity < (unit - f.least).toNat then f.infinity
    else if unit ≤ e then f.assemble (m <<< (e - unit).toNat) unit
    else f.assemble (shiftToEven m (unit - e).toNat) unit

/-- Exponent of the largest power of two that is at most `num / den`. -/
def floorLog2 (num den : Nat) : Int :=
  let g : Int := (num.log2 : Int) - den.log2
  let reached := if 0 ≤ g then den <<< g.toNat ≤ num else den ≤ num <<< (-g).toNat
  if reached then g else g - 1

/-- Pattern nearest to `num / den`. -/
def roundRatio (f : Format) (num den : Nat) : Nat :=
  if num = 0 then 0
  else
    let unit := max f.least (floorLog2 num den + 1 - f.precision)
    if 0 ≤ unit then f.assemble (divideToEven num (den <<< unit.toNat)) unit
    else f.assemble (divideToEven (num <<< (-unit).toNat) den) unit

end Format

namespace Shape

/-- Whole number nearest to a finite value, a half away from zero. -/
def roundAway (m : Nat) (e : Int) : Nat :=
  if 0 ≤ e then m <<< e.toNat else (m + 1 <<< ((-e).toNat - 1)) >>> (-e).toNat

/-- Largest whole number that is at most the finite value. -/
def floor (negative : Bool) (m : Nat) (e : Int) : Int :=
  if 0 ≤ e then
    if negative then -(m <<< e.toNat : Nat) else (m <<< e.toNat : Nat)
  else
    let down := m >>> (-e).toNat
    if negative then
      if down <<< (-e).toNat = m then -(down : Nat) else -(down + 1 : Nat)
    else (down : Nat)

/-- A whole number brought into the range of 64-bit signed integers. -/
def clampInt64 (i : Int) : Int64 :=
  Int64.ofInt (max Int64.minValue.toInt (min Int64.maxValue.toInt i))

/-- Floor as a signed 64-bit integer: the ends of the range stand for all that lies beyond them,
and a value that is not a number gives zero. -/
def floorInt64 : Shape → Int64
  | .notANumber => 0
  | .infinite negative => if negative then Int64.minValue else Int64.maxValue
  | .finite negative m e =>
    if 64 ≤ e ∧ m ≠ 0 then if negative then Int64.minValue else Int64.maxValue
    else clampInt64 (floor negative m e)

/-- Nearest signed 64-bit integer, a half away from zero, with the same ends as `floorInt64`. -/
def roundInt64 : Shape → Int64
  | .notANumber => 0
  | .infinite negative => if negative then Int64.minValue else Int64.maxValue
  | .finite negative m e =>
    if 64 ≤ e ∧ m ≠ 0 then if negative then Int64.minValue else Int64.maxValue
    else
      let r : Int := roundAway m e
      clampInt64 (if negative then -r else r)

/-- Integer part as an unsigned 64-bit count, zero for negative values. -/
def truncateNat : Shape → Nat
  | .notANumber => 0
  | .infinite negative => if negative then 0 else largestWord
  | .finite negative m e =>
    if negative then 0
    else if 64 ≤ e ∧ m ≠ 0 then largestWord
    else min largestWord (floor false m e).toNat

end Shape

/-! ## Numbers of 64 bits -/

/-- What a 64-bit number stands for. -/
def shape64 (x : Float) : Shape :=
  let bits := x.toBits
  Format.double.shape (bits >>> 63 == 1) (bits &&& 0x7fffffffffffffff).toNat

/-- The 64-bit number of a sign and an unsigned pattern. -/
def float64 (negative : Bool) (pattern : Nat) : Float :=
  Float.ofBits (if negative then pattern.toUInt64 ||| 0x8000000000000000 else pattern.toUInt64)

/-- The 64-bit value that is not a number. -/
def nan64 : Float := Float.ofBits 0x7ff8000000000000

/-- Positive infinity in 64 bits. -/
def infinity64 : Float := Float.ofBits 0x7ff0000000000000

/-- Nearest 64-bit number. -/
def Shape.toFloat : Shape → Float
  | .notANumber => nan64
  | .infinite negative => float64 negative Format.double.infinity
  | .finite negative m e => float64 negative (Format.double.roundDyadic m e)

/-! ## Numbers of 32 bits -/

/-- What a 32-bit number stands for. -/
def shape32 (x : Float32) : Shape :=
  let bits := x.toBits
  Format.single.shape (bits >>> 31 == 1) (bits &&& 0x7fffffff).toNat

/-- The 32-bit number of a sign and an unsigned pattern. -/
def float32 (negative : Bool) (pattern : Nat) : Float32 :=
  Float32.ofBits (if negative then pattern.toUInt32 ||| 0x80000000 else pattern.toUInt32)

/-- The 32-bit value that is not a number. -/
def nan32 : Float32 := Float32.ofBits 0x7fc00000

/-- Positive infinity in 32 bits. -/
def infinity32 : Float32 := Float32.ofBits 0x7f800000

/-- Nearest 32-bit number. -/
def Shape.toFloat32 : Shape → Float32
  | .notANumber => nan32
  | .infinite negative => float32 negative Format.single.infinity
  | .finite negative m e => float32 negative (Format.single.roundDyadic m e)

/-! ## Between the formats -/

/-- The same value in 64 bits. -/
def widenFloat (x : Float32) : Float := (shape32 x).toFloat

/-- The nearest value of 32 bits, a tie to the even pattern. -/
def narrowFloat (x : Float) : Float32 := (shape64 x).toFloat32

/-- Nearest whole number as a 32-bit value, a half away from zero. The sign survives on zero. -/
def roundFloat32 (x : Float32) : Float32 :=
  match shape32 x with
  | .finite negative m e =>
    if 0 ≤ e then x else float32 negative (Format.single.roundDyadic (Shape.roundAway m e) 0)
  | _ => x

/-- Nearest whole number as a 64-bit value, a half away from zero. The sign survives on zero. -/
def roundFloat64 (x : Float) : Float :=
  match shape64 x with
  | .finite negative m e =>
    if 0 ≤ e then x else float64 negative (Format.double.roundDyadic (Shape.roundAway m e) 0)
  | _ => x

end StereoMapping
