import StereoMapping.Number.Binary

/-!
# `Number.Numeral` — decimal numerals: the shortest text of a number, and the number nearest to a text

## Contents
- `Numeral`: a sign, digits and a power of ten, or a special value.
- `Numeral.render`: positional text, never an exponent and never a needless point.
- `Shape.numeral`: the shortest decimal that reads back. On each decimal grid, coarsest first, the two
  grid points around the value are tried; the first that lies in the set of reals rounding to the
  value wins, the nearer of two, and the upper one on an exact tie.
- `Format.ofDecimal`: pattern of the binary number nearest to `digits * 10 ^ exponent`.
- `Numeral.scan`: the decimal grammar of text files.
-/

namespace StereoMapping

/-- A decimal numeral. The finite ones are `±digits * 10 ^ exponent`. -/
inductive Numeral where
  | notANumber
  | infinite (negative : Bool)
  | finite (negative : Bool) (digits : Nat) (exponent : Int)
  deriving DecidableEq

namespace Numeral

/-- Decimal digits of a natural number, most significant first. -/
def digitChars (n : Nat) : List Char := Nat.toDigits 10 n

/-- Positional text of `digits * 10 ^ exponent`. -/
def positional (digits : List Char) (exponent : Int) : List Char :=
  if digits = ['0'] then ['0']
  else if 0 ≤ exponent then digits ++ List.replicate exponent.toNat '0'
  else
    let places := (-exponent).toNat
    if places < digits.length then
      digits.take (digits.length - places) ++ '.' :: digits.drop (digits.length - places)
    else '0' :: '.' :: (List.replicate (places - digits.length) '0' ++ digits)

/-- Characters of a numeral. -/
def chars : Numeral → List Char
  | notANumber => ['N', 'a', 'N']
  | infinite negative => if negative then ['-', 'i', 'n', 'f'] else ['i', 'n', 'f']
  | finite negative digits exponent =>
    let text := positional (digitChars digits) exponent
    if negative then '-' :: text else text

/-- Text of a numeral. -/
def render (n : Numeral) : String := String.ofList n.chars

end Numeral

/-! ## The shortest numeral -/

/-- The reals that round to one finite number, in units of `2 ^ (exponent - 2)`, and the number itself. -/
structure Neighbourhood where
  lower : Nat
  value : Nat
  upper : Nat
  /-- Whether the two ends belong: they do for an even significand, since ties round to even. -/
  closed : Bool

/-- Neighbourhood of `m * 2 ^ e`. Below a power of two the numbers are twice as dense. -/
def Format.neighbourhood (f : Format) (m : Nat) (e : Int) : Neighbourhood where
  lower := if m = 1 <<< (f.precision - 1) ∧ f.least < e then 4 * m - 1 else 4 * m - 2
  value := 4 * m
  upper := 4 * m + 2
  closed := m % 2 == 0

/-- Best multiple of `10 ^ k` in a neighbourhood whose unit is `2 ^ u`, if there is one. -/
def Neighbourhood.onGrid? (n : Neighbourhood) (u k : Int) : Option Nat :=
  let unit := Nat.pow 10 (-k).toNat <<< u.toNat
  let grid := Nat.pow 10 k.toNat <<< (-u).toNat
  let value := n.value * unit
  let inside (c : Nat) : Bool :=
    if n.closed then n.lower * unit ≤ c * grid && c * grid ≤ n.upper * unit
    else n.lower * unit < c * grid && c * grid < n.upper * unit
  let down := value / grid
  let up := down + 1
  match inside down, inside up with
  | true, true => if value - down * grid < up * grid - value then some down else some up
  | true, false => some down
  | false, true => some up
  | false, false => none

/-- Digits and power of ten of the shortest decimal that rounds to `m * 2 ^ e`. -/
def Format.shortest (f : Format) (m : Nat) (e : Int) : Nat × Int :=
  let n := f.neighbourhood m e
  let start : Int := (m.log2 + e) * 30103 / 100000 + 1
  let found := (List.range 24).findSome? fun (i : Nat) =>
    (n.onGrid? (e - 2) (start - i)).map fun digits => (digits, start - i)
  found.getD (m <<< e.toNat * Nat.pow 5 (-e).toNat, min e 0)

/-- Shortest numeral of a value of a format. -/
def Format.numeral (f : Format) : Shape → Numeral
  | .notANumber => .notANumber
  | .infinite negative => .infinite negative
  | .finite negative m e =>
    if m = 0 then .finite negative 0 0
    else
      let (digits, exponent) := f.shortest m e
      .finite negative digits exponent

/-- Shortest numeral of a 64-bit number. -/
def numeral64 (x : Float) : Numeral := Format.double.numeral (shape64 x)

/-- Shortest numeral of a 32-bit number. -/
def numeral32 (x : Float32) : Numeral := Format.single.numeral (shape32 x)

/-! ## The nearest number -/

/-- Pattern nearest to `digits * 10 ^ exponent`. Powers of ten far outside every format are settled
without being computed. -/
def Format.ofDecimal (f : Format) (digits : Nat) (exponent : Int) : Nat :=
  if digits = 0 then 0
  else if 400 < exponent then f.infinity
  else if exponent + digits.log2 < -400 then 0
  else if 0 ≤ exponent then f.roundRatio (digits * Nat.pow 10 exponent.toNat) 1
  else f.roundRatio digits (Nat.pow 10 (-exponent).toNat)

/-- The 64-bit number nearest to a numeral. -/
def Numeral.toFloat : Numeral → Float
  | .notANumber => nan64
  | .infinite negative => float64 negative Format.double.infinity
  | .finite negative digits exponent => float64 negative (Format.double.ofDecimal digits exponent)

/-! ## The grammar of numerals in text files -/

namespace Numeral

/-- Value of a list of decimal digits. -/
def ofDigits (cs : List Char) : Nat := cs.foldl (fun n c => 10 * n + (c.toNat - '0'.toNat)) 0

/-- Longest run of decimal digits at the front, and what follows it. -/
def spanDigits (cs : List Char) : List Char × List Char := cs.span Char.isDigit

/-- An optional sign. -/
def scanSign : List Char → Bool × List Char
  | '-' :: rest => (true, rest)
  | '+' :: rest => (false, rest)
  | cs => (false, cs)

/-- Digits with an optional point among, after or before them, at least one digit in all:
the whole part, the fractional part, and the rest. -/
def scanMantissa? (cs : List Char) : Option (List Char × List Char × List Char) :=
  match spanDigits cs with
  | ([], '.' :: rest) =>
    match spanDigits rest with
    | ([], _) => none
    | (fraction, rest) => some ([], fraction, rest)
  | ([], _) => none
  | (whole, '.' :: rest) =>
    let (fraction, rest) := spanDigits rest
    some (whole, fraction, rest)
  | (whole, rest) => some (whole, [], rest)

/-- An optional power of ten. An exponent mark without digits is an error. -/
def scanExponent? (cs : List Char) : Option (Int × List Char) :=
  match cs with
  | [] => some (0, [])
  | c :: rest =>
    if c = 'e' ∨ c = 'E' then
      let (negative, rest) := scanSign rest
      match spanDigits rest with
      | ([], _) => none
      | (digits, rest) =>
        let n : Int := ofDigits digits
        some (if negative then -n else n, rest)
    else some (0, cs)

/-- Whether the text starts with a lower-case word, in any case, and what follows it. -/
def scanWord? (word : List Char) (cs : List Char) : Option (List Char) :=
  if (cs.take word.length).map Char.toLower = word then some (cs.drop word.length) else none

/-- A numeral at the front of a text: a signed decimal, or one of the unsigned words `nan` and `inf`. -/
def scan? (cs : List Char) : Option (Numeral × List Char) :=
  let (negative, unsigned) := scanSign cs
  match scanMantissa? unsigned with
  | some (whole, fraction, rest) =>
    match scanExponent? rest with
    | some (exponent, rest) =>
      some (.finite negative (ofDigits (whole ++ fraction)) (exponent - fraction.length), rest)
    | none => none
  | none =>
    match scanWord? ['n', 'a', 'n'] cs with
    | some rest => some (.notANumber, rest)
    | none =>
      match scanWord? ['i', 'n', 'f'] cs with
      | some rest => some (.infinite false, rest)
      | none => none

end Numeral

end StereoMapping
