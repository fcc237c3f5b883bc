import StereoMapping.Number.Numeral

/-!
# `Settings.Token` — the tokens of a JSON text

## Contents
- `Token`, `Token.scan?` for one token, `Token.scanAll?` for a text.
- `StringUnits.decode?`: the text of a string with escapes.

A string is kept as the units that were written, characters or escaped 16-bit units. Whether the escapes make
up a text is asked only where the text is needed: in a value that nobody reads, they need not.
-/

namespace StereoMapping

/-- What was written between two quotes: code points, and 16-bit units from escapes. -/
abbrev StringUnits := List Nat

namespace StringUnits

/-- Whether a unit is the first half of a pair. -/
def isHigh (n : Nat) : Bool := 0xd800 ≤ n && n < 0xdc00

/-- Whether a unit is the second half of a pair. -/
def isLow (n : Nat) : Bool := 0xdc00 ≤ n && n < 0xe000

/-- The text of some units. A half of a pair on its own is no text. -/
def decode? : StringUnits → Option (List Char)
  | [] => some []
  | n :: rest =>
    if isHigh n then
      match rest with
      | m :: rest =>
        if isLow m then
          (decode? rest).map (Char.ofNat (0x10000 + (n - 0xd800) * 0x400 + (m - 0xdc00)) :: ·)
        else none
      | [] => none
    else if isLow n then none
    else (decode? rest).map (Char.ofNat n :: ·)

end StringUnits

/-- A token of a JSON text. -/
inductive Token where
  | openArray
  | closeArray
  | openObject
  | closeObject
  | comma
  | colon
  | null
  | bool (value : Bool)
  /-- A number, and whether it is written without point and exponent. -/
  | number (value : Numeral) (isWhole : Bool)
  | string (units : StringUnits)
  deriving DecidableEq

namespace Token

/-- White space between tokens. -/
def isBlank (c : Char) : Bool := c == ' ' || c == '\t' || c == '\n' || c == '\r'

/-- Value of a hexadecimal digit. -/
def hexDigit? (c : Char) : Option Nat :=
  if '0' ≤ c ∧ c ≤ '9' then some (c.toNat - '0'.toNat)
  else if 'a' ≤ c ∧ c ≤ 'f' then some (c.toNat - 'a'.toNat + 10)
  else if 'A' ≤ c ∧ c ≤ 'F' then some (c.toNat - 'A'.toNat + 10)
  else none

/-- Four hexadecimal digits. -/
def hexUnit? (a b c d : Char) : Option Nat := do
  return ((((← hexDigit? a) * 16) + (← hexDigit? b)) * 16 + (← hexDigit? c)) * 16 + (← hexDigit? d)

/-- Unit of an escape of one letter. -/
def escapeUnit? : Char → Option Nat
  | '"' => some '"'.toNat
  | '\\' => some '\\'.toNat
  | '/' => some '/'.toNat
  | 'b' => some 8
  | 'f' => some 12
  | 'n' => some '\n'.toNat
  | 'r' => some '\r'.toNat
  | 't' => some '\t'.toNat
  | _ => none

/-- Units up to the closing quote, and what follows it. Control characters must be escaped. -/
def scanString? : List Char → Option (StringUnits × List Char)
  | [] => none
  | '"' :: rest => some ([], rest)
  | '\\' :: 'u' :: a :: b :: c :: d :: rest => do
    let unit ← hexUnit? a b c d
    let (units, rest) ← scanString? rest
    return (unit :: units, rest)
  | '\\' :: e :: rest => do
    let unit ← escapeUnit? e
    let (units, rest) ← scanString? rest
    return (unit :: units, rest)
  | c :: rest =>
    if c.toNat < 0x20 ∨ c = '\\' then none
    else do
      let (units, rest) ← scanString? rest
      return (c.toNat :: units, rest)

/-- A fraction: a point and at least one digit, or nothing. -/
def scanFraction? (cs : List Char) : Option (List Char × List Char) :=
  match cs with
  | '.' :: rest =>
    match Numeral.spanDigits rest with
    | ([], _) => none
    | (digits, rest) => some (digits, rest)
  | _ => some ([], cs)

/-- Whether a number ends where its whole part does. -/
def endsWhole : List Char → Bool
  | '.' :: _ | 'e' :: _ | 'E' :: _ => false
  | _ => true

/-- A number: no leading zeros, no leading plus, digits on both sides of a point. -/
def scanNumber? (cs : List Char) : Option (Token × List Char) := do
  let (negative, unsigned) := match cs with
    | '-' :: rest => (true, rest)
    | _ => (false, cs)
  let (whole, afterWhole) := Numeral.spanDigits unsigned
  if whole.isEmpty ∨ (whole.head? = some '0' ∧ whole.length ≠ 1) then none
  else
    let (fraction, afterFraction) ← scanFraction? afterWhole
    let (exponent, rest) ← Numeral.scanExponent? afterFraction
    return (number
      (.finite negative (Numeral.ofDigits (whole ++ fraction)) (exponent - fraction.length))
      (endsWhole afterWhole), rest)

/-- The token at the front of a text that does not start with white space. -/
def scan? : List Char → Option (Token × List Char)
  | [] => none
  | '[' :: rest => some (openArray, rest)
  | ']' :: rest => some (closeArray, rest)
  | '\x7b' :: rest => some (openObject, rest)
  | '\x7d' :: rest => some (closeObject, rest)
  | ',' :: rest => some (comma, rest)
  | ':' :: rest => some (colon, rest)
  | '"' :: rest => (scanString? rest).map fun (units, rest) => (string units, rest)
  | 'n' :: 'u' :: 'l' :: 'l' :: rest => some (null, rest)
  | 't' :: 'r' :: 'u' :: 'e' :: rest => some (bool true, rest)
  | 'f' :: 'a' :: 'l' :: 's' :: 'e' :: rest => some (bool false, rest)
  | cs => scanNumber? cs

/-- The tokens of a text, given at least as many steps as characters. -/
def scanUpTo? : Nat → List Char → Option (List Token)
  | 0, cs => if cs.isEmpty then some [] else none
  | steps + 1, cs =>
    match cs with
    | [] => some []
    | c :: rest =>
      if isBlank c then scanUpTo? steps rest
      else do
        let (token, rest) ← scan? cs
        return token :: (← scanUpTo? steps rest)

/-- The tokens of a text. -/
def scanAll? (text : String) : Option (List Token) :=
  let cs := text.toList
  scanUpTo? cs.length cs

end Token

end StereoMapping
