import StereoMapping.Image.Intensity

/-!
# `Image.Graymap` — binary portable images

A file starts with `P5` for grey levels or `P6` for colours, then its width, height and largest value, parted by
white space and comments; one blank ends the header and the bytes of the pixels follow, row by row.
-/

namespace StereoMapping

namespace Graymap

/-- White space of a header. -/
def isSpace (b : UInt8) : Bool := b == 32 || (9 ≤ b && b ≤ 13)

/-- A decimal digit. -/
def isDigit (b : UInt8) : Bool := 48 ≤ b && b ≤ 57

/-- The header after white space and comments. -/
def skipSpace : List UInt8 → List UInt8
  | [] => []
  | b :: rest =>
    if isSpace b then skipSpace rest
    else if b == 35 then skipSpace (rest.dropWhile fun c => c != 10)
    else b :: rest
termination_by bytes => bytes.length
decreasing_by
  · simp
  · exact Nat.lt_succ_of_le (List.IsSuffix.length_le (List.dropWhile_suffix _))

/-- A number of the header. -/
def number? (bytes : List UInt8) : Option (Nat × List UInt8) :=
  match (skipSpace bytes).span isDigit with
  | ([], _) => none
  | (digits, rest) => some (digits.foldl (fun n b => 10 * n + (b.toNat - 48)) 0, rest)

/-- Whether the pixels are colours, and what follows the two bytes that tell. -/
def colour? : List UInt8 → Option (Bool × List UInt8)
  | 80 :: 53 :: rest => some (false, rest)
  | 80 :: 54 :: rest => some (true, rest)
  | _ => none

/-- The grey levels of a file with values of one byte. -/
def read? (bytes : List UInt8) : Option Frame := do
  let (colour, rest) ← colour? bytes
  let (width, rest) ← number? rest
  let (height, rest) ← number? rest
  let (largest, rest) ← number? rest
  let needed := width * height * (if colour then 3 else 1)
  match rest with
  | blank :: pixels =>
    if isSpace blank ∧ largest = 255 ∧ needed ≤ pixels.length then
      (Frame.ofImage width.toUInt64 height.toUInt64 colour (pixels.take needed).toArray).toOption
    else none
  | [] => none

end Graymap

end StereoMapping
