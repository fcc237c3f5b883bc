import StereoMapping.Error

/-!
# `Trajectory.Lines` — text files of one record a line

Lines end with a line feed, before which one carriage return does not count. A line of white space is skipped,
a line that starts with `#` is a comment, and any other holds one record, perhaps between blanks. The first
line that holds none is the error of the text.

## Contents
- `splitLines`, `isWhiteSpace`, `isBlankLine`.
- `LineContent`, `lineContent?`: what one line holds.
- `readLines`: the records of a text.
-/

namespace StereoMapping

/-- A line read backwards, without a carriage return at its end. -/
def dropReturn : List Char → List Char
  | '\r' :: rest => rest
  | line => line

/-- Lines of a text, where `started` is the beginning of the first one, backwards. -/
def splitLinesFrom (started : List Char) : List Char → List (List Char)
  | [] => if started.isEmpty then [] else [started.reverse]
  | '\n' :: rest => (dropReturn started).reverse :: splitLinesFrom [] rest
  | c :: rest => splitLinesFrom (c :: started) rest

/-- Lines of a text. -/
def splitLines (text : List Char) : List (List Char) := splitLinesFrom [] text

/-- The characters of the property `White_Space`. -/
def isWhiteSpace (c : Char) : Bool :=
  let n := c.toNat
  (9 ≤ n && n ≤ 13) || n == 0x20 || n == 0x85 || n == 0xa0 || n == 0x1680 || (0x2000 ≤ n && n ≤ 0x200a)
    || n == 0x2028 || n == 0x2029 || n == 0x202f || n == 0x205f || n == 0x3000

/-- Whether a line holds nothing but white space. -/
def isBlankLine (line : List Char) : Bool := line.all isWhiteSpace

/-- A space or a tabulator. -/
def isBlank (c : Char) : Bool := c == ' ' || c == '\t'

/-- A blank or a character of a line end. -/
def isBlankOrEnd (c : Char) : Bool := isBlank c || c == '\r' || c == '\n'

/-- What a line that is not of white space holds. -/
inductive LineContent (α : Type) where
  | comment
  | record (a : α)

/-- What a line holds, given the reader of a record at the front of a text. -/
def lineContent? {α : Type} (read? : List Char → Option (α × List Char)) (line : List Char) :
    Option (LineContent α) :=
  match line.dropWhile isBlank with
  | '#' :: _ => some .comment
  | cs =>
    match read? cs with
    | some (a, rest) => if rest.all isBlankOrEnd then some (.record a) else none
    | none => none

/-- Records of the lines, which are counted from `number`. -/
def readFrom {α : Type} (read? : List Char → Option (α × List Char)) (number : Nat) :
    List (List Char) → Except Error (List α)
  | [] => pure []
  | line :: rest =>
    if isBlankLine line then readFrom read? (number + 1) rest
    else
      match lineContent? read? line with
      | some .comment => readFrom read? (number + 1) rest
      | some (.record a) => do return a :: (← readFrom read? (number + 1) rest)
      | none => throw (.parse number (String.ofList line))

/-- Records of a text. -/
def readLines {α : Type} (read? : List Char → Option (α × List Char)) (text : String) :
    Except Error (List α) :=
  readFrom read? 1 (splitLines text.toList)

end StereoMapping
