import StereoMapping.Camera.Rig
import StereoMapping.Cloud.Basic
import StereoMapping.Image.Gradient

/-!
# `Image.Disparity` — block matching along the rows of a rectified pair

The block around a left pixel is compared with the blocks of the right image at every disparity of the
range, by the sum of absolute differences. The first least cost wins, unless some disparity more than one
away costs about as little; a parabola through the neighbouring costs gives the fraction.

Costs are kept in words: `disparityGrid?` takes the reduction of a sum to a word as an argument, so that
the same definition can be read with words of unbounded size.

## Contents
- `StereoSettings` and its check.
- `Disparity.blockCost?`, `Disparity.best?`, `Disparity.at?`, `disparityGrid?`.
- `cloudOfDisparities`, `stereoPoints`: one point for each left pixel.
-/

namespace StereoMapping

variable {S : Type} [Scalar S]

/-- Settings of the block matching. -/
structure StereoSettings (S : Type) where
  rig : StereoRig S
  /-- A block has `2 * blockHalfSize + 1` pixels on a side. -/
  blockHalfSize : Nat
  /-- Least disparity tried. -/
  least : Nat
  /-- Largest disparity tried. -/
  largest : Nat
  /-- The best cost is below this share of every cost more than one disparity away. -/
  uniqueness : S

namespace StereoSettings

def default : StereoSettings S where
  rig := .default
  blockHalfSize := 3
  least := 1
  largest := 64
  uniqueness := Scalar.ofNumeral (.finite false 9 (-1))

instance : Inhabited (StereoSettings S) := ⟨default⟩

def validate (s : StereoSettings S) : Except Error Unit := do
  s.rig.validate
  if s.least = 0 ∨ s.largest < s.least then
    throw (.invalidConfiguration (.disparityRangeEmpty s.least s.largest))
  if !(Scalar.lt 0 s.uniqueness && Scalar.le s.uniqueness 1) then
    throw (.invalidConfiguration (.uniquenessOutOfRange (Scalar.numeral s.uniqueness)))

end StereoSettings

namespace Disparity

/-- Difference of two intensities, without sign. -/
def gap (a b : UInt8) : Nat := (a.toNat - b.toNat) + (b.toNat - a.toNat)

/-- Differences between the left block around `(i, j)` and the right block `d` columns further left, row
after row. There are none if a pixel is outside an image. -/
def blockGaps? (left right : Grid UInt8) (h i j d : Nat) : Option (List Nat) :=
  (List.range (2 * h + 1)).mapM (fun di => (List.range (2 * h + 1)).mapM fun dj => do
    let l ← left.get? (i + di - h) (j + dj - h)
    let r ← right.get? (i + di - h) (j + dj - h - d)
    return gap l r) |>.map List.flatten

/-- Sum of absolute differences of the two blocks. -/
def blockCost? (left right : Grid UInt8) (h i j d : Nat) : Option Nat :=
  (blockGaps? left right h i j d).map fun gaps => gaps.foldl (· + ·) 0

/-- Position and value of the first least cost. -/
def least? : List Nat → Option (Nat × Nat)
  | [] => none
  | c :: rest =>
    match least? rest with
    | none => some (0, c)
    | some (k, b) => if b < c then some (k + 1, b) else some (0, c)

/-- Whether two positions of a list are more than one apart. -/
def areFar (i j : Nat) : Bool := i + 1 < j || j + 1 < i

/-- Whether some cost away from the best is not large enough for the best to be unique. -/
def isAmbiguous (uniqueness : S) (costs : List Nat) (best cost : Nat) : Bool :=
  costs.zipIdx.any fun (c, k) =>
    areFar k best && Scalar.le (uniqueness * Scalar.ofNat c) (Scalar.ofNat cost)

/-- Abscissa of the vertex of the parabola with these values at -1, 0 and 1; zero if it has none below. -/
def vertex (c0 c1 c2 : S) : S :=
  let curvature := c0 - Scalar.two * c1 + c2
  if Scalar.lt 0 curvature then (c0 - c2) / (Scalar.two * curvature) else 0

/-- Position of the best cost, with its fraction, if it is unique enough. At an end of the list there is
no fraction. -/
def best? (uniqueness : S) (costs : List Nat) : Option S :=
  match least? costs with
  | none => none
  | some (best, cost) =>
    if isAmbiguous uniqueness costs best cost then none
    else
      match best, costs[best - 1]?, costs[best + 1]? with
      | 0, _, _ => some (Scalar.ofNat best)
      | _, some before, some after =>
        some (Scalar.ofNat best
          + vertex (Scalar.ofNat before) (Scalar.ofNat cost) (Scalar.ofNat after))
      | _, _, _ => some (Scalar.ofNat best)

/-- Whether the block around a left pixel and all the blocks it is compared with can be inside. -/
def isSearched (settings : StereoSettings S) (rows cols i j : Nat) : Bool :=
  let h := settings.blockHalfSize
  h ≤ i && i + h < rows && h + settings.largest ≤ j && j + h < cols

/-- Costs of the disparities of the range, as words. -/
def costs? (word : Nat → Nat) (settings : StereoSettings S) (left right : Grid UInt8) (i j : Nat) :
    Option (List Nat) :=
  (List.range' settings.least (settings.largest + 1 - settings.least)).mapM fun d =>
    (blockCost? left right settings.blockHalfSize i j d).map word

/-- Disparity of a left pixel, a non-number where there is none. The outer option is empty if a pixel
outside an image would be needed. -/
def at? (word : Nat → Nat) (settings : StereoSettings S) (left right : Grid UInt8) (i j : Nat) :
    Option S :=
  if isSearched settings left.rows left.cols i j then
    (costs? word settings left right i j).map fun costs =>
      match best? settings.uniqueness costs with
      | some d => Scalar.ofNat settings.least + d
      | none => Scalar.nan
  else some Scalar.nan

/-- Reduction of a sum to 32 bits. -/
def word32 (n : Nat) : Nat := n % 0x100000000

end Disparity

/-- Disparity of each left pixel, a non-number where there is none. There is no grid if a pixel outside
the right image would be needed. -/
def disparityGrid? (word : Nat → Nat) (settings : StereoSettings S) (left right : Grid UInt8) :
    Option (Grid S) :=
  (Grid.ofFn left.rows left.cols fun i j _ _ => Disparity.at? word settings left right i j).sequence?

/-- One point for each left pixel, row by row, invalid where there is no positive disparity. -/
def cloudOfDisparities (rig : StereoRig S) (g : Grid S) : Array (Vec3 S) :=
  (List.range g.rows).toArray.flatMap fun i => (List.range g.cols).toArray.map fun j =>
    match g.get? i j with
    | some d => (rig.point? ⟨Scalar.ofNat j, Scalar.ofNat i⟩ d).getD .invalid
    | none => .invalid

/-- Points of a rectified pair of images. There are none if an image has no intensities or the two differ
in shape. -/
def stereoPoints (settings : StereoSettings S) (left right : Option (Grid UInt8)) : Array (Vec3 S) :=
  match left, right with
  | some l, some r =>
    if l.rows = r.rows ∧ l.cols = r.cols then
      match disparityGrid? Disparity.word32 settings l r with
      | some g => cloudOfDisparities settings.rig g
      | none => #[]
    else #[]
  | _, _ => #[]

end StereoMapping
