import StereoMapping.Error
import StereoMapping.Geometry.Vector
import StereoMapping.Image.Gradient

/-!
# `Image.Corner` — corners as peaks of a response

The products of the gradients are summed over a 3x3 window; with `a`, `b` the sums of squares and `c` the sum
of mixed products, the response is `a b - c² - k (a + b)²`. A corner is a peak of the response above a
threshold, and the strongest ones are kept.

## Contents
- `CornerSettings` and its check.
- `Corner.response`, `Corner.isPeak`, `Corner.peaks`, `Corner.detect`.
-/

namespace StereoMapping

variable {S : Type} [Scalar S]

/-- Settings of the corner detector. -/
structure CornerSettings (S : Type) where
  /-- Weight `k` of the squared trace, usually between 0.04 and 0.06. -/
  sensitivity : S
  /-- A corner has a response above this. -/
  threshold : S
  /-- Corners kept at most. -/
  limit : Nat

namespace CornerSettings

def default : CornerSettings S where
  sensitivity := Scalar.ofNumeral (.finite false 4 (-2))
  threshold := Scalar.ofNat 1000000
  limit := 500

instance : Inhabited (CornerSettings S) := ⟨default⟩

def validate (s : CornerSettings S) : Except Error Unit :=
  if !(Scalar.lt 0 s.sensitivity && Scalar.lt s.sensitivity (1 / Scalar.ofNat 4)) then
    throw (.invalidConfiguration (.cornerSensitivityOutOfRange (Scalar.numeral s.sensitivity)))
  else if !(Scalar.isFinite s.threshold) then
    throw (.invalidConfiguration .cornerThresholdNotFinite)
  else pure ()

end CornerSettings

/-- A corner, at a row and a column. -/
structure Corner (S : Type) where
  row : Nat
  col : Nat
  /-- Response there. -/
  strength : S

namespace Corner

/-- Position in the image. -/
def point (c : Corner S) : Vec2 S := ⟨Scalar.ofNat c.col, Scalar.ofNat c.row⟩

/-- Product of two grids, cell by cell, where both have one. -/
def product (f g : Grid S) : Grid S :=
  Grid.ofFn f.rows f.cols fun i j hi hj =>
    match g.get? i j with
    | some b => f.get i j hi hj * b
    | none => 0

/-- Response at each pixel. -/
def response (k : S) (image : Grid UInt8) : Grid S :=
  let gx : Grid S := Gradient.horizontal image
  let gy : Grid S := Gradient.vertical image
  let sxx := Gradient.boxSum (product gx gx)
  let syy := Gradient.boxSum (product gy gy)
  let sxy := Gradient.boxSum (product gx gy)
  Grid.ofFn image.rows image.cols fun i j hi hj =>
    let a := sxx.get i j hi hj
    let b := syy.get i j hi hj
    let c := sxy.get i j hi hj
    let trace := a + b
    a * b - c * c - k * trace * trace

/-- The eight places around the centre of a window. -/
def ring : List (Third × Third) :=
  [(.first, .first), (.first, .middle), (.first, .last), (.middle, .first),
   (.middle, .last), (.last, .first), (.last, .middle), (.last, .last)]

/-- Whether a place of the window comes before its centre, row by row. -/
def isBefore : Third → Third → Bool
  | .first, _ => true
  | .middle, .first => true
  | _, _ => false

/-- No neighbour is higher, and no earlier neighbour is as high: of a plateau, the first pixel wins. -/
def isPeak (g : Grid S) {i j : Nat} (h : g.Interior i j) : Bool :=
  let here := g.window h .middle .middle
  ring.all fun (row, col) =>
    let other := g.window h row col
    !(Scalar.lt here other || (isBefore row col && Scalar.eq other here))

/-- Pixels on the border whose windows or gradients leave the image. -/
def border : Nat := 2

/-- The corner at a pixel, if the response has a peak above the threshold there. -/
def at? (threshold : S) (g : Grid S) (i j : Nat) : Option (Corner S) :=
  if h : g.Interior i j then
    let r := g.window h .middle .middle
    if Scalar.lt threshold r && isPeak g h then some ⟨i, j, r⟩ else none
  else none

/-- Peaks above the threshold away from the border, row by row. -/
def peaks (threshold : S) (g : Grid S) : List (Corner S) :=
  (List.range' border (g.rows - 2 * border)).flatMap fun i =>
    (List.range' border (g.cols - 2 * border)).filterMap fun j => at? threshold g i j

/-- The strongest corners of an image; those of one response stay in the order of their pixels. -/
def detect (settings : CornerSettings S) (image : Grid UInt8) : List (Corner S) :=
  let found := peaks settings.threshold (response settings.sensitivity image)
  (found.mergeSort fun a b => !(Scalar.lt a.strength b.strength)).take settings.limit

end Corner

end StereoMapping
