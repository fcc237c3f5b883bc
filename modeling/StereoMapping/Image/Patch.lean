import StereoMapping.Error
import StereoMapping.Geometry.Vector
import StereoMapping.Image.Gradient

/-!
# `Image.Patch` — the normalised square of intensities around a point

The patch of half size `h` has `2 h + 1` pixels on a side and is centred on the pixel nearest to the point. Its
intensities, row by row, are shifted to mean zero and scaled to norm one; a flat patch is only shifted.
-/

namespace StereoMapping

variable {S : Type} [Scalar S]

/-- Settings of the patch description. -/
structure PatchSettings where
  /-- A patch has `2 * halfSize + 1` pixels on a side. -/
  halfSize : Nat
  deriving DecidableEq

namespace PatchSettings

def default : PatchSettings := ⟨3⟩

instance : Inhabited PatchSettings := ⟨default⟩

/-- Components of a description, counted in words of 64 bits. -/
def descriptionSize (s : PatchSettings) : Nat :=
  let side : UInt64 := 2 * s.halfSize.toUInt64 + 1
  (side * side).toNat

end PatchSettings

namespace Patch

/-- Row and column of the pixel nearest to a point, if the patch around it is inside the image. -/
def centre? (image : Grid UInt8) (halfSize : Nat) (p : Vec2 S) : Option (Nat × Nat) :=
  let x := Scalar.round p.x
  let y := Scalar.round p.y
  let h : S := Scalar.ofNat halfSize
  if Scalar.le h x && Scalar.le h y && Scalar.lt (x + h) (Scalar.ofNat image.cols)
      && Scalar.lt (y + h) (Scalar.ofNat image.rows) then
    some (Scalar.truncate y, Scalar.truncate x)
  else none

/-- Intensities of the square from `top` and `left`, row by row. -/
def square (image : Grid UInt8) (top left side : Nat) (hrows : top + side ≤ image.rows)
    (hcols : left + side ≤ image.cols) : List S :=
  (List.finRange side).flatMap fun (i : Fin side) => (List.finRange side).map fun (j : Fin side) =>
    level (image.get (top + i) (left + j) (by omega) (by omega))

/-- The values shifted to mean zero, then divided by their norm unless it is negligible. -/
def normalize (values : List S) : List S :=
  let mean := Scalar.sum values / Scalar.ofNat values.length
  let centred := values.map (· - mean)
  let norm := Scalar.sqrt (Scalar.sum (centred.map fun v => v * v))
  if Scalar.lt Scalar.epsilon norm then centred.map (· / norm) else centred

/-- The square of a half size around a pixel is inside the image. -/
structure Fits (image : Grid UInt8) (halfSize row col : Nat) : Prop where
  top : halfSize ≤ row
  left : halfSize ≤ col
  bottom : row + halfSize < image.rows
  right : col + halfSize < image.cols

instance (image : Grid UInt8) (halfSize row col : Nat) : Decidable (Fits image halfSize row col) :=
  decidable_of_iff
    (halfSize ≤ row ∧ halfSize ≤ col ∧ row + halfSize < image.rows ∧ col + halfSize < image.cols)
    ⟨fun ⟨a, b, c, d⟩ => ⟨a, b, c, d⟩, fun ⟨a, b, c, d⟩ => ⟨a, b, c, d⟩⟩

theorem Fits.rows_le {image : Grid UInt8} {halfSize row col : Nat} (h : Fits image halfSize row col) :
    row - halfSize + (2 * halfSize + 1) ≤ image.rows := by
  have ht := h.top
  have hb := h.bottom
  omega

theorem Fits.cols_le {image : Grid UInt8} {halfSize row col : Nat} (h : Fits image halfSize row col) :
    col - halfSize + (2 * halfSize + 1) ≤ image.cols := by
  have hl := h.left
  have hr := h.right
  omega

/-- Description of the patch around a point, if the patch is inside the image. -/
def describe? (image : Grid UInt8) (halfSize : Nat) (p : Vec2 S) : Option (List S) := do
  let (row, col) ← centre? image halfSize p
  if h : Fits image halfSize row col then
    some (normalize (square image (row - halfSize) (col - halfSize) (2 * halfSize + 1) h.rows_le h.cols_le))
  else none

@[simp] theorem length_square {image : Grid UInt8} {top left side : Nat}
    {hrows : top + side ≤ image.rows} {hcols : left + side ≤ image.cols} :
    (square image top left side hrows hcols : List S).length = side * side := by
  simp [square, List.map_const']

@[simp] theorem length_normalize {values : List S} : (normalize values).length = values.length := by
  simp only [normalize]
  split <;> simp

/-- A description has one component for each pixel of the patch. -/
theorem length_of_describe? {image : Grid UInt8} {halfSize : Nat} {p : Vec2 S} {values : List S}
    (h : describe? image halfSize p = some values) :
    values.length = (2 * halfSize + 1) * (2 * halfSize + 1) := by
  simp only [describe?, Option.bind_eq_bind, Option.bind_eq_some_iff] at h
  obtain ⟨c, _, h⟩ := h
  split at h
  · obtain rfl := Option.some.inj h
    simp
  · simp at h

end Patch

end StereoMapping
