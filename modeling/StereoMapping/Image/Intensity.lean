import StereoMapping.Image.Frame
import StereoMapping.Image.Grid

/-!
# `Image.Intensity` — the grey levels of a frame

Detectors and matchers see an image as a grid of 8-bit intensities. `Frame.grayImage` converts a colour
frame; `intensities` is what the built-in components use, which take no interest in why a frame has none, unless it
breaks them off.
-/

namespace StereoMapping

/-- Luminance of a colour, the weights of red, green and blue in ten-thousandths. -/
def luminance (red green blue : UInt8) : UInt8 :=
  ((2126 * red.toNat + 7152 * green.toNat + 722 * blue.toNat) / 10000).toUInt8

/-- How the bytes of an 8-bit pixel give its intensity. -/
inductive IntensityRule where
  | direct
  /-- Luminance of the bytes at these positions of a pixel of so many bytes. -/
  | luminance (channels red green blue : Nat)

namespace Frame

/-- Intensity rule of the layouts that have one. -/
def intensityRule? (f : Frame) : Option IntensityRule :=
  match f.mode, f.depth with
  | .grayscale, .bits8 => some .direct
  | .rgb, .bits8 => some (.luminance 3 0 1 2)
  | .bgr, .bits8 => some (.luminance 3 2 1 0)
  | .rgba, .bits8 => some (.luminance 4 0 1 2)
  | _, _ => none

/-- Intensity of the `k`th pixel of a buffer. -/
def intensityAt (data : Array UInt8) (k : Nat) : IntensityRule → UInt8
  | .direct => data.getD k 0
  | .luminance n r g b =>
    StereoMapping.luminance (data.getD (n * k + r) 0) (data.getD (n * k + g) 0) (data.getD (n * k + b) 0)

/-- Intensities of a frame. Images have 32-bit dimensions. Pixels that begin with blue are turned round one by
one, so each of them has to be complete. -/
def grayImage (f : Frame) : Except Error (Grid UInt8) :=
  match f.intensityRule? with
  | none => throw (.malformedFrame (.noConversion f.mode f.depth))
  | some rule =>
    let rows := f.height.toUInt32.toNat
    let cols := f.width.toUInt32.toNat
    if f.mode = .bgr ∧ f.data.size % 3 ≠ 0 then throw (.breach .indexOutOfRange)
    else if f.data.size < rows * cols * f.mode.channels then throw (.malformedFrame .bufferTooShort)
    else pure (Grid.ofFn rows cols fun i j _ _ => intensityAt f.data (i * cols + j) rule)

/-- The frame of a grid of intensities, both row after row. -/
def ofGrid (g : Grid UInt8) : Except Error Frame :=
  ofGray g.cols.toUInt64 g.rows.toUInt64 g.cells

/-- The frame of an image file, given as its colours or grey levels, row after row. -/
def ofImage (width height : UInt64) (colour : Bool) (data : Array UInt8) : Except Error Frame := do
  if colour then
    let rgb ← ofBytes width height .rgb .bits8 data
    ofGrid (← rgb.grayImage)
  else ofGray width height data

end Frame

/-- How the conversion of a frame that has pixels breaks off, if it does. -/
def Frame.conversionBreach? (f : Frame) : Option Breach :=
  if f.isEmpty then none
  else
    match f.grayImage with
    | .error (.breach cause) => some cause
    | _ => none

/-- Intensities of a frame that has pixels and a conversion. -/
def intensities (f : Frame) : Option (Grid UInt8) :=
  if f.isEmpty then none else f.grayImage.toOption

end StereoMapping
