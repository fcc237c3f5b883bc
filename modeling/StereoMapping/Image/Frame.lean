import StereoMapping.Error

/-!
# `Image.Frame` — an image buffer with its declared layout

A frame is either without pixels or holds exactly the bytes that its layout declares; `Frame.check` tests
this, and every constructor that takes a buffer ends with it. Sizes are 64-bit words, as is the product that
declares the number of bytes. Absurd dimensions wrap around, so that a small buffer may pass for all of their bytes.

## Contents
- `Frame`, `Frame.empty`, `Frame.expectedSize`, `Frame.check`.
- `Frame.ofBytes`, `Frame.ofGray`, `Frame.zeros`: checked construction.
- `Frame.grayAt?`, `Frame.setByte?`, `Frame.addAttribute`.
-/

namespace StereoMapping

/-- Pixels, row after row, with their declared layout and the data of their acquisition. -/
structure Frame where
  width : UInt64
  height : UInt64
  mode : PixelMode
  depth : SampleDepth
  /-- Time of acquisition, in microseconds. -/
  timestamp : Int64
  /-- Named values, such as the serial number of the camera. -/
  attributes : Array (String × String)
  data : Array UInt8
  deriving DecidableEq

namespace Frame

/-- Bytes that a frame may hold: 4096 by 4096 pixels of four bytes. -/
def capacity : Nat := 4096 * 4096 * 4

/-- Attributes that a frame may carry. -/
def attributeCapacity : Nat := 5

/-- The frame without pixels. -/
def empty : Frame := ⟨0, 0, .grayscale, .bits8, 0, #[], #[]⟩

instance : Inhabited Frame := ⟨empty⟩

/-- Bytes declared by a layout. -/
def expectedSize (width height : UInt64) (mode : PixelMode) (depth : SampleDepth) : UInt64 :=
  width * height * mode.channels.toUInt64 * depth.bytes.toUInt64

/-- Whether the frame holds no pixel. -/
def isEmpty (f : Frame) : Bool := f.data.isEmpty

/-- Bytes of a pixel. -/
def pixelSize (f : Frame) : UInt64 := f.mode.channels.toUInt64 * f.depth.bytes.toUInt64

/-- Bytes of a row. -/
def rowSize (f : Frame) : UInt64 := f.width * f.pixelSize

/-- The buffer fits the capacity, and is empty or as large as declared. -/
def check (f : Frame) : Except Error Unit :=
  let needed := expectedSize f.width f.height f.mode f.depth
  if capacity < f.data.size then
    throw (.malformedFrame (.overCapacity f.data.size capacity))
  else if f.data.size ≠ 0 ∧ f.data.size ≠ needed.toNat then
    throw (.malformedFrame
      (.wrongSize f.width.toNat f.height.toNat f.mode f.depth needed.toNat f.data.size))
  else pure ()

/-- The frame of a buffer. -/
def ofBytes (width height : UInt64) (mode : PixelMode) (depth : SampleDepth) (data : Array UInt8) :
    Except Error Frame := do
  let frame : Frame := ⟨width, height, mode, depth, 0, #[], data⟩
  frame.check
  return frame

/-- The 8-bit frame of a buffer of intensities. -/
def ofGray (width height : UInt64) (data : Array UInt8) : Except Error Frame :=
  ofBytes width height .grayscale .bits8 data

/-- The frame of the declared size with all bytes zero. Nothing is allocated above the capacity. -/
def zeros (width height : UInt64) (mode : PixelMode) (depth : SampleDepth) : Except Error Frame :=
  let size := (expectedSize width height mode depth).toNat
  if 0x8000000000000000 ≤ size then throw (.breach .capacityOverflow)
  else if capacity < size then throw (.malformedFrame (.overCapacity size capacity))
  else ofBytes width height mode depth (Array.replicate size 0)

/-- First byte of the pixel in column `x` and row `y`. -/
def grayAt? (f : Frame) (x y : UInt64) : Option UInt8 :=
  f.data[(y * f.rowSize + x * f.pixelSize).toNat]?

/-- The frame with one byte replaced. -/
def setByte? (f : Frame) (index : Nat) (byte : UInt8) : Option Frame :=
  if index < f.data.size then some { f with data := f.data.setIfInBounds index byte } else none

/-- The frame with one more attribute. -/
def addAttribute (f : Frame) (name value : String) : Except Error Frame :=
  if attributeCapacity ≤ f.attributes.size then
    throw (.malformedFrame (.tooManyAttributes attributeCapacity))
  else pure { f with attributes := f.attributes.push (name, value) }

/-- The check passes exactly for buffers within the capacity that are empty or as large as declared. -/
theorem check_eq_ok_iff {f : Frame} :
    f.check = .ok () ↔ f.data.size ≤ capacity
      ∧ (f.data.size = 0 ∨ f.data.size = (expectedSize f.width f.height f.mode f.depth).toNat) := by
  simp only [check, throw, throwThe, MonadExceptOf.throw, pure, Except.pure]
  by_cases hcap : capacity < f.data.size
  · simp [hcap, Nat.not_le.2 hcap]
  · by_cases hsize : f.data.size = 0 <;>
      by_cases hneed : f.data.size = (expectedSize f.width f.height f.mode f.depth).toNat <;>
      simp [hcap, hsize, hneed, Nat.not_lt.1 hcap]

end Frame

end StereoMapping
