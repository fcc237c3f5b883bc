/-!
# `Image.Layout` — how the bytes of a pixel are laid out
-/

namespace StereoMapping

/-- Channels of a pixel, in order. -/
inductive PixelMode where
  /-- One intensity. -/
  | grayscale
  /-- Red, green, blue. -/
  | rgb
  /-- Blue, green, red. -/
  | bgr
  /-- Red, green, blue, opacity. -/
  | rgba
  /-- One disparity or depth. -/
  | depth
  deriving DecidableEq, Inhabited

/-- Storage of one channel. -/
inductive SampleDepth where
  /-- Unsigned, 8 bits. -/
  | bits8
  /-- Unsigned, 16 bits, most significant byte first. -/
  | bits16
  /-- Floating point, 32 bits, least significant byte first. -/
  | float32
  deriving DecidableEq, Inhabited

namespace PixelMode

/-- Channels of a pixel. -/
def channels : PixelMode → Nat
  | grayscale | depth => 1
  | rgb | bgr => 3
  | rgba => 4

def name : PixelMode → String
  | grayscale => "Grayscale"
  | rgb => "Rgb"
  | bgr => "Bgr"
  | rgba => "Rgba"
  | depth => "Depth"

def all : List PixelMode := [grayscale, rgb, bgr, rgba, depth]

/-- The mode of a name. -/
def ofName? (s : String) : Option PixelMode := all.find? (·.name == s)

end PixelMode

namespace SampleDepth

/-- Bytes of a channel. -/
def bytes : SampleDepth → Nat
  | bits8 => 1
  | bits16 => 2
  | float32 => 4

def name : SampleDepth → String
  | bits8 => "U8"
  | bits16 => "U16"
  | float32 => "F32"

def all : List SampleDepth := [bits8, bits16, float32]

/-- The depth of a name. -/
def ofName? (s : String) : Option SampleDepth := all.find? (·.name == s)

end SampleDepth

end StereoMapping
