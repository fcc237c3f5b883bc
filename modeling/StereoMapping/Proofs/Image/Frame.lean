import Mathlib.Algebra.Ring.Nat
import StereoMapping.Image.Frame

/-!
# `Proofs.Image.Frame` — a frame and its declared layout

The number of bytes that a layout declares is a product of four words, and compared with the buffer only when it has
been computed. What is accepted are therefore the buffers whose size is the declared one modulo `2 ^ 64`. Where the
product stays below that, the declared size is the number of bytes of all pixels, and the rows of an accepted buffer
fill it exactly: a pixel inside the declared rectangle is a byte of the buffer, and no index wraps around on the way to
it. Where the product does not stay below, a small buffer may be accepted for a rectangle that it cannot fill.

## Contents
- `Frame.bytesPerPixel`, `Frame.neededBytes`: sizes of a layout as natural numbers.
- `Frame.ofBytes_ok`, `Frame.ofBytes_overCapacity`, `Frame.ofBytes_wrongSize`: the three answers of the constructor.
- `Frame.Filled`: the buffer holds the rows of the declared rectangle; `Frame.filled_iff`.
- `Frame.layout_of_accepted`: which buffers are accepted, and which of them agree with their layout.
-/

namespace StereoMapping

namespace Frame

/-! ## Sizes -/

/-- Bytes of a pixel. -/
def bytesPerPixel (mode : PixelMode) (depth : SampleDepth) : Nat := mode.channels * depth.bytes

/-- Bytes of all pixels of a rectangle. -/
def neededBytes (width height : UInt64) (mode : PixelMode) (depth : SampleDepth) : Nat :=
  width.toNat * height.toNat * mode.channels * depth.bytes

theorem bytesPerPixel_pos (mode : PixelMode) (depth : SampleDepth) : 0 < bytesPerPixel mode depth := by
  cases mode <;> cases depth <;> decide

theorem neededBytes_eq (width height : UInt64) (mode : PixelMode) (depth : SampleDepth) :
    neededBytes width height mode depth = height.toNat * (width.toNat * bytesPerPixel mode depth) := by
  unfold neededBytes bytesPerPixel
  rw [Nat.mul_comm width.toNat, Nat.mul_assoc, Nat.mul_assoc]

theorem toNat_pixelSize (f : Frame) : f.pixelSize.toNat = bytesPerPixel f.mode f.depth := by
  unfold pixelSize
  cases f.mode <;> cases f.depth <;> rfl

theorem toNat_channels (mode : PixelMode) : mode.channels.toUInt64.toNat = mode.channels := by
  cases mode <;> rfl

theorem toNat_bytes (depth : SampleDepth) : depth.bytes.toUInt64.toNat = depth.bytes := by
  cases depth <;> rfl

/-- **The declared size wraps around.** -/
theorem toNat_expectedSize (width height : UInt64) (mode : PixelMode) (depth : SampleDepth) :
    (expectedSize width height mode depth).toNat = neededBytes width height mode depth % 2 ^ 64 := by
  unfold expectedSize neededBytes
  rw [UInt64.toNat_mul, UInt64.toNat_mul, UInt64.toNat_mul, toNat_channels, toNat_bytes, Nat.mod_mul_mod,
    Nat.mul_assoc, Nat.mod_mul_mod, ← Nat.mul_assoc]

/-! ## Construction -/

section Construction

variable {width height : UInt64} {mode : PixelMode} {depth : SampleDepth} {data : Array UInt8}

theorem ofBytes_ok (hcap : data.size ≤ capacity)
    (hsize : data.size = 0 ∨ data.size = neededBytes width height mode depth % 2 ^ 64) :
    ofBytes width height mode depth data = .ok ⟨width, height, mode, depth, 0, #[], data⟩ := by
  have hcheck : (⟨width, height, mode, depth, 0, #[], data⟩ : Frame).check = .ok () := by
    rw [check_eq_ok_iff, toNat_expectedSize]
    exact ⟨hcap, hsize⟩
  unfold ofBytes
  dsimp only
  rw [hcheck]
  rfl

theorem ofBytes_overCapacity (hcap : capacity < data.size) :
    ofBytes width height mode depth data = .error (.malformedFrame (.overCapacity data.size capacity)) := by
  unfold ofBytes check
  dsimp only
  rw [if_pos hcap]
  rfl

theorem ofBytes_wrongSize (hcap : data.size ≤ capacity) (hdata : data.size ≠ 0)
    (hsize : data.size ≠ neededBytes width height mode depth % 2 ^ 64) :
    ofBytes width height mode depth data = .error (.malformedFrame (.wrongSize width.toNat height.toNat mode depth
      (neededBytes width height mode depth % 2 ^ 64) data.size)) := by
  unfold ofBytes check
  dsimp only
  rw [toNat_expectedSize, if_neg (Nat.not_lt.mpr hcap), if_pos ⟨hdata, hsize⟩]
  rfl

/-- What was accepted is the frame of the buffer, within the capacity and empty or as large as declared. -/
theorem of_ofBytes {f : Frame} (h : ofBytes width height mode depth data = .ok f) :
    f = ⟨width, height, mode, depth, 0, #[], data⟩ ∧ data.size ≤ capacity ∧
      (data.size = 0 ∨ data.size = neededBytes width height mode depth % 2 ^ 64) := by
  by_cases hcap : data.size ≤ capacity
  · by_cases hsize : data.size = 0 ∨ data.size = neededBytes width height mode depth % 2 ^ 64
    · rw [ofBytes_ok hcap hsize] at h
      exact ⟨(Except.ok.inj h).symm, hcap, hsize⟩
    · rw [not_or] at hsize
      rw [ofBytes_wrongSize hcap hsize.1 hsize.2] at h
      cases h
  · rw [ofBytes_overCapacity (Nat.lt_of_not_le hcap)] at h
    cases h

end Construction

/-! ## The rows of a buffer -/

/-- **The buffer is that of the declared rectangle**: its rows, one after the other, are the buffer, and the bytes of
rows and pixels are found where the layout places them. -/
structure Filled (f : Frame) : Prop where
  rowSize_eq : f.rowSize.toNat = f.width.toNat * bytesPerPixel f.mode f.depth
  rows_eq : f.height.toNat * f.rowSize.toNat = f.data.size
  row : ∀ y < f.height.toNat, ∀ k < f.rowSize.toNat, ∃ byte, f.data[y * f.rowSize.toNat + k]? = some byte
  gray : ∀ x y : UInt64, x < f.width → y < f.height → ∃ byte, f.grayAt? x y = some byte ∧
    f.data[y.toNat * f.rowSize.toNat + x.toNat * bytesPerPixel f.mode f.depth]? = some byte

/-- The last byte of a row is before the next row. -/
theorem row_index_lt {y k height size : Nat} (hy : y < height) (hk : k < size) : y * size + k < height * size :=
  calc y * size + k < y * size + size := Nat.add_lt_add_left hk _
    _ = (y + 1) * size := (Nat.succ_mul y size).symm
    _ ≤ height * size := Nat.mul_le_mul_right size hy

/-- A buffer that has the size of the rectangle, counted without wrapping around, is filled by its rows. -/
theorem filled_of_size {f : Frame} (hword : f.data.size < 2 ^ 64)
    (h : f.data.size = neededBytes f.width f.height f.mode f.depth) (hdata : f.data.size ≠ 0) : f.Filled := by
  rw [neededBytes_eq] at h
  have hpixel := bytesPerPixel_pos f.mode f.depth
  have hheight : 0 < f.height.toNat := by
    apply Nat.pos_of_ne_zero
    intro hzero
    rw [hzero, Nat.zero_mul] at h
    exact hdata h
  have hrowSize : f.rowSize.toNat = f.width.toNat * bytesPerPixel f.mode f.depth := by
    unfold rowSize
    rw [UInt64.toNat_mul, toNat_pixelSize]
    apply Nat.mod_eq_of_lt
    calc f.width.toNat * bytesPerPixel f.mode f.depth
        ≤ f.height.toNat * (f.width.toNat * bytesPerPixel f.mode f.depth) := Nat.le_mul_of_pos_left _ hheight
      _ < 2 ^ 64 := h ▸ hword
  have hrows : f.height.toNat * f.rowSize.toNat = f.data.size := by rw [hrowSize, h]
  refine ⟨hrowSize, hrows, ?_, ?_⟩
  · intro y hy k hk
    have hindex : y * f.rowSize.toNat + k < f.data.size := hrows ▸ row_index_lt hy hk
    exact ⟨_, Array.getElem?_eq_getElem hindex⟩
  · intro x y hx hy
    rw [UInt64.lt_iff_toNat_lt] at hx hy
    have hinRow : x.toNat * bytesPerPixel f.mode f.depth < f.rowSize.toNat := by
      rw [hrowSize]
      exact Nat.mul_lt_mul_of_pos_right hx hpixel
    have hindex : y.toNat * f.rowSize.toNat + x.toNat * bytesPerPixel f.mode f.depth < f.data.size :=
      hrows ▸ row_index_lt hy hinRow
    -- neither product nor the sum of the index wraps around
    have hword : (y * f.rowSize + x * f.pixelSize).toNat =
        y.toNat * f.rowSize.toNat + x.toNat * bytesPerPixel f.mode f.depth := by
      rw [UInt64.toNat_add, UInt64.toNat_mul, UInt64.toNat_mul, toNat_pixelSize, ← Nat.add_mod]
      exact Nat.mod_eq_of_lt (Nat.lt_trans hindex hword)
    refine ⟨_, ?_, Array.getElem?_eq_getElem hindex⟩
    unfold grayAt?
    rw [hword]
    exact Array.getElem?_eq_getElem hindex

/-- **A buffer is filled by the rows of its layout exactly if the declared size does not wrap around.** -/
theorem filled_iff {width height : UInt64} {mode : PixelMode} {depth : SampleDepth} {data : Array UInt8} {f : Frame}
    (h : ofBytes width height mode depth data = .ok f) (hdata : f.data.size ≠ 0) :
    f.Filled ↔ neededBytes width height mode depth < 2 ^ 64 := by
  obtain ⟨rfl, hcap, hsize⟩ := of_ofBytes h
  have hword : data.size < 2 ^ 64 := Nat.lt_of_le_of_lt hcap (by decide)
  constructor
  · intro hfilled
    rw [neededBytes_eq, ← hfilled.rowSize_eq, hfilled.rows_eq]
    exact hword
  · intro hneeded
    apply filled_of_size hword _ hdata
    rw [← Nat.mod_eq_of_lt hneeded]
    exact hsize.resolve_left hdata

/-! ## Frames and their layout -/

/-- **Frames agree with their layout as long as its size does not wrap around.** A buffer is accepted, as it is,
exactly if it is within the capacity and empty or as large as the declared size modulo `2 ^ 64`, and is refused as too
large or as of the wrong size otherwise. So for layouts whose size does not wrap around the accepted buffers are the
empty one and those of exactly that size; and the rows and pixels of an accepted buffer are found in it, all of them,
exactly for such layouts. -/
theorem layout_of_accepted (width height : UInt64) (mode : PixelMode) (depth : SampleDepth) (data : Array UInt8) :
    (capacity < data.size →
      ofBytes width height mode depth data = .error (.malformedFrame (.overCapacity data.size capacity))) ∧
    (data.size ≤ capacity → data.size ≠ 0 → data.size ≠ neededBytes width height mode depth % 2 ^ 64 →
      ofBytes width height mode depth data = .error (.malformedFrame (.wrongSize width.toNat height.toNat mode depth
        (neededBytes width height mode depth % 2 ^ 64) data.size))) ∧
    (data.size ≤ capacity → data.size = 0 ∨ data.size = neededBytes width height mode depth % 2 ^ 64 →
      ofBytes width height mode depth data = .ok ⟨width, height, mode, depth, 0, #[], data⟩) ∧
    (neededBytes width height mode depth < 2 ^ 64 →
      ((∃ f, ofBytes width height mode depth data = .ok f) ↔
        data.size ≤ capacity ∧ (data.size = 0 ∨ data.size = neededBytes width height mode depth))) ∧
    ∀ f, ofBytes width height mode depth data = .ok f → f.data.size ≠ 0 →
      (f.Filled ↔ neededBytes width height mode depth < 2 ^ 64) := by
  refine ⟨ofBytes_overCapacity, ofBytes_wrongSize, ofBytes_ok, ?_, fun f => filled_iff⟩
  intro hneeded
  have hmod := Nat.mod_eq_of_lt hneeded
  constructor
  · rintro ⟨f, hf⟩
    obtain ⟨-, hcap, hsize⟩ := of_ofBytes hf
    exact ⟨hcap, hmod ▸ hsize⟩
  · rintro ⟨hcap, hsize⟩
    exact ⟨_, ofBytes_ok hcap (hmod.symm ▸ hsize)⟩

/-- Two rows of three pixels of six bytes. -/
theorem layout_of_accepted_deep : ∃ f,
    ofBytes 3 2 .rgb .bits16 (Array.replicate 36 7) = .ok f ∧ f.Filled ∧ f.grayAt? 2 1 = some 7 := by
  obtain ⟨-, -, haccepted, -, hfilled⟩ := layout_of_accepted 3 2 .rgb .bits16 (Array.replicate 36 7)
  have hf := haccepted (by decide) (.inr (by decide))
  have hrows := (hfilled _ hf (by decide)).mpr (by decide)
  exact ⟨_, hf, hrows, by decide⟩

/-- **Two bytes are accepted for a rectangle of more than `2 ^ 64` pixels**, and do not even fill its first row. -/
theorem accepted_wrapped : ∃ f, ofBytes 3 6148914691236517206 .grayscale .bits8 #[1, 2] = .ok f ∧
    neededBytes 3 6148914691236517206 .grayscale .bits8 = 2 ^ 64 + 2 ∧ f.grayAt? 2 0 = none :=
  ⟨_, ofBytes_ok (by decide) (.inr (by decide)), by decide, by decide⟩

end Frame

end StereoMapping
