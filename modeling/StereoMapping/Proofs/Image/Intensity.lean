import StereoMapping.Image.Intensity
import StereoMapping.Proofs.Image.Frame

/-!
# `Proofs.Image.Intensity` — grids of intensities as frames, and back

The frame of a grid holds the cells of the grid, row after row, and the intensities of a grey frame are its bytes: each
conversion undoes the other. Images have 32-bit dimensions, so this asks for frames whose dimensions are below that.
All frames that agree with their layout are, because the capacity is; of a frame whose declared size wraps around, the
dimensions are cut, and what comes back is another frame or none.

A frame with blue first has the intensities of the one with red first whose pixels are turned round.

## Contents
- `Grid.ofFn_getD`: a grid built from its own cells.
- `Grid.columnMajor`, `Frame.ofGrid_eq_ofGray_columnMajor`: the frame of a matrix that is kept column
  after column, by way of its transposed matrix.
- `Frame.ofGrid_eq`, `Frame.grayAt?_ofGrid`: the frame of a grid.
- `Frame.grayImage_grey`, `Frame.grayImage_accepted`, `Frame.ofGrid_grayImage`: the intensities of a grey frame.
- `Frame.turned`, `Frame.grayImage_turned`: blue first and red first.
- `Frame.conversions_inverse`.
-/

namespace StereoMapping

/-- A grid built from its own cells. -/
theorem Grid.ofFn_getD {α : Type} {rows cols : Nat} {cells : Array α} (h : cells.size = rows * cols) (default : α) :
    (Grid.ofFn rows cols fun i j _ _ => cells.getD (i * cols + j) default) = ⟨rows, cols, cells, h⟩ := by
  apply Grid.ext_get (by rfl) (by rfl)
  intro i j hi hj
  have hindex : i * cols + j < cells.size := h ▸ Grid.index_lt hi hj
  rw [Grid.get_ofFn]
  unfold Grid.get Array.getD
  rw [dif_pos hindex]
  rfl

/-- The cells of a grid, column after column. -/
def Grid.columnMajor {α : Type} (g : Grid α) : Array α :=
  Array.ofFn fun k : Fin (g.cols * g.rows) =>
    g.get (k % g.rows) (k / g.rows) (Nat.mod_lt _ (Nat.pos_of_lt_mul_left k.isLt))
      (Nat.div_lt_of_lt_mul (Nat.mul_comm g.cols g.rows ▸ k.isLt))

/-- Column after column, the transposed grid has the cells of the grid row after row. -/
theorem Grid.columnMajor_transpose {α : Type} (g : Grid α) : g.transpose.columnMajor = g.cells := by
  have hrows : g.transpose.rows = g.cols := rfl
  have hcols : g.transpose.cols = g.rows := rfl
  apply Array.ext
  · rw [columnMajor, Array.size_ofFn, g.size_cells, hrows, hcols]
  · intro k hk hk'
    have hcell : k / g.cols * g.cols + k % g.cols = k := Nat.div_add_mod' k g.cols
    simp only [columnMajor, Array.getElem_ofFn, transpose, Grid.get_ofFn, Grid.rows_ofFn]
    simp only [Grid.get, hcell]

namespace Frame

/-! ## From a grid to its frame -/

/-- Of a matrix kept column after column, the transposed matrix is kept as a frame keeps its pixels. -/
theorem ofGrid_eq_ofGray_columnMajor (g : Grid UInt8) :
    ofGrid g = ofGray g.cols.toUInt64 g.rows.toUInt64 g.transpose.columnMajor := by
  rw [Grid.columnMajor_transpose]
  rfl

theorem toNat_toUInt64_of_lt {n : Nat} (h : n < 2 ^ 32) : n.toUInt64.toNat = n :=
  UInt64.toNat_ofNat_of_lt' (Nat.lt_trans h (by decide))

theorem neededBytes_grey (width height : UInt64) :
    neededBytes width height .grayscale .bits8 = width.toNat * height.toNat := by
  show width.toNat * height.toNat * 1 * 1 = _
  rw [Nat.mul_one, Nat.mul_one]

/-- A grid whose dimensions are below `2 ^ 32` and whose cells fit into a frame has a frame. -/
theorem ofGrid_eq {g : Grid UInt8} (hrows : g.rows < 2 ^ 32) (hcols : g.cols < 2 ^ 32)
    (hcells : g.cells.size ≤ capacity) :
    ofGrid g = .ok ⟨g.cols.toUInt64, g.rows.toUInt64, .grayscale, .bits8, 0, #[], g.cells⟩ := by
  unfold ofGrid ofGray
  apply ofBytes_ok hcells
  right
  rw [neededBytes_grey, toNat_toUInt64_of_lt hcols, toNat_toUInt64_of_lt hrows, Nat.mul_comm, ← g.size_cells]
  exact (Nat.mod_eq_of_lt (Nat.lt_of_le_of_lt hcells (by decide))).symm

/-- The pixels of the frame are the cells of the grid. -/
theorem grayAt?_ofGrid {g : Grid UInt8} {f : Frame} (hcols : g.cols < 2 ^ 32) (hcells : g.cells.size ≤ capacity)
    (hf : f = ⟨g.cols.toUInt64, g.rows.toUInt64, .grayscale, .bits8, 0, #[], g.cells⟩) {x y : UInt64}
    (hx : x.toNat < g.cols) (hy : y.toNat < g.rows) : f.grayAt? x y = some (g.get y.toNat x.toNat hy hx) := by
  have hindex : y.toNat * g.cols + x.toNat < g.cells.size := by
    rw [g.size_cells]
    exact Grid.index_lt hy hx
  have hword : (y * f.rowSize + x * f.pixelSize).toNat = y.toNat * g.cols + x.toNat := by
    have hrowSize : f.rowSize = g.cols.toUInt64 := by
      rw [hf]
      exact UInt64.mul_one _
    have hpixelSize : f.pixelSize = 1 := by
      rw [hf]
      rfl
    rw [hrowSize, hpixelSize, UInt64.mul_one, UInt64.toNat_add, UInt64.toNat_mul, toNat_toUInt64_of_lt hcols,
      Nat.mod_add_mod]
    exact Nat.mod_eq_of_lt (Nat.lt_trans hindex (Nat.lt_of_le_of_lt hcells (by decide)))
  unfold grayAt?
  rw [hword, hf]
  exact Array.getElem?_eq_getElem hindex

/-! ## The intensities of a grey frame -/

section Grey

variable {f : Frame}

/-- Of a grey frame, the bytes are the intensities. -/
theorem grayImage_grey (hmode : f.mode = .grayscale) (hdepth : f.depth = .bits8) :
    f.grayImage = if f.data.size < f.height.toUInt32.toNat * f.width.toUInt32.toNat then
        .error (.malformedFrame .bufferTooShort)
      else .ok (Grid.ofFn f.height.toUInt32.toNat f.width.toUInt32.toNat
        fun i j _ _ => f.data.getD (i * f.width.toUInt32.toNat + j) 0) := by
  have hrule : f.intensityRule? = some .direct := by
    unfold intensityRule?
    rw [hmode, hdepth]
  have hgrey : ¬ (f.mode = .bgr ∧ f.data.size % 3 ≠ 0) := by
    rw [hmode]
    rintro ⟨hbgr, -⟩
    cases hbgr
  have hchannels : f.mode.channels = 1 := by
    rw [hmode]
    rfl
  unfold grayImage
  simp only [hrule]
  rw [if_neg hgrey, hchannels, Nat.mul_one]
  rfl

/-- A frame that has the bytes of a rectangle of its dimensions, cut to words of 32 bits, has them as intensities. -/
theorem grayImage_grey_of_size (hmode : f.mode = .grayscale) (hdepth : f.depth = .bits8)
    (hsize : f.data.size = f.height.toUInt32.toNat * f.width.toUInt32.toNat) :
    f.grayImage = .ok ⟨f.height.toUInt32.toNat, f.width.toUInt32.toNat, f.data, hsize⟩ := by
  rw [grayImage_grey hmode hdepth, if_neg (Nat.not_lt.mpr (Nat.le_of_eq hsize.symm))]
  exact congrArg Except.ok (Grid.ofFn_getD hsize 0)

/-- Cut to words of 32 bits, dimensions have a product that is not less than the declared size. -/
theorem size_le_cut {width height size : Nat} (h : size = width * height % 2 ^ 64) (hsize : size < 2 ^ 32) :
    size ≤ width % 2 ^ 32 * (height % 2 ^ 32) :=
  calc size = size % 2 ^ 32 := (Nat.mod_eq_of_lt hsize).symm
    _ = width % 2 ^ 32 * (height % 2 ^ 32) % 2 ^ 32 := by
      rw [h, Nat.mod_mod_of_dvd _ (by decide : 2 ^ 32 ∣ 2 ^ 64), Nat.mul_mod]
    _ ≤ width % 2 ^ 32 * (height % 2 ^ 32) := Nat.mod_le _ _

theorem toUInt64_toNat_toUInt32 (w : UInt64) : w.toUInt32.toNat.toUInt64 = w.toUInt32.toUInt64 := by
  apply UInt64.toNat_inj.mp
  rw [toNat_toUInt64_of_lt w.toUInt32.toNat_lt, UInt32.toNat_toUInt64]

theorem toUInt64_toUInt32_of_lt {w : UInt64} (h : w.toNat < 2 ^ 32) : w.toUInt32.toUInt64 = w := by
  apply UInt64.toNat_inj.mp
  rw [UInt32.toNat_toUInt64, UInt64.toNat_toUInt32, Nat.mod_eq_of_lt h]

/-- The same pixels, without the data of their acquisition. -/
def pixelsOnly (f : Frame) : Frame := { f with timestamp := 0, attributes := #[] }

/-- The same bytes, with dimensions cut to words of 32 bits. -/
def cut (f : Frame) : Frame :=
  { f.pixelsOnly with width := f.width.toUInt32.toUInt64, height := f.height.toUInt32.toUInt64 }

/-- The intensities of a grey frame whose cut dimensions fit its bytes give back these dimensions and bytes. -/
theorem ofGrid_grayImage_cut (hmode : f.mode = .grayscale) (hdepth : f.depth = .bits8) (hcap : f.data.size ≤ capacity)
    (hsize : f.data.size = f.height.toUInt32.toNat * f.width.toUInt32.toNat) :
    ∃ g, f.grayImage = .ok g ∧ ofGrid g = .ok f.cut := by
  refine ⟨_, grayImage_grey_of_size hmode hdepth hsize, ?_⟩
  rw [ofGrid_eq (UInt32.toNat_lt _) (UInt32.toNat_lt _) hcap]
  unfold cut pixelsOnly
  dsimp only
  rw [toUInt64_toNat_toUInt32, toUInt64_toNat_toUInt32, hmode, hdepth]

/-- The size of a grey frame that is accepted and not empty. -/
theorem size_grey (hmode : f.mode = .grayscale) (hdepth : f.depth = .bits8) (h : f.check = .ok ())
    (hdata : f.data.size ≠ 0) :
    f.data.size ≤ capacity ∧ f.data.size = f.width.toNat * f.height.toNat % 2 ^ 64 := by
  rw [check_eq_ok_iff, toNat_expectedSize, hmode, hdepth, neededBytes_grey] at h
  exact ⟨h.1, h.2.resolve_left hdata⟩

/-- **An accepted grey frame is cut to an image, or has none.** -/
theorem grayImage_accepted (hmode : f.mode = .grayscale) (hdepth : f.depth = .bits8) (h : f.check = .ok ())
    (hdata : f.data.size ≠ 0) :
    f.grayImage = .error (.malformedFrame .bufferTooShort) ∨ ∃ g, f.grayImage = .ok g ∧ ofGrid g = .ok f.cut := by
  obtain ⟨hcap, hsize⟩ := size_grey hmode hdepth h hdata
  have hcut : f.data.size ≤ f.height.toUInt32.toNat * f.width.toUInt32.toNat := by
    rw [Nat.mul_comm, UInt64.toNat_toUInt32, UInt64.toNat_toUInt32]
    exact size_le_cut hsize (Nat.lt_of_le_of_lt hcap (by decide))
  rcases Nat.lt_or_eq_of_le hcut with hshort | hexact
  · left
    rw [grayImage_grey hmode hdepth, if_pos hshort]
  · right
    exact ofGrid_grayImage_cut hmode hdepth hcap hexact

/-- **One that agrees with its layout is its own image**: the intensities, as a frame, are its pixels. -/
theorem ofGrid_grayImage (hmode : f.mode = .grayscale) (hdepth : f.depth = .bits8) (h : f.check = .ok ())
    (hdata : f.data.size ≠ 0) (hneeded : f.width.toNat * f.height.toNat < 2 ^ 64) :
    ∃ g, f.grayImage = .ok g ∧ ofGrid g = .ok f.pixelsOnly := by
  obtain ⟨hcap, hsize⟩ := size_grey hmode hdepth h hdata
  rw [Nat.mod_eq_of_lt hneeded] at hsize
  -- neither dimension exceeds the number of bytes, so cutting them changes nothing
  have hpos : 0 < f.width.toNat * f.height.toNat := Nat.pos_of_ne_zero (hsize ▸ hdata)
  have hproduct : f.width.toNat * f.height.toNat < 2 ^ 32 := Nat.lt_of_le_of_lt (hsize ▸ hcap) (by decide)
  have hwidth : f.width.toNat < 2 ^ 32 :=
    Nat.lt_of_le_of_lt (Nat.le_mul_of_pos_right _ (Nat.pos_of_mul_pos_left hpos)) hproduct
  have hheight : f.height.toNat < 2 ^ 32 :=
    Nat.lt_of_le_of_lt (Nat.le_mul_of_pos_left _ (Nat.pos_of_mul_pos_right hpos)) hproduct
  have hcut : f.cut = f.pixelsOnly := by
    unfold cut
    rw [toUInt64_toUInt32_of_lt hwidth, toUInt64_toUInt32_of_lt hheight]
    rfl
  rw [← hcut]
  apply ofGrid_grayImage_cut hmode hdepth hcap
  rw [UInt64.toNat_toUInt32, UInt64.toNat_toUInt32, Nat.mod_eq_of_lt hwidth, Nat.mod_eq_of_lt hheight, hsize,
    Nat.mul_comm]

end Grey

/-! ## Blue first and red first -/

/-- The bytes with the first and the third one of every pixel exchanged. -/
def turnedBytes (data : Array UInt8) : Array UInt8 :=
  Array.ofFn fun k : Fin data.size => data.getD (3 * (k / 3) + (2 - k % 3)) 0

/-- The frame with red first of one with blue first: in every pixel, the first and the third channel are exchanged. -/
def turned (f : Frame) : Frame := { f with mode := .rgb, data := turnedBytes f.data }

@[simp] theorem size_turnedBytes (data : Array UInt8) : (turnedBytes data).size = data.size := Array.size_ofFn

/-- The bytes of one pixel. -/
theorem getD_turnedBytes {data : Array UInt8} {k channel : Nat} (hchannel : channel ≤ 2)
    (hk : 3 * k + 2 < data.size) :
    (turnedBytes data).getD (3 * k + channel) 0 = data.getD (3 * k + (2 - channel)) 0 := by
  have hindex : 3 * k + channel < data.size := by omega
  have hpixel : (3 * k + channel) / 3 = k := by omega
  have hplace : (3 * k + channel) % 3 = channel := by omega
  unfold turnedBytes
  rw [Array.getD_eq_getD_getElem?, Array.getElem?_ofFn, dif_pos hindex, Option.getD_some, hpixel, hplace]

section Turned

variable {f : Frame}

/-- A frame with blue first is declared as large as the one with red first. -/
theorem check_turned (hmode : f.mode = .bgr) (h : f.check = .ok ()) : f.turned.check = .ok () := by
  rw [check_eq_ok_iff] at h ⊢
  rw [hmode] at h
  show (turnedBytes f.data).size ≤ capacity ∧ ((turnedBytes f.data).size = 0 ∨
    (turnedBytes f.data).size = (expectedSize f.width f.height .rgb f.depth).toNat)
  rw [size_turnedBytes]
  exact h

/-- **Blue first, and turned round to red first, a frame has the same intensities**, or the same reason to have
none. -/
theorem grayImage_turned (hmode : f.mode = .bgr) (hdepth : f.depth = .bits8) (hpixels : f.data.size % 3 = 0) :
    f.grayImage = f.turned.grayImage := by
  have hrule : f.intensityRule? = some (.luminance 3 2 1 0) := by
    unfold intensityRule?
    rw [hmode, hdepth]
  have hturned : f.turned.intensityRule? = some (.luminance 3 0 1 2) := by
    unfold intensityRule? turned
    rw [hdepth]
  have hchannels : f.mode.channels = 3 := by
    rw [hmode]
    rfl
  -- neither conversion ends the program
  have hwhole : ¬ (f.mode = .bgr ∧ f.data.size % 3 ≠ 0) := fun hpartial => hpartial.2 hpixels
  have hrgb : ¬ (f.turned.mode = .bgr ∧ f.turned.data.size % 3 ≠ 0) := fun hpartial => nomatch hpartial.1
  unfold grayImage
  simp only [hrule, hturned]
  rw [if_neg hwhole, if_neg hrgb, hchannels]
  show (if f.data.size < f.height.toUInt32.toNat * f.width.toUInt32.toNat * 3 then _ else _) =
    (if (turnedBytes f.data).size < f.height.toUInt32.toNat * f.width.toUInt32.toNat * 3 then _ else _)
  rw [size_turnedBytes]
  by_cases hshort : f.data.size < f.height.toUInt32.toNat * f.width.toUInt32.toNat * 3
  · rw [if_pos hshort, if_pos hshort]
  · rw [if_neg hshort, if_neg hshort]
    refine congrArg (fun cells => Except.ok (Grid.ofFn f.height.toUInt32.toNat f.width.toUInt32.toNat cells)) ?_
    funext i j hi hj
    have hindex := Grid.index_lt hi hj
    have hpixel : 3 * (i * f.width.toUInt32.toNat + j) + 2 < f.data.size := by omega
    unfold intensityAt
    dsimp only [turned]
    rw [getD_turnedBytes (by decide) hpixel, getD_turnedBytes (by decide) hpixel, getD_turnedBytes (by decide) hpixel]

/-- An accepted frame with blue first consists of whole pixels if its declared size does not wrap around. -/
theorem whole_pixels (hmode : f.mode = .bgr) (h : f.check = .ok ())
    (hneeded : neededBytes f.width f.height f.mode f.depth < 2 ^ 64) : f.data.size % 3 = 0 := by
  rw [check_eq_ok_iff, toNat_expectedSize, Nat.mod_eq_of_lt hneeded, neededBytes, hmode] at h
  rcases h.2 with hempty | hsize
  · rw [hempty]
  · rw [hsize, Nat.mul_right_comm]
    exact Nat.mul_mod_left _ 3

/-- One with an incomplete pixel has no image. -/
theorem grayImage_partial (hmode : f.mode = .bgr) (hdepth : f.depth = .bits8) (hpixels : f.data.size % 3 ≠ 0) :
    f.grayImage = .error (.breach .indexOutOfRange) := by
  have hrule : f.intensityRule? = some (.luminance 3 2 1 0) := by
    unfold intensityRule?
    rw [hmode, hdepth]
  unfold grayImage
  simp only [hrule]
  rw [if_pos ⟨hmode, hpixels⟩]
  rfl

end Turned

/-! ## Both ways -/

/-- **Conversions between grids and frames undo each other.** A grid with dimensions below `2 ^ 32` that fits into a
frame has a frame, whose pixels are the cells and whose intensities are the grid. An accepted grey frame that is not
empty is given back, size and bytes, as long as its declared size does not wrap around; otherwise it is refused or cut
to dimensions of 32 bits. An accepted frame with blue first has the intensities of the frame that is turned round, as
long as it consists of whole pixels, which it does if its declared size does not wrap around. -/
theorem conversions_inverse (g : Grid UInt8) (f : Frame) :
    (g.rows < 2 ^ 32 → g.cols < 2 ^ 32 → g.cells.size ≤ capacity →
      ∃ made, ofGrid g = .ok made ∧ made.width.toNat = g.cols ∧ made.height.toNat = g.rows ∧
        (∀ x y : UInt64, ∀ (hx : x.toNat < g.cols) (hy : y.toNat < g.rows),
          made.grayAt? x y = some (g.get y.toNat x.toNat hy hx)) ∧
        made.grayImage = .ok g) ∧
    (f.mode = .grayscale → f.depth = .bits8 → f.check = .ok () → f.data.size ≠ 0 →
      (neededBytes f.width f.height f.mode f.depth < 2 ^ 64 →
        ∃ image, f.grayImage = .ok image ∧ ofGrid image = .ok f.pixelsOnly) ∧
      (f.grayImage = .error (.malformedFrame .bufferTooShort) ∨
        ∃ image, f.grayImage = .ok image ∧ ofGrid image = .ok f.cut)) ∧
    (f.mode = .bgr → f.depth = .bits8 → f.check = .ok () →
      (neededBytes f.width f.height f.mode f.depth < 2 ^ 64 → f.data.size % 3 = 0) ∧
      (f.data.size % 3 = 0 → f.turned.check = .ok () ∧ f.grayImage = f.turned.grayImage ∧
        ∀ k channel, channel ≤ 2 → 3 * k + 2 < f.data.size →
          f.turned.data.getD (3 * k + channel) 0 = f.data.getD (3 * k + (2 - channel)) 0) ∧
      (f.data.size % 3 ≠ 0 → f.grayImage = .error (.breach .indexOutOfRange))) := by
  refine ⟨?_, ?_, ?_⟩
  · intro hrows hcols hcells
    have hwidth := toNat_toUInt64_of_lt hcols
    have hheight := toNat_toUInt64_of_lt hrows
    refine ⟨_, ofGrid_eq hrows hcols hcells, hwidth, hheight, fun x y hx hy => grayAt?_ofGrid hcols hcells rfl hx hy,
      ?_⟩
    have hsize : g.cells.size = g.rows.toUInt64.toUInt32.toNat * g.cols.toUInt64.toUInt32.toNat := by
      rw [UInt64.toNat_toUInt32, UInt64.toNat_toUInt32, hwidth, hheight, Nat.mod_eq_of_lt hrows, Nat.mod_eq_of_lt hcols]
      exact g.size_cells
    rw [grayImage_grey_of_size rfl rfl hsize]
    congr 2
    · rw [UInt64.toNat_toUInt32, hheight, Nat.mod_eq_of_lt hrows]
    · rw [UInt64.toNat_toUInt32, hwidth, Nat.mod_eq_of_lt hcols]
  · intro hmode hdepth hcheck hdata
    refine ⟨fun hneeded => ?_, grayImage_accepted hmode hdepth hcheck hdata⟩
    rw [hmode, hdepth, neededBytes_grey] at hneeded
    exact ofGrid_grayImage hmode hdepth hcheck hdata hneeded
  · intro hmode hdepth hcheck
    exact ⟨whole_pixels hmode hcheck, fun hpixels => ⟨check_turned hmode hcheck, grayImage_turned hmode hdepth hpixels,
      fun k channel => getD_turnedBytes⟩, grayImage_partial hmode hdepth⟩

/-- A grid of two rows and three columns, and the frame of three columns and two rows. -/
theorem conversions_inverse_oblong : ∃ g : Grid UInt8, ∃ f, ofGrid g = .ok f ∧ f.grayImage = .ok g ∧
    f.grayAt? 2 1 = some 6 ∧ ofGray 3 2 #[1, 2, 3, 4, 5, 6] = .ok f := by
  obtain ⟨f, hf, -, -, hpixels, hback⟩ :=
    (conversions_inverse ⟨2, 3, #[1, 2, 3, 4, 5, 6], rfl⟩ .empty).1 (by decide) (by decide) (by decide)
  exact ⟨_, f, hf, hback, hpixels 2 1 (by decide) (by decide), hf⟩

/-- **A frame that is accepted because its declared size wraps around** is not given back: its image has one pixel. -/
theorem cut_accepted : ∃ f g, ofGray 9223372036854775809 9223372036854775809 #[5] = .ok f ∧ f.grayImage = .ok g ∧
    ∃ back, ofGrid g = .ok back ∧ back.width = 1 ∧ back.height = 1 := by
  have hf : ofGray 9223372036854775809 9223372036854775809 #[5] =
      .ok ⟨9223372036854775809, 9223372036854775809, .grayscale, .bits8, 0, #[], #[5]⟩ :=
    ofBytes_ok (by decide) (.inr (by decide))
  obtain ⟨g, hg, hback⟩ := ofGrid_grayImage_cut (f := ⟨9223372036854775809, 9223372036854775809, .grayscale, .bits8,
    0, #[], #[5]⟩) rfl rfl (by decide) (by decide)
  exact ⟨_, g, hf, hg, _, hback, by decide, by decide⟩

end Frame

end StereoMapping
