import Mathlib.Data.Fintype.BigOperators
import Mathlib.Tactic.IntervalCases
import Mathlib.Tactic.LinearCombination
import StereoMapping.Image.Corner
import StereoMapping.Proofs.Image.Disparity

/-!
# `Proofs.Image.Symmetry` — the corner response turns with its image

Rows and columns go separate ways: each has its own gradient with borders of its own, and the two meet again only in
windows. Read as numbers that are zero outside, grids lose their borders. A gradient is then a difference of two values,
and a sum over a window runs over its nine places, in any order. What turns an image turns the windows of its gradients,
place by place, and changes at most the sign of a gradient. The response takes no notice: it treats both gradients
alike, and each sum of products has an even number of signs, or occurs squared. The intensities themselves come in only
as differences, so that they can be raised together, or reversed.

## Contents
- `Grid.mirror`, `Grid.flip`: turned grids.
- `Grid.value`, `Grid.near`: cells and windows as numbers, zero outside.
- `value_horizontal`, `value_vertical`, `value_boxSum`: gradients and sums over windows, without borders.
- `moment_carry`: a sum of products over a window that is carried onto another one.
- `value_response_carry`, `response_transpose`, `response_mirror`, `response_of_affine`.
-/

namespace StereoMapping

/-! ## Places of a window -/

namespace Third

instance : Fintype Third := ⟨{.first, .middle, .last}, fun t => by cases t <;> decide⟩

theorem sum_eq (f : Third → ℝ) : ∑ t, f t = f .first + f .middle + f .last := by
  show ∑ t ∈ {first, middle, last}, f t = _
  rw [Finset.sum_insert (by decide), Finset.sum_insert (by decide), Finset.sum_singleton, add_assoc]

/-- The place at the other end. -/
def opposite : Third → Third
  | first => last
  | middle => middle
  | last => first

theorem opposite_involutive : Function.Involutive opposite := by
  intro t
  cases t <;> rfl

end Third

/-! ## Turned grids -/

namespace Grid

section

variable {α : Type}

/-- The grid with its columns in the opposite order. -/
def mirror (g : Grid α) : Grid α :=
  ofFn g.rows g.cols fun i j hi hj => g.get i (g.cols - 1 - j) hi (by omega)

/-- The grid with its rows in the opposite order. -/
def flip (g : Grid α) : Grid α :=
  ofFn g.rows g.cols fun i j hi hj => g.get (g.rows - 1 - i) j (by omega) hj

theorem get?_of_lt {g : Grid α} {i j : Nat} (hi : i < g.rows) (hj : j < g.cols) :
    g.get? i j = some (g.get i j hi hj) := dif_pos ⟨hi, hj⟩

theorem get?_of_not_lt {g : Grid α} {i j : Nat} (h : ¬ (i < g.rows ∧ j < g.cols)) : g.get? i j = none := dif_neg h

theorem get?_transpose (g : Grid α) (i j : Nat) : g.transpose.get? i j = g.get? j i := by
  by_cases h : j < g.rows ∧ i < g.cols
  · rw [get?_of_lt (g := g.transpose) h.2 h.1, get?_of_lt h.1 h.2]
    exact congrArg some (get_ofFn _ _)
  · rw [get?_of_not_lt h]
    exact get?_of_not_lt fun h' => h h'.symm

theorem get?_mirror (g : Grid α) (i : Nat) {j : Nat} (hj : j < g.cols) :
    g.mirror.get? i j = g.get? i (g.cols - 1 - j) := by
  by_cases hi : i < g.rows
  · rw [get?_of_lt (g := g.mirror) hi hj, get?_of_lt hi (by omega)]
    exact congrArg some (get_ofFn _ _)
  · rw [get?_of_not_lt fun h => hi h.1]
    exact get?_of_not_lt fun h => hi h.1

theorem get?_flip (g : Grid α) {i : Nat} (j : Nat) (hi : i < g.rows) :
    g.flip.get? i j = g.get? (g.rows - 1 - i) j := by
  by_cases hj : j < g.cols
  · rw [get?_of_lt (g := g.flip) hi hj, get?_of_lt (by omega) hj]
    exact congrArg some (get_ofFn _ _)
  · rw [get?_of_not_lt fun h => hj h.2]
    exact get?_of_not_lt fun h => hj h.2

theorem ext_get? {f g : Grid α} (hr : f.rows = g.rows) (hc : f.cols = g.cols)
    (h : ∀ i j, i < f.rows → j < f.cols → f.get? i j = g.get? i j) : f = g := by
  refine ext_get hr hc fun i j hi hj => ?_
  have hcell := h i j hi hj
  rw [get?_of_lt hi hj, get?_of_lt (hr ▸ hi) (hc ▸ hj)] at hcell
  exact Option.some.inj hcell

theorem transpose_transpose (g : Grid α) : g.transpose.transpose = g :=
  ext_get? rfl rfl fun i j _ _ => by rw [get?_transpose, get?_transpose]

/-- To turn the rows round is to turn the columns round while they are rows. -/
theorem flip_eq (g : Grid α) : g.flip = g.transpose.mirror.transpose := by
  refine ext_get? rfl rfl fun i j hi _ => ?_
  rw [get?_flip g j hi, get?_transpose, get?_mirror g.transpose j hi, get?_transpose]
  rfl

end

/-! ## Cells as numbers -/

/-- Cell of a grid of numbers, zero outside. -/
noncomputable def value (g : Grid ℝ) (i j : Nat) : ℝ := (g.get? i j).getD 0

theorem value_of_lt {g : Grid ℝ} {i j : Nat} (hi : i < g.rows) (hj : j < g.cols) : g.value i j = g.get i j hi hj := by
  unfold value
  rw [get?_of_lt hi hj]
  rfl

theorem value_of_not_lt {g : Grid ℝ} {i j : Nat} (h : ¬ (i < g.rows ∧ j < g.cols)) : g.value i j = 0 := by
  unfold value
  rw [get?_of_not_lt h]
  rfl

theorem value_ofFn {rows cols : Nat} {f : (i j : Nat) → i < rows → j < cols → ℝ} {i j : Nat} (hi : i < rows)
    (hj : j < cols) : (ofFn rows cols f).value i j = f i j hi hj :=
  (value_of_lt (g := ofFn rows cols f) hi hj).trans (get_ofFn hi hj)

/-- Grids of one shape with the same values are equal. -/
theorem ext_value {f g : Grid ℝ} (hr : f.rows = g.rows) (hc : f.cols = g.cols)
    (h : ∀ i j, i < f.rows → j < f.cols → f.value i j = g.value i j) : f = g := by
  refine ext_get hr hc fun i j hi hj => ?_
  rw [← value_of_lt hi hj, ← value_of_lt (hr ▸ hi) (hc ▸ hj)]
  exact h i j hi hj

theorem value_transpose (g : Grid ℝ) (i j : Nat) : g.transpose.value i j = g.value j i := by
  unfold value
  rw [get?_transpose]

theorem value_mirror (g : Grid ℝ) (i : Nat) {j : Nat} (hj : j < g.cols) :
    g.mirror.value i j = g.value i (g.cols - 1 - j) := by
  unfold value
  rw [get?_mirror g i hj]

/-- Value at a place of the window around a position. -/
noncomputable def near (g : Grid ℝ) (i j : Nat) (p : Third × Third) : ℝ :=
  g.value (i + p.1.offset - 1) (j + p.2.offset - 1)

end Grid

open Grid StereoMapping.Gradient Disparity Corner

/-! ## Gradients and windows without borders -/

/-- Intensity of a pixel as a number, zero outside. -/
noncomputable def brightness (image : Grid UInt8) (i j : Nat) : ℝ := level (intensity image i j)

theorem brightness_transpose (image : Grid UInt8) (i j : Nat) :
    brightness image.transpose i j = brightness image j i := by
  unfold brightness intensity
  rw [get?_transpose]

theorem brightness_mirror (image : Grid UInt8) (i : Nat) {j : Nat} (hj : j < image.cols) :
    brightness image.mirror i j = brightness image i (image.cols - 1 - j) := by
  unfold brightness intensity
  rw [get?_mirror image i hj]

theorem level_get {image : Grid UInt8} {i j : Nat} (hi : i < image.rows) (hj : j < image.cols) :
    (level (image.get i j hi hj) : ℝ) = brightness image i j := by
  unfold brightness intensity
  rw [get?_of_lt hi hj]
  rfl

theorem value_horizontal (image : Grid UInt8) (i j : Nat) : (horizontal image : Grid ℝ).value i j =
    if i < image.rows ∧ 0 < j ∧ j + 1 < image.cols
      then (brightness image i (j + 1) - brightness image i (j - 1)) / 2 else 0 := by
  by_cases h : i < image.rows ∧ j < image.cols
  · unfold horizontal
    rw [value_ofFn h.1 h.2]
    by_cases hj : 0 < j ∧ j + 1 < image.cols
    · rw [dif_pos hj, if_pos ⟨h.1, hj⟩, level_get, level_get, Scalar.real_two]
    · rw [dif_neg hj, if_neg fun h' => hj h'.2]
  · rw [value_of_not_lt (g := horizontal image) h, if_neg fun h' => h ⟨h'.1, by omega⟩]

theorem value_vertical (image : Grid UInt8) (i j : Nat) : (vertical image : Grid ℝ).value i j =
    if j < image.cols ∧ 0 < i ∧ i + 1 < image.rows
      then (brightness image (i + 1) j - brightness image (i - 1) j) / 2 else 0 := by
  by_cases h : i < image.rows ∧ j < image.cols
  · unfold vertical
    rw [value_ofFn h.1 h.2]
    by_cases hi : 0 < i ∧ i + 1 < image.rows
    · rw [dif_pos hi, if_pos ⟨h.2, hi⟩, level_get, level_get, Scalar.real_two]
    · rw [dif_neg hi, if_neg fun h' => hi h'.2]
  · rw [value_of_not_lt (g := vertical image) h, if_neg fun h' => h ⟨by omega, h'.1⟩]

/-- **The sum over a window**, in any order of its places. -/
theorem value_boxSum (g : Grid ℝ) (i j : Nat) :
    (boxSum g).value i j = if g.Interior i j then ∑ p : Third × Third, g.near i j p else 0 := by
  by_cases h : i < g.rows ∧ j < g.cols
  · unfold boxSum
    rw [value_ofFn h.1 h.2]
    by_cases hin : g.Interior i j
    · have hwindow : ∀ row col, g.window hin row col = g.near i j (row, col) := fun row col =>
        (value_of_lt (hin.row_lt row) (hin.col_lt col)).symm
      rw [dif_pos hin, if_pos hin, Fintype.sum_prod_type, Third.sum_eq, Third.sum_eq, Third.sum_eq, Third.sum_eq]
      simp only [hwindow]
      ring
    · rw [dif_neg hin, if_neg hin]
  · have hout : ¬ g.Interior i j := fun hin => h ⟨by have := hin.bottom; omega, by have := hin.right; omega⟩
    rw [value_of_not_lt (g := boxSum g) h, if_neg hout]

theorem value_product (f g : Grid ℝ) (i j : Nat) : (product f g).value i j = f.value i j * g.value i j := by
  by_cases h : i < f.rows ∧ j < f.cols
  · unfold product
    rw [value_ofFn h.1 h.2, value_of_lt h.1 h.2]
    unfold value
    cases g.get? i j with
    | none => exact (mul_zero _).symm
    | some b => rfl
  · rw [value_of_not_lt (g := product f g) h, value_of_not_lt h, zero_mul]

/-! ## Sums of products -/

/-- Sum of the products of two gradients over the window of a pixel. -/
noncomputable def moment (f g : Grid ℝ) (i j : Nat) : ℝ := (boxSum (product f g)).value i j

theorem moment_eq (f g : Grid ℝ) (i j : Nat) :
    moment f g i j = if f.Interior i j then ∑ p : Third × Third, f.near i j p * g.near i j p else 0 := by
  have hin : (product f g).Interior i j ↔ f.Interior i j :=
    ⟨fun ⟨a, b, c, d⟩ => ⟨a, b, c, d⟩, fun ⟨a, b, c, d⟩ => ⟨a, b, c, d⟩⟩
  unfold moment
  rw [value_boxSum]
  simp only [hin, near, value_product]

theorem moment_comm {f g : Grid ℝ} (hr : f.rows = g.rows) (hc : f.cols = g.cols) (i j : Nat) :
    moment f g i j = moment g f i j := by
  have hin : f.Interior i j ↔ g.Interior i j :=
    ⟨fun ⟨a, b, c, d⟩ => ⟨a, b, hr ▸ c, hc ▸ d⟩, fun ⟨a, b, c, d⟩ => ⟨a, b, hr ▸ c, hc ▸ d⟩⟩
  simp only [moment_eq, hin, mul_comm]

/-- **A window that is carried onto another one**, up to a factor for each of the grids, has the sum of products of that
one, up to both factors. -/
theorem moment_carry {f g f' g' : Grid ℝ} {i j i' j' : Nat} {s t : ℝ} (e : Third × Third ≃ Third × Third)
    (hin : f'.Interior i' j' ↔ f.Interior i j)
    (hf : f.Interior i j → ∀ p, f'.near i' j' p = s * f.near i j (e p))
    (hg : f.Interior i j → ∀ p, g'.near i' j' p = t * g.near i j (e p)) :
    moment f' g' i' j' = s * t * moment f g i j := by
  rw [moment_eq, moment_eq]
  by_cases h : f.Interior i j
  · rw [if_pos h, if_pos (hin.mpr h), ← Equiv.sum_comp e fun p => f.near i j p * g.near i j p, Finset.mul_sum]
    refine Finset.sum_congr rfl fun p _ => ?_
    rw [hf h, hg h]
    ring
  · rw [if_neg h, if_neg fun h' => h (hin.mp h'), mul_zero]

/-! ## The response -/

/-- Response of the sums of squares and of mixed products. -/
noncomputable def strength (k a b c : ℝ) : ℝ := a * b - c * c - k * (a + b) * (a + b)

theorem strength_comm (k a b c : ℝ) : strength k b a c = strength k a b c := by
  unfold strength
  ring

/-- Signs of the gradients make no difference. -/
theorem strength_signs {s t : ℝ} (hs : s * s = 1) (ht : t * t = 1) (k a b c : ℝ) :
    strength k (s * s * a) (t * t * b) (s * t * c) = strength k a b c := by
  unfold strength
  rw [hs, ht]
  linear_combination (-(c * c) * (t * t)) * hs - c * c * ht

theorem value_response (k : ℝ) {image : Grid UInt8} {i j : Nat} (hi : i < image.rows) (hj : j < image.cols) :
    (response k image).value i j = strength k (moment (horizontal image) (horizontal image) i j)
      (moment (vertical image) (vertical image) i j) (moment (horizontal image) (vertical image) i j) := by
  have hsum : ∀ f g : Grid ℝ, (hr : f.rows = image.rows) → (hc : f.cols = image.cols) →
      (boxSum (product f g)).get i j (hr ▸ hi) (hc ▸ hj) = moment f g i j := fun f g hr hc =>
    (value_of_lt (g := boxSum (product f g)) (hr ▸ hi) (hc ▸ hj)).symm
  unfold response
  rw [value_ofFn hi hj, hsum _ _ rfl rfl, hsum _ _ rfl rfl, hsum _ _ rfl rfl]
  rfl

theorem interior_horizontal {image : Grid UInt8} {i j : Nat} :
    (horizontal image : Grid ℝ).Interior i j ↔ image.Interior i j :=
  ⟨fun ⟨a, b, c, d⟩ => ⟨a, b, c, d⟩, fun ⟨a, b, c, d⟩ => ⟨a, b, c, d⟩⟩

theorem interior_vertical {image : Grid UInt8} {i j : Nat} :
    (vertical image : Grid ℝ).Interior i j ↔ image.Interior i j :=
  ⟨fun ⟨a, b, c, d⟩ => ⟨a, b, c, d⟩, fun ⟨a, b, c, d⟩ => ⟨a, b, c, d⟩⟩

/-- **Around a border pixel there is no window**, and no response. -/
theorem value_response_border (k : ℝ) {image : Grid UInt8} {i j : Nat} (hi : i < image.rows) (hj : j < image.cols)
    (hborder : ¬ image.Interior i j) : (response k image).value i j = 0 := by
  have hx : ¬ (horizontal image : Grid ℝ).Interior i j := fun h => hborder (interior_horizontal.mp h)
  have hy : ¬ (vertical image : Grid ℝ).Interior i j := fun h => hborder (interior_vertical.mp h)
  rw [value_response k hi hj, moment_eq, moment_eq, moment_eq, if_neg hx, if_neg hx, if_neg hy]
  unfold strength
  ring

/-- **A pixel around which both gradients are carried onto those around another one**, up to their signs, has the
response of that one. -/
theorem value_response_carry (k : ℝ) {image image' : Grid UInt8} {i j i' j' : Nat} {s t : ℝ} (hs : s * s = 1)
    (ht : t * t = 1) (e : Third × Third ≃ Third × Third) (hi : i < image.rows) (hj : j < image.cols)
    (hi' : i' < image'.rows) (hj' : j' < image'.cols) (hin : image'.Interior i' j' ↔ image.Interior i j)
    (hx : image.Interior i j → ∀ p, (horizontal image').near i' j' p = s * (horizontal image).near i j (e p))
    (hy : image.Interior i j → ∀ p, (vertical image').near i' j' p = t * (vertical image).near i j (e p)) :
    (response k image').value i' j' = (response k image).value i j := by
  rw [← interior_horizontal, ← interior_horizontal] at hin
  rw [← interior_horizontal] at hx hy
  have hin' := hin.trans (interior_horizontal.trans interior_vertical.symm)
  have hy' := fun h => hy (interior_horizontal.mpr (interior_vertical.mp h))
  rw [value_response k hi' hj', value_response k hi hj, moment_carry e hin hx hx, moment_carry e hin hx hy,
    moment_carry e (interior_vertical.trans (interior_horizontal.symm.trans hin')) hy' hy', strength_signs hs ht]

/-! ## Turned images -/

section Turned

variable (image : Grid UInt8)

theorem value_horizontal_transpose (i j : Nat) :
    (horizontal image.transpose : Grid ℝ).value i j = (vertical image).value j i := by
  rw [value_horizontal, value_vertical, brightness_transpose, brightness_transpose]
  rfl

theorem value_vertical_transpose (i j : Nat) :
    (vertical image.transpose : Grid ℝ).value i j = (horizontal image).value j i := by
  rw [value_horizontal, value_vertical, brightness_transpose, brightness_transpose]
  rfl

/-- In the mirror the difference of two columns has the other sign. -/
theorem value_horizontal_mirror (i : Nat) {j : Nat} (hj : j < image.cols) :
    (horizontal image.mirror : Grid ℝ).value i j = -1 * (horizontal image).value i (image.cols - 1 - j) := by
  have hmirror : (horizontal image.mirror : Grid ℝ).value i j = if i < image.rows ∧ 0 < j ∧ j + 1 < image.cols
      then (brightness image.mirror i (j + 1) - brightness image.mirror i (j - 1)) / 2 else 0 :=
    value_horizontal image.mirror i j
  have hsides : 0 < image.cols - 1 - j ∧ image.cols - 1 - j + 1 < image.cols ↔ 0 < j ∧ j + 1 < image.cols := by
    omega
  rw [hmirror, value_horizontal]
  simp only [hsides]
  by_cases h : i < image.rows ∧ 0 < j ∧ j + 1 < image.cols
  · have hright : image.cols - 1 - (j + 1) = image.cols - 1 - j - 1 := by omega
    have hleft : image.cols - 1 - (j - 1) = image.cols - 1 - j + 1 := by omega
    rw [if_pos h, if_pos h, brightness_mirror image i h.2.2, brightness_mirror image i (by omega), hright, hleft]
    ring
  · rw [if_neg h, if_neg h, mul_zero]

/-- That of two rows is mirrored. -/
theorem value_vertical_mirror (i : Nat) {j : Nat} (hj : j < image.cols) :
    (vertical image.mirror : Grid ℝ).value i j = 1 * (vertical image).value i (image.cols - 1 - j) := by
  have hmirror : (vertical image.mirror : Grid ℝ).value i j = if j < image.cols ∧ 0 < i ∧ i + 1 < image.rows
      then (brightness image.mirror (i + 1) j - brightness image.mirror (i - 1) j) / 2 else 0 :=
    value_vertical image.mirror i j
  have hinside : image.cols - 1 - j < image.cols ↔ j < image.cols := by omega
  rw [hmirror, value_vertical, one_mul, brightness_mirror image _ hj, brightness_mirror image _ hj]
  simp only [hinside]

/-- **A transposed image has the transposed response**: the two gradients change places. -/
theorem response_transpose (k : ℝ) : response k image.transpose = (response k image).transpose := by
  refine ext_value rfl rfl fun i j hi hj => ?_
  have hin : image.transpose.Interior i j ↔ image.Interior j i :=
    ⟨fun ⟨a, b, c, d⟩ => ⟨b, a, d, c⟩, fun ⟨a, b, c, d⟩ => ⟨b, a, d, c⟩⟩
  have hx : ∀ p, (horizontal image.transpose).near i j p = 1 * (vertical image).near j i (Equiv.prodComm _ _ p) :=
    fun p => (value_horizontal_transpose image _ _).trans (one_mul _).symm
  have hy : ∀ p, (vertical image.transpose).near i j p = 1 * (horizontal image).near j i (Equiv.prodComm _ _ p) :=
    fun p => (value_vertical_transpose image _ _).trans (one_mul _).symm
  have hh := interior_horizontal.trans (hin.trans interior_vertical.symm)
  have hv := interior_vertical.trans (hin.trans interior_horizontal.symm)
  rw [value_transpose, value_response k hi hj, value_response k hj hi,
    moment_carry _ hh (fun _ => hx) (fun _ => hx), moment_carry _ hv (fun _ => hy) (fun _ => hy),
    moment_carry _ hh (fun _ => hx) (fun _ => hy), strength_signs (one_mul 1) (one_mul 1), strength_comm,
    moment_comm (f := vertical image) (g := horizontal image) rfl rfl]

/-- **A mirrored image has the mirrored response.** -/
theorem response_mirror (k : ℝ) : response k image.mirror = (response k image).mirror := by
  refine ext_value rfl rfl fun i j hi hj => ?_
  have hi : i < image.rows := hi
  have hj : j < image.cols := hj
  have hin : image.mirror.Interior i j ↔ image.Interior i (image.cols - 1 - j) :=
    ⟨fun ⟨a, b, c, d⟩ => ⟨a, by have : j + 1 < image.cols := d; omega, c, by omega⟩,
      fun ⟨a, b, c, d⟩ => ⟨a, by omega, c, show j + 1 < image.cols by omega⟩⟩
  -- the places of the window change sides
  have hplace : image.Interior i (image.cols - 1 - j) → ∀ t : Third, j + t.offset - 1 < image.cols ∧
      image.cols - 1 - (j + t.offset - 1) = image.cols - 1 - j + t.opposite.offset - 1 := by
    rintro ⟨-, hleft, -, hright⟩ t
    cases t <;> simp only [Third.offset, Third.opposite] <;> omega
  have hcarry : (response k image.mirror).value i j = (response k image).value i (image.cols - 1 - j) := by
    refine value_response_carry k (s := -1) (t := 1) (by ring) (by ring)
      ((Equiv.refl _).prodCongr Third.opposite_involutive.toPerm) hi (by omega) hi hj hin ?_ ?_
    · intro h p
      obtain ⟨hlt, hplace⟩ := hplace h p.2
      exact (value_horizontal_mirror image _ hlt).trans (by rw [hplace]; rfl)
    · intro h p
      obtain ⟨hlt, hplace⟩ := hplace h p.2
      exact (value_vertical_mirror image _ hlt).trans (by rw [hplace]; rfl)
  exact hcarry.trans (value_mirror (response k image) i hj).symm

theorem response_flip (k : ℝ) : response k image.flip = (response k image).flip := by
  rw [flip_eq, flip_eq, response_transpose, response_mirror, response_transpose]

end Turned

/-! ## Changed intensities -/

/-- **Intensities that are raised together, reversed or not, leave the response as it is.** -/
theorem response_of_affine (k : ℝ) {image image' : Grid UInt8} {s c : ℝ} (hs : s * s = 1)
    (hrows : image'.rows = image.rows) (hcols : image'.cols = image.cols)
    (h : ∀ i j, i < image.rows → j < image.cols → brightness image' i j = s * brightness image i j + c) :
    response k image' = response k image := by
  have hx : ∀ i j, (horizontal image' : Grid ℝ).value i j = s * (horizontal image).value i j := by
    intro i j
    rw [value_horizontal, value_horizontal, hrows, hcols]
    split
    · rename_i hin
      rw [h i (j + 1) hin.1 hin.2.2, h i (j - 1) hin.1 (by omega)]
      ring
    · exact (mul_zero s).symm
  have hy : ∀ i j, (vertical image' : Grid ℝ).value i j = s * (vertical image).value i j := by
    intro i j
    rw [value_vertical, value_vertical, hrows, hcols]
    split
    · rename_i hin
      rw [h (i + 1) j hin.2.2 hin.1, h (i - 1) j (by omega) hin.1]
      ring
    · exact (mul_zero s).symm
  have hin : ∀ i j, image'.Interior i j ↔ image.Interior i j := fun i j =>
    ⟨fun ⟨a, b, c, d⟩ => ⟨a, b, hrows ▸ c, hcols ▸ d⟩, fun ⟨a, b, c, d⟩ => ⟨a, b, hrows ▸ c, hcols ▸ d⟩⟩
  -- both differences change by one sign, of which the products are free
  refine ext_value hrows hcols fun i j hi hj => ?_
  exact value_response_carry k hs hs (Equiv.refl _) (hrows ▸ hi) (hcols ▸ hj) hi hj (hin i j) (fun _ _ => hx _ _)
    (fun _ _ => hy _ _)

/-- An image in which every intensity is another one's changed by the same amount. -/
structure Raised (c : ℤ) (image raised : Grid UInt8) : Prop where
  rows_eq : raised.rows = image.rows
  cols_eq : raised.cols = image.cols
  intensity_eq : ∀ i j, i < image.rows → j < image.cols →
    ((intensity raised i j).toNat : ℤ) = (intensity image i j).toNat + c

theorem Raised.response_eq {c : ℤ} {image raised : Grid UInt8} (h : Raised c image raised) (k : ℝ) :
    response k raised = response k image := by
  refine response_of_affine k (s := 1) (c := c) (by ring) h.rows_eq h.cols_eq fun i j hi hj => ?_
  have hlevel := h.intensity_eq i j hi hj
  show ((intensity raised i j).toNat : ℝ) = 1 * ((intensity image i j).toNat : ℝ) + c
  rw [one_mul]
  exact_mod_cast hlevel

/-- The image with black as white. -/
def negative (image : Grid UInt8) : Grid UInt8 := image.map (255 - ·)

theorem intensity_negative {image : Grid UInt8} {i j : Nat} (hi : i < image.rows) (hj : j < image.cols) :
    (intensity (negative image) i j).toNat = 255 - (intensity image i j).toNat := by
  have hcell : (negative image).get? i j = (image.get? i j).map (255 - ·) := by
    rw [get?_of_lt hi hj, get?_of_lt (g := negative image) hi hj]
    simp [negative, Grid.get, Grid.map]
  unfold intensity
  rw [hcell, get?_of_lt hi hj]
  exact UInt8.toNat_sub_of_le _ _ (UInt8.le_iff_toNat_le.mpr (Nat.le_of_lt_succ (image.get i j hi hj).toNat_lt))

theorem response_negative (image : Grid UInt8) (k : ℝ) : response k (negative image) = response k image := by
  refine response_of_affine k (s := -1) (c := 255) (by ring) rfl rfl fun i j hi hj => ?_
  have hle : (intensity image i j).toNat ≤ 255 := Nat.le_of_lt_succ (intensity image i j).toNat_lt
  show ((intensity (negative image) i j).toNat : ℝ) = -1 * ((intensity image i j).toNat : ℝ) + 255
  rw [intensity_negative hi hj, Nat.cast_sub hle]
  push_cast
  ring

/-- **The corner response has the symmetries of its image.** -/
theorem corner_response_symmetries (k : ℝ) (image : Grid UInt8) :
    response k image.transpose = (response k image).transpose ∧
      response k image.mirror = (response k image).mirror ∧
      response k image.flip = (response k image).flip ∧
      response k (negative image) = response k image ∧
      (∀ (c : ℤ) (raised : Grid UInt8), Raised c image raised → response k raised = response k image) ∧
      ∀ i j (hi : i < image.rows) (hj : j < image.cols),
        i = 0 ∨ j = 0 ∨ i + 1 = image.rows ∨ j + 1 = image.cols → (response k image).get i j hi hj = 0 := by
  refine ⟨response_transpose image k, response_mirror image k, response_flip image k, response_negative image k,
    fun c raised h => h.response_eq k, ?_⟩
  intro i j hi hj hborder
  rw [← value_of_lt (g := response k image) hi hj]
  refine value_response_border k hi hj ?_
  rintro ⟨htop, hleft, hbottom, hright⟩
  omega

/-- A slope that starts at an intensity. -/
def slope (c : Nat) : Grid UInt8 := ofFn 3 4 fun i j _ _ => UInt8.ofNat (c + 16 * i + j * j)

theorem intensity_slope {c i j : Nat} (hi : i < 3) (hj : j < 4) :
    intensity (slope c) i j = UInt8.ofNat (c + 16 * i + j * j) := by
  unfold intensity
  rw [get?_of_lt (g := slope c) hi hj]
  exact get_ofFn hi hj

/-- A slope that is 7 brighter has the same response, and a corner of it has none. -/
theorem corner_response_symmetries_slope : response (1 / 20 : ℝ) (slope 7) = response (1 / 20) (slope 0) ∧
    (response (1 / 20 : ℝ) (slope 0)).get 0 0 (Nat.zero_lt_succ 2) (Nat.zero_lt_succ 3) = 0 := by
  have hresponse := (corner_response_symmetries (1 / 20) (slope 0)).2.2.2.2
  have hslope : ∀ i j, i < 3 → j < 4 →
      ((intensity (slope 7) i j).toNat : ℤ) = (intensity (slope 0) i j).toNat + 7 := by
    intro i j hi hj
    rw [intensity_slope hi hj, intensity_slope hi hj]
    interval_cases i <;> interval_cases j <;> rfl
  exact ⟨hresponse.1 7 (slope 7) ⟨rfl, rfl, hslope⟩,
    hresponse.2 0 0 (Nat.zero_lt_succ 2) (Nat.zero_lt_succ 3) (.inl rfl)⟩

end StereoMapping
