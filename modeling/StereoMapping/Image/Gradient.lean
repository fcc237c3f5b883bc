import StereoMapping.Number.Scalar
import StereoMapping.Image.Grid

/-!
# `Image.Gradient` — centred differences and sums over windows

Positions are `(row, column)`. What would need a pixel outside the image is zero.
-/

namespace StereoMapping

variable {α : Type} [Scalar α]

/-- An intensity as a scalar. -/
def level (byte : UInt8) : α := Scalar.ofNat byte.toNat

/-- A position that is not on the border, so that its eight neighbours are inside. -/
structure Grid.Interior {β : Type} (g : Grid β) (i j : Nat) : Prop where
  top : 0 < i
  left : 0 < j
  bottom : i + 1 < g.rows
  right : j + 1 < g.cols

instance {β : Type} (g : Grid β) (i j : Nat) : Decidable (g.Interior i j) :=
  decidable_of_iff (0 < i ∧ 0 < j ∧ i + 1 < g.rows ∧ j + 1 < g.cols)
    ⟨fun ⟨a, b, c, d⟩ => ⟨a, b, c, d⟩, fun ⟨a, b, c, d⟩ => ⟨a, b, c, d⟩⟩

/-- A place along a side of a 3x3 window. -/
inductive Third where
  | first
  | middle
  | last
  deriving DecidableEq

/-- Distance from the start of the window. -/
def Third.offset : Third → Nat
  | first => 0
  | middle => 1
  | last => 2

theorem Third.offset_le (t : Third) : t.offset ≤ 2 := by cases t <;> decide

theorem Grid.Interior.row_lt {β : Type} {g : Grid β} {i j : Nat} (h : g.Interior i j) (t : Third) :
    i + t.offset - 1 < g.rows := by
  have hb := h.bottom
  have ht := t.offset_le
  omega

theorem Grid.Interior.col_lt {β : Type} {g : Grid β} {i j : Nat} (h : g.Interior i j) (t : Third) :
    j + t.offset - 1 < g.cols := by
  have hr := h.right
  have ht := t.offset_le
  omega

/-- Cell in the 3x3 window around an interior position. -/
def Grid.window {β : Type} (g : Grid β) {i j : Nat} (h : g.Interior i j) (row col : Third) : β :=
  g.get (i + row.offset - 1) (j + col.offset - 1) (h.row_lt row) (h.col_lt col)

namespace Gradient

/-- Half the difference of the right and the left neighbour. -/
def horizontal (g : Grid UInt8) : Grid α :=
  Grid.ofFn g.rows g.cols fun i j hi _ =>
    if h : 0 < j ∧ j + 1 < g.cols then
      (level (g.get i (j + 1) hi h.2) - level (g.get i (j - 1) hi (by omega))) / Scalar.two
    else 0

/-- Half the difference of the lower and the upper neighbour. -/
def vertical (g : Grid UInt8) : Grid α :=
  Grid.ofFn g.rows g.cols fun i j _ hj =>
    if h : 0 < i ∧ i + 1 < g.rows then
      (level (g.get (i + 1) j h.2 hj) - level (g.get (i - 1) j (by omega) hj)) / Scalar.two
    else 0

/-- Sum of the 3x3 window, added column by column. -/
def boxSum (g : Grid α) : Grid α :=
  Grid.ofFn g.rows g.cols fun i j _ _ =>
    if h : g.Interior i j then
      0 + g.window h .first .first + g.window h .middle .first + g.window h .last .first
        + g.window h .first .middle + g.window h .middle .middle + g.window h .last .middle
        + g.window h .first .last + g.window h .middle .last + g.window h .last .last
    else 0

end Gradient

end StereoMapping
