/-!
# `Image.Grid` — rectangular arrays, addressed by row and column

A grid knows that it holds `rows * cols` cells, so reading inside the rectangle cannot fail. `Grid.get` reads
where the position is known to be inside, `Grid.get?` anywhere.

## Contents
- `Grid`, `Grid.ofFn`, `Grid.get`, `Grid.get?`, `Grid.transpose`, `Grid.map`, `Grid.sequence?`, `Grid.rowLists`.
- `Grid.get_ofFn`, `Grid.ext_get`: a grid is the function from positions to cells that it was built from.
-/

namespace StereoMapping

/-- A rectangular array, row after row. -/
structure Grid (α : Type) where
  rows : Nat
  cols : Nat
  cells : Array α
  size_cells : cells.size = rows * cols

namespace Grid

variable {α β : Type}

/-- A position of the rectangle lies in the buffer. -/
theorem index_lt {rows cols i j : Nat} (hi : i < rows) (hj : j < cols) : i * cols + j < rows * cols :=
  calc i * cols + j < i * cols + cols := Nat.add_lt_add_left hj _
    _ = (i + 1) * cols := by rw [Nat.add_mul, Nat.one_mul]
    _ ≤ rows * cols := Nat.mul_le_mul_right _ hi

/-- Cell at a position of the rectangle. -/
def get (g : Grid α) (i j : Nat) (hi : i < g.rows) (hj : j < g.cols) : α :=
  have h : i * g.cols + j < g.cells.size := by rw [g.size_cells]; exact index_lt hi hj
  g.cells[i * g.cols + j]

/-- Cell at a position, if it is inside. -/
@[inline] def get? (g : Grid α) (i j : Nat) : Option α :=
  if h : i < g.rows ∧ j < g.cols then some (g.get i j h.1 h.2) else none

/-- The grid whose cell at `(i, j)` is `f i j`. -/
@[specialize] def ofFn (rows cols : Nat) (f : (i j : Nat) → i < rows → j < cols → α) : Grid α where
  rows := rows
  cols := cols
  cells := Array.ofFn fun k : Fin (rows * cols) =>
    have hc : 0 < cols := Nat.pos_of_lt_mul_left k.isLt
    f (k / cols) (k % cols) (Nat.div_lt_of_lt_mul (Nat.mul_comm rows cols ▸ k.isLt)) (Nat.mod_lt _ hc)
  size_cells := by simp

/-- The grid of one value. -/
def filled (rows cols : Nat) (a : α) : Grid α where
  rows := rows
  cols := cols
  cells := Array.replicate (rows * cols) a
  size_cells := by simp

/-- The grid over a buffer of the right size. -/
def ofArray? (rows cols : Nat) (cells : Array α) : Option (Grid α) :=
  if h : cells.size = rows * cols then some ⟨rows, cols, cells, h⟩ else none

/-- The grid with its rows as columns. -/
def transpose (g : Grid α) : Grid α := ofFn g.cols g.rows fun i j hi hj => g.get j i hj hi

def map (f : α → β) (g : Grid α) : Grid β where
  rows := g.rows
  cols := g.cols
  cells := g.cells.map f
  size_cells := by simp [g.size_cells]

/-- The grid of the values, if every cell has one. -/
def sequence? (g : Grid (Option α)) : Option (Grid α) :=
  if h : ∀ k, (hk : k < g.cells.size) → g.cells[k].isSome then
    some {
      rows := g.rows
      cols := g.cols
      cells := Array.ofFn fun k : Fin g.cells.size => g.cells[k].get (h k k.isLt)
      size_cells := by simp [g.size_cells] }
  else none

/-- Rows as lists, top to bottom. -/
def rowLists (g : Grid α) : List (List α) :=
  (List.range g.rows).map fun i => (g.cells.extract (i * g.cols) ((i + 1) * g.cols)).toList

@[simp] theorem rows_ofFn {rows cols : Nat} {f : (i j : Nat) → i < rows → j < cols → α} :
    (ofFn rows cols f).rows = rows := rfl

@[simp] theorem cols_ofFn {rows cols : Nat} {f : (i j : Nat) → i < rows → j < cols → α} :
    (ofFn rows cols f).cols = cols := rfl

/-- Reading a grid built from a function gives the function's value. -/
@[simp] theorem get_ofFn {rows cols : Nat} {f : (i j : Nat) → i < rows → j < cols → α} {i j : Nat}
    (hi : i < (ofFn rows cols f).rows) (hj : j < (ofFn rows cols f).cols) :
    (ofFn rows cols f).get i j hi hj = f i j hi hj := by
  have hj' : j < cols := hj
  have hc : 0 < cols := Nat.lt_of_le_of_lt (Nat.zero_le j) hj'
  have hdiv : (i * cols + j) / cols = i := by
    rw [Nat.mul_comm, Nat.mul_add_div hc, Nat.div_eq_of_lt hj', Nat.add_zero]
  have hmod : (i * cols + j) % cols = j := by
    rw [Nat.mul_comm, Nat.mul_add_mod, Nat.mod_eq_of_lt hj']
  simp [get, ofFn, hdiv, hmod]

/-- Two grids of one shape with the same cells are equal. -/
theorem ext_get {g h : Grid α} (hr : g.rows = h.rows) (hc : g.cols = h.cols)
    (hcells : ∀ i j, (hi : i < g.rows) → (hj : j < g.cols) →
      g.get i j hi hj = h.get i j (hr ▸ hi) (hc ▸ hj)) : g = h := by
  obtain ⟨rows, cols, cells, size⟩ := g
  obtain ⟨rows', cols', cells', size'⟩ := h
  cases hr
  cases hc
  have : cells = cells' := by
    apply Array.ext (by rw [size, size'])
    intro k hk hk'
    have hlt : k < rows * cols := size ▸ hk
    have hpos : 0 < cols := Nat.pos_of_lt_mul_left hlt
    have hcell := hcells (k / cols) (k % cols)
      (Nat.div_lt_of_lt_mul (Nat.mul_comm rows cols ▸ hlt)) (Nat.mod_lt _ hpos)
    have hk : k / cols * cols + k % cols = k := Nat.div_add_mod' k cols
    simpa [get, hk] using hcell
  cases this
  rfl

end Grid

end StereoMapping
