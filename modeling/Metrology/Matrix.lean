/-
Rectangles of cells, stored row by row. Loops visit a matrix column by
column and put what they find back in the same places; `columns?` and
`ofColumns?` are that pair of readings. A cell that is looked for and not
there makes a reading fail.
-/

namespace Metrology

/-- A rectangle of cells in row-major order. -/
structure Matrix (α : Type) where
  width : Nat
  height : Nat
  cells : List α
deriving Repr

namespace Matrix

variable {α : Type}

/-- There are as many cells as the sides ask for. -/
def IsFull (m : Matrix α) : Prop := m.cells.length = m.width * m.height

/-- The matrix with these cells, if they fill it. -/
def ofCells? (width height : Nat) (cells : List α) : Option (Matrix α) :=
  if cells.length = width * height then some ⟨width, height, cells⟩ else none

/-- The column with these cells. -/
def column (cells : List α) : Matrix α := ⟨1, cells.length, cells⟩

/-- The cell in a row and a column, counted from zero. -/
def cell? (m : Matrix α) (row col : Nat) : Option α :=
  m.cells[row * m.width + col]?

/-- The cells column by column, if all are there: the k-th is in row
`k % height` and column `k / height`. -/
def columns? (m : Matrix α) : Option (List α) :=
  let cells := m.cells.toArray
  (List.range (m.width * m.height)).mapM fun k =>
    cells[k % m.height * m.width + k / m.height]?

/-- The matrix whose cells column by column are these, if they fill it:
the cell in row `k / width` and column `k % width` is the one visited
`height` times its column plus its row. -/
def ofColumns? (width height : Nat) (visited : List α) :
    Option (Matrix α) := do
  let visited := visited.toArray
  let cells ← (List.range (width * height)).mapM fun k =>
    visited[k % width * height + k / width]?
  return ⟨width, height, cells⟩

/-- The cells row by row, if all are there. -/
def rows? (m : Matrix α) : Option (List (List α)) :=
  let cells := m.cells.toArray
  (List.range m.height).mapM fun row =>
    (List.range m.width).mapM fun col => cells[row * m.width + col]?

end Matrix

end Metrology
