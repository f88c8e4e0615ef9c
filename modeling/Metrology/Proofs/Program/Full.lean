/-
Full matrices. A matrix with as many cells as its sides ask for has a
cell in every row and column, so reading it row by row or column by
column never misses one; and what a loop finds at each of its cells fills
a matrix of the same sides.

Cells may be matrices themselves. `Value.Full` says that a value holds no
matrix with a wrong number of cells, however deep; such a value can
always be written down.
-/
import Metrology.Value
import Mathlib.Data.List.Forall2

namespace Metrology

/-- A traversal that may fail succeeds if each of its steps does. -/
theorem mapM_eq_some {α β : Type} {f : α → Option β} {xs : List α} :
    ∀ {ys : List β}, xs.mapM f = some ys
      ↔ List.Forall₂ (fun x y => f x = some y) xs ys := by
  induction xs with
  | nil => intro ys; rw [List.forall₂_nil_left_iff]; simp [eq_comm]
  | cons x xs ih =>
      intro ys
      rw [List.mapM_cons, List.forall₂_cons_left_iff]
      simp only [Option.bind_eq_bind, Option.bind_eq_some_iff, ih]
      constructor
      · rintro ⟨y, hy, zs, hzs, h⟩
        cases h
        exact ⟨y, zs, hy, hzs, rfl⟩
      · rintro ⟨y, zs, hy, hzs, rfl⟩
        exact ⟨y, hy, zs, hzs, rfl⟩

/-- Some result for each, and so for all. -/
theorem exists_mapM_eq_some {α β : Type} {f : α → Option β} {xs : List α}
    (h : ∀ x ∈ xs, ∃ y, f x = some y) : ∃ ys, xs.mapM f = some ys := by
  induction xs with
  | nil => exact ⟨[], rfl⟩
  | cons x xs ih =>
      obtain ⟨y, hy⟩ := h x (List.mem_cons_self ..)
      obtain ⟨ys, hys⟩ := ih fun x hx => h x (List.mem_cons_of_mem _ hx)
      refine ⟨y :: ys, ?_⟩
      rw [mapM_eq_some] at hys ⊢
      exact .cons hy hys

namespace Matrix

variable {α : Type} {m : Matrix α}

-- ============================================================== places

/-- The place of a cell lies within the matrix. -/
theorem place_lt {width height row col : Nat} (hrow : row < height)
    (hcol : col < width) : row * width + col < width * height := by
  calc row * width + col < row * width + width := by omega
    _ = width * (row + 1) := by rw [Nat.mul_comm, Nat.mul_succ]
    _ ≤ width * height := Nat.mul_le_mul_left width hrow

/-- Counting along lines of this length, each place is in one of them. -/
theorem line_lt {count size k : Nat} (h : k < count * size) :
    k % size < size ∧ k / size < count := by
  have hsize : 0 < size := by
    rcases Nat.eq_zero_or_pos size with rfl | hpos
    · exact absurd h (by simp)
    · exact hpos
  exact ⟨Nat.mod_lt k hsize,
    (Nat.div_lt_iff_lt_mul hsize).mpr h⟩

-- ============================================================ readings

/-- A full matrix has a cell at every place within. -/
theorem IsFull.cell? (h : m.IsFull) {row col : Nat} (hrow : row < m.height)
    (hcol : col < m.width) :
    ∃ c ∈ m.cells, m.cell? row col = some c := by
  have hlt : row * m.width + col < m.cells.length := by
    rw [h]
    exact place_lt hrow hcol
  exact ⟨_, List.getElem_mem hlt, List.getElem?_eq_getElem hlt⟩

/-- Members of a reading are cells of the matrix. -/
theorem mem_of_reading {cells out : List α} {ks : List Nat}
    {place : Nat → Nat}
    (h : ks.mapM (fun k => cells[place k]?) = some out) :
    ∀ c ∈ out, c ∈ cells := by
  rw [mapM_eq_some] at h
  induction h with
  | nil => intro c hc; cases hc
  | cons hk _ ih =>
      intro c hc
      rcases List.mem_cons.mp hc with rfl | hc
      · exact List.mem_of_getElem? hk
      · exact ih c hc

/-- Read column by column, these are cells of the matrix. -/
theorem mem_of_columns? {cs : List α} (h : m.columns? = some cs) :
    ∀ c ∈ cs, c ∈ m.cells :=
  mem_of_reading (by simpa [Matrix.columns?] using h)

/-- Cells of a matrix that was filled are among what it was filled with. -/
theorem mem_of_ofColumns? {width height : Nat} {visited : List α}
    (h : ofColumns? width height visited = some m) :
    ∀ c ∈ m.cells, c ∈ visited := by
  obtain ⟨cells, hcells, heq⟩ := Option.bind_eq_some_iff.mp h
  cases heq
  exact mem_of_reading (by simpa using hcells)

/-- A matrix has the cells that it was made of. -/
theorem mem_of_ofCells? {width height : Nat} {cells : List α}
    (h : ofCells? width height cells = some m) :
    ∀ c ∈ m.cells, c ∈ cells := by
  unfold ofCells? at h
  split at h
  · cases h; exact fun c hc => hc
  · cases h

/-- A reading has one cell for each place. -/
theorem length_of_columns? {cs : List α} (h : m.columns? = some cs) :
    cs.length = m.width * m.height := by
  have hlength := (mapM_eq_some.mp h).length_eq
  rwa [List.length_range, eq_comm] at hlength

/-- A full matrix can be read column by column. -/
theorem IsFull.columns? (h : m.IsFull) :
    ∃ cs, m.columns? = some cs ∧ cs.length = m.width * m.height
      ∧ ∀ c ∈ cs, c ∈ m.cells := by
  have hcells : ∀ k ∈ List.range (m.width * m.height),
      ∃ c, m.cells[k % m.height * m.width + k / m.height]? = some c := by
    intro k hk
    obtain ⟨hrow, hcol⟩ := line_lt (List.mem_range.mp hk)
    obtain ⟨c, -, hc⟩ := h.cell? hrow hcol
    exact ⟨c, hc⟩
  obtain ⟨cs, hcs⟩ := exists_mapM_eq_some hcells
  have hcolumns : m.columns? = some cs := by
    simpa [Matrix.columns?] using hcs
  exact ⟨cs, hcolumns, length_of_columns? hcolumns, mem_of_columns? hcolumns⟩

/-- As many values as there are places fill a matrix. -/
theorem exists_ofColumns? {width height : Nat} {visited : List α}
    (h : visited.length = width * height) :
    ∃ m, ofColumns? width height visited = some m ∧ m.IsFull
      ∧ ∀ c ∈ m.cells, c ∈ visited := by
  have hcells : ∀ k ∈ List.range (width * height),
      ∃ c, visited[k % width * height + k / width]? = some c := by
    intro k hk
    -- by rows and by columns, the sides change places
    rw [List.mem_range, Nat.mul_comm] at hk
    obtain ⟨hcol, hrow⟩ := line_lt hk
    have hlt : k % width * height + k / width < visited.length := by
      rw [h, Nat.mul_comm width]
      exact place_lt hcol hrow
    exact ⟨_, List.getElem?_eq_getElem hlt⟩
  obtain ⟨cs, hcs⟩ := exists_mapM_eq_some hcells
  refine ⟨⟨width, height, cs⟩, ?_, ?_, mem_of_reading hcs⟩
  · simp [ofColumns?, hcs]
  · show cs.length = width * height
    rw [← (mapM_eq_some.mp hcs).length_eq, List.length_range]

/-- A full matrix can be read row by row. -/
theorem IsFull.rows? (h : m.IsFull) : ∃ rows, m.rows? = some rows := by
  refine exists_mapM_eq_some fun row hrow => exists_mapM_eq_some
    fun col hcol => ?_
  obtain ⟨c, -, hc⟩ :=
    h.cell? (List.mem_range.mp hrow) (List.mem_range.mp hcol)
  exact ⟨c, by simpa [Matrix.cell?] using hc⟩

/-- A column has its cells below one another. -/
@[simp] theorem isFull_column (cells : List α) : (column cells).IsFull := by
  show cells.length = 1 * cells.length
  rw [Nat.one_mul]

end Matrix

-- =========================================================== full values

/-- Every matrix in the value, at any depth, has the cells its sides ask
for. -/
inductive Value.Full : Value → Prop
  | void : Full .void
  | text {s : String} : Full (.text s)
  | number {q : Quantity} : Full (.number q)
  | matrix {m : Matrix Value} :
      m.IsFull → (∀ v ∈ m.cells, Full v) → Full (.matrix m)

end Metrology
