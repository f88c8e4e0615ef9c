/-
What a loop over a matrix visits. The cells are those the matrix has when
the loop starts, and they are visited down each column, one column after
the other. On a visit the index is bound to the cell, in the state that
the visit before has left, and then the body is evaluated; what the body
does to the index, to the matrix's variable or to anything else shows in
the state that it leaves, and the cells still to come are as they were.

`Visits` tells a row of visits without a loop. An execution of a loop that
no cap stops is such a row, to the last cell or to the first body that
fails (`ForRun.visits`). The results are stored by rows while the visits go
by columns, and the places of the two orders undo each other
(`cell?_ofColumns?`), so that the value of each visit stands where the cell
was (`evaluate_forLoop`).
-/
import Metrology.Proofs.Program.Halting

namespace Metrology.Matrix

variable {α : Type} {m : Matrix α}

-- ============================================================== places

/-- A list made by counting has at each place what was made there. -/
theorem getElem?_of_mapM_range {f : Nat → Option α} {n k : Nat}
    {out : List α} (h : (List.range n).mapM f = some out) (hk : k < n) :
    out[k]? = f k := by
  have hall := mapM_eq_some.mp h
  have hlength := hall.length_eq
  rw [List.length_range] at hlength
  have hstep := hall.get (i := k) (by rwa [List.length_range]) (hlength ▸ hk)
  rw [List.getElem?_eq_getElem (hlength ▸ hk)]
  simpa using hstep.symm

/-- Column by column, the k-th cell is in row `k % height` and column
`k / height`. -/
theorem getElem?_columns? {cs : List α} (h : m.columns? = some cs) {k : Nat}
    (hk : k < m.width * m.height) :
    cs[k]? = m.cell? (k % m.height) (k / m.height) := by
  rw [columns?] at h
  rw [getElem?_of_mapM_range h hk, cell?, List.getElem?_toArray]

/-- A matrix put together has the sides that were asked for. -/
theorem sides_of_ofColumns? {width height : Nat} {visited : List α}
    (h : ofColumns? width height visited = some m) :
    m.width = width ∧ m.height = height := by
  obtain ⟨cells, -, hm⟩ := Option.bind_eq_some_iff.mp h
  cases hm
  exact ⟨rfl, rfl⟩

/-- A cell put back by columns is found again by row and column. -/
theorem cell?_ofColumns? {width height : Nat} {visited : List α}
    (h : ofColumns? width height visited = some m) {row col : Nat}
    (hrow : row < height) (hcol : col < width) :
    m.cell? row col = visited[col * height + row]? := by
  obtain ⟨cells, hcells, hm⟩ := Option.bind_eq_some_iff.mp h
  cases hm
  have hwidth : 0 < width := Nat.zero_lt_of_lt hcol
  -- the cell of this row and column stands at `row * width + col`, which
  -- the other order takes apart
  have hmod : (row * width + col) % width = col := by
    rw [Nat.mul_add_mod', Nat.mod_eq_of_lt hcol]
  have hdiv : (row * width + col) / width = row := by
    rw [Nat.add_comm, Nat.add_mul_div_right _ _ hwidth,
      Nat.div_eq_of_lt hcol, Nat.zero_add]
  rw [cell?, getElem?_of_mapM_range hcells (place_lt hrow hcol), hmod, hdiv,
    List.getElem?_toArray]

end Metrology.Matrix

namespace Metrology.Program

variable {lim : Limits}

-- ============================================================== visits

/-- The state with a variable bound to a value. -/
def State.bound (name : String) (v : Value) (s : State) : State :=
  { s with env := s.env.set name v }

/-- One visit: the cell, the state in which the body is evaluated, and
what it gives and leaves. -/
structure Visit where
  cell : Value
  before : State
  value : Value
  after : State

/-- The body is evaluated once per visit, with the index bound to the cell
in the state that the visit before has left. -/
inductive Visits (lim : Limits) (name : String) (body : Tree) :
    State → List Visit → State → Prop where
  | nil {s : State} : Visits lim name body s [] s
  | cons {s s' : State} {v : Visit} {visits : List Visit} :
      v.before = s.bound name v.cell →
      evaluate lim body v.before = .ok v.value v.after →
      Visits lim name body v.after visits s' →
      Visits lim name body s (v :: visits) s'

/-- An index with a name binds it. -/
theorem bindIndex_eq {index : Tree} {name : String}
    (h : index.node.name? = some name) (v : Value) (s : State) :
    bindIndex index v s = .ok () (s.bound name v) := by
  rw [bindIndex, h]
  rfl

/-- Below the cap a loop goes on. -/
theorem checkIterations_of_lt {loop : String} {count : Nat}
    (h : ∀ n, lim.iterations = some n → (count : Int) < n) (s : State) :
    checkIterations lim loop count s = .ok () s := by
  rw [checkIterations]
  cases hcap : lim.iterations with
  | none => rfl
  | some n =>
      have hlt := h n hcap
      simp only [if_neg (Int.not_le.mpr hlt)]
      rfl

/-- An execution that no cap stops visits all cells, or fails with the
first body that does. -/
theorem ForRun.visits {index body : Tree} {name : String}
    (hindex : index.node.name? = some name) {cells results : List Value}
    {s : State} {bodies : Nat} {r : EStateM.Result Stop State (List Value)}
    (h : ForRun lim (bindIndex index) (evaluate lim body) cells results s
      bodies r)
    (hcap : ∀ n, lim.iterations = some n →
      ((results.length + cells.length : Nat) : Int) ≤ n) :
    (∃ visits s', Visits lim name body s visits s'
      ∧ visits.map Visit.cell = cells ∧ bodies = cells.length
      ∧ r = .ok (results.reverse ++ visits.map Visit.value) s')
    ∨ ∃ visits t c rest stop t', Visits lim name body s visits t
      ∧ cells = visits.map Visit.cell ++ c :: rest
      ∧ evaluate lim body (t.bound name c) = .error stop t'
      ∧ r = .error stop t' := by
  -- the cap lets every visit pass
  have hpass : ∀ {c : Value} {cells results : List Value} {s : State},
      (∀ n, lim.iterations = some n →
        ((results.length + (c :: cells).length : Nat) : Int) ≤ n) →
      checkIterations lim "for" results.length s = .ok () s := by
    intro c cells results s hcap
    apply checkIterations_of_lt
    intro n hn
    have hle := hcap n hn
    rw [List.length_cons] at hle
    omega
  induction h with
  | @done results s =>
      refine .inl ⟨[], s, .nil, rfl, rfl, ?_⟩
      rw [List.map_nil, List.append_nil]
  | capped hcheck =>
      rw [hpass hcap] at hcheck
      cases hcheck
  | unbound _ hbind =>
      rw [bindIndex_eq hindex] at hbind
      cases hbind
  | broken _ hbind hbody =>
      rw [bindIndex_eq hindex] at hbind
      cases hbind
      exact .inr ⟨[], _, _, _, _, _, .nil, rfl, hbody, rfl⟩
  | @turn c cells results s s' s'' v bodies r _ hbind hbody _ ih =>
      rw [bindIndex_eq hindex] at hbind
      cases hbind
      have hrest : ∀ n, lim.iterations = some n →
          (((v :: results).length + cells.length : Nat) : Int) ≤ n := by
        intro n hn
        have hle := hcap n hn
        rw [List.length_cons] at hle ⊢
        omega
      rcases ih hrest with ⟨visits, t, hvisits, hcells, hbodies, hr⟩
        | ⟨visits, t, d, rest, stop, t', hvisits, hcells, hfail, hr⟩
      · refine .inl ⟨⟨c, _, v, _⟩ :: visits, t, .cons rfl hbody hvisits,
          ?_, ?_, ?_⟩
        · rw [List.map_cons, hcells]
        · rw [hbodies, List.length_cons]
        · rw [hr, List.reverse_cons, List.append_assoc]
          rfl
      · refine .inr ⟨⟨c, _, v, _⟩ :: visits, t, d, rest, stop, t',
          .cons rfl hbody hvisits, ?_, hfail, hr⟩
        rw [hcells]
        rfl

-- =============================================================== loops

/-- The visits are to the cells of the matrix, column by column. -/
def ByColumns (m : Matrix Value) (visits : List Visit) : Prop :=
  ∀ k < visits.length, visits[k]?.map Visit.cell
    = m.cell? (k % m.height) (k / m.height)

/-- A reading by columns that the visits begin is visited by columns. -/
theorem byColumns_of_columns? {m : Matrix Value} {visits : List Visit}
    {rest : List Value}
    (h : m.columns? = some (visits.map Visit.cell ++ rest)) :
    ByColumns m visits := by
  intro k hk
  have hlength := Matrix.length_of_columns? h
  rw [List.length_append, List.length_map] at hlength
  rw [← Matrix.getElem?_columns? h (by omega), List.getElem?_append_left,
    List.getElem?_map]
  rwa [List.length_map]

/-- The visits that an execution of a loop consists of. -/
theorem ForExecution.visits {index cells body : Tree} {name : String}
    {s s₀ : State} {m : Matrix Value} {bodies : Nat}
    (h : ForExecution lim index cells body s m bodies)
    (hindex : index.node.name? = some name)
    (hcells : evaluate lim cells s = .ok (.matrix m) s₀)
    (hcap : ∀ n, lim.iterations = some n →
      ((m.width * m.height : Nat) : Int) ≤ n) :
    (∃ visits s', Visits lim name body s₀ visits s'
      ∧ m.columns? = some (visits.map Visit.cell)
      ∧ bodies = m.width * m.height
      ∧ evaluate lim (.mk (.operator .forLoop) [index, cells, body]) s
        = (require .cellCount (Matrix.ofColumns? m.width m.height
            (visits.map Visit.value)) >>= fun m' => pure (.matrix m')) s')
    ∨ ∃ visits t c rest stop t', Visits lim name body s₀ visits t
      ∧ m.columns? = some (visits.map Visit.cell ++ c :: rest)
      ∧ evaluate lim body (t.bound name c) = .error stop t'
      ∧ evaluate lim (.mk (.operator .forLoop) [index, cells, body]) s
        = .error stop t' := by
  obtain ⟨s', visited, r, hcells', hvisited, hrun, heval⟩ := h
  rw [hcells] at hcells'
  cases hcells'
  have hlength := Matrix.length_of_columns? hvisited
  rw [heval, hvisited]
  rcases hrun.visits hindex (by rwa [List.length_nil, Nat.zero_add, hlength])
    with ⟨visits, s', hvisits, hcell, hbodies, rfl⟩
    | ⟨visits, t, c, rest, stop, t', hvisits, hcell, hfail, rfl⟩
  · refine .inl ⟨visits, s', hvisits, ?_, ?_, rfl⟩
    · rw [hcell]
    · rw [hbodies, hlength]
  · refine .inr ⟨visits, t, c, rest, stop, t', hvisits, ?_, hfail, rfl⟩
    rw [hcell]

/-- A loop that succeeds evaluates its body once per cell. -/
theorem ForExecution.bodies_eq {index cells body : Tree} {name : String}
    {s s₀ s' : State} {m : Matrix Value} {bodies : Nat} {v : Value}
    (h : ForExecution lim index cells body s m bodies)
    (hindex : index.node.name? = some name)
    (hcells : evaluate lim cells s = .ok (.matrix m) s₀)
    (hcap : ∀ n, lim.iterations = some n →
      ((m.width * m.height : Nat) : Int) ≤ n)
    (heval : evaluate lim (.mk (.operator .forLoop) [index, cells, body]) s
      = .ok v s') :
    bodies = m.width * m.height := by
  rcases h.visits hindex hcells hcap with ⟨-, -, -, -, hbodies, -⟩
    | ⟨_, _, _, _, _, _, _, _, _, herror⟩
  · exact hbodies
  · rw [heval] at herror
    cases herror

/-- A loop over a matrix, with no cap or one that is not below the number
of cells. If no body fails, the body is evaluated exactly once per cell,
down each column and one column after the other, with the index bound to
the cell that the matrix had when the loop started, in the state that the
visit before has left. The value is a matrix of the same sides, with the
value of each visit in its cell's place. Otherwise the visits go so up to
the first body that fails, and the loop fails with it. -/
theorem evaluate_forLoop {index cells body : Tree} {name : String}
    {s s₀ : State} {m : Matrix Value}
    (hindex : index.node.name? = some name)
    (hcells : evaluate lim cells s = .ok (.matrix m) s₀) (hfull : m.IsFull)
    (hcap : ∀ n, lim.iterations = some n →
      ((m.width * m.height : Nat) : Int) ≤ n) :
    (∃ visits s' m', Visits lim name body s₀ visits s'
      ∧ visits.length = m.width * m.height ∧ ByColumns m visits
      ∧ (∀ bodies, ForExecution lim index cells body s m bodies
        ↔ bodies = m.width * m.height)
      ∧ evaluate lim (.mk (.operator .forLoop) [index, cells, body]) s
        = .ok (.matrix m') s'
      ∧ m'.IsFull ∧ m'.width = m.width ∧ m'.height = m.height
      ∧ ∀ row < m.height, ∀ col < m.width,
        m'.cell? row col
          = visits[col * m.height + row]?.map Visit.value)
    ∨ ∃ visits t c stop t', Visits lim name body s₀ visits t
      ∧ visits.length < m.width * m.height ∧ ByColumns m visits
      ∧ m.cell? (visits.length % m.height) (visits.length / m.height)
        = some c
      ∧ evaluate lim body (t.bound name c) = .error stop t'
      ∧ evaluate lim (.mk (.operator .forLoop) [index, cells, body]) s
        = .error stop t' := by
  obtain ⟨bodies, hexecution⟩ :=
    exists_forExecution index cells body hcells hfull
  rcases hexecution.visits hindex hcells hcap with
    ⟨visits, s', hvisits, hcolumns, -, heval⟩
    | ⟨visits, t, c, rest, stop, t', hvisits, hcolumns, hfail, heval⟩
  · -- no body has failed: there are as many values as cells, so they make
    -- a matrix again
    have hlength : visits.length = m.width * m.height := by
      rw [← Matrix.length_of_columns? hcolumns, List.length_map]
    obtain ⟨m', hm', hfull', -⟩ := Matrix.exists_ofColumns?
      (show (visits.map Visit.value).length = m.width * m.height by
        rw [List.length_map, hlength])
    rw [hm'] at heval
    have hsides := Matrix.sides_of_ofColumns? hm'
    refine .inl ⟨visits, s', m', hvisits, hlength, ?_, ?_, heval, hfull',
      hsides.1, hsides.2, ?_⟩
    · apply @byColumns_of_columns? m visits []
      rw [hcolumns, List.append_nil]
    · have hcount := hexecution.bodies_eq hindex hcells hcap heval
      intro n
      constructor
      · intro hn
        exact hn.bodies_eq hindex hcells hcap heval
      · intro hn
        rwa [hn, ← hcount]
    · intro row hrow col hcol
      rw [Matrix.cell?_ofColumns? hm' hrow hcol, List.getElem?_map]
  · -- a body has failed: its cell is the first one without a visit
    have hlength := Matrix.length_of_columns? hcolumns
    rw [List.length_append, List.length_map, List.length_cons] at hlength
    have hlt : visits.length < m.width * m.height := by omega
    refine .inr ⟨visits, t, c, stop, t', hvisits, hlt,
      byColumns_of_columns? hcolumns, ?_, hfail, heval⟩
    rw [← Matrix.getElem?_columns? hcolumns hlt]
    simp

/-- Two rows of two texts. -/
def grid : Matrix Value :=
  ⟨2, 2, [.text "a", .text "b", .text "c", .text "d"]⟩

/-- `m = i; m`, which overwrites the variable of the matrix and gives the
cell. -/
def overwriting : Tree :=
  .mk .block [.mk (.operator .assign) [.leaf (.variable "m"),
    .leaf (.variable "i")], .leaf (.variable "m")]

/-- `for i in m {m = i; m}` visits the cells that `m` had, a, c, b, d, and
puts them back. -/
theorem evaluate_forLoop_overwriting :
    ∃ s visits s' m',
      evaluate ⟨some 4, 0⟩ (.leaf (.variable "m")) s
        = .ok (.matrix grid) s ∧ grid.IsFull
      ∧ Visits ⟨some 4, 0⟩ "i" overwriting s visits s'
      ∧ visits.length = 4 ∧ ByColumns grid visits
      ∧ evaluate ⟨some 4, 0⟩ (.mk (.operator .forLoop) [.leaf (.variable "i"),
          .leaf (.variable "m"), overwriting]) s = .ok (.matrix m') s'
      ∧ m'.width = 2 ∧ m'.height = 2
      ∧ m'.cell? 1 0 = visits[1]?.map Visit.value := by
  have hcells : evaluate ⟨some 4, 0⟩ (.leaf (.variable "m"))
      { env := ⟨[("m", .matrix grid)]⟩ }
      = .ok (.matrix grid) { env := ⟨[("m", .matrix grid)]⟩ } := rfl
  have hcap : ∀ n, (⟨some 4, 0⟩ : Limits).iterations = some n →
      ((grid.width * grid.height : Nat) : Int) ≤ n := by
    intro n hn
    cases hn
    decide
  rcases @evaluate_forLoop ⟨some 4, 0⟩ (.leaf (.variable "i"))
    (.leaf (.variable "m")) overwriting "i" _ _ grid rfl hcells rfl hcap with
    ⟨visits, s', m', hvisits, hlength, hcolumns, -, heval, -, hwidth,
      hheight, hcell⟩
    | ⟨_, _, _, _, _, _, _, _, _, _, herror⟩
  · exact ⟨_, visits, s', m', hcells, rfl, hvisits, hlength, hcolumns, heval,
      hwidth, hheight, hcell 1 (by decide) 0 (by decide)⟩
  · cases herror

end Metrology.Program
