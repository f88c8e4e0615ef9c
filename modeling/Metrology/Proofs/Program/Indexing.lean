/-
Matrices by their literals and by their indices. A literal is evaluated
entry by entry, row after row, and its values are stored in that order;
an index counts rows and columns from one, or from the end if it is
negative, and finds the value of the entry that was written there
(`evaluate_literal`).

An index stands behind a literal or behind a variable that holds the
matrix. Both come down to the same look-up (`Designates.exists_index`), in
the state that evaluating the target has left, so the laws of indexing
are stated once for both (`Indexes`).
-/
import Metrology.Proofs.Double.Whole
import Metrology.Proofs.Program.Effects
import Metrology.Proofs.Program.Interpolation
import Metrology.Proofs.Tree.Literals

namespace Metrology.Program

open Metrology.Tree (enclosed Separated Arranged Contents ReadAll)

variable {lim : Limits}

-- ============================================================== indices

/-- The quantity is real and plain, and its value is this whole number. -/
def IsIndex (q : Quantity) (k : Int) : Prop :=
  q.isReal = true ∧ q.unit.isUnitless = true ∧ Numeral.IsNumber q.re k

/-- The index counts from one or from the end, and not too far. -/
def InRange (size : Nat) (k : Int) : Prop :=
  1 ≤ k.natAbs ∧ k.natAbs ≤ size

instance (size : Nat) (k : Int) : Decidable (InRange size k) :=
  inferInstanceAs (Decidable (_ ∧ _))

/-- The place from the front, counted from one, that an index names. -/
def counted (size : Nat) (k : Int) : Int :=
  if 0 < k then k else size + k + 1

/-- Zero is no index; other whole numbers are. -/
theorem indexNumber?_eq {q : Quantity} {k : Int} (h : IsIndex q k) :
    indexNumber? (.number q) = if k = 0 then none else some (q, k) := by
  obtain ⟨hreal, hplain, hnumber⟩ := h
  have hzero := hnumber.bne_zero_iff
  rw [indexNumber?, hreal, hplain, hnumber.isWhole, hnumber.truncate?]
  by_cases hk : k = 0
  · rw [if_pos hk, if_neg]
    simp [hzero, hk]
  · rw [if_neg hk, if_pos]
    · rfl
    · simp [hzero, hk]

/-- An index in range has its place, counted from zero. -/
theorem indexPlace_of_inRange {size : Nat} {k : Int} (h : InRange size k) :
    indexPlace size k = some (counted size k - 1).toNat := by
  obtain ⟨hlow, hhigh⟩ := h
  unfold indexPlace counted
  by_cases hk : k < 0
  · simp only [if_pos hk, if_neg (show ¬ 0 < k by omega)]
    rw [if_pos]
    simp only [Bool.and_eq_true, decide_eq_true_eq]
    omega
  · simp only [if_neg hk, if_pos (show 0 < k by omega)]
    rw [if_pos]
    simp only [Bool.and_eq_true, decide_eq_true_eq]
    omega

/-- Any other has none. -/
theorem indexPlace_of_not_inRange {size : Nat} {k : Int}
    (h : ¬ InRange size k) : indexPlace size k = none := by
  unfold InRange at h
  unfold indexPlace
  by_cases hneg : k < 0
  · simp only [if_pos hneg]
    rw [if_neg]
    simp only [Bool.and_eq_true, decide_eq_true_eq]
    omega
  · simp only [if_neg hneg]
    rw [if_neg]
    simp only [Bool.and_eq_true, decide_eq_true_eq]
    omega

/-- The place is one of those that there are. -/
theorem counted_bounds {size : Nat} {k : Int} (h : InRange size k) :
    1 ≤ counted size k ∧ counted size k ≤ size := by
  obtain ⟨hlow, hhigh⟩ := h
  unfold counted
  split <;> omega

/-- An operand that gives an index names a place, if it is within. -/
theorem index_eq_ok {k : Operand} {s s' : State} {q : Quantity} {n : Int}
    (hrun : k.run s = .ok (.number q) s') (hq : IsIndex q n) {size : Nat}
    (h : InRange size n) (label : String) :
    k.index size label s = .ok (counted size n - 1).toNat s' := by
  have hn : n ≠ 0 := by
    rintro rfl
    exact absurd h.1 (by decide)
  refine (bind_of_ok hrun).trans ?_
  rw [indexNumber?_eq hq, if_neg hn]
  dsimp only
  rw [indexPlace_of_inRange h]
  rfl

theorem index_eq_error {k : Operand} {s s' : State} {q : Quantity} {n : Int}
    (hrun : k.run s = .ok (.number q) s') (hq : IsIndex q n) {size : Nat}
    (h : ¬ InRange size n) (label : String) :
    ∃ stop t, k.index size label s = .error stop t := by
  have hbind : k.index size label s = _ := bind_of_ok hrun
  rw [hbind, indexNumber?_eq hq]
  by_cases hn : n = 0
  · rw [if_pos hn]
    dsimp only
    cases hrender : (Value.number q).render with
    | error e => exact ⟨_, _, rfl⟩
    | ok text => exact ⟨_, _, rfl⟩
  · rw [if_neg hn]
    dsimp only
    rw [indexPlace_of_not_inRange h]
    exact ⟨_, _, rfl⟩

-- ================================================================ grids

/-- The entry in a row and a column, both counted from one. -/
def entryAt (values : List (List Value)) (row col : Int) : Option Value :=
  values[(row - 1).toNat]?.bind fun cells => cells[(col - 1).toNat]?

/-- Rows of one width in a row: each entry stands where the rows before
it end. -/
theorem getElem?_flatten {α : Type} {width col : Nat} (hcol : col < width) :
    ∀ {rows : List (List α)}, (∀ row ∈ rows, row.length = width) →
      ∀ k, rows.flatten[k * width + col]?
        = rows[k]?.bind fun row => row[col]? := by
  intro rows
  induction rows with
  | nil => intro _ k; rfl
  | cons row rows ih =>
      intro hwidth k
      have hrow : row.length = width := hwidth row (List.mem_cons_self ..)
      have hrest := ih fun r hr => hwidth r (List.mem_cons_of_mem _ hr)
      cases k with
      | zero =>
          rw [List.flatten_cons, Nat.zero_mul, Nat.zero_add,
            List.getElem?_append_left (by omega)]
          rfl
      | succ k =>
          rw [List.flatten_cons, List.getElem?_append_right
            (by rw [hrow, Nat.succ_mul]; omega), hrow]
          have hplace : (k + 1) * width + col - width = k * width + col := by
            rw [Nat.succ_mul]
            omega
          rw [hplace, hrest]
          rfl

/-- The rows of values form a grid of these sides. -/
def IsGrid (width height : Nat) (values : List (List Value)) : Prop :=
  values.length = height ∧ ∀ row ∈ values, row.length = width

/-- A grid has as many values as its sides ask for. -/
theorem IsGrid.length_flatten {w h : Nat} {values : List (List Value)}
    (hgrid : IsGrid w h values) : values.flatten.length = w * h := by
  rw [List.length_flatten, List.map_eq_replicate_iff.mpr hgrid.2, hgrid.1,
    List.sum_replicate_nat, Nat.mul_comm]

/-- Indices in range find an entry, and the cell that is stored for it. -/
theorem IsGrid.exists_entry {w h : Nat} {values : List (List Value)}
    (hgrid : IsGrid w h values) {k₁ k₂ : Int} (h₁ : InRange h k₁)
    (h₂ : InRange w k₂) :
    ∃ v, entryAt values (counted h k₁) (counted w k₂) = some v
      ∧ (Matrix.mk w h values.flatten).cell? (counted h k₁ - 1).toNat
        (counted w k₂ - 1).toNat = some v := by
  obtain ⟨hheight, hwidth⟩ := hgrid
  have hrow := counted_bounds h₁
  have hcol := counted_bounds h₂
  have hlt : (counted w k₂ - 1).toNat < w := by omega
  obtain ⟨row, hmem⟩ : ∃ row, values[(counted h k₁ - 1).toNat]? = some row :=
    ⟨_, List.getElem?_eq_getElem (by omega)⟩
  have hlength := hwidth row (List.mem_of_getElem? hmem)
  refine ⟨row.get ⟨(counted w k₂ - 1).toNat, by omega⟩, ?_, ?_⟩
  · rw [entryAt, hmem]
    exact List.getElem?_eq_getElem _
  · rw [Matrix.cell?, getElem?_flatten hlt hwidth, hmem]
    exact List.getElem?_eq_getElem _

-- ============================================================== look-ups

/-- The matrix whose rows are these. -/
def gridOf (w h : Nat) (values : List (List Value)) : Value :=
  .matrix ⟨w, h, values.flatten⟩

variable {w h : Nat} {values : List (List Value)} {label : String}

/-- Two indices name the cell in a row and a column. -/
theorem runIndices_pair (hgrid : IsGrid w h values) {i j : Operand}
    {s s₁ s₂ : State} {a b : Quantity} {k₁ k₂ : Int}
    (hi : i.run s = .ok (.number a) s₁) (hj : j.run s₁ = .ok (.number b) s₂)
    (ha : IsIndex a k₁) (hb : IsIndex b k₂) :
    (InRange h k₁ → InRange w k₂ →
      ∃ v, entryAt values (counted h k₁) (counted w k₂) = some v
        ∧ runIndices label (gridOf w h values) [i, j] s = .ok v s₂)
    ∧ (¬ (InRange h k₁ ∧ InRange w k₂) →
      ∃ stop t, runIndices label (gridOf w h values) [i, j] s
        = .error stop t) := by
  constructor
  · intro h₁ h₂
    obtain ⟨v, hentry, hcell⟩ := hgrid.exists_entry h₁ h₂
    refine ⟨v, hentry, (bind_of_ok (index_eq_ok hi ha h₁ label)).trans
      ((bind_of_ok (index_eq_ok hj hb h₂ label)).trans ?_)⟩
    show require .cellCount (Matrix.cell? _ _ _) s₂ = .ok v s₂
    rw [hcell]
    rfl
  · intro hnot
    by_cases h₁ : InRange h k₁
    · obtain ⟨stop, t, hcol⟩ :=
        index_eq_error hj hb (fun h₂ => hnot ⟨h₁, h₂⟩) label
      exact ⟨stop, t, (bind_of_ok (index_eq_ok hi ha h₁ label)).trans
        (bind_of_error hcol)⟩
    · obtain ⟨stop, t, hrow⟩ := index_eq_error hi ha h₁ label
      exact ⟨stop, t, bind_of_error hrow⟩

/-- A single index is for columns. -/
theorem runIndices_of_width {m : Matrix Value} {i : Operand} (s : State) :
    (m.width ≠ 1 → ∃ stop, runIndices label (.matrix m) [i] s
      = .error stop s)
    ∧ (m.width = 1 → runIndices label (.matrix m) [i] s
      = (i.index m.height label >>= fun row =>
          require .cellCount (m.cell? row 0)) s) := by
  constructor
  · intro hw
    simp only [runIndices, if_pos hw]
    exact ⟨_, rfl⟩
  · intro hw
    simp only [runIndices, if_neg (not_not.mpr hw)]

/-- One index names the cell of a column. -/
theorem runIndices_single (hgrid : IsGrid w h values) {i : Operand}
    {s s₁ : State} {a : Quantity} {k : Int}
    (hi : i.run s = .ok (.number a) s₁) (ha : IsIndex a k) :
    (w = 1 → InRange h k →
      ∃ v, entryAt values (counted h k) (counted w 1) = some v
        ∧ runIndices label (gridOf w h values) [i] s = .ok v s₁)
    ∧ (¬ (w = 1 ∧ InRange h k) →
      ∃ stop t, runIndices label (gridOf w h values) [i] s
        = .error stop t) := by
  obtain ⟨hwide, hcolumn⟩ := @runIndices_of_width label
    ⟨w, h, values.flatten⟩ i s
  constructor
  · intro hw hk
    rw [gridOf, hcolumn hw]
    subst hw
    have hone : InRange 1 1 := ⟨by decide, by decide⟩
    have hfirst : (counted 1 1 - 1).toNat = 0 := by decide
    obtain ⟨v, hentry, hcell⟩ := hgrid.exists_entry hk hone
    rw [hfirst] at hcell
    rw [bind_of_ok (index_eq_ok hi ha hk label), hcell]
    exact ⟨v, hentry, rfl⟩
  · intro hnot
    by_cases hw : w = 1
    · obtain ⟨stop, t, hrow⟩ :=
        index_eq_error hi ha (fun hk => hnot ⟨hw, hk⟩) label
      rw [gridOf, hcolumn hw, bind_of_error hrow]
      exact ⟨stop, t, rfl⟩
    · obtain ⟨stop, hstop⟩ := hwide hw
      exact ⟨stop, s, hstop⟩

/-- What fails wherever it is not known to succeed succeeds nowhere
else. -/
theorem exists_ok_iff {r : EStateM.Result Stop State Value} {c : Prop}
    (hok : c → ∃ v s, r = .ok v s)
    (herror : ¬ c → ∃ stop s, r = .error stop s) :
    (∃ v s, r = .ok v s) ↔ c := by
  refine ⟨?_, hok⟩
  rintro ⟨v, s, hv⟩
  by_contra hc
  obtain ⟨stop, t, ht⟩ := herror hc
  cases ht.symm.trans hv

-- ============================================================== targets

/-- The tokens give an index in a state: they can be read, and evaluating
them gives a quantity that is one. -/
def GivesIndex (lim : Limits) (ts : List Token) (s : State) (k : Int)
    (s' : State) : Prop :=
  ∃ t q, Tree.parse ts = .ok t ∧ evaluate lim t s = .ok (.number q) s'
    ∧ IsIndex q k

/-- What stands before indices: a literal of the matrix, or a variable
that holds it. -/
inductive Designates (lim : Limits) (v : Value) :
    List Token → State → State → Prop
  | literal {p q : Nat} {inside : List Token} {t : Tree} {s s' : State} :
      Tree.Nests inside → Tree.parse (enclosed .square p inside q) = .ok t →
      evaluate lim t s = .ok v s' →
      Designates lim v (enclosed .square p inside q) s s'
  | holder {name : String} {n : Nat} {s : State} :
      s.env.get? name = some v → Designates lim v [⟨.name name, n⟩] s s

/-- Indices are looked up in what stands before them, in the state that
it leaves. -/
theorem Designates.exists_index {v : Value} {target inside : List Token}
    {s s' : State} (h : Designates lim v target s s') {indices : List Tree}
    (hindices : Contents Tree.isComma inside indices) (p q : Nat) :
    ∃ t label, Tree.parse (target ++ enclosed .square p inside q) = .ok t
      ∧ evaluate lim t s = runIndices label v (operands lim indices) s' := by
  cases h with
  | literal hn hparse heval =>
      refine ⟨_, "matrix literal", Tree.parse_indexed hn hparse hindices, ?_⟩
      exact bind_of_ok heval
  | @holder name _ _ hget =>
      refine ⟨_, name, (Tree.Atom.index hindices).parse, ?_⟩
      exact bind_of_ok (lookup_of_some hget)

/-- The laws of indexing a matrix of these sides with these rows of
values. Two indices succeed when both are in range, and give the entry in
the row and the column that they count; one index is for matrices of one
column, and is as good as with a second index of one. -/
structure Indexes (lim : Limits) (w h : Nat) (values : List (List Value))
    (target : List Token) (s s' : State) : Prop where
  pair : ∀ {i j inside : List Token} {k₁ k₂ : Int} {s₁ s₂ : State},
    Separated .comma [i, j] inside → GivesIndex lim i s' k₁ s₁ →
    GivesIndex lim j s₁ k₂ s₂ → ∀ p q,
    ∃ t, Tree.parse (target ++ enclosed .square p inside q) = .ok t
      ∧ ((∃ v r, evaluate lim t s = .ok v r)
        ↔ InRange h k₁ ∧ InRange w k₂)
      ∧ (InRange h k₁ → InRange w k₂ →
        ∃ v, entryAt values (counted h k₁) (counted w k₂) = some v
          ∧ evaluate lim t s = .ok v s₂)
  single : ∀ {i : List Token} {k : Int} {s₁ : State},
    GivesIndex lim i s' k s₁ → ∀ p q,
    ∃ t, Tree.parse (target ++ enclosed .square p i q) = .ok t
      ∧ ((∃ v r, evaluate lim t s = .ok v r) ↔ w = 1 ∧ InRange h k)
      ∧ (w = 1 → InRange h k →
        ∃ v, entryAt values (counted h k) 1 = some v
          ∧ evaluate lim t s = .ok v s₁
          ∧ ∀ {j inside : List Token} {s₂ : State},
            Separated .comma [i, j] inside → GivesIndex lim j s₁ 1 s₂ →
            ∃ t', Tree.parse (target ++ enclosed .square p inside q) = .ok t'
              ∧ evaluate lim t' s = .ok v s₂)

/-- Two indices, behind whatever designates the matrix. -/
theorem Designates.pair (hgrid : IsGrid w h values) {target : List Token}
    {s s' : State} (ht : Designates lim (gridOf w h values) target s s')
    {i j inside : List Token} {k₁ k₂ : Int} {s₁ s₂ : State}
    (hinside : Separated .comma [i, j] inside)
    (hi : GivesIndex lim i s' k₁ s₁) (hj : GivesIndex lim j s₁ k₂ s₂)
    (p q : Nat) :
    ∃ t, Tree.parse (target ++ enclosed .square p inside q) = .ok t
      ∧ ((∃ v r, evaluate lim t s = .ok v r)
        ↔ InRange h k₁ ∧ InRange w k₂)
      ∧ (InRange h k₁ → InRange w k₂ →
        ∃ v, entryAt values (counted h k₁) (counted w k₂) = some v
          ∧ evaluate lim t s = .ok v s₂) := by
  obtain ⟨ti, a, hti, heval, ha⟩ := hi
  obtain ⟨tj, b, htj, heval', hb⟩ := hj
  have hne : inside ≠ [] := by
    rintro rfl
    cases hinside.eq_of_nil
  obtain ⟨t, label, hparse, hrun⟩ := ht.exists_index
    (Tree.contents_of_separated hinside hne (.cons hti (.cons htj .nil))) p q
  obtain ⟨hok, herror⟩ := @runIndices_pair w h values label hgrid
    ⟨ti, evaluate lim ti⟩ ⟨tj, evaluate lim tj⟩ _ _ _ _ _ _ _ heval heval'
    ha hb
  refine ⟨t, hparse, ?_⟩
  rw [hrun]
  refine ⟨exists_ok_iff (fun hc => ?_) herror, hok⟩
  obtain ⟨v, -, hv⟩ := hok hc.1 hc.2
  exact ⟨v, s₂, hv⟩

/-- The laws of indexing hold of whatever designates the matrix. -/
theorem Designates.indexes (hgrid : IsGrid w h values)
    {target : List Token} {s s' : State}
    (ht : Designates lim (gridOf w h values) target s s') :
    Indexes lim w h values target s s' := by
  refine ⟨ht.pair hgrid, ?_⟩
  intro i k s₁ hi p q
  obtain ⟨ti, a, hti, heval, ha⟩ := hi
  -- an empty row of tokens has no number for its value
  have hne : i ≠ [] := by
    rintro rfl
    cases hti
    cases heval
  obtain ⟨t, label, hparse, hrun⟩ := ht.exists_index
    (Tree.contents_of_separated .last hne (.cons hti .nil)) p q
  obtain ⟨hok, herror⟩ := @runIndices_single w h values label hgrid
    ⟨ti, evaluate lim ti⟩ _ _ _ _ heval ha
  refine ⟨t, hparse, ?_⟩
  rw [hrun]
  refine ⟨exists_ok_iff (fun hc => ?_) herror, fun hw hk => ?_⟩
  · obtain ⟨v, -, hv⟩ := hok hc.1 hc.2
    exact ⟨v, s₁, hv⟩
  · obtain ⟨v, hentry, hv⟩ := hok hw hk
    have hone : InRange w 1 := by
      rw [hw]
      exact ⟨by decide, by decide⟩
    refine ⟨v, hentry, hv, fun hinside hj => ?_⟩
    obtain ⟨t', hparse', -, hvalue⟩ :=
      ht.pair hgrid hinside ⟨ti, a, hti, heval, ha⟩ hj p q
    obtain ⟨v', hentry', heval'⟩ := hvalue hk hone
    -- both find the one entry
    cases Option.some.inj (hentry.symm.trans hentry')
    exact ⟨t', hparse', heval'⟩

-- ============================================================= literals

/-- A sequence of two actions succeeds when both do. -/
theorem bind_eq_ok_iff {α β : Type} {x : Action α} {f : α → Action β}
    {s s' : State} {b : β} :
    (x >>= f) s = .ok b s' ↔ ∃ a t, x s = .ok a t ∧ f a t = .ok b s' := by
  cases hx : x s with
  | ok a t =>
      rw [bind_of_ok hx]
      constructor
      · intro h
        exact ⟨a, t, rfl, h⟩
      · rintro ⟨_, _, heq, h⟩
        cases heq
        exact h
  | error e t =>
      rw [bind_of_error hx]
      constructor
      · intro h; cases h
      · rintro ⟨_, _, heq, -⟩
        cases heq

/-- A traversal that succeeds, its first step first. -/
theorem mapM_cons_eq_ok {α β : Type} {f : α → Action β} {x : α}
    {xs : List α} {ys : List β} {s s' : State}
    (h : ((x :: xs).mapM f) s = .ok ys s') :
    ∃ y ys' t, f x s = .ok y t ∧ (xs.mapM f) t = .ok ys' s'
      ∧ ys = y :: ys' := by
  rw [List.mapM_cons] at h
  obtain ⟨y, t, hy, h⟩ := bind_eq_ok_iff.mp h
  obtain ⟨ys', t', hys, h⟩ := bind_eq_ok_iff.mp h
  cases h
  exact ⟨y, ys', t, hy, hys, rfl⟩

/-- It has a result for each. -/
theorem length_of_mapM {α β : Type} {f : α → Action β} :
    ∀ {xs : List α} {ys : List β} {s s' : State},
      (xs.mapM f) s = .ok ys s' → ys.length = xs.length := by
  intro xs
  induction xs with
  | nil => intro ys s s' h; cases h; rfl
  | cons x xs ih =>
      intro ys s s' h
      obtain ⟨y, ys', t, -, hys, rfl⟩ := mapM_cons_eq_ok h
      rw [List.length_cons, List.length_cons, ih hys]

/-- Evaluates the entries of rows, row after row. -/
def evaluateRows (lim : Limits) (trees : List (List Tree)) :
    Action (List (List Value)) :=
  trees.mapM fun row => row.mapM (evaluate lim)

/-- Evaluated row by row, the entries are evaluated one after another, and
their values form a grid. -/
theorem grid_of_mapM {width : Nat} :
    ∀ {trees : List (List Tree)} {values : List (List Value)}
      {s s' : State}, (∀ row ∈ trees, row.length = width) →
      evaluateRows lim trees s = .ok values s' →
      IsGrid width trees.length values
        ∧ (trees.flatten.mapM (evaluate lim)) s = .ok values.flatten s' := by
  intro trees
  induction trees with
  | nil =>
      intro values s s' _ h
      cases h
      exact ⟨⟨rfl, fun _ h => nomatch h⟩, rfl⟩
  | cons row trees ih =>
      intro values s s' hwidth h
      rw [List.forall_mem_cons] at hwidth
      obtain ⟨line, lines, t, hrow, hrest, rfl⟩ := mapM_cons_eq_ok h
      obtain ⟨⟨hlength, hlines⟩, hflatten⟩ := ih hwidth.2 hrest
      refine ⟨⟨?_, List.forall_mem_cons.mpr ⟨?_, hlines⟩⟩, ?_⟩
      · rw [List.length_cons, List.length_cons, hlength]
      · rw [length_of_mapM hrow, hwidth.1]
      · rw [List.flatten_cons, List.mapM_append, bind_of_ok hrow,
          bind_of_ok hflatten]
        rfl

/-- Operands are evaluated as their trees are. -/
theorem mapM_operands_run (ts : List Tree) :
    (operands lim ts).mapM Operand.run = ts.mapM (evaluate lim) := by
  rw [operands_eq_map, List.mapM_map]
  rfl

/-- A literal's tree gives the matrix of its entries' values. -/
theorem evaluate_matrix {width : Nat} {trees : List (List Tree)}
    {values : List (List Value)} {s s' : State}
    (hwidth : ∀ row ∈ trees, row.length = width)
    (h : evaluateRows lim trees s = .ok values s') :
    IsGrid width trees.length values
      ∧ evaluate lim (.mk (.matrix width trees.length) trees.flatten) s
        = .ok (gridOf width trees.length values) s' := by
  obtain ⟨hgrid, hflatten⟩ := grid_of_mapM hwidth h
  refine ⟨hgrid, ?_⟩
  have hcells : Matrix.ofCells? width trees.length values.flatten
      = some ⟨width, trees.length, values.flatten⟩ := by
    rw [Matrix.ofCells?, if_pos hgrid.length_flatten]
  rw [← mapM_operands_run] at hflatten
  refine (bind_of_ok hflatten).trans ?_
  rw [hcells]
  rfl

/-- Rows of entries that can be read have as many trees. -/
theorem length_of_readAll {width : Nat} {rows : List (List (List Token))}
    {trees : List (List Tree)} (hread : List.Forall₂ ReadAll rows trees)
    (hwidth : ∀ row ∈ rows, row.length = width) :
    trees.length = rows.length ∧ ∀ row ∈ trees, row.length = width := by
  have hall := ((List.forall₂_and_left _ _).mpr ⟨hwidth, hread⟩).flip
  refine ⟨hread.length_eq.symm, Tree.forall_of_forall₂ hall ?_⟩
  rintro cells row ⟨hlength, hcells⟩
  exact hcells.length_eq.symm.trans hlength

/-- Matrices by their literals and by their indices. Rows of entries of
one width, each of which can be read, with commas between the entries and
semicolons between the rows, are read as a matrix; where the entries can be
evaluated, row after row, it is the matrix of their values. What the laws
of indexing say then holds for the literal itself and for any variable that
holds the matrix, and the literal can be assigned to a variable. Rows of
different widths cannot be read. -/
theorem evaluate_literal {rows : List (List (List Token))}
    {inside : List Token} (hinside : Arranged rows inside) (p q : Nat) :
    (∀ (w : Nat) (trees : List (List Tree)) (lim : Limits)
        (values : List (List Value)) (s s' : State),
      (∀ row ∈ rows, row.length = w) →
      (∀ row ∈ rows, ∀ entry ∈ row, entry ≠ []) →
      List.Forall₂ ReadAll rows trees →
      evaluateRows lim trees s = .ok values s' →
      ∃ t, Tree.parse (enclosed .square p inside q) = .ok t
        ∧ evaluate lim t s = .ok (gridOf w rows.length values) s'
        ∧ Indexes lim w rows.length values (enclosed .square p inside q) s s'
        ∧ ∀ name n a, ∃ t', Tree.parse (⟨.name name, n⟩
              :: ⟨.operator .assign, a⟩ :: enclosed .square p inside q)
            = .ok t'
          ∧ (∃ r, evaluate lim t' s = .ok .void r
            ∧ r.env.get? name = some (gridOf w rows.length values))
          ∧ ∀ r n, r.env.get? name = some (gridOf w rows.length values) →
            Indexes lim w rows.length values [⟨.name name, n⟩] r r)
    ∧ ((¬ ∃ w, ∀ row ∈ rows, row.length = w) →
      (∀ row ∈ rows, ∀ entry ∈ row, Tree.IsEntry entry) →
      ∃ e, Tree.parse (enclosed .square p inside q) = .error e
        ∧ ∀ trees, List.Forall₂ ReadAll rows trees →
          ∃ first ∈ rows.head?, ∃ row ∈ rows, row.length ≠ first.length
            ∧ e = .raggedMatrix first.length row.length) := by
  refine ⟨?_, fun hragged hfree => hinside.parse_ragged hfree hragged p q⟩
  intro w trees lim values s s' hwidth hentries hread hvalues
  have hne : inside ≠ [] := by
    rintro rfl
    rw [hinside.eq_of_nil] at hentries
    exact hentries [[]] (List.mem_cons_self ..) [] (List.mem_cons_self ..) rfl
  -- entries that can be read keep their separators inside brackets
  have hnests := hinside.nests (Tree.isEntry_of_readAll hread)
  have hparse := hinside.parse hne hwidth hread p q
  obtain ⟨hlength, htrees⟩ := length_of_readAll hread hwidth
  obtain ⟨hgrid, heval⟩ := evaluate_matrix htrees hvalues
  rw [hlength] at hgrid heval
  refine ⟨_, hparse, heval, ?_, fun name n a => ?_⟩
  · exact Designates.indexes hgrid (.literal hnests hparse heval)
  · refine ⟨_, Tree.parse_assignment hnests hparse, ?_, fun r _ hr => ?_⟩
    · refine ⟨{ s' with env := s'.env.set name (gridOf w rows.length values) },
        (bind_of_ok heval).trans rfl, ?_⟩
      rw [Environment.get?_set, if_pos rfl]
    · exact Designates.indexes hgrid (.holder hr)

/-- A name as a row of tokens. -/
def nameRow (name : String) : List Token := [⟨.name name, 0⟩]

/-- Variables that hold two and minus one. -/
def countState : State :=
  { env := ⟨[("i", .number (.ofReal 2.0)),
      ("j", .number (.ofReal (-1.0)))]⟩ }

/-- `[i, j; j, i][i, j]` gives the last entry of the second row. -/
theorem evaluate_literal_square :
    ∃ inside indices t v,
      Arranged [[nameRow "i", nameRow "j"], [nameRow "j", nameRow "i"]] inside
      ∧ GivesIndex ⟨none, 0⟩ (nameRow "i") countState 2 countState
      ∧ GivesIndex ⟨none, 0⟩ (nameRow "j") countState (-1) countState
      ∧ Tree.parse (enclosed .square 0 inside 0
          ++ enclosed .square 0 indices 0) = .ok t
      ∧ evaluate ⟨none, 0⟩ t countState = .ok v countState
      ∧ v = .number (.ofReal 2.0) := by
  have hinside : Arranged [[nameRow "i", nameRow "j"],
      [nameRow "j", nameRow "i"]] _ :=
    ⟨_, .cons (.cons (p := 0) .last) (.cons (.cons (p := 0) .last) .nil),
      .cons (p := 0) .last⟩
  have hi : GivesIndex ⟨none, 0⟩ (nameRow "i") countState 2 countState :=
    ⟨_, .ofReal 2.0, Tree.Atom.name.parse, rfl, by decide +kernel,
      by decide +kernel, ⟨false, Nat.pow 2 52, -51⟩, by decide +kernel,
      by decide +kernel⟩
  have hj : GivesIndex ⟨none, 0⟩ (nameRow "j") countState (-1) countState :=
    ⟨_, .ofReal (-1.0), Tree.Atom.name.parse, rfl, by decide +kernel,
      by decide +kernel, ⟨true, Nat.pow 2 52, -52⟩, by decide +kernel,
      by decide +kernel⟩
  obtain ⟨t, -, -, hindexes, -⟩ := (evaluate_literal hinside 0 0).1 2
    [[.leaf (.variable "i"), .leaf (.variable "j")],
      [.leaf (.variable "j"), .leaf (.variable "i")]] ⟨none, 0⟩
    [[.number (.ofReal 2.0), .number (.ofReal (-1.0))],
      [.number (.ofReal (-1.0)), .number (.ofReal 2.0)]]
    countState countState (by decide) (by decide)
    (.cons (.cons Tree.Atom.name.parse (.cons Tree.Atom.name.parse .nil))
      (.cons (.cons Tree.Atom.name.parse (.cons Tree.Atom.name.parse .nil))
        .nil)) rfl
  obtain ⟨t, hparse, -, hvalue⟩ :=
    hindexes.pair (.cons (p := 0) .last) hi hj 0 0
  obtain ⟨v, hentry, heval⟩ := hvalue (by decide) (by decide)
  exact ⟨_, _, t, v, hinside, hi, hj, hparse, heval,
    Option.some.inj (hentry.symm.trans rfl)⟩

end Metrology.Program
