/-
Matrices as they are written: rows of entries, with commas between the
entries of a row and semicolons between the rows (`Arranged`). The entries
may hold brackets and separators of their own, so long as these stand
inside the brackets, which is so for everything that can be read.

Such a row of tokens is cut at the separators that were put in, and at no
others (`map_splitCommas`). With rows of one width the literal is read as
the matrix of its entries' trees (`Arranged.parse`), and with rows of
different widths it cannot be read (`Arranged.parse_ragged`). A literal and
a variable can both be followed by indices.
-/
import Metrology.Proofs.Tree.Writing

namespace Metrology.Tree

-- =========================================================== separators

/-- The row consists of these parts, with a separator between each two. -/
inductive Separated (l : Lexeme) : List (List Token) → List Token → Prop
  | last {xs : List Token} : Separated l [xs] xs
  | cons {xs ys : List Token} {parts : List (List Token)} {p : Nat} :
      Separated l parts ys → Separated l (xs :: parts) (xs ++ ⟨l, p⟩ :: ys)

/-- Parts without separators of their own are the parts of the row. -/
theorem Separated.parts {l : Lexeme} {sep : Lexeme → Bool}
    (hl : sep l = true) {parts : List (List Token)} {ts : List Token}
    (h : Separated l parts ts) (hfree : ∀ part ∈ parts, IsFree sep part) :
    Parts sep ts parts := by
  induction h with
  | last => exact .last (hfree _ (List.mem_cons_self ..))
  | cons _ ih =>
      exact .cons (hfree _ (List.mem_cons_self ..)) hl
        (ih fun part hp => hfree part (List.mem_cons_of_mem _ hp))

/-- Nothing is one part without content. -/
theorem Separated.eq_of_nil {l : Lexeme} {parts : List (List Token)}
    (h : Separated l parts []) : parts = [[]] := by
  generalize hts : ([] : List Token) = ts at h
  cases h with
  | last => rw [← hts]
  | cons _ => exact absurd hts (by simp)

/-- There is at least one part. -/
theorem Separated.ne_nil {l : Lexeme} {parts : List (List Token)}
    {ts : List Token} (h : Separated l parts ts) : parts ≠ [] := by
  cases h <;> exact List.cons_ne_nil _ _

-- ============================================================== entries

/-- The separators of the row all stand inside its brackets. -/
def IsEntry (ts : List Token) : Prop :=
  IsFree isComma ts ∧ IsFree isSemicolon ts

/-- What can be read is an entry. -/
theorem isEntry_of_parse {ts : List Token} {t : Tree}
    (h : parse ts = .ok t) : IsEntry ts :=
  ⟨isFree_of_parse isStray_isComma h, isFree_of_parse isStray_isSemicolon h⟩

/-- What holds of whatever can be paired holds of all that are. -/
theorem forall_of_forall₂ {α β : Type} {r : α → β → Prop} {p : α → Prop}
    {xs : List α} {ys : List β} (h : List.Forall₂ r xs ys)
    (hp : ∀ {x y}, r x y → p x) : ∀ x ∈ xs, p x := by
  have hall := h.imp fun _ _ h => And.intro (hp h) h
  exact ((List.forall₂_and_left _ _).mp hall).1

/-- The row consists of these rows of entries, with commas between the
entries and semicolons between the rows. -/
def Arranged (rows : List (List (List Token))) (inside : List Token) :
    Prop :=
  ∃ lines, List.Forall₂ (Separated .comma) rows lines
    ∧ Separated .semicolon lines inside

variable {rows : List (List (List Token))} {inside : List Token}

/-- The commas of a line separate its entries, and it holds no semicolon. -/
theorem parts_of_separated {row : List (List Token)} {line : List Token}
    (h : Separated .comma row line) (hrow : ∀ entry ∈ row, IsEntry entry) :
    IsFree isSemicolon line ∧ Parts isComma line row := by
  have hparts : Parts isComma line row :=
    h.parts rfl fun entry he => (hrow entry he).1
  refine ⟨hparts.isFree isComma_bracket ?_
    fun entry he => (hrow entry he).2, hparts⟩
  intro l hl
  cases l <;> first | rfl | cases hl

/-- The lines of a literal, each with the entries between its commas. -/
theorem Arranged.exists_lines (h : Arranged rows inside)
    (hentries : ∀ row ∈ rows, ∀ entry ∈ row, IsEntry entry) :
    ∃ lines, Parts isSemicolon inside lines
      ∧ List.Forall₂ (Parts isComma) lines rows := by
  obtain ⟨lines, hlines, hinside⟩ := h
  have hall : List.Forall₂ (fun line row => IsFree isSemicolon line
      ∧ Parts isComma line row) lines rows :=
    (((List.forall₂_and_left _ _).mpr ⟨hentries, hlines⟩).imp
      fun row line h => parts_of_separated h.2 h.1).flip
  obtain ⟨hfree, hparts⟩ := (List.forall₂_and_left _ _).mp hall
  exact ⟨lines, hinside.parts rfl hfree, hparts⟩

/-- A literal nests if its entries do. -/
theorem Arranged.nests (h : Arranged rows inside)
    (hentries : ∀ row ∈ rows, ∀ entry ∈ row, IsEntry entry) :
    Nests inside := by
  obtain ⟨lines, hparts, -⟩ := h.exists_lines hentries
  exact hparts.nests isSemicolon_bracket

/-- Cutting at the separators gives the entries back. -/
theorem Arranged.map_splitCommas (h : Arranged rows inside)
    (hentries : ∀ row ∈ rows, ∀ entry ∈ row, IsEntry entry) :
    (splitSemicolons inside).map splitCommas = rows := by
  obtain ⟨lines, hparts, hlines⟩ := h.exists_lines hentries
  rw [splitSemicolons, splitFrom_eq_of_parts isSemicolon_bracket hparts,
    ← List.forall₂_eq_eq_eq, List.forall₂_map_left_iff]
  exact hlines.imp fun _ _ hline =>
    splitFrom_eq_of_parts isComma_bracket hline

/-- It has at least one row. -/
theorem Arranged.ne_nil (h : Arranged rows inside) : rows ≠ [] := by
  obtain ⟨lines, hlines, hinside⟩ := h
  rintro rfl
  cases hlines
  exact hinside.ne_nil rfl

/-- Only a single entry without content is written as nothing. -/
theorem Arranged.eq_of_nil (h : Arranged rows []) : rows = [[[]]] := by
  obtain ⟨lines, hlines, hinside⟩ := h
  rw [hinside.eq_of_nil] at hlines
  cases hlines with
  | cons hrow hnil =>
      cases hnil
      rw [hrow.eq_of_nil]

-- ============================================================= literals

/-- A literal alone is read as the matrix inside its brackets. -/
theorem parse_square {p q : Nat} (hn : Nests inside) :
    parse (enclosed .square p inside q) = readMatrix parse inside := by
  have hpieces := @pieces_enclosed .square p q inside hn []
  rw [List.append_nil] at hpieces
  rw [enclosed, parse_cons, ← enclosed, hpieces]
  show items parse (.group .square inside :: []) >>= reduce = _
  rw [items_square rfl]
  cases readMatrix parse inside with
  | error e => rfl
  | ok t => rfl

/-- The rows of a literal are read with the width of the first. -/
theorem readMatrix_eq (hinside : inside ≠ [])
    (hrows : (splitSemicolons inside).map splitCommas = rows) :
    readMatrix parse inside = (do
      let width := (rows.head?.map List.length).getD 0
      let cells ← rows.mapM (readRow parse width)
      return .mk (.matrix width rows.length) cells.flatten) := by
  unfold readMatrix
  rw [if_neg (by simpa using hinside), hrows]

variable {width : Nat}

/-- Rows of one width are read entry by entry. -/
theorem mapM_readRow (hwidth : ∀ row ∈ rows, row.length = width)
    {trees : List (List Tree)} (hread : List.Forall₂ ReadAll rows trees) :
    rows.mapM (readRow parse width) = .ok trees := by
  rw [mapM_eq_ok]
  refine ((List.forall₂_and_left _ _).mpr ⟨hwidth, hread⟩).imp ?_
  rintro row cells ⟨hlength, hcells⟩
  rw [readRow, if_neg (not_not.mpr hlength)]
  exact mapM_eq_ok.mpr hcells

/-- Rows of one width have that of the first. -/
theorem head?_length (hne : rows ≠ [])
    (hwidth : ∀ row ∈ rows, row.length = width) :
    (rows.head?.map List.length).getD 0 = width := by
  cases rows with
  | nil => exact absurd rfl hne
  | cons row rows => exact hwidth row (List.mem_cons_self ..)

/-- Entries that can be read are entries. -/
theorem isEntry_of_readAll {trees : List (List Tree)}
    (hread : List.Forall₂ ReadAll rows trees) :
    ∀ row ∈ rows, ∀ entry ∈ row, IsEntry entry :=
  forall_of_forall₂ hread fun hcells =>
    forall_of_forall₂ hcells isEntry_of_parse

/-- A literal of rows of one width is the matrix of its entries. -/
theorem Arranged.parse (h : Arranged rows inside) (hinside : inside ≠ [])
    (hwidth : ∀ row ∈ rows, row.length = width)
    {trees : List (List Tree)} (hread : List.Forall₂ ReadAll rows trees)
    (p q : Nat) :
    Tree.parse (enclosed .square p inside q)
      = .ok (.mk (.matrix width rows.length) trees.flatten) := by
  have hentries := isEntry_of_readAll hread
  rw [parse_square (h.nests hentries),
    readMatrix_eq hinside (h.map_splitCommas hentries)]
  dsimp only
  rw [head?_length h.ne_nil hwidth, mapM_readRow hwidth hread]
  rfl

/-- Rows that are not all of a width cannot be read with it. If their
entries can be read, then the first row that is not of the width is what
is wrong. -/
theorem mapM_readRow_ragged (h : ¬ ∀ row ∈ rows, row.length = width) :
    ∃ e, rows.mapM (readRow parse width) = .error e
      ∧ ∀ trees, List.Forall₂ ReadAll rows trees →
        ∃ row ∈ rows, row.length ≠ width
          ∧ e = .raggedMatrix width row.length := by
  induction rows with
  | nil => exact absurd (fun _ h => nomatch h) h
  | cons row rows ih =>
      rw [List.mapM_cons, readRow]
      -- a row of the width may still fail in one of its entries, but not
      -- if these can be read
      by_cases hlength : row.length = width
      · rw [if_neg (not_not.mpr hlength)]
        rw [List.forall_mem_cons, and_iff_right hlength] at h
        obtain ⟨e, he, hwidth⟩ := ih h
        cases hrow : row.mapM parse with
        | error e' =>
            refine ⟨e', rfl, fun trees hread => ?_⟩
            cases hread with
            | cons hcells _ =>
                rw [mapM_eq_ok.mpr hcells] at hrow
                cases hrow
        | ok cells =>
            rw [ok_bind, he]
            refine ⟨e, rfl, fun trees hread => ?_⟩
            cases hread with
            | cons _ hread =>
                obtain ⟨row', hmem, hne, heq⟩ := hwidth _ hread
                exact ⟨row', List.mem_cons_of_mem _ hmem, hne, heq⟩
      · rw [if_pos hlength]
        exact ⟨_, rfl, fun _ _ => ⟨row, List.mem_cons_self .., hlength, rfl⟩⟩

/-- A literal whose rows have different widths cannot be read. If its
entries can be read, then what is wrong is a row that has not the width of
the first. -/
theorem Arranged.parse_ragged (h : Arranged rows inside)
    (hentries : ∀ row ∈ rows, ∀ entry ∈ row, IsEntry entry)
    (hragged : ¬ ∃ width, ∀ row ∈ rows, row.length = width) (p q : Nat) :
    ∃ e, Tree.parse (enclosed .square p inside q) = .error e
      ∧ ∀ trees, List.Forall₂ ReadAll rows trees →
        ∃ first ∈ rows.head?, ∃ row ∈ rows, row.length ≠ first.length
          ∧ e = .raggedMatrix first.length row.length := by
  have hinside : inside ≠ [] := by
    rintro rfl
    rw [h.eq_of_nil] at hragged
    exact hragged ⟨1, List.forall_mem_singleton.mpr rfl⟩
  rw [parse_square (h.nests hentries),
    readMatrix_eq hinside (h.map_splitCommas hentries)]
  cases rows with
  | nil => exact absurd rfl h.ne_nil
  | cons first rest =>
      obtain ⟨e, he, hwidth⟩ := mapM_readRow_ragged
        (fun hall => hragged ⟨first.length, hall⟩)
      refine ⟨e, ?_, fun trees hread => ⟨first, rfl, hwidth trees hread⟩⟩
      dsimp only [List.head?_cons, Option.map_some, Option.getD_some]
      rw [he]
      rfl

-- ============================================================== indices

/-- Indices that can be read, with commas between them, are the contents
of their brackets. -/
theorem contents_of_separated {indices : List (List Token)}
    {ts : List Tree} (h : Separated .comma indices inside)
    (hinside : inside ≠ []) (hread : ReadAll indices ts) :
    Contents isComma inside ts := by
  have hfree : ∀ index ∈ indices, IsFree isComma index :=
    forall_of_forall₂ hread fun hindex => (isEntry_of_parse hindex).1
  exact .some hinside (h.parts rfl hfree) hread

/-- A literal with indices behind it. -/
theorem parse_indexed {p q p' q' : Nat} {inside' : List Token} {t : Tree}
    {indices : List Tree} (hn : Nests inside)
    (hliteral : parse (enclosed .square p inside q) = .ok t)
    (hindices : Contents isComma inside' indices) :
    parse (enclosed .square p inside q ++ enclosed .square p' inside' q')
      = .ok (.mk (.index none) (t :: indices)) := by
  rw [parse_square hn] at hliteral
  exact (Atom.indexed ((readMatrix_eq_ok_iff hn).mp hliteral) hindices).parse

/-- A literal assigned to a variable. -/
theorem parse_assignment {name : String} {p q n a : Nat} {t : Tree}
    (hn : Nests inside)
    (hliteral : parse (enclosed .square p inside q) = .ok t) :
    parse (⟨.name name, n⟩ :: ⟨.operator .assign, a⟩
        :: enclosed .square p inside q)
      = .ok (.mk (.operator .assign) [leaf (.variable name), t]) := by
  rw [parse_square hn] at hliteral
  have hatom : Atom (enclosed .square p inside q) t :=
    .matrix ((readMatrix_eq_ok_iff hn).mp hliteral)
  obtain ⟨hitems, hcall⟩ :=
    items_waiting (t := ⟨.operator .assign, a⟩) rfl hatom.items
  exact parse_of_items (items_atom (.name (p := n)) hcall hitems) rfl

end Metrology.Tree
