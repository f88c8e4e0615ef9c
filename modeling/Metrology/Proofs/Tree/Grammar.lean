/-
The grammar of expressions. On rows of tokens without constructs, the
parser accepts exactly the rows

    phrase (operator phrase)*

where a phrase is any number of signs, an atom, any number of queries and
any number of units, with one exception: plus and minus do not follow a
query directly. Atoms are what stands for itself: a number, a string, a
name, a call, an index, a matrix, a group or a block, the parts of its
brackets read by the parser in turn.

The tree is the one of `Chain.Groups`, and the only one: units outermost
in a phrase, then queries, then signs; operators between the phrases by
precedence, those of one tier from the left.

The file joins two halves. `Phrase` has shown that a level reduces to a
tree exactly when it is a legal chain; here tokens and items are matched.
Items are made of atoms and of single tokens, and the pieces of a row
tell how (`Written`). The one thing to watch is that a name takes a group
behind it, and a matrix takes a second bracket, but in a chain no atom
has another right behind it.
-/
import Metrology.Proofs.Tree.Phrase

namespace Metrology.Tree

-- ================================================================ atoms

/-- The inside of a group in brackets. -/
def enclosed (b : Bracket) (p : Nat) (inside : List Token) (q : Nat) :
    List Token :=
  ⟨.opening b, p⟩ :: (inside ++ [⟨.closing b, q⟩])

/-- The parts of the row can be read as these trees. -/
def ReadAll (parts : List (List Token)) (ts : List Tree) : Prop :=
  List.Forall₂ (fun part t => parse part = .ok t) parts ts

/-- The inside of a group holds these trees between its separators;
without content it holds none. -/
inductive Contents (sep : Lexeme → Bool) : List Token → List Tree → Prop
  | none : Contents sep [] []
  | some {inside : List Token} {parts : List (List Token)} {ts : List Tree} :
      inside ≠ [] → Parts sep inside parts → ReadAll parts ts →
      Contents sep inside ts

/-- A row of a matrix and its cells. -/
def RowCells (width : Nat) (row : List Token) (cells : List Tree) : Prop :=
  ∃ parts, Parts isComma row parts ∧ parts.length = width
    ∧ ReadAll parts cells

/-- The inside of square brackets is this matrix, its rows all of the
same width. -/
inductive Literal : List Token → Tree → Prop
  | none : Literal [] (leaf (.matrix 0 0))
  | some {inside : List Token} {width : Nat} {rows : List (List Token)}
      {cells : List (List Tree)} :
      inside ≠ [] → Parts isSemicolon inside rows →
      List.Forall₂ (RowCells width) rows cells →
      Literal inside (.mk (.matrix width rows.length) cells.flatten)

/-- A row of tokens that stands for a tree by itself. -/
inductive Atom : List Token → Tree → Prop
  | number {text decorator : String} {value : Float} {p : Nat} :
      Numeral.read? text = some value →
      Atom [⟨.number text decorator, p⟩] (leaf (.number value decorator))
  | template {text : String} {p : Nat} :
      Atom [⟨.template text, p⟩] (leaf (.template text))
  | name {name : String} {p : Nat} :
      Atom [⟨.name name, p⟩] (leaf (.variable name))
  | call {name : String} {p q r : Nat} {inside : List Token}
      {arguments : List Tree} :
      Contents isComma inside arguments →
      Atom (⟨.name name, p⟩ :: enclosed .paren q inside r)
        (.mk (.call name) arguments)
  | index {name : String} {p q r : Nat} {inside : List Token}
      {indices : List Tree} :
      Contents isComma inside indices →
      Atom (⟨.name name, p⟩ :: enclosed .square q inside r)
        (.mk (.index (some name)) indices)
  | matrix {p q : Nat} {inside : List Token} {t : Tree} :
      Literal inside t → Atom (enclosed .square p inside q) t
  | indexed {p q p' q' : Nat} {inside inside' : List Token} {t : Tree}
      {indices : List Tree} :
      Literal inside t → Contents isComma inside' indices →
      Atom (enclosed .square p inside q ++ enclosed .square p' inside' q')
        (.mk (.index none) (t :: indices))
  | group {p q : Nat} {inside : List Token} {t : Tree} :
      inside ≠ [] → parse inside = .ok t →
      Atom (enclosed .paren p inside q) t
  | block {p q : Nat} {inside : List Token} {ts : List Tree} :
      Contents isSemicolon inside ts →
      Atom (enclosed .brace p inside q) (.mk .block ts)

-- ============================================================== phrases

/-- The tokens are these lexemes, wherever they stand. -/
def Spell (ls : List Lexeme) (ts : List Token) : Prop :=
  ts.map Token.lexeme = ls

/-- The tokens of a phrase: signs, an atom, queries and units. -/
def Phrase.Spells (p : Phrase) (ts : List Token) : Prop :=
  ∃ signs atom queries units, ts = signs ++ (atom ++ (queries ++ units))
    ∧ Spell (p.signs.map .operator) signs ∧ Atom atom p.atom
    ∧ Spell (List.replicate p.queries (.operator .certain)) queries
    ∧ Spell (p.units.map fun u => .unitBlock u.1 u.2) units

/-- The tokens of binary operators, each with the phrase behind it. -/
def SpellsRest : List (Operator × Phrase) → List Token → Prop
  | [], ts => ts = []
  | (op, p) :: rest, ts =>
      ∃ t xs ys, ts = t :: (xs ++ ys) ∧ t.lexeme = .operator op
        ∧ p.Spells xs ∧ SpellsRest rest ys

/-- The tokens of a chain: phrases with operators between them. -/
def Chain.Spells (c : Chain) (ts : List Token) : Prop :=
  ∃ xs ys, ts = xs ++ ys ∧ c.first.Spells xs ∧ SpellsRest c.rest ys

-- ======================================================= reading contents

/-- A bracket is no comma. -/
theorem isComma_bracket (l : Lexeme) (h : l.isBracket = true) :
    isComma l = false := by
  cases l <;> first | rfl | cases h

theorem isSemicolon_bracket (l : Lexeme) (h : l.isBracket = true) :
    isSemicolon l = false := by
  cases l <;> first | rfl | cases h

/-- A separator is no bracket. -/
theorem plain_of_sep {sep : Lexeme → Bool}
    (hsep : ∀ l : Lexeme, l.isBracket = true → sep l = false) {l : Lexeme}
    (hl : sep l = true) : l.isBracket = false := by
  rw [← Bool.not_eq_true]
  intro hb
  rw [hsep l hb] at hl
  cases hl

/-- A row of parts nests. -/
theorem Parts.nests {sep : Lexeme → Bool}
    (hsep : ∀ l : Lexeme, l.isBracket = true → sep l = false)
    {ts : List Token} {parts : List (List Token)}
    (h : Parts sep ts parts) : Nests ts := by
  induction h with
  | last hx => exact hx.nests
  | @cons xs ys s parts hx hs _ ih =>
      have hs' : Nests [s] := .singleton (plain_of_sep hsep hs)
      exact hx.nests.append (hs'.append ih)

/-- A row that can be read nests. -/
theorem nests_of_parse_eq_ok {ts : List Token} {t : Tree}
    (h : parse ts = .ok t) : Nests ts := by
  cases ts with
  | nil => exact ⟨_, .nil⟩
  | cons x xs =>
      rw [parse_cons] at h
      obtain ⟨level, hlevel, -⟩ := bind_eq_ok.mp h
      exact ⟨_, cut_pieces (reads_of_items_eq_ok hlevel).isWhole⟩

theorem Contents.nests {sep : Lexeme → Bool}
    (hsep : ∀ l : Lexeme, l.isBracket = true → sep l = false)
    {inside : List Token} {ts : List Tree} (h : Contents sep inside ts) :
    Nests inside := by
  cases h with
  | none => exact ⟨_, .nil⟩
  | some _ hparts _ => exact hparts.nests hsep

theorem Literal.nests {inside : List Token} {t : Tree}
    (h : Literal inside t) : Nests inside := by
  cases h with
  | none => exact ⟨_, .nil⟩
  | some _ hrows _ => exact hrows.nests isSemicolon_bracket

/-- Splitting and reading the parts finds the contents of a group. -/
theorem contents_iff {sep : Lexeme → Bool}
    (hsep : ∀ l : Lexeme, l.isBracket = true → sep l = false)
    {inside : List Token} (hne : inside ≠ []) (hnests : Nests inside)
    {ts : List Tree} :
    Contents sep inside ts
      ↔ (splitFrom sep 0 inside).mapM parse = .ok ts := by
  rw [mapM_eq_ok]
  constructor
  · intro h
    cases h with
    | none => exact absurd rfl hne
    | some _ hparts hread =>
        rw [splitFrom_eq_of_parts hsep hparts]
        exact hread
  · intro h
    exact .some hne (parts_splitFrom hsep hnests) h

/-- Arguments and indices are read as the contents of their brackets. -/
theorem readArguments_eq_ok_iff {inside : List Token} (hn : Nests inside)
    {ts : List Tree} :
    readArguments parse inside = .ok ts ↔ Contents isComma inside ts := by
  unfold readArguments
  cases inside with
  | nil =>
      constructor
      · intro h; cases h; exact .none
      · intro h
        cases h with
        | none => rfl
        | some hne _ _ => exact absurd rfl hne
  | cons x xs =>
      exact (contents_iff isComma_bracket (List.cons_ne_nil _ _) hn).symm

theorem readBlock_eq_ok_iff {inside : List Token} (hn : Nests inside)
    {t : Tree} :
    readBlock parse inside = .ok t
      ↔ ∃ ts, Contents isSemicolon inside ts ∧ t = .mk .block ts := by
  unfold readBlock
  cases inside with
  | nil =>
      constructor
      · intro h; cases h; exact ⟨[], .none, rfl⟩
      · rintro ⟨ts, h, rfl⟩
        cases h with
        | none => rfl
        | some hne _ _ => exact absurd rfl hne
  | cons x xs =>
      have hiff (ts : List Tree) : Contents isSemicolon (x :: xs) ts ↔ _ :=
        contents_iff isSemicolon_bracket (List.cons_ne_nil x xs) hn
      constructor
      · intro h
        obtain ⟨ts, hts, h⟩ := bind_eq_ok.mp h
        cases h
        exact ⟨ts, (hiff ts).mpr hts, rfl⟩
      · rintro ⟨ts, hts, rfl⟩
        exact bind_eq_ok.mpr ⟨ts, (hiff ts).mp hts, rfl⟩

/-- A group is read as its one expression; without content it waits. -/
theorem readGroup_eq_ok_iff {inside : List Token} {i : Item} :
    readGroup parse inside = .ok i
      ↔ (inside = [] ∧ i = .waiting .empty)
        ∨ (inside ≠ [] ∧ ∃ t, parse inside = .ok t ∧ i = .done t) := by
  unfold readGroup
  cases inside with
  | nil =>
      constructor
      · intro h; cases h; exact .inl ⟨rfl, rfl⟩
      · rintro (⟨-, rfl⟩ | ⟨hne, -⟩)
        · rfl
        · exact absurd rfl hne
  | cons x xs =>
      constructor
      · intro h
        obtain ⟨t, ht, h⟩ := bind_eq_ok.mp h
        cases h
        exact .inr ⟨List.cons_ne_nil _ _, t, ht, rfl⟩
      · rintro (⟨hnil, -⟩ | ⟨-, t, ht, rfl⟩)
        · cases hnil
        · exact bind_eq_ok.mpr ⟨t, ht, rfl⟩

/-- A row of a matrix can be read when it has the width and its cells can
be read. -/
theorem readRow_eq_ok_iff {width : Nat} {row : List Token}
    (hn : Nests row) {cells : List Tree} :
    readRow parse width (splitCommas row) = .ok cells
      ↔ RowCells width row cells := by
  unfold readRow
  constructor
  · intro h
    split at h
    · cases h
    · next hlen =>
      exact ⟨_, parts_splitFrom isComma_bracket hn,
        Decidable.not_not.mp hlen, mapM_eq_ok.mp h⟩
  · rintro ⟨parts, hparts, hlen, hcells⟩
    rw [splitCommas, splitFrom_eq_of_parts isComma_bracket hparts,
      if_neg (by simpa using hlen)]
    exact mapM_eq_ok.mpr hcells

/-- There is at least one part. -/
theorem Parts.ne_nil {sep : Lexeme → Bool} {ts : List Token}
    {parts : List (List Token)} (h : Parts sep ts parts) : parts ≠ [] := by
  cases h <;> exact List.cons_ne_nil _ _

/-- Each part nests by itself. -/
theorem Parts.nests_of_mem {sep : Lexeme → Bool} {ts : List Token}
    {parts : List (List Token)} (h : Parts sep ts parts) :
    ∀ part ∈ parts, Nests part := by
  induction h with
  | last hx => intro part hp; rw [List.mem_singleton.mp hp]; exact hx.nests
  | cons hx _ _ ih =>
      intro part hp
      rcases List.mem_cons.mp hp with rfl | hp
      · exact hx.nests
      · exact ih part hp

/-- Rows that nest are read one by one. -/
theorem mapM_readRow_eq_ok_iff {width : Nat} {rows : List (List Token)}
    (hn : ∀ row ∈ rows, Nests row) {cells : List (List Tree)} :
    (rows.map splitCommas).mapM (readRow parse width) = .ok cells
      ↔ List.Forall₂ (RowCells width) rows cells := by
  rw [mapM_eq_ok, List.forall₂_map_left_iff]
  constructor
  · intro h
    exact ((List.forall₂_and_left _ _).mpr ⟨hn, h⟩).imp
      fun row cs h => (readRow_eq_ok_iff h.1).mp h.2
  · intro h
    exact ((List.forall₂_and_left _ _).mpr ⟨hn, h⟩).imp
      fun row cs h => (readRow_eq_ok_iff h.1).mpr h.2

/-- The width asked of every row is that of the first. -/
theorem width_of_rowCells {width : Nat} {rows : List (List Token)}
    {cells : List (List Tree)} (hne : rows ≠ [])
    (h : List.Forall₂ (RowCells width) rows cells) :
    ((rows.map splitCommas).head?.map List.length).getD 0 = width := by
  cases h with
  | nil => exact absurd rfl hne
  | cons hrow _ =>
      obtain ⟨parts, hrow, hlen, -⟩ := hrow
      have hsplit : splitCommas _ = parts :=
        splitFrom_eq_of_parts isComma_bracket hrow
      rw [List.map_cons, hsplit]
      exact hlen

/-- The inside of square brackets is read as a matrix. -/
theorem readMatrix_eq_ok_iff {inside : List Token} (hn : Nests inside)
    {t : Tree} : readMatrix parse inside = .ok t ↔ Literal inside t := by
  unfold readMatrix
  cases inside with
  | nil =>
      constructor
      · intro h; cases h; exact .none
      · intro h
        cases h with
        | none => rfl
        | some hne _ _ => exact absurd rfl hne
  | cons x xs =>
      have hne : x :: xs ≠ [] := List.cons_ne_nil x xs
      have hrows := parts_splitFrom isSemicolon_bracket hn
      constructor
      · intro h
        obtain ⟨cells, hcells, h⟩ := bind_eq_ok.mp h
        cases h
        rw [List.length_map]
        exact .some hne hrows
          ((mapM_readRow_eq_ok_iff hrows.nests_of_mem).mp hcells)
      · intro h
        cases h with
        | @some _ width rows cells _ hparts hcells =>
            have hsplit : splitSemicolons (x :: xs) = rows :=
              splitFrom_eq_of_parts isSemicolon_bracket hparts
            have hwidth := width_of_rowCells hparts.ne_nil hcells
            refine bind_eq_ok.mpr ⟨cells, ?_, ?_⟩
            · rw [hsplit, hwidth]
              exact (mapM_readRow_eq_ok_iff hparts.nests_of_mem).mpr hcells
            · rw [hsplit, hwidth, List.length_map]
              rfl

-- ====================================================== reading a chain

/-- What could not be taken by a name cannot be taken by a matrix. -/
theorem opensSquare_of_opensCall {ps : List Piece}
    (h : opensCall ps = false) : opensSquare ps = false := by
  unfold opensSquare
  split
  · cases h
  · rfl

/-- A group that nests is one piece. -/
theorem pieces_enclosed {b : Bracket} {p q : Nat} {inside : List Token}
    (hn : Nests inside) (ts : List Token) :
    pieces (enclosed b p inside q ++ ts) = .group b inside :: pieces ts := by
  have heq : enclosed b p inside q ++ ts
      = ⟨.opening b, p⟩ :: (inside ++ ⟨.closing b, q⟩ :: ts) := by
    simp [enclosed]
  rw [heq, pieces_group rfl rfl hn]

/-- A number does not wait. -/
theorem ofToken_number_ne {text decorator : String} {p : Nat} {n : Node} :
    ofToken ⟨.number text decorator, p⟩ ≠ .ok (.waiting n) := by
  intro h
  unfold ofToken at h
  simp only at h
  split at h <;> cases h

/-- A number that spells a value is its leaf. -/
theorem ofToken_number {text decorator : String} {p : Nat}
    {value : Float} (h : Numeral.read? text = some value) :
    ofToken ⟨.number text decorator, p⟩
      = .ok (.done (leaf (.number value decorator))) := by
  simp only [ofToken, h]

/-- An atom with no group behind it is one item. -/
theorem items_atom {xs ts : List Token} {a : Tree} {level : Level}
    (h : Atom xs a) (hcall : opensCall (pieces ts) = false)
    (hts : items parse (pieces ts) = .ok level) :
    items parse (pieces (xs ++ ts)) = .ok (.done a :: level) := by
  cases h with
  | number hvalue =>
      rw [List.singleton_append, pieces_plain rfl, items_token (.inl rfl),
        ofToken_number hvalue, hts]
      rfl
  | template =>
      rw [List.singleton_append, pieces_plain rfl, items_token (.inl rfl), hts]
      rfl
  -- a name alone, since no group follows that it could take
  | name =>
      rw [List.singleton_append, pieces_plain rfl, items_token (.inr hcall),
        hts]
      rfl
  | call harguments =>
      have hn := harguments.nests isComma_bracket
      rw [List.cons_append, pieces_plain rfl, pieces_enclosed hn,
        items_call rfl, (readArguments_eq_ok_iff hn).mpr harguments, hts]
      rfl
  | index hindices =>
      have hn := hindices.nests isComma_bracket
      rw [List.cons_append, pieces_plain rfl, pieces_enclosed hn,
        items_index rfl, (readArguments_eq_ok_iff hn).mpr hindices, hts]
      rfl
  | matrix ht =>
      rw [pieces_enclosed ht.nests, items_square
        (opensSquare_of_opensCall hcall),
        (readMatrix_eq_ok_iff ht.nests).mpr ht, hts]
      rfl
  | indexed ht hindices =>
      have hn := hindices.nests isComma_bracket
      rw [List.append_assoc, pieces_enclosed ht.nests, pieces_enclosed hn,
        items, (readMatrix_eq_ok_iff ht.nests).mpr ht,
        (readArguments_eq_ok_iff hn).mpr hindices, hts]
      rfl
  | group hne ht =>
      rw [pieces_enclosed (nests_of_parse_eq_ok ht), items,
        readGroup_eq_ok_iff.mpr (.inr ⟨hne, a, ht, rfl⟩), hts]
      rfl
  | block hcontents =>
      have hn := hcontents.nests isSemicolon_bracket
      rw [pieces_enclosed hn, items,
        (readBlock_eq_ok_iff hn).mpr ⟨_, hcontents, rfl⟩, hts]
      rfl

/-- A token that waits for operands is one item. -/
theorem items_waiting {t : Token} {n : Node} {ts : List Token}
    {level : Level} (ht : ofToken t = .ok (.waiting n))
    (hts : items parse (pieces ts) = .ok level) :
    items parse (pieces (t :: ts)) = .ok (.waiting n :: level)
      ∧ opensCall (pieces (t :: ts)) = false := by
  obtain ⟨l, p⟩ := t
  cases l with
  | operator op =>
      cases ht
      rw [pieces_plain rfl, items_token (.inl rfl), hts]
      exact ⟨rfl, rfl⟩
  | keyword word =>
      cases ht
      rw [pieces_plain rfl, items_token (.inl rfl), hts]
      exact ⟨rfl, rfl⟩
  | unitBlock text scale =>
      cases ht
      rw [pieces_plain rfl, items_token (.inl rfl), hts]
      exact ⟨rfl, rfl⟩
  | number text decorator => exact absurd ht ofToken_number_ne
  | _ => cases ht

/-- Tokens that wait for operands are items one by one. -/
theorem items_waiting_append {ts : List Token} {level : Level}
    (hts : items parse (pieces ts) = .ok level) :
    ∀ (ns : List Node) {xs : List Token},
      xs.map ofToken = ns.map (fun n => .ok (.waiting n)) →
      items parse (pieces (xs ++ ts)) = .ok (ns.map .waiting ++ level)
        ∧ (opensCall (pieces ts) = false →
            opensCall (pieces (xs ++ ts)) = false) := by
  intro ns
  induction ns with
  | nil =>
      intro xs h
      rw [List.map_eq_nil_iff.mp h]
      exact ⟨hts, id⟩
  | cons n ns ih =>
      intro xs h
      obtain ⟨x, xs, rfl, hx, hxs⟩ := List.map_eq_cons_iff.mp h
      obtain ⟨hitems, hcall⟩ := items_waiting hx (ih hxs).1
      exact ⟨hitems, fun _ => hcall⟩

/-- Tokens spelled one by one wait one by one. -/
theorem map_ofToken {α : Type} {f : α → Lexeme} {g : α → Node}
    (hfg : ∀ a p, ofToken ⟨f a, p⟩ = .ok (.waiting (g a))) :
    ∀ (as : List α) {xs : List Token}, Spell (as.map f) xs →
      xs.map ofToken = (as.map g).map fun n => .ok (.waiting n) := by
  intro as
  induction as with
  | nil =>
      intro xs h
      rw [List.map_eq_nil_iff.mp h]
      rfl
  | cons a as ih =>
      intro xs h
      obtain ⟨⟨l, p⟩, xs, rfl, rfl, hxs⟩ := List.map_eq_cons_iff.mp h
      rw [List.map_cons, ih hxs, hfg]
      rfl

/-- A phrase is its signs, its atom, its queries and its units. -/
theorem items_phrase {p : Phrase} {xs ts : List Token} {level : Level}
    (h : p.Spells xs) (hcall : opensCall (pieces ts) = false)
    (hts : items parse (pieces ts) = .ok level) :
    items parse (pieces (xs ++ ts)) = .ok (p.items ++ level) := by
  obtain ⟨signs, atom, queries, units, rfl, hsigns, hatom, hqueries,
    hunits⟩ := h
  rw [← List.map_replicate] at hqueries
  -- from the back to the front, since an atom must know that no group
  -- follows it
  have hunits := items_waiting_append hts _
    (map_ofToken (g := fun u => .unitBlock u.1 u.2) (fun _ _ => rfl) _ hunits)
  have hqueries := items_waiting_append hunits.1 _
    (map_ofToken (g := .operator) (fun _ _ => rfl) _ hqueries)
  have hatom := items_atom hatom (hqueries.2 (hunits.2 hcall)) hqueries.1
  have hsigns := items_waiting_append hatom _
    (map_ofToken (g := .operator) (fun _ _ => rfl) _ hsigns)
  have heq : signs ++ (atom ++ (queries ++ units)) ++ ts
      = signs ++ (atom ++ (queries ++ (units ++ ts))) := by
    simp
  rw [heq, hsigns.1]
  simp [Phrase.items, Phrase.tail, Function.comp_def]

/-- Operators with their phrases are items in that order. -/
theorem items_rest {tail : List Token} {level : Level}
    (hcall : opensCall (pieces tail) = false)
    (htail : items parse (pieces tail) = .ok level)
    (rest : List (Operator × Phrase)) :
    ∀ {ts : List Token}, SpellsRest rest ts →
      items parse (pieces (ts ++ tail)) = .ok (restItems rest ++ level)
        ∧ opensCall (pieces (ts ++ tail)) = false := by
  induction rest with
  | nil => intro ts h; cases h; exact ⟨htail, hcall⟩
  | cons x rest ih =>
      intro ts h
      obtain ⟨t, xs, ys, rfl, ht, hp, hrest⟩ := h
      obtain ⟨hys, hcall⟩ := ih hrest
      obtain ⟨l, p⟩ := t
      cases ht
      rw [List.cons_append, List.append_assoc, restItems_cons,
        List.cons_append, List.append_assoc]
      exact items_waiting rfl (items_phrase hp hcall hys)

/-- The items of a row that spells a chain are those of the chain, and what
follows is read by itself unless it is a group that a name could take. -/
theorem items_chain_append {c : Chain} {ts tail : List Token}
    {level : Level} (h : c.Spells ts)
    (hcall : opensCall (pieces tail) = false)
    (htail : items parse (pieces tail) = .ok level) :
    items parse (pieces (ts ++ tail)) = .ok (c.items ++ level) := by
  obtain ⟨xs, ys, rfl, hp, hrest⟩ := h
  obtain ⟨hys, hcall⟩ := items_rest hcall htail c.rest hrest
  rw [List.append_assoc, Chain.items, List.append_assoc]
  exact items_phrase hp hcall hys

/-- The items of a row that spells a chain, and nothing else. -/
theorem items_chain {c : Chain} {ts : List Token} (h : c.Spells ts) :
    items parse (pieces ts) = .ok c.items := by
  have hnil : items parse (pieces []) = .ok [] := rfl
  have happend := items_chain_append h rfl hnil
  rwa [List.append_nil, List.append_nil] at happend

-- ==================================================== from items to tokens

/-- The tokens that items come from: atoms, and tokens that wait. -/
inductive Written : List Token → Level → Prop
  | nil : Written [] []
  | atom {xs ts : List Token} {a : Tree} {level : Level} :
      Atom xs a → Written ts level → Written (xs ++ ts) (.done a :: level)
  | waiting {t : Token} {n : Node} {ts : List Token} {level : Level} :
      ofToken t = .ok (.waiting n) → Written ts level →
      Written (t :: ts) (.waiting n :: level)
  | hollow {p q : Nat} {ts : List Token} {level : Level} :
      Written ts level →
      Written (enclosed .paren p [] q ++ ts) (.waiting .empty :: level)

/-- The first piece is the first token. -/
theorem cut_token {ts : List Token} {t : Token} {ps : List Piece}
    (h : Cut ts (.token t :: ps)) : ∃ ts', ts = t :: ts' ∧ Cut ts' ps := by
  cases h with
  | token _ h => exact ⟨_, rfl, h⟩

/-- Or the first piece is a group with its brackets around it. -/
theorem cut_group {ts inside : List Token} {b : Bracket} {ps : List Piece}
    (h : Cut ts (.group b inside :: ps)) :
    ∃ p q ts', ts = enclosed b p inside q ++ ts' ∧ Nests inside
      ∧ Cut ts' ps := by
  cases h with
  | @group o c _ _ ts' within _ ho hc hin h =>
      obtain ⟨_, p⟩ := o
      obtain ⟨_, q⟩ := c
      cases ho
      cases hc
      exact ⟨p, q, ts', by simp [enclosed], ⟨within, hin⟩, h⟩

/-- Only a name names something. -/
theorem name?_eq_some {t : Token} {name : String}
    (h : name? t = some name) : ∃ p, t = ⟨.name name, p⟩ := by
  obtain ⟨l, p⟩ := t
  cases l <;> cases h
  exact ⟨p, rfl⟩

/-- A token that stands by itself is an atom or waits. -/
theorem ofToken_cases {t : Token} {i : Item} (h : ofToken t = .ok i) :
    (∃ a, i = .done a ∧ Atom [t] a) ∨ ∃ n, i = .waiting n := by
  obtain ⟨l, p⟩ := t
  cases l with
  | number text decorator =>
      unfold ofToken at h
      simp only at h
      split at h
      · next value hvalue =>
        cases h
        exact .inl ⟨_, rfl, .number hvalue⟩
      · cases h
  | name name => cases h; exact .inl ⟨_, rfl, .name⟩
  | template text => cases h; exact .inl ⟨_, rfl, .template⟩
  | operator op => cases h; exact .inr ⟨_, rfl⟩
  | keyword word => cases h; exact .inr ⟨_, rfl⟩
  | unitBlock text scale => cases h; exact .inr ⟨_, rfl⟩
  | _ => cases h

/-- Items that were read from a row are written in it. -/
theorem written_of_reads {ps : List Piece} {level : Level}
    (h : Reads parse ps level) :
    ∀ {ts : List Token}, Cut ts ps → Written ts level := by
  induction h with
  | nil => intro ts hcut; cases hcut; exact .nil
  | token hi _ ih =>
      intro ts hcut
      obtain ⟨ts', rfl, hrest⟩ := cut_token hcut
      rcases ofToken_cases hi with ⟨a, rfl, ha⟩ | ⟨n, rfl⟩
      · exact .atom ha (ih hrest)
      · exact .waiting hi (ih hrest)
  | call hname harguments _ ih =>
      intro ts hcut
      obtain ⟨ts', rfl, hgroup⟩ := cut_token hcut
      obtain ⟨p, q, ts'', rfl, hn, hrest⟩ := cut_group hgroup
      obtain ⟨r, rfl⟩ := name?_eq_some hname
      exact .atom (.call ((readArguments_eq_ok_iff hn).mp harguments))
        (ih hrest)
  | index hname hindices _ ih =>
      intro ts hcut
      obtain ⟨ts', rfl, hgroup⟩ := cut_token hcut
      obtain ⟨p, q, ts'', rfl, hn, hrest⟩ := cut_group hgroup
      obtain ⟨r, rfl⟩ := name?_eq_some hname
      exact .atom (.index ((readArguments_eq_ok_iff hn).mp hindices))
        (ih hrest)
  | paren hi _ ih =>
      intro ts hcut
      obtain ⟨p, q, ts', rfl, hn, hrest⟩ := cut_group hcut
      -- only a group without content leaves an item that waits
      rcases readGroup_eq_ok_iff.mp hi with
        ⟨rfl, rfl⟩ | ⟨hne, t, ht, rfl⟩
      · exact .hollow (ih hrest)
      · exact .atom (.group hne ht) (ih hrest)
  | brace ht _ ih =>
      intro ts hcut
      obtain ⟨p, q, ts', rfl, hn, hrest⟩ := cut_group hcut
      obtain ⟨us, hus, rfl⟩ := (readBlock_eq_ok_iff hn).mp ht
      exact .atom (.block hus) (ih hrest)
  | indexed ht hindices _ ih =>
      intro ts hcut
      obtain ⟨p, q, ts', rfl, hn, hgroup⟩ := cut_group hcut
      obtain ⟨p', q', ts'', rfl, hn', hrest⟩ := cut_group hgroup
      rw [← List.append_assoc]
      exact .atom (.indexed ((readMatrix_eq_ok_iff hn).mp ht)
        ((readArguments_eq_ok_iff hn').mp hindices)) (ih hrest)
  | square ht _ ih =>
      intro ts hcut
      obtain ⟨p, q, ts', rfl, hn, hrest⟩ := cut_group hcut
      exact .atom (.matrix ((readMatrix_eq_ok_iff hn).mp ht)) (ih hrest)

/-- A complete operand comes from an atom. -/
theorem Written.of_done {ts : List Token} {a : Tree} {level : Level}
    (h : Written ts (.done a :: level)) :
    ∃ xs ys, ts = xs ++ ys ∧ Atom xs a ∧ Written ys level := by
  cases h with
  | atom ha h => exact ⟨_, _, rfl, ha, h⟩

/-- An item that waits comes from one token, unless it is a group without
content. -/
theorem Written.of_waiting {ts : List Token} {n : Node} {level : Level}
    (hn : n ≠ .empty) (h : Written ts (.waiting n :: level)) :
    ∃ t ys, ts = t :: ys ∧ ofToken t = .ok (.waiting n)
      ∧ Written ys level := by
  cases h with
  | waiting ht h => exact ⟨_, _, rfl, ht, h⟩
  | hollow h => exact absurd rfl hn

/-- An operator that waits comes from that operator. -/
theorem lexeme_of_operator {t : Token} {op : Operator}
    (h : ofToken t = .ok (.waiting (.operator op))) :
    t.lexeme = .operator op := by
  obtain ⟨l, p⟩ := t
  cases l with
  | number text decorator => exact absurd h ofToken_number_ne
  | _ => cases h <;> rfl

/-- A unit that waits comes from that unit. -/
theorem lexeme_of_unitBlock {t : Token} {text : String} {scale : Scale}
    (h : ofToken t = .ok (.waiting (.unitBlock text scale))) :
    t.lexeme = .unitBlock text scale := by
  obtain ⟨l, p⟩ := t
  cases l with
  | number text decorator => exact absurd h ofToken_number_ne
  | _ => cases h <;> rfl

/-- Waiting items of one kind come from tokens of that kind. -/
theorem Written.spell {α : Type} {f : α → Lexeme} {g : α → Node}
    (hfg : ∀ a t, ofToken t = .ok (.waiting (g a)) → t.lexeme = f a)
    (hne : ∀ a, g a ≠ .empty) {level : Level} :
    ∀ (as : List α) {ts : List Token},
      Written ts (as.map (fun a => .waiting (g a)) ++ level) →
      ∃ xs ys, ts = xs ++ ys ∧ Spell (as.map f) xs ∧ Written ys level := by
  intro as
  induction as with
  | nil => intro ts h; exact ⟨[], ts, rfl, rfl, h⟩
  | cons a as ih =>
      intro ts h
      obtain ⟨t, ts', rfl, ht, hrest⟩ := Written.of_waiting (hne a) h
      obtain ⟨xs, ys, rfl, hxs, hys⟩ := ih hrest
      refine ⟨t :: xs, ys, rfl, ?_, hys⟩
      rw [Spell, List.map_cons, List.map_cons, hfg a t ht, hxs]

/-- The items of a phrase come from a row that spells it. -/
theorem Written.spells_phrase {p : Phrase} {ts : List Token} {level : Level}
    (h : Written ts (p.items ++ level)) :
    ∃ xs ys, ts = xs ++ ys ∧ p.Spells xs ∧ Written ys level := by
  have heq : p.items ++ level
      = p.signs.map (fun op => .waiting (.operator op)) ++ (.done p.atom
        :: ((List.replicate p.queries Operator.certain).map
            (fun op => .waiting (.operator op))
          ++ (p.units.map (fun u => .waiting (.unitBlock u.1 u.2))
            ++ level))) := by
    simp [Phrase.items, Phrase.tail]
  rw [heq] at h
  obtain ⟨signs, ts₁, rfl, hsigns, h₁⟩ := Written.spell
    (fun _ _ => lexeme_of_operator) (fun _ => by simp) _ h
  obtain ⟨atom, ts₂, rfl, hatom, h₂⟩ := h₁.of_done
  obtain ⟨queries, ts₃, rfl, hqueries, h₃⟩ := Written.spell
    (fun _ _ => lexeme_of_operator) (fun _ => by simp) _ h₂
  obtain ⟨units, ts₄, rfl, hunits, h₄⟩ := Written.spell
    (f := fun u : String × Scale => .unitBlock u.1 u.2)
    (fun _ _ => lexeme_of_unitBlock) (fun _ => by simp) _ h₃
  rw [List.map_replicate] at hqueries
  exact ⟨signs ++ (atom ++ (queries ++ units)), ts₄, by simp,
    ⟨signs, atom, queries, units, rfl, hsigns, hatom, hqueries, hunits⟩, h₄⟩

theorem Written.spells_rest (rest : List (Operator × Phrase)) :
    ∀ {ts : List Token}, Written ts (restItems rest) → SpellsRest rest ts := by
  induction rest with
  | nil => intro ts h; cases h; rfl
  | cons x rest ih =>
      intro ts h
      obtain ⟨op, p⟩ := x
      rw [restItems_cons] at h
      obtain ⟨t, ts', rfl, ht, hrest⟩ := Written.of_waiting (by simp) h
      obtain ⟨xs, ys, rfl, hxs, hys⟩ := hrest.spells_phrase
      exact ⟨t, xs, ys, rfl, lexeme_of_operator ht, hxs, ih hys⟩

-- =================================================== outside the brackets

/-- The tokens outside all brackets, for a row that starts this deep. -/
def outside (depth : Nat) : List Token → List Token
  | [] => []
  | t :: ts =>
      if t.lexeme.isBracket then outside (depthAfter depth t.lexeme) ts
      else if depth = 0 then t :: outside depth ts
      else outside depth ts

/-- Behind an opening bracket the row is one deeper. -/
theorem outside_opening {t : Token} {b : Bracket}
    (h : t.lexeme = .opening b) (depth : Nat) (ts : List Token) :
    outside depth (t :: ts) = outside (depth + 1) ts := by
  rw [outside, h]
  rfl

/-- Behind a closing one it is no longer. -/
theorem outside_closing {t : Token} {b : Bracket}
    (h : t.lexeme = .closing b) (depth : Nat) (ts : List Token) :
    outside (depth + 1) (t :: ts) = outside depth ts := by
  rw [outside, h]
  rfl

/-- Inside a group a row that nests adds nothing. -/
theorem outside_append {xs : List Token} {ps : List Piece} (h : Cut xs ps) :
    ∀ (depth : Nat) (ys : List Token),
      outside (depth + 1) (xs ++ ys) = outside (depth + 1) ys := by
  induction h with
  | nil => intro depth ys; rfl
  | token ht _ ih =>
      intro depth ys
      rw [List.cons_append, outside, ht, if_neg (by simp),
        if_neg (Nat.succ_ne_zero _), ih]
  | group ho hc _ _ ihIn ih =>
      intro depth ys
      rw [List.cons_append, List.append_assoc, List.cons_append,
        outside_opening ho, ihIn, outside_closing hc, ih]

/-- A token that is a piece stands outside the brackets. -/
theorem mem_outside {ts : List Token} {ps : List Piece} (h : Cut ts ps)
    {t : Token} (ht : .token t ∈ ps) : t ∈ outside 0 ts := by
  induction h with
  | nil => cases ht
  | token hplain _ ih =>
      rw [outside, hplain, if_neg (by simp), if_pos rfl]
      rcases List.mem_cons.mp ht with heq | ht
      · cases heq
        exact List.mem_cons_self ..
      · exact List.mem_cons_of_mem _ (ih ht)
  | group ho hc hin _ _ ih =>
      rcases List.mem_cons.mp ht with heq | ht
      · cases heq
      · rw [outside_opening ho, outside_append hin, outside_closing hc]
        exact ih ht

/-- An operator that waits is a token outside the brackets. -/
theorem Reads.token_of_operator {read : Reader} {ps : List Piece}
    {level : Level} (h : Reads read ps level) {op : Operator}
    (hop : .waiting (.operator op) ∈ level) :
    ∃ t, .token t ∈ ps ∧ t.lexeme = .operator op := by
  induction h with
  | nil => cases hop
  | token hi _ ih =>
      rcases List.mem_cons.mp hop with rfl | hop
      · exact ⟨_, List.mem_cons_self .., lexeme_of_operator hi⟩
      · obtain ⟨t, ht, hl⟩ := ih hop
        exact ⟨t, List.mem_cons_of_mem _ ht, hl⟩
  | paren hi _ ih =>
      rcases List.mem_cons.mp hop with rfl | hop
      · -- a group is an operand or empty, never an operator
        unfold readGroup at hi
        split at hi
        · cases hi
        · obtain ⟨_, -, hi⟩ := bind_eq_ok.mp hi
          cases hi
      · obtain ⟨t, ht, hl⟩ := ih hop
        exact ⟨t, List.mem_cons_of_mem _ ht, hl⟩
  | call _ _ _ ih | index _ _ _ ih | indexed _ _ _ ih =>
      rcases List.mem_cons.mp hop with hop | hop
      · cases hop
      · obtain ⟨t, ht, hl⟩ := ih hop
        exact ⟨t, List.mem_cons_of_mem _ (List.mem_cons_of_mem _ ht), hl⟩
  | brace _ _ ih | square _ _ ih =>
      rcases List.mem_cons.mp hop with hop | hop
      · cases hop
      · obtain ⟨t, ht, hl⟩ := ih hop
        exact ⟨t, List.mem_cons_of_mem _ ht, hl⟩

-- ======================================================= the main theorem

/-- An atom has tokens. -/
theorem Atom.ne_nil {xs : List Token} {a : Tree} (h : Atom xs a) :
    xs ≠ [] := by
  cases h <;> simp [enclosed]

theorem Chain.Spells.ne_nil {c : Chain} {ts : List Token}
    (h : c.Spells ts) : ts ≠ [] := by
  obtain ⟨xs, ys, rfl, ⟨signs, atom, queries, units, rfl, -, hatom, -⟩, -⟩ := h
  have := hatom.ne_nil
  simp [this]

/-- A row that spells a legal chain is read as the tree of the chain. -/
theorem parse_of_spells {c : Chain} (hlegal : c.IsLegal) {ts : List Token}
    (hts : c.Spells ts) :
    ∃ t, parse ts = .ok t ∧ ∀ u, c.Groups u ↔ u = t := by
  have hbinary : ∀ x ∈ mapRest Phrase.tree c.rest,
      x.1 ∈ precedence.flatten := by
    intro x hx
    obtain ⟨y, hy, rfl⟩ := List.mem_map.mp hx
    exact hlegal.binary y hy
  obtain ⟨t, ht⟩ := existsUnique_groups c.first.tree hbinary
  refine ⟨t, ?_, ht⟩
  cases ts with
  | nil => exact absurd rfl hts.ne_nil
  | cons x xs =>
      rw [parse_cons, items_chain hts, ok_bind]
      exact reduce_chain hlegal ((ht t).mpr rfl)

/-- A row without constructs that can be read and is not empty spells a
legal chain. -/
theorem exists_chain_of_parse {ts : List Token} (hne : ts ≠ [])
    (hplain : ∀ t ∈ outside 0 ts, ∀ op ∈ constructOperators,
      t.lexeme ≠ .operator op) {t : Tree} (h : parse ts = .ok t) :
    ∃ c : Chain, c.IsLegal ∧ c.Spells ts := by
  cases ts with
  | nil => exact absurd rfl hne
  | cons x xs =>
      rw [parse_cons] at h
      obtain ⟨level, hlevel, hreduce⟩ := bind_eq_ok.mp h
      have hreads := reads_of_items_eq_ok hlevel
      have hcut := cut_pieces hreads.isWhole
      -- an operator of a construct on the level would be a token outside
      -- the brackets
      have hlack : Lacks constructOperators level := by
        intro op hop hmem
        obtain ⟨s, hs, hl⟩ := hreads.token_of_operator hmem
        exact hplain s (mem_outside hcut hs) op hop hl
      obtain ⟨c, hlegal, rfl⟩ := exists_chain_of_reduce hlack hreduce
      obtain ⟨ys, zs, heq, hfirst, hrest⟩ :=
        (written_of_reads hreads hcut).spells_phrase
      exact ⟨c, hlegal, ys, zs, heq, hfirst, hrest.spells_rest⟩

/-- The grammar of expressions. A row of tokens with no construct outside
its brackets can be read exactly if it is empty or a chain of phrases,
and a chain is read as the one tree it groups to. -/
theorem parse_expression (ts : List Token)
    (hplain : ∀ t ∈ outside 0 ts, ∀ op ∈ constructOperators,
      t.lexeme ≠ .operator op) :
    ((∃ t, parse ts = .ok t)
        ↔ ts = [] ∨ ∃ c : Chain, c.IsLegal ∧ c.Spells ts)
      ∧ (ts = [] → parse ts = .ok empty)
      ∧ ∀ c : Chain, c.IsLegal → c.Spells ts →
          ∃ t, parse ts = .ok t ∧ ∀ u, c.Groups u ↔ u = t := by
  refine ⟨⟨?_, ?_⟩, ?_, fun c hlegal hts => parse_of_spells hlegal hts⟩
  · rintro ⟨t, ht⟩
    by_cases hne : ts = []
    · exact .inl hne
    · exact .inr (exists_chain_of_parse hne hplain ht)
  · rintro (rfl | ⟨c, hlegal, hts⟩)
    · exact ⟨empty, rfl⟩
    · obtain ⟨t, ht, -⟩ := parse_of_spells hlegal hts
      exact ⟨t, ht⟩
  · rintro rfl
    rfl

/-- The tokens of `- x ? |m| + y ^ z`. -/
def sumRow : List Token :=
  [⟨.operator .minus, 0⟩, ⟨.name "x", 1⟩, ⟨.operator .certain, 2⟩,
    ⟨.unitBlock "m" ⟨{ length := 1 }, 1.0, 0.0⟩, 3⟩, ⟨.operator .plus, 6⟩,
    ⟨.name "y", 7⟩, ⟨.operator .power, 8⟩, ⟨.name "z", 9⟩]

/-- The phrases of `- x ? |m| + y ^ z`. -/
def sumChain : Chain where
  first := ⟨[.minus], leaf (.variable "x"), 1,
    [("m", ⟨{ length := 1 }, 1.0, 0.0⟩)]⟩
  rest := [(.plus, ⟨[], leaf (.variable "y"), 0, []⟩),
    (.power, ⟨[], leaf (.variable "z"), 0, []⟩)]

/-- None of its signs and operators is out of place. -/
theorem sumChain_isLegal : sumChain.IsLegal := by
  simp [sumChain, Chain.IsLegal, IsLegalFrom, signOperators, precedence,
    Phrase.EndsInQuery]

/-- The row spells these phrases. -/
theorem sumChain_spells : sumChain.Spells sumRow :=
  ⟨[_, _, _, _], _, rfl, ⟨[_], [_], [_], [_], rfl, rfl, .name, rfl, rfl⟩,
    _, [_], _, rfl, rfl, ⟨[], [_], [], [], rfl, rfl, .name, rfl, rfl⟩,
    _, [_], _, rfl, rfl, ⟨[], [_], [], [], rfl, rfl, .name, rfl, rfl⟩, rfl⟩

/-- Behind the unit the plus is binary, and the power groups first. -/
theorem parse_expression_sumRow :
    parse sumRow = .ok (.mk (.operator .plus)
      [.mk (.unitBlock "m" ⟨{ length := 1 }, 1.0, 0.0⟩)
        [.mk (.operator .certain)
          [.mk (.operator .minus) [leaf (.variable "x")]]],
       .mk (.operator .power)
        [leaf (.variable "y"), leaf (.variable "z")]]) := by
  have hplain : ∀ t ∈ outside 0 sumRow, ∀ op ∈ constructOperators,
      t.lexeme ≠ .operator op := by
    simp [sumRow, outside, Lexeme.isBracket, constructOperators]
  obtain ⟨t, ht, hu⟩ :=
    (parse_expression sumRow hplain).2.2 _ sumChain_isLegal sumChain_spells
  rw [ht, ← (hu _).mp (groups_precedence_iff.mpr rfl)]
  rfl

/-- The empty row can be read, but no chain spells it. -/
theorem parse_nil_not_spells :
    parse [] = .ok empty ∧ ¬ ∃ c : Chain, c.IsLegal ∧ c.Spells [] := by
  refine ⟨rfl, ?_⟩
  rintro ⟨c, -, hc⟩
  exact hc.ne_nil rfl

end Metrology.Tree
