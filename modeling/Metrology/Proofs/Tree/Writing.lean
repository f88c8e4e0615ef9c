/-
Writing trees. `write` puts a tree down as a row of lexemes: operands,
conditions and what a loop goes over in round brackets, constructs by
their words, lists between separators, gaps as nothing. Reading the row
gives the tree back, for every tree that is formed, so each of them is
the tree of some row: the parser reaches all shapes that `Formed` allows.

The proof goes by the shape of the tree. Each written tree is a level of
its own, between brackets or separators, so what has to be known of its
parts is that they can be read. Three kinds of part are written without
brackets of their own, and more is known of them: blocks are atoms,
matrices are literals, and the branch behind an `else` continues the
level of the conditional before it (`Ladder`).

How numbers are spelled is left open; any spelling will do that is read
as the number.
-/
import Metrology.Proofs.Tree.Shape

namespace Metrology.Tree

-- ============================================================== writing

/-- Lexemes in brackets. -/
def bracketed (b : Bracket) (ls : List Lexeme) : List Lexeme :=
  .opening b :: (ls ++ [.closing b])

/-- Rows of lexemes with a separator between them. -/
def joined (sep : Lexeme) (parts : List (List Lexeme)) : List Lexeme :=
  [sep].intercalate parts

/-- The list cut into so many rows of a width. -/
def chunks {α : Type} (width : Nat) : Nat → List α → List (List α)
  | 0, _ => []
  | height + 1, xs => xs.take width :: chunks width height (xs.drop width)

/-- How an operator stands with its written operands. -/
def layoutOperator : Operator → List (List Lexeme) → List Lexeme
  | .certain, [t] => bracketed .paren t ++ [.operator .certain]
  | .ifThen, [condition, body] =>
      .operator .ifThen :: (bracketed .paren condition ++ body)
  | .ifThen, [condition, body, other] =>
      .operator .ifThen :: (bracketed .paren condition
        ++ (body ++ .operator .otherwise :: other))
  | .whileLoop, [condition, body] =>
      .operator .whileLoop :: (bracketed .paren condition ++ body)
  | .forLoop, [name, cells, body] =>
      .operator .forLoop :: (name
        ++ .keyword "in" :: (bracketed .paren cells ++ body))
  | op, [t] => .operator op :: bracketed .paren t
  | op, [l, r] => bracketed .paren l ++ .operator op :: bracketed .paren r
  | _, _ => []

/-- How a node stands with its written children. -/
def layout (spell : Float → String) : Node → List (List Lexeme) → List Lexeme
  | .number value decorator, _ => [.number (spell value) decorator]
  | .variable name, _ => [.name name]
  | .template text, _ => [.template text]
  | .call function, arguments =>
      .name function :: bracketed .paren (joined .comma arguments)
  | .block, statements => bracketed .brace (joined .semicolon statements)
  | .unitBlock text scale, [t] => bracketed .paren t ++ [.unitBlock text scale]
  | .matrix width height, cells =>
      bracketed .square
        (joined .semicolon ((chunks width height cells).map (joined .comma)))
  | .index (some name), indices =>
      .name name :: bracketed .square (joined .comma indices)
  | .index none, target :: indices =>
      target ++ bracketed .square (joined .comma indices)
  | .operator op, operands => layoutOperator op operands
  | _, _ => []

mutual

/-- The tree as lexemes, its numbers spelled in the way given. -/
def write (spell : Float → String) : Tree → List Lexeme
  | .mk n children => layout spell n (writeAll spell children)

/-- The trees of a list, each by itself. -/
def writeAll (spell : Float → String) : List Tree → List (List Lexeme)
  | [] => []
  | t :: ts => write spell t :: writeAll spell ts

end

/-- The trees of a list are written one by one. -/
@[simp] theorem writeAll_eq_map (spell : Float → String) (ts : List Tree) :
    writeAll spell ts = ts.map (write spell) := by
  induction ts with
  | nil => rfl
  | cons t ts ih => rw [writeAll, ih]; rfl

-- ========================================================= spelled rows

/-- The first lexeme is that of the first token. -/
theorem Spell.cons {l : Lexeme} {ls : List Lexeme} {ts : List Token}
    (h : Spell (l :: ls) ts) :
    ∃ p xs, ts = ⟨l, p⟩ :: xs ∧ Spell ls xs := by
  obtain ⟨⟨l, p⟩, xs, rfl, rfl, hxs⟩ := List.map_eq_cons_iff.mp h
  exact ⟨p, xs, rfl, hxs⟩

/-- Lexemes in two parts are tokens in two parts. -/
theorem Spell.append {ls ls' : List Lexeme} {ts : List Token}
    (h : Spell (ls ++ ls') ts) :
    ∃ xs ys, ts = xs ++ ys ∧ Spell ls xs ∧ Spell ls' ys := by
  obtain ⟨xs, ys, rfl, hxs, hys⟩ := List.map_eq_append_iff.mp h
  exact ⟨xs, ys, rfl, hxs, hys⟩

/-- A single lexeme is that of a single token. -/
theorem Spell.singleton {l : Lexeme} {ts : List Token}
    (h : Spell [l] ts) : ∃ p, ts = [⟨l, p⟩] := by
  obtain ⟨p, xs, rfl, hxs⟩ := h.cons
  cases List.map_eq_nil_iff.mp hxs
  exact ⟨p, rfl⟩

/-- Lexemes in brackets are tokens in brackets. -/
theorem Spell.bracketed {b : Bracket} {ls : List Lexeme} {ts : List Token}
    (h : Spell (bracketed b ls) ts) :
    ∃ p inside q, ts = enclosed b p inside q ∧ Spell ls inside := by
  obtain ⟨p, xs, rfl, hxs⟩ := h.cons
  obtain ⟨inside, ys, rfl, hin, hys⟩ := hxs.append
  obtain ⟨q, rfl⟩ := hys.singleton
  exact ⟨p, inside, q, rfl, hin⟩

-- =========================================================== free rows

/-- A separator stands for nothing by itself. -/
def IsStray (sep : Lexeme → Bool) : Prop :=
  ∀ t : Token, sep t.lexeme = true → ∃ e, ofToken t = .error e

/-- A comma stands for nothing. -/
theorem isStray_isComma : IsStray isComma := by
  rintro ⟨l, p⟩ h
  cases l <;> first | exact ⟨_, rfl⟩ | cases h

theorem isStray_isSemicolon : IsStray isSemicolon := by
  rintro ⟨l, p⟩ h
  cases l <;> first | exact ⟨_, rfl⟩ | cases h

/-- Tokens outside groups that can be read stand for something. -/
theorem Reads.ofToken_eq_ok {read : Reader} {ps : List Piece}
    {level : Level} (h : Reads read ps level) :
    ∀ t, .token t ∈ ps → ∃ i, ofToken t = .ok i := by
  -- the name of a call or an index would stand for itself as well
  have hname : ∀ {t : Token} {name : String}, name? t = some name →
      ∃ i, ofToken t = .ok i := by
    intro t name hn
    obtain ⟨p, rfl⟩ := name?_eq_some hn
    exact ⟨_, rfl⟩
  induction h with
  | nil => intro t ht; cases ht
  | token hi _ ih =>
      intro t ht
      rcases List.mem_cons.mp ht with heq | ht
      · cases heq; exact ⟨_, hi⟩
      · exact ih t ht
  | call hn _ _ ih | index hn _ _ ih =>
      intro t ht
      rcases List.mem_cons.mp ht with heq | ht
      · cases heq; exact hname hn
      · rcases List.mem_cons.mp ht with heq | ht
        · cases heq
        · exact ih t ht
  | indexed _ _ _ ih =>
      intro t ht
      rcases List.mem_cons.mp ht with heq | ht
      · cases heq
      · rcases List.mem_cons.mp ht with heq | ht
        · cases heq
        · exact ih t ht
  | paren _ _ ih | brace _ _ ih | square _ _ ih =>
      intro t ht
      rcases List.mem_cons.mp ht with heq | ht
      · cases heq
      · exact ih t ht

/-- A row that can be read has no separator outside its groups. -/
theorem isFree_of_parse {sep : Lexeme → Bool} (hsep : IsStray sep)
    {ts : List Token} {t : Tree} (h : parse ts = .ok t) : IsFree sep ts := by
  cases ts with
  | nil => exact .nil
  | cons x xs =>
      rw [parse_cons] at h
      obtain ⟨level, hlevel, -⟩ := bind_eq_ok.mp h
      have hreads := reads_of_items_eq_ok hlevel
      refine ⟨_, cut_pieces hreads.isWhole, fun t ht => ?_⟩
      obtain ⟨i, hi⟩ := hreads.ofToken_eq_ok t ht
      rw [← Bool.not_eq_true]
      intro hs
      obtain ⟨e, he⟩ := hsep t hs
      rw [hi] at he
      cases he

/-- A row is free of a separator if its parts are and what separates them
is another one. -/
theorem Parts.isFree {sep sep' : Lexeme → Bool}
    (hsep : ∀ l : Lexeme, l.isBracket = true → sep l = false)
    (hne : ∀ l, sep l = true → sep' l = false) {ts : List Token}
    {parts : List (List Token)} (h : Parts sep ts parts) :
    (∀ part ∈ parts, IsFree sep' part) → IsFree sep' ts := by
  induction h with
  | last _ => intro hparts; exact hparts _ (List.mem_cons_self ..)
  | @cons xs ys s parts _ hs _ ih =>
      intro hparts
      have hys := ih fun part hp => hparts part (List.mem_cons_of_mem _ hp)
      have hs' : IsFree sep' [s] :=
        .singleton (plain_of_sep hsep hs) (hne _ hs)
      exact (hparts xs (List.mem_cons_self ..)).append (hs'.append hys)

-- ================================================================ lists

/-- The tree can be read from the row it is written as. -/
def ReadsBack (spell : Float → String) (t : Tree) : Prop :=
  ∀ ts, Spell (write spell t) ts → parse ts = .ok t

variable {spell : Float → String}

/-- The empty tree is written as nothing. -/
theorem readsBack_empty : ReadsBack spell empty := by
  intro ts h
  cases List.map_eq_nil_iff.mp h
  rfl

/-- What is written with separators between has parts, each of which is
what was written there. -/
theorem exists_parts_of_joined {α : Type} {sep : Lexeme → Bool} {l : Lexeme}
    (hl : sep l = true) {f : α → List Lexeme} {R : List Token → α → Prop} :
    ∀ (as : List α), as ≠ [] →
      (∀ a ∈ as, ∀ ts, Spell (f a) ts → IsFree sep ts ∧ R ts a) →
      ∀ ts, Spell (joined l (as.map f)) ts →
        ∃ parts, Parts sep ts parts ∧ List.Forall₂ R parts as := by
  intro as
  induction as with
  | nil => intro hne; exact absurd rfl hne
  | cons a as ih =>
      intro _ hf ts hts
      have ha := hf a (List.mem_cons_self ..)
      cases as with
      | nil =>
          obtain ⟨hfree, hR⟩ := ha ts (by simpa [joined] using hts)
          exact ⟨[ts], .last hfree, .cons hR .nil⟩
      | cons b as =>
          -- the first part ends where the first separator stands
          have hts' : Spell (f a ++ l :: joined l ((b :: as).map f)) ts := by
            simpa [joined, List.intercalate] using hts
          obtain ⟨xs, ys, rfl, hxs, hys⟩ := hts'.append
          obtain ⟨p, zs, rfl, hzs⟩ := hys.cons
          obtain ⟨parts, hparts, hall⟩ := ih (List.cons_ne_nil b as)
            (fun c hc => hf c (List.mem_cons_of_mem _ hc)) zs hzs
          obtain ⟨hfree, hR⟩ := ha xs hxs
          exact ⟨xs :: parts, .cons hfree hl hparts, .cons hR hall⟩

/-- The empty row is one part without content. -/
theorem Parts.eq_of_nil {sep : Lexeme → Bool} {parts : List (List Token)}
    (h : Parts sep [] parts) : parts = [[]] := by
  generalize hts : ([] : List Token) = ts at h
  cases h with
  | last _ => rfl
  | cons _ _ _ => exact absurd hts (by simp)

/-- Only a single gap is written as nothing. -/
theorem ReadAll.eq_of_nil {sep : Lexeme → Bool} {parts : List (List Token)}
    {us : List Tree} (hparts : Parts sep [] parts) (h : ReadAll parts us) :
    us = [empty] := by
  rw [hparts.eq_of_nil] at h
  cases h with
  | cons hu hnil =>
      cases hnil
      cases hu
      rfl

/-- Trees written as a list are its content. -/
theorem contents_of_joined {sep : Lexeme → Bool} {l : Lexeme}
    (hl : sep l = true) (hsep : IsStray sep) {us : List Tree}
    (hread : ∀ u ∈ us, ReadsBack spell u)
    (hgap : empty ∈ us → 2 ≤ us.length) {inside : List Token}
    (h : Spell (joined l (us.map (write spell))) inside) :
    Contents sep inside us := by
  by_cases hne : us = []
  · subst hne
    cases List.map_eq_nil_iff.mp h
    exact .none
  · obtain ⟨parts, hparts, hall⟩ := exists_parts_of_joined hl us hne
      (fun u hu ts hts => ⟨isFree_of_parse hsep (hread u hu ts hts),
        hread u hu ts hts⟩) inside h
    refine .some ?_ hparts hall
    rintro rfl
    cases ReadAll.eq_of_nil hparts hall
    exact absurd (hgap (List.mem_cons_self ..)) (by simp)

-- ============================================================ matrices

variable {α β : Type}

/-- Rows are cut alike, whatever is done to their entries. -/
@[simp] theorem chunks_map (f : α → β) (width : Nat) :
    ∀ (height : Nat) (xs : List α),
      chunks width height (xs.map f)
        = (chunks width height xs).map (List.map f) := by
  intro height
  induction height with
  | zero => intro xs; rfl
  | succ height ih =>
      intro xs
      rw [chunks, chunks, List.map_cons, List.map_take, ← List.map_drop, ih]

/-- Rows of the width, in order. -/
theorem chunks_spec {width : Nat} :
    ∀ {height : Nat} {xs : List α}, xs.length = width * height →
      (chunks width height xs).length = height
        ∧ (chunks width height xs).flatten = xs
        ∧ ∀ row ∈ chunks width height xs, row.length = width := by
  intro height
  induction height with
  | zero =>
      intro xs h
      cases List.length_eq_zero_iff.mp (h.trans (Nat.mul_zero width))
      exact ⟨rfl, rfl, by simp [chunks]⟩
  | succ height ih =>
      intro xs h
      rw [Nat.mul_succ] at h
      have hdrop : (xs.drop width).length = width * height := by
        rw [List.length_drop, h]
        omega
      obtain ⟨hlen, hflat, hrows⟩ := ih hdrop
      refine ⟨?_, ?_, ?_⟩
      · rw [chunks, List.length_cons, hlen]
      · rw [chunks, List.flatten_cons, hflat, List.take_append_drop]
      · intro row hrow
        rcases List.mem_cons.mp hrow with rfl | hrow
        · rw [List.length_take, h]
          omega
        · exact hrows row hrow

/-- A written row can be read cell by cell. -/
theorem rowCells_of_joined {width : Nat} (hwidth : 0 < width)
    {row : List Tree} (hlen : row.length = width)
    (hread : ∀ u ∈ row, ReadsBack spell u) {ts : List Token}
    (h : Spell (joined .comma (row.map (write spell))) ts) :
    IsFree isSemicolon ts ∧ RowCells width ts row := by
  have hne : row ≠ [] := List.length_pos_iff.mp (by omega)
  obtain ⟨parts, hparts, hall⟩ := exists_parts_of_joined
    (R := fun part u => IsFree isSemicolon part ∧ parse part = .ok u)
    (rfl : isComma .comma = true) row hne (fun u hu ts hts =>
      have hts' := hread u hu ts hts
      ⟨isFree_of_parse isStray_isComma hts',
        isFree_of_parse isStray_isSemicolon hts', hts'⟩) ts h
  -- the cells hold no semicolon outside brackets, so the row does not
  obtain ⟨hfree, hall⟩ := (List.forall₂_and_left _ _).mp hall
  refine ⟨hparts.isFree isComma_bracket ?_ hfree, parts, hparts, ?_, hall⟩
  · intro l hl
    cases l <;> first | rfl | cases hl
  · rw [hall.length_eq, hlen]

/-- Cells written in rows are a matrix, unless they are a single gap. -/
theorem literal_of_joined {width height : Nat} (hwidth : 0 < width)
    (hheight : 0 < height) {cells : List Tree}
    (hlen : cells.length = width * height)
    (hread : ∀ u ∈ cells, ReadsBack spell u)
    (hgap : empty ∈ cells → 2 ≤ cells.length) {inside : List Token}
    (h : Spell (joined .semicolon ((chunks width height
      (cells.map (write spell))).map (joined .comma))) inside) :
    Literal inside (.mk (.matrix width height) cells) := by
  obtain ⟨hcount, hflat, hrows⟩ := chunks_spec hlen
  rw [chunks_map, List.map_map] at h
  have hne : chunks width height cells ≠ [] :=
    List.length_pos_iff.mp (by omega)
  obtain ⟨parts, hparts, hall⟩ := exists_parts_of_joined
    (rfl : isSemicolon .semicolon = true) _ hne (fun row hrow ts hts =>
      rowCells_of_joined hwidth (hrows row hrow)
        (fun u hu => hread u (by
          rw [← hflat]
          exact List.mem_flatten.mpr ⟨row, hrow, hu⟩)) hts) inside h
  have hinside : inside ≠ [] := by
    -- nothing is written only for one row of one gap
    rintro rfl
    rw [hparts.eq_of_nil] at hall
    generalize hchunks : chunks width height cells = rows at hall
    cases hall with
    | cons hrow hnil =>
        cases hnil
        obtain ⟨parts', hparts', -, hread'⟩ := hrow
        rw [hchunks, ReadAll.eq_of_nil hparts' hread'] at hflat
        rw [← hflat] at hgap
        exact absurd (hgap (by simp)) (by simp)
  have hliteral := Literal.some hinside hparts hall
  rw [hflat, hall.length_eq, hcount] at hliteral
  exact hliteral

-- ============================================================ branches

/-- The level of a branch: a block, or conditionals joined by `else`. -/
inductive Ladder : Level → Tree → Prop
  | block {body : List Tree} :
      Ladder [.done (.mk .block body)] (.mk .block body)
  | last {condition : Tree} {body : List Tree} :
      Ladder
        [.waiting (.operator .ifThen), .done condition,
          .done (.mk .block body)]
        (.mk (.operator .ifThen) [condition, .mk .block body])
  | chain {condition other : Tree} {body : List Tree} {level : Level} :
      Ladder level other →
      Ladder
        (.waiting (.operator .ifThen) :: .done condition
          :: .done (.mk .block body) :: .waiting (.operator .otherwise)
          :: level)
        (.mk (.operator .ifThen) [condition, .mk .block body, other])

/-- What a ladder stands for can be the other branch. -/
theorem Ladder.isBranch {level : Level} {t : Tree} (h : Ladder level t) :
    (Item.done t).isIf = true ∨ (Item.done t).isBlock = true := by
  cases h with
  | block => exact .inr rfl
  | last => exact .inl rfl
  | chain _ => exact .inl rfl

/-- An `else` is no conditional and stays where it is. -/
theorem attachConditional_otherwise (level : Level) :
    attachConditional .ifThen (.waiting (.operator .otherwise) :: level)
      = .waiting (.operator .otherwise)
        :: attachConditional .ifThen level := by
  match level with
  | [] => rfl
  | [_] => rfl
  | _ :: _ :: _ => rfl

/-- The steps of a ladder are joined from the last one on. -/
theorem Ladder.attachElse {level : Level} {t : Tree} (h : Ladder level t) :
    Tree.attachElse (attachConditional .ifThen level) = .ok [.done t] := by
  induction h with
  | block => rfl
  | last => rfl
  | @chain condition other body level h ih =>
      show Tree.attachElse (.done (.mk (.operator .ifThen)
        [condition, .mk .block body]) :: attachConditional .ifThen
          (.waiting (.operator .otherwise) :: level)) = _
      -- what stands behind the `else` has become one branch
      rw [attachConditional_otherwise, Tree.attachElse, Tree.attachElse, ih]
      show (if takesElse _ && (_ || _) then _ else _) = _
      rw [Bool.or_eq_true_iff.mpr h.isBranch]
      rfl

/-- In a ladder only conditionals wait. -/
theorem Ladder.waiting {level : Level} {t : Tree} (h : Ladder level t) :
    ∀ n, .waiting n ∈ level →
      n = .operator .ifThen ∨ n = .operator .otherwise := by
  induction h with
  | block => intro n hn; exact absurd hn (by simp)
  | last => intro n hn; exact .inl (by simpa using hn)
  | chain _ ih =>
      intro n hn
      simp only [List.mem_cons, reduceCtorEq, false_or, Item.waiting.injEq]
        at hn
      rcases hn with rfl | rfl | hn
      · exact .inl rfl
      · exact .inr rfl
      · exact ih n hn

theorem Ladder.lacks {level : Level} {t : Tree} (h : Ladder level t)
    {ops : List Operator} (hops : .ifThen ∉ ops ∧ .otherwise ∉ ops) :
    Lacks ops level := by
  intro op hop hmem
  rcases h.waiting _ hmem with heq | heq
  · cases heq; exact hops.1 hop
  · cases heq; exact hops.2 hop

/-- Tiers with nothing to do. -/
theorem foldlM_attachBinary_eq_self {level : Level} :
    ∀ (order : List (List Operator)), (∀ ops ∈ order, Lacks ops level) →
      order.foldlM (fun level ops => attachBinary ops level) level
        = .ok level := by
  intro order
  induction order with
  | nil => intro _; rfl
  | cons ops order ih =>
      intro h
      rw [List.foldlM_cons, attachBinary_eq_self (h ops (List.mem_cons_self ..)),
        ok_bind]
      exact ih fun o ho => h o (List.mem_cons_of_mem _ ho)

/-- A ladder reduces to the branch it stands for. -/
theorem Ladder.reduce {level : Level} {t : Tree} (h : Ladder level t) :
    Tree.reduce level = .ok t := by
  have hcertain : ∀ i ∈ level, i.isWaiting [.certain] = false := fun i hi =>
    (h.lacks (by decide)).isWaiting_eq_false hi
  have hunit : ∀ i ∈ level, i.isUnitBlock = false := by
    intro i hi
    rw [← Bool.not_eq_true]
    intro hu
    obtain ⟨text, scale, rfl⟩ := Item.isUnitBlock_iff.mp hu
    rcases h.waiting _ hi with heq | heq
    · cases heq
    · cases heq
  have htiers : ∀ ops ∈ tiers, .ifThen ∉ ops ∧ .otherwise ∉ ops := by decide
  unfold Tree.reduce
  rw [attachLeading_eq_self _ (h.lacks (by decide)), ok_bind,
    attachTrailing_eq_self hcertain, ok_bind,
    attachTrailing_eq_self hunit, ok_bind,
    foldlM_attachBinary_eq_self tiers fun ops hops => h.lacks (htiers ops hops),
    ok_bind, h.attachElse, ok_bind]
  rfl

-- ======================================================= rows and levels

/-- A row is read by its items. -/
theorem parse_of_items {ts : List Token} {level : Level} {t : Tree}
    (hitems : items parse (pieces ts) = .ok level)
    (hreduce : reduce level = .ok t) : parse ts = .ok t := by
  cases ts with
  | nil => cases hitems; cases hreduce
  | cons x xs => rw [parse_cons, hitems, ok_bind, hreduce]

/-- An atom is one item. -/
theorem Atom.items {xs : List Token} {a : Tree} (h : Atom xs a) :
    Tree.items parse (pieces xs) = .ok [.done a] := by
  have hitems := @items_atom xs [] a [] h rfl rfl
  rwa [List.append_nil] at hitems

theorem Atom.parse {xs : List Token} {a : Tree} (h : Atom xs a) :
    Tree.parse xs = .ok a :=
  parse_of_items h.items rfl

/-- An operand in round brackets is an atom. -/
theorem atom_of_bracketed {t : Tree} (h : ReadsBack spell t)
    (hne : t ≠ empty) {ts : List Token}
    (hts : Spell (bracketed .paren (write spell t)) ts) : Atom ts t := by
  obtain ⟨p, inside, q, rfl, hin⟩ := hts.bracketed
  refine .group ?_ (h inside hin)
  rintro rfl
  cases h [] hin
  exact hne rfl

-- ============================================================ operators

/-- A sign before an operand in brackets. -/
theorem write_sign (spell : Float → String) (t : Tree) :
    ∀ op ∈ signOperators,
      write spell (.mk (.operator op) [t])
          = .operator op :: bracketed .paren (write spell t)
        ∧ reduce [.waiting (.operator op), .done t]
          = .ok (.mk (.operator op) [t]) := by
  intro op hop
  simp only [signOperators, List.mem_cons, List.not_mem_nil, or_false] at hop
  rcases hop with rfl | rfl | rfl | rfl | rfl
  all_goals exact ⟨rfl, rfl⟩

/-- A binary operator between two of them. -/
theorem write_binary (spell : Float → String) (l r : Tree) :
    ∀ op ∈ precedence.flatten,
      write spell (.mk (.operator op) [l, r])
          = bracketed .paren (write spell l)
            ++ .operator op :: bracketed .paren (write spell r)
        ∧ reduce [.done l, .waiting (.operator op), .done r]
          = .ok (.mk (.operator op) [l, r]) := by
  intro op hop
  simp only [precedence, List.flatten_cons, List.flatten_nil,
    List.append_nil, List.cons_append, List.nil_append, List.mem_cons,
    List.not_mem_nil, or_false] at hop
  rcases hop with rfl | rfl | rfl | rfl | rfl | rfl | rfl | rfl | rfl | rfl
    | rfl | rfl | rfl | rfl | rfl | rfl
  all_goals exact ⟨rfl, rfl⟩

variable {t l r : Tree}

/-- What has a sign can be read back. -/
theorem readsBack_sign {op : Operator} (hop : op ∈ signOperators)
    (h : ReadsBack spell t) (hne : t ≠ empty) :
    ReadsBack spell (.mk (.operator op) [t]) := by
  intro ts hts
  obtain ⟨hwrite, hreduce⟩ := write_sign spell t op hop
  rw [hwrite] at hts
  obtain ⟨p, xs, rfl, hxs⟩ := hts.cons
  exact parse_of_items
    (items_waiting rfl (atom_of_bracketed h hne hxs).items).1 hreduce

theorem readsBack_binary {op : Operator} (hop : op ∈ precedence.flatten)
    (hl : ReadsBack spell l) (hlne : l ≠ empty) (hr : ReadsBack spell r)
    (hrne : r ≠ empty) : ReadsBack spell (.mk (.operator op) [l, r]) := by
  intro ts hts
  obtain ⟨hwrite, hreduce⟩ := write_binary spell l r op hop
  rw [hwrite] at hts
  obtain ⟨xs, ys, rfl, hxs, hys⟩ := hts.append
  obtain ⟨p, zs, rfl, hzs⟩ := hys.cons
  obtain ⟨hitems, hcall⟩ := items_waiting (t := ⟨.operator op, p⟩) rfl
    (atom_of_bracketed hr hrne hzs).items
  exact parse_of_items
    (items_atom (atom_of_bracketed hl hlne hxs) hcall hitems) hreduce

/-- A query or a unit behind an operand. -/
theorem readsBack_trailing {l : Lexeme} {n : Node}
    (hl : ∀ p, ofToken ⟨l, p⟩ = .ok (.waiting n))
    (hwrite : write spell (.mk n [t])
      = bracketed .paren (write spell t) ++ [l])
    (hreduce : reduce [.done t, .waiting n] = .ok (.mk n [t]))
    (h : ReadsBack spell t) (hne : t ≠ empty) :
    ReadsBack spell (.mk n [t]) := by
  intro ts hts
  rw [hwrite] at hts
  obtain ⟨xs, ys, rfl, hxs, hys⟩ := hts.append
  obtain ⟨p, rfl⟩ := hys.singleton
  obtain ⟨hitems, hcall⟩ := @items_waiting _ _ [] [] (hl p) rfl
  exact parse_of_items
    (items_atom (atom_of_bracketed h hne hxs) hcall hitems) hreduce

theorem readsBack_assign {name : String} (h : ReadsBack spell t)
    (hne : t ≠ empty) :
    ReadsBack spell (.mk (.operator .assign) [leaf (.variable name), t]) := by
  have hname : ReadsBack spell (leaf (.variable name)) := by
    intro ts hts
    obtain ⟨p, rfl⟩ := Spell.singleton hts
    exact Atom.name.parse
  intro ts hts
  obtain ⟨xs, ys, rfl, hxs, hys⟩ := Spell.append hts
  obtain ⟨p, zs, rfl, hzs⟩ := hys.cons
  obtain ⟨hitems, hcall⟩ := items_waiting (t := ⟨.operator .assign, p⟩) rfl
    (atom_of_bracketed h hne hzs).items
  have hxs' := atom_of_bracketed hname nofun hxs
  exact parse_of_items (items_atom hxs' hcall hitems) rfl

-- ======================================================= legible trees

/-- The tree can be read back from what is written, and what is written
without brackets around it can be read on as part of more. -/
structure Legible (spell : Float → String) (t : Tree) : Prop where
  reads : ReadsBack spell t
  block : (∃ body, t = .mk .block body) →
    ∀ ts, Spell (write spell t) ts →
      Atom ts t ∧ ∀ rest, opensCall (pieces (ts ++ rest)) = false
  literal : (∃ width height cells, t = .mk (.matrix width height) cells) →
    ∀ ts, Spell (write spell t) ts →
      ∃ p inside q, ts = enclosed .square p inside q ∧ Literal inside t
  ladder : IsBranch t → ∀ ts, Spell (write spell t) ts →
    ∃ level, Ladder level t ∧ items parse (pieces ts) = .ok level
      ∧ opensCall (pieces ts) = false

/-- Of a tree that is always written in brackets, nothing more needs to
be known. -/
theorem ReadsBack.legible (h : ReadsBack spell t)
    (hblock : ∀ body, t ≠ .mk .block body)
    (hmatrix : ∀ width height cells, t ≠ .mk (.matrix width height) cells)
    (hif : ∀ cs, t ≠ .mk (.operator .ifThen) cs) : Legible spell t where
  reads := h
  block := fun ⟨body, heq⟩ => absurd heq (hblock body)
  literal := fun ⟨_, _, _, heq⟩ => absurd heq (hmatrix _ _ _)
  ladder := by
    rintro (⟨body, heq⟩ | ⟨cs, heq⟩)
    · exact absurd heq (hblock body)
    · exact absurd heq (hif cs)

/-- A conditional is known by its ladder. -/
theorem legible_of_ladder {cs : List Tree}
    (h : ∀ ts, Spell (write spell (.mk (.operator .ifThen) cs)) ts →
      ∃ level, Ladder level (.mk (.operator .ifThen) cs)
        ∧ items parse (pieces ts) = .ok level
        ∧ opensCall (pieces ts) = false) :
    Legible spell (.mk (.operator .ifThen) cs) where
  reads := by
    intro ts hts
    obtain ⟨level, hladder, hitems, -⟩ := h ts hts
    exact parse_of_items hitems hladder.reduce
  block := fun ⟨_, heq⟩ => nomatch heq
  literal := fun ⟨_, _, _, heq⟩ => nomatch heq
  ladder := fun _ => h

/-- Lists of formed trees are written from what can be read back. -/
theorem readsBack_of_mem {us : List Tree}
    (h : ∀ u ∈ us, u ≠ empty → Legible spell u) :
    ∀ u ∈ us, ReadsBack spell u := by
  intro u hu
  by_cases hempty : u = empty
  · subst hempty
    exact readsBack_empty
  · exact (h u hu hempty).reads

/-- A name and a list in brackets behind it. -/
theorem arguments_of_spell {name : String} {b : Bracket} {us : List Tree}
    (hread : ∀ u ∈ us, ReadsBack spell u)
    (hgap : empty ∈ us → 2 ≤ us.length) {ts : List Token}
    (hts : Spell (.name name :: bracketed b
      (joined .comma (writeAll spell us))) ts) :
    ∃ p q inside r, ts = ⟨.name name, p⟩ :: enclosed b q inside r
      ∧ Contents isComma inside us := by
  rw [writeAll_eq_map] at hts
  obtain ⟨p, xs, rfl, hxs⟩ := hts.cons
  obtain ⟨q, inside, r, rfl, hin⟩ := hxs.bracketed
  exact ⟨p, q, inside, r, rfl, contents_of_joined
    (rfl : isComma .comma = true) isStray_isComma hread hgap hin⟩

/-- A block is an atom and a ladder of one step. -/
theorem legible_block {body : List Tree}
    (h : ∀ u ∈ body, u ≠ empty → Legible spell u)
    (hgap : empty ∈ body → 2 ≤ body.length) :
    Legible spell (.mk .block body) := by
  have hatom : ∀ ts, Spell (write spell (.mk .block body)) ts →
      Atom ts (.mk .block body)
        ∧ ∀ rest, opensCall (pieces (ts ++ rest)) = false := by
    intro ts hts
    rw [write, layout, writeAll_eq_map] at hts
    obtain ⟨p, inside, q, rfl, hin⟩ := hts.bracketed
    have hcontents := contents_of_joined (rfl : isSemicolon .semicolon = true)
      isStray_isSemicolon (readsBack_of_mem h) hgap hin
    refine ⟨.block hcontents, fun rest => ?_⟩
    rw [pieces_enclosed (hcontents.nests isSemicolon_bracket)]
    rfl
  exact {
    reads := fun ts hts => (hatom ts hts).1.parse
    block := fun _ => hatom
    literal := fun ⟨_, _, _, heq⟩ => nomatch heq
    ladder := fun _ ts hts => by
      obtain ⟨ha, hcall⟩ := hatom ts hts
      have hcall' := hcall []
      rw [List.append_nil] at hcall'
      exact ⟨_, .block, ha.items, hcall'⟩ }

/-- A matrix is known by what stands in its brackets. -/
theorem legible_matrix {width height : Nat} {cells : List Tree}
    (h : ∀ inside, Spell (joined .semicolon ((chunks width height
        (cells.map (write spell))).map (joined .comma))) inside →
      Literal inside (.mk (.matrix width height) cells)) :
    Legible spell (.mk (.matrix width height) cells) := by
  have hliteral : ∀ ts,
      Spell (write spell (.mk (.matrix width height) cells)) ts →
      ∃ p inside q, ts = enclosed .square p inside q
        ∧ Literal inside (.mk (.matrix width height) cells) := by
    intro ts hts
    rw [write, layout, writeAll_eq_map] at hts
    obtain ⟨p, inside, q, rfl, hin⟩ := hts.bracketed
    exact ⟨p, inside, q, rfl, h inside hin⟩
  exact {
    reads := fun ts hts => by
      obtain ⟨p, inside, q, rfl, hin⟩ := hliteral ts hts
      exact (Atom.matrix hin).parse
    block := fun ⟨_, heq⟩ => nomatch heq
    literal := fun _ => hliteral
    ladder := by rintro (⟨_, heq⟩ | ⟨_, heq⟩) <;> cases heq }

-- =========================================================== constructs

/-- A value in round brackets and a block, with more behind them. -/
theorem items_bodied {body : List Tree} (ht : ReadsBack spell t)
    (hne : t ≠ empty) (hbody : Legible spell (.mk .block body))
    {ts : List Token} (hts : Spell (bracketed .paren (write spell t)
      ++ write spell (.mk .block body)) ts)
    (rest : List Token) {level : Level}
    (hrest : items parse (pieces rest) = .ok level)
    (hcall : opensCall (pieces rest) = false) :
    items parse (pieces (ts ++ rest))
      = .ok (.done t :: .done (.mk .block body) :: level) := by
  obtain ⟨xs, ys, rfl, hxs, hys⟩ := hts.append
  obtain ⟨hatom, hbrace⟩ := hbody.block ⟨body, rfl⟩ ys hys
  rw [List.append_assoc]
  exact items_atom (atom_of_bracketed ht hne hxs) (hbrace rest)
    (items_atom hatom hcall hrest)

/-- A word, a condition and a block, with more behind them. -/
theorem items_guarded {op : Operator} {body : List Tree}
    (ht : ReadsBack spell t) (hne : t ≠ empty)
    (hbody : Legible spell (.mk .block body)) {ts : List Token}
    (hts : Spell (.operator op :: (bracketed .paren (write spell t)
      ++ write spell (.mk .block body))) ts)
    (rest : List Token) {level : Level}
    (hrest : items parse (pieces rest) = .ok level)
    (hcall : opensCall (pieces rest) = false) :
    items parse (pieces (ts ++ rest))
        = .ok (.waiting (.operator op) :: .done t
          :: .done (.mk .block body) :: level)
      ∧ opensCall (pieces (ts ++ rest)) = false := by
  obtain ⟨p, xs, rfl, hxs⟩ := hts.cons
  exact items_waiting rfl (items_bodied ht hne hbody hxs rest hrest hcall)

/-- A conditional with one branch is the last step of a ladder. -/
theorem legible_oneBranch {body : List Tree} (ht : ReadsBack spell t)
    (hne : t ≠ empty) (hbody : Legible spell (.mk .block body)) :
    Legible spell (.mk (.operator .ifThen) [t, .mk .block body]) := by
  refine legible_of_ladder fun ts hts => ⟨_, .last, ?_⟩
  have hitems := items_guarded ht hne hbody hts [] rfl rfl
  rwa [List.append_nil] at hitems

/-- One with two goes on with the ladder of the other branch. -/
theorem legible_twoBranches {body : List Tree} {other : Tree}
    (ht : ReadsBack spell t) (hne : t ≠ empty)
    (hbody : Legible spell (.mk .block body)) (hother : Legible spell other)
    (hbranch : IsBranch other) :
    Legible spell (.mk (.operator .ifThen) [t, .mk .block body, other]) := by
  refine legible_of_ladder fun ts hts => ?_
  -- the row up to `else` is that of a conditional with one branch
  have hts' : Spell ((.operator .ifThen :: (bracketed .paren (write spell t)
      ++ write spell (.mk .block body)))
      ++ .operator .otherwise :: write spell other) ts := by
    rw [List.cons_append, List.append_assoc]
    exact hts
  obtain ⟨xs, ys, rfl, hxs, hys⟩ := hts'.append
  obtain ⟨p, zs, rfl, hzs⟩ := hys.cons
  obtain ⟨level, hladder, hlevel, -⟩ := hother.ladder hbranch zs hzs
  obtain ⟨hitems, hcall⟩ :=
    items_waiting (t := ⟨.operator .otherwise, p⟩) rfl hlevel
  exact ⟨_, .chain hladder, items_guarded ht hne hbody hxs _ hitems hcall⟩

/-- A `while` loop can be read back. -/
theorem readsBack_while {body : List Tree} (ht : ReadsBack spell t)
    (hne : t ≠ empty) (hbody : Legible spell (.mk .block body)) :
    ReadsBack spell (.mk (.operator .whileLoop) [t, .mk .block body]) := by
  intro ts hts
  obtain ⟨hitems, -⟩ := items_guarded ht hne hbody hts [] rfl rfl
  rw [List.append_nil] at hitems
  exact parse_of_items hitems rfl

theorem readsBack_for {name : String} {body : List Tree}
    (ht : ReadsBack spell t) (hne : t ≠ empty)
    (hbody : Legible spell (.mk .block body)) :
    ReadsBack spell (.mk (.operator .forLoop)
      [leaf (.variable name), t, .mk .block body]) := by
  intro ts hts
  obtain ⟨p, xs, rfl, hxs⟩ := Spell.cons hts
  obtain ⟨ys, zs, rfl, hys, hzs⟩ := hxs.append
  obtain ⟨q, rfl⟩ := Spell.singleton hys
  obtain ⟨r, ws, rfl, hws⟩ := hzs.cons
  have hbodied := items_bodied ht hne hbody hws [] rfl rfl
  rw [List.append_nil] at hbodied
  obtain ⟨hitems, hcall⟩ :=
    items_waiting (t := ⟨.keyword "in", r⟩) rfl hbodied
  have hname := items_atom (@Atom.name name q) hcall hitems
  exact parse_of_items
    (items_waiting (t := ⟨.operator .forLoop, p⟩) rfl hname).1 rfl

-- ============================================================ all trees

/-- The spelling of a number that can be read at all is read as that
number. -/
def IsSpelling (spell : Float → String) : Prop :=
  ∀ (text : String) (value : Float),
    Numeral.read? text = some value →
    Numeral.read? (spell value) = some value

/-- Every formed tree is legible, by its shape. -/
theorem Formed.legible (hspell : IsSpelling spell) {t : Tree}
    (h : Formed t) : Legible spell t := by
  induction h with
  | number hvalue =>
      refine ReadsBack.legible (fun ts hts => ?_) nofun nofun nofun
      obtain ⟨p, rfl⟩ := Spell.singleton hts
      exact (Atom.number (hspell _ _ hvalue)).parse
  | name =>
      refine ReadsBack.legible (fun ts hts => ?_) nofun nofun nofun
      obtain ⟨p, rfl⟩ := Spell.singleton hts
      exact Atom.name.parse
  | template =>
      refine ReadsBack.legible (fun ts hts => ?_) nofun nofun nofun
      obtain ⟨p, rfl⟩ := Spell.singleton hts
      exact Atom.template.parse
  | @list n us hn _ hgap ih =>
      -- the nodes that hold a list: blocks, calls and indices
      cases n with
      | block => exact legible_block ih hgap
      | call name =>
          refine ReadsBack.legible (fun ts hts => ?_) nofun nofun nofun
          obtain ⟨p, q, inside, r, rfl, hcontents⟩ :=
            arguments_of_spell (readsBack_of_mem ih) hgap hts
          exact (Atom.call hcontents).parse
      | index target =>
          cases target with
          | some name =>
              refine ReadsBack.legible (fun ts hts => ?_) nofun nofun nofun
              obtain ⟨p, q, inside, r, rfl, hcontents⟩ :=
                arguments_of_spell (readsBack_of_mem ih) hgap hts
              exact (Atom.index hcontents).parse
          | none => cases hn
      | _ => cases hn
  | hollow =>
      refine legible_matrix fun inside h => ?_
      cases List.map_eq_nil_iff.mp h
      exact .none
  | matrix hwidth hheight hlen _ hgap ih =>
      exact legible_matrix fun inside h =>
        literal_of_joined hwidth hheight hlen (readsBack_of_mem ih) hgap h
  | indexed _ _ hgap ih ihIndices =>
      refine ReadsBack.legible (fun ts hts => ?_) nofun nofun nofun
      rw [write, writeAll, layout, writeAll_eq_map] at hts
      obtain ⟨xs, ys, rfl, hxs, hys⟩ := hts.append
      obtain ⟨p, inside, q, rfl, hliteral⟩ := ih.literal ⟨_, _, _, rfl⟩ xs hxs
      obtain ⟨p', inside', q', rfl, hin⟩ := hys.bracketed
      exact (Atom.indexed hliteral (contents_of_joined
        (rfl : isComma .comma = true) isStray_isComma
        (readsBack_of_mem ihIndices) hgap hin)).parse
  | unit ht ih =>
      exact (readsBack_trailing (fun _ => rfl) rfl rfl ih.reads
        ht.ne_empty).legible nofun nofun nofun
  | @unary op t hop ht ih =>
      have hread : ReadsBack spell (.mk (.operator op) [t]) := by
        rcases List.mem_cons.mp hop with rfl | hsign
        · exact readsBack_trailing (fun _ => rfl) rfl rfl ih.reads ht.ne_empty
        · exact readsBack_sign hsign ih.reads ht.ne_empty
      refine hread.legible nofun nofun ?_
      rintro cs ⟨⟩
      exact absurd hop (by decide)
  | @binary op l r hop hl hr ihl ihr =>
      refine (readsBack_binary hop ihl.reads hl.ne_empty ihr.reads
        hr.ne_empty).legible nofun nofun ?_
      rintro cs ⟨⟩
      exact absurd hop (by decide)
  | assign ht ih =>
      exact (readsBack_assign ih.reads ht.ne_empty).legible nofun nofun nofun
  | oneBranch hc _ ihc ihb =>
      exact legible_oneBranch ihc.reads hc.ne_empty ihb
  | twoBranches hc _ _ hbranch ihc ihb iho =>
      exact legible_twoBranches ihc.reads hc.ne_empty ihb iho hbranch
  | whileLoop hc _ ihc ihb =>
      exact (readsBack_while ihc.reads hc.ne_empty ihb).legible
        nofun nofun nofun
  | forLoop hm _ ihm ihb =>
      exact (readsBack_for ihm.reads hm.ne_empty ihb).legible
        nofun nofun nofun

/-- The parser reaches every formed tree: the row it is written as is read
as the tree. -/
theorem parse_write (spell : Float → String) (hspell : IsSpelling spell)
    (t : Tree) (h : Formed t) (ts : List Token)
    (hts : ts.map Token.lexeme = write spell t) : parse ts = .ok t :=
  (h.legible hspell).reads ts hts

/-- A spelling of each number that has one. -/
noncomputable def anySpelling (value : Float) : String :=
  Classical.epsilon fun text =>
    Numeral.read? text = some value

/-- It is a spelling. -/
theorem isSpelling_anySpelling : IsSpelling anySpelling := by
  intro text value h
  have hex : ∃ text : String,
      Numeral.read? text = some value := ⟨text, h⟩
  exact Classical.epsilon_spec hex

/-- The tokens of `if (x) { } else if (y) { ; z } else { }`. -/
def branchRow : List Token :=
  [⟨.operator .ifThen, 0⟩, ⟨.opening .paren, 3⟩, ⟨.name "x", 4⟩,
    ⟨.closing .paren, 5⟩, ⟨.opening .brace, 7⟩, ⟨.closing .brace, 9⟩,
    ⟨.operator .otherwise, 11⟩, ⟨.operator .ifThen, 16⟩,
    ⟨.opening .paren, 19⟩, ⟨.name "y", 20⟩, ⟨.closing .paren, 21⟩,
    ⟨.opening .brace, 23⟩, ⟨.semicolon, 25⟩, ⟨.name "z", 27⟩,
    ⟨.closing .brace, 29⟩, ⟨.operator .otherwise, 31⟩,
    ⟨.opening .brace, 36⟩, ⟨.closing .brace, 38⟩]

/-- A chain of conditionals with a gap in a block. -/
theorem parse_write_branchRow :
    parse branchRow = .ok (.mk (.operator .ifThen)
      [leaf (.variable "x"), .mk .block [],
       .mk (.operator .ifThen)
        [leaf (.variable "y"), .mk .block [empty, leaf (.variable "z")],
         .mk .block []]]) := by
  have hnone : Formed (.mk .block []) :=
    .list trivial (by simp) (by simp)
  have hgap : Formed (.mk .block [empty, leaf (.variable "z")]) := by
    refine .list trivial ?_ (by simp)
    intro t ht hne
    simp only [List.mem_cons, List.not_mem_nil, or_false] at ht
    rcases ht with rfl | rfl
    · exact absurd rfl hne
    · exact .name
  exact parse_write anySpelling isSpelling_anySpelling _
    (.twoBranches .name hnone
      (.twoBranches .name hgap hnone (.inl ⟨_, rfl⟩)) (.inr ⟨_, rfl⟩))
    branchRow rfl

end Metrology.Tree
