/-
Where errors over brackets come from. Reading a row cuts it into pieces,
hands on what stands inside its groups and reduces the items. Only the cut
can find brackets that do not match, and only in the row as a whole: what
is handed on nests again, whatever the row (`Calls.nests`). A separator
is looked for by counting how deep it stands, without regard to the
families of brackets; in a row that nests this never parts a bracket from
its partner (`parts_splitFrom`).

So a row that nests fails, if it fails, over something else, and so do all
rows read on the way. A row that does not nest always fails: what stands
before the break is read first, and if that succeeds the error is the one
of the break.
-/
import Metrology.Proofs.Tree.Grammar
import Mathlib.Logic.Relation

namespace Metrology.Tree

-- ====================================================== rows handed on

/-- What stands between commas nests again. -/
theorem Nests.of_mem_splitCommas {ts part : List Token} (h : Nests ts)
    (hpart : part ∈ splitCommas ts) : Nests part :=
  (parts_splitFrom isComma_bracket h).nests_of_mem part hpart

/-- What stands between semicolons nests again. -/
theorem Nests.of_mem_splitSemicolons {ts part : List Token} (h : Nests ts)
    (hpart : part ∈ splitSemicolons ts) : Nests part :=
  (parts_splitFrom isSemicolon_bracket h).nests_of_mem part hpart

/-- The piece is no bracket without its partner and holds none. -/
def Piece.IsMatched : Piece → Prop
  | .token t => t.lexeme.isBracket = false
  | .group _ inside => Nests inside
  | .broken _ => False

/-- The pieces of a row that nests are matched. -/
theorem Cut.isMatched {ts : List Token} {ps : List Piece} (h : Cut ts ps) :
    ∀ p ∈ ps, p.IsMatched := by
  induction h with
  | nil => exact List.forall_mem_nil _
  | token ht _ ih => exact List.forall_mem_cons.mpr ⟨ht, ih⟩
  | group _ _ hin _ _ ih => exact List.forall_mem_cons.mpr ⟨⟨_, hin⟩, ih⟩

/-- Groups nest inside, also those before a break. -/
theorem nests_of_group_mem_pieces {ts : List Token} {b : Bracket}
    {inside : List Token} (h : Piece.group b inside ∈ pieces ts) :
    Nests inside := by
  rcases cut_or_breaks ts with hcut | ⟨ps, e, hps, -, xs, ys, -, hcut⟩
  · exact hcut.isMatched _ h
  · rw [hps] at h
    exact hcut.isMatched (.group b inside) (by simpa using h)

/-- Reading the first row hands on the second. -/
def Calls (ts part : List Token) : Prop := HandsOn (pieces ts) part

/-- What is handed on nests, whether or not the row does. -/
theorem Calls.nests {ts part : List Token} (h : Calls ts part) :
    Nests part := by
  cases h with
  | inside hg => exact nests_of_group_mem_pieces hg
  | argument hg hp => exact (nests_of_group_mem_pieces hg).of_mem_splitCommas hp
  | index hg hp => exact (nests_of_group_mem_pieces hg).of_mem_splitCommas hp
  | statement hg hp =>
      exact (nests_of_group_mem_pieces hg).of_mem_splitSemicolons hp
  | cell hg hr hp =>
      have hrow := (nests_of_group_mem_pieces hg).of_mem_splitSemicolons hr
      exact hrow.of_mem_splitCommas hp

-- ================================================ errors of the reduction

/-- An error, if there is one, does not tell of brackets. -/
abbrev SparesBrackets {α : Type} (x : Except ParseError α) : Prop :=
  FailsOnly (fun e => e.isBracketError = false) x

/-- A sign without an operand is no matter of brackets. -/
theorem sparesBrackets_attachLeading :
    ∀ (level : Level) (left : Option Item),
      SparesBrackets (attachLeading left level) := by
  intro level
  induction level with
  | nil => exact fun left => .ok
  | cons i rest ih =>
      intro left
      rw [attachLeading]
      refine .bind (ih _) fun out _ => ?_
      cases out with
      | nil => exact .ok
      | cons right out => exact .ite (.ite .ok (.error rfl)) .ok

/-- A query or unit without an operand is no matter of brackets. -/
theorem sparesBrackets_attachTrailing (wanted : Item → Bool)
    (level : Level) : SparesBrackets (attachTrailing wanted level) := by
  have hto : ∀ (level : Level) (left : Item),
      SparesBrackets (attachTrailingTo wanted left level) := by
    intro level
    induction level with
    | nil => exact fun left => .ok
    | cons i rest ih =>
        intro left
        rw [attachTrailingTo]
        exact .ite (.ite (ih _) (.error rfl)) (.bind (ih _) fun _ _ => .ok)
  cases level with
  | nil => exact .ok
  | cons i rest => exact hto rest i

/-- An operator without an operand is no matter of brackets. -/
theorem sparesBrackets_attachBinary (ops : List Operator) (level : Level) :
    SparesBrackets (attachBinary ops level) := by
  have hto : ∀ (level : Level) (left : Item),
      SparesBrackets (attachBinaryTo ops left level) := by
    intro level left
    fun_induction attachBinaryTo ops left level with
    | case1 => exact .ok
    | case2 => exact .error rfl
    | case3 _ _ _ _ _ _ ih => exact ih
    | case4 => exact .error rfl
    | case5 _ _ _ _ ih => exact .bind ih fun _ _ => .ok
  cases level with
  | nil => exact .ok
  | cons i rest => exact .ite (.error rfl) (hto rest i)

/-- A misplaced `else` is no matter of brackets. -/
theorem sparesBrackets_attachElse (level : Level) :
    SparesBrackets (attachElse level) := by
  induction level with
  | nil => exact .ok
  | cons left rest ih =>
      rw [attachElse]
      refine .bind ih fun out _ => ?_
      split
      · exact .ite (.ite .ok (.error rfl)) .ok
      · exact .ok

/-- A misplaced assignment is no matter of brackets. -/
theorem sparesBrackets_attachAssignment (level : Level) :
    SparesBrackets (attachAssignment level) := by
  have hto : ∀ (level : Level) (left : Item),
      SparesBrackets (attachAssignmentTo left level) := by
    intro level left
    fun_induction attachAssignmentTo left level with
    | case1 => exact .ok
    | case2 => exact .error rfl
    | case3 => exact .error rfl
    | case4 => exact .error rfl
    | case5 _ _ _ _ _ _ _ ih => exact ih
    | case6 _ _ _ _ ih => exact .bind ih fun _ _ => .ok
  cases level with
  | nil => exact .ok
  | cons i rest => exact .ite (.error rfl) (hto rest i)

/-- Whatever the items are, reducing them does not fail over brackets. -/
theorem sparesBrackets_reduce (level : Level) :
    SparesBrackets (reduce level) := by
  -- pass by pass, in the order of the reduction; conditionals and loops
  -- over a matrix cannot fail
  refine .bind (sparesBrackets_attachLeading _ _) fun level _ => ?_
  refine .bind (sparesBrackets_attachTrailing _ _) fun level _ => ?_
  refine .bind (sparesBrackets_attachTrailing _ _) fun level _ => ?_
  refine .bind (.foldlM (fun ops _ level =>
    sparesBrackets_attachBinary ops level) level) fun level _ => ?_
  refine .bind (sparesBrackets_attachElse _) fun level _ => ?_
  refine .bind (sparesBrackets_attachAssignment _) fun level _ => ?_
  unfold single
  split
  · exact .ok
  · exact .error rfl
  · exact .error rfl

-- ================================================== errors of the reading

/-- Tokens that are no brackets do not fail over brackets. -/
theorem sparesBrackets_ofToken {t : Token}
    (ht : t.lexeme.isBracket = false) : SparesBrackets (ofToken t) := by
  obtain ⟨l, p⟩ := t
  cases l with
  | number text decorator =>
      simp only [ofToken]
      split
      · exact .ok
      · exact .error rfl
  | opening b => cases ht
  | closing b => cases ht
  | comma => exact .error rfl
  | semicolon => exact .error rfl
  | _ => exact .ok

variable {read : Reader} {inside : List Token}

/-- Arguments fail over brackets only if one of them does. -/
theorem sparesBrackets_readArguments
    (h : ∀ part ∈ splitCommas inside, SparesBrackets (read part)) :
    SparesBrackets (readArguments read inside) :=
  .ite .ok (.mapM h)

/-- A block fails over brackets only if one of its statements does. -/
theorem sparesBrackets_readBlock
    (h : ∀ part ∈ splitSemicolons inside, SparesBrackets (read part)) :
    SparesBrackets (readBlock read inside) :=
  .ite .ok (.bind (.mapM h) fun _ _ => .ok)

/-- A group fails over brackets only if what stands in it does. -/
theorem sparesBrackets_readGroup (h : SparesBrackets (read inside)) :
    SparesBrackets (readGroup read inside) :=
  .ite .ok (.bind h fun _ _ => .ok)

/-- A matrix fails over brackets only if one of its cells does. -/
theorem sparesBrackets_readMatrix
    (h : ∀ row ∈ splitSemicolons inside, ∀ part ∈ splitCommas row,
      SparesBrackets (read part)) :
    SparesBrackets (readMatrix read inside) := by
  refine .ite .ok (.bind (.mapM fun row hrow => ?_) fun _ _ => .ok)
  obtain ⟨line, hline, rfl⟩ := List.mem_map.mp hrow
  exact .ite (.error rfl) (.mapM (h line hline))

/-- The pieces are matched, and no row they hand on fails over brackets. -/
def IsSafe (read : Reader) (ps : List Piece) : Prop :=
  (∀ p ∈ ps, p.IsMatched) ∧ ∀ ts, HandsOn ps ts → SparesBrackets (read ts)

/-- Fewer pieces are as safe. -/
theorem IsSafe.mono {ps qs : List Piece} (h : IsSafe read ps)
    (hsub : ∀ p ∈ qs, p ∈ ps) : IsSafe read qs :=
  ⟨fun p hp => h.1 p (hsub p hp), fun ts hts => h.2 ts (hts.mono hsub)⟩

/-- Safe pieces give items, or fail over something else. -/
theorem IsSafe.sparesBrackets_items {ps : List Piece} :
    IsSafe read ps → SparesBrackets (items read ps) := by
  -- a first result and then the rest of the row
  have hcons : ∀ {α : Type} {x : Except ParseError α}
      {rest : Except ParseError Level} {f : α → Item}, SparesBrackets x →
      SparesBrackets rest →
      SparesBrackets (do let a ← x; return f a :: (← rest)) :=
    fun hx hrest => .bind hx fun _ _ => .bind hrest fun _ _ => .ok
  fun_induction items read ps with
  | case1 => exact fun _ => .ok
  | case2 e rest => exact fun h => (h.1 (.broken e) (by simp)).elim
  | case3 t inside rest name hname ih =>
      intro h
      refine hcons ?_ (ih (h.mono (by simp_all)))
      exact sparesBrackets_readArguments fun part hp =>
        h.2 part (.argument (by simp) hp)
  | case4 t inside rest name hname ih =>
      intro h
      refine hcons ?_ (ih (h.mono (by simp_all)))
      exact sparesBrackets_readArguments fun part hp =>
        h.2 part (.index (by simp) hp)
  | case5 t b inside rest hparen hsquare ih =>
      intro h
      refine hcons ?_ (ih (h.mono (by simp_all)))
      exact sparesBrackets_ofToken (h.1 (.token t) (by simp))
  | case6 t rest hrest ih =>
      intro h
      refine hcons ?_ (ih (h.mono (by simp_all)))
      exact sparesBrackets_ofToken (h.1 (.token t) (by simp))
  | case7 inside rest ih =>
      intro h
      refine hcons ?_ (ih (h.mono (by simp_all)))
      exact sparesBrackets_readGroup (h.2 inside (.inside (by simp)))
  | case8 inside rest ih =>
      intro h
      refine hcons ?_ (ih (h.mono (by simp_all)))
      exact sparesBrackets_readBlock fun part hp =>
        h.2 part (.statement (by simp) hp)
  | case9 inside inside' rest ih =>
      intro h
      have hmatrix : SparesBrackets (readMatrix read inside) :=
        sparesBrackets_readMatrix fun row hr part hp =>
          h.2 part (.cell (by simp) hr hp)
      refine .bind hmatrix fun target _ => ?_
      refine hcons ?_ (ih (h.mono (by simp_all)))
      exact sparesBrackets_readArguments fun part hp =>
        h.2 part (.index (by simp) hp)
  | case10 inside rest hrest ih =>
      intro h
      refine hcons ?_ (ih (h.mono (by simp_all)))
      exact sparesBrackets_readMatrix fun row hr part hp =>
        h.2 part (.cell (by simp) hr hp)

/-- A row that nests does not fail over brackets. -/
theorem Nests.sparesBrackets {ts : List Token} (h : Nests ts) :
    SparesBrackets (parse ts) := by
  -- rows handed on are shorter and nest, so the induction is on the length
  induction hn : ts.length using Nat.strongRecOn generalizing ts with
  | _ n ih =>
      obtain ⟨ps, hcut⟩ := h
      cases ts with
      | nil => exact .ok
      | cons t ts =>
          rw [parse_cons]
          have hsafe : IsSafe parse (pieces (t :: ts)) := by
            refine ⟨?_, fun part hpart => ?_⟩
            · rw [pieces_eq_of_cut hcut]
              exact hcut.isMatched
            · exact ih _ (hn ▸ hpart.length_lt) (Calls.nests hpart) rfl
          exact .bind hsafe.sparesBrackets_items fun level _ =>
            sparesBrackets_reduce level

-- ================================================ rows that break off

/-- What stands before a break is read first. -/
theorem items_append_broken (e : ParseError) (ps : List Piece) :
    items read (ps ++ [.broken e])
      = (items read ps >>= fun _ => .error e) := by
  -- each piece makes one item before the rest, and this is all that the
  -- cases need
  have hcons : ∀ {α : Type} (x : Except ParseError α)
      (rest : Except ParseError Level) (f : α → Item),
      (do let a ← x; return f a :: (← rest >>= fun _ => .error e))
        = ((do let a ← x; return f a :: (← rest))
            >>= fun _ => (.error e : Except ParseError Level)) := by
    intro α x rest f
    cases x <;> cases rest <;> rfl
  fun_induction items read ps with
  | case1 => rfl
  | case2 => rfl
  | case3 t inside rest name hname ih =>
      rw [List.cons_append, List.cons_append, items_call hname, ih, hcons]
  | case4 t inside rest name hname ih =>
      rw [List.cons_append, List.cons_append, items_index hname, ih, hcons]
  | case5 t b inside rest hparen hsquare ih =>
      rw [List.cons_append, items_token ?_, ih, hcons]
      cases hn : name? t <;> cases b <;> simp_all [opensCall]
  | case6 t rest hrest ih =>
      rw [List.cons_append, items_token (.inr ?_), ih, hcons]
      rcases rest with - | ⟨p, rest⟩
      · rfl
      · cases p with
        | group b inside => exact (hrest b inside rest rfl).elim
        | _ => rfl
  | case7 inside rest ih => rw [List.cons_append, items, ih, hcons]
  | case8 inside rest ih => rw [List.cons_append, items, ih, hcons]
  | case9 inside inside' rest ih =>
      rw [List.cons_append, List.cons_append, items, ih]
      cases readMatrix read inside with
      | error => rfl
      | ok target => exact hcons ..
  | case10 inside rest hrest ih =>
      rw [List.cons_append, items_square ?_, ih, hcons]
      rcases rest with - | ⟨p, rest⟩
      · rfl
      · cases p with
        | group b inside' =>
            cases b with
            | square => exact (hrest inside' rest rfl).elim
            | _ => rfl
        | _ => rfl

/-- A row fails where it breaks off, unless what stands before fails. -/
theorem Breaks.parse_eq {ts : List Token} {ps : List Piece}
    {e : ParseError} (h : Breaks ts ps e) :
    parse ts = (items parse ps >>= fun _ => .error e) := by
  cases ts with
  | nil =>
      have hpieces : [] = ps ++ [Piece.broken e] := h.pieces_eq
      simp at hpieces
  | cons t ts =>
      rw [parse_cons, h.pieces_eq, items_append_broken]
      cases items parse ps <;> rfl

/-- What stands before a break does not fail over brackets. -/
theorem Breaks.sparesBrackets_before {ts : List Token} {ps : List Piece}
    {e : ParseError} (h : Breaks ts ps e) :
    SparesBrackets (items parse ps) := by
  obtain ⟨hpieces, -, xs, ys, -, hcut⟩ := h
  refine IsSafe.sparesBrackets_items ⟨hcut.isMatched, fun part hpart => ?_⟩
  have hcalls : Calls ts part := by
    rw [Calls, hpieces]
    exact hpart.mono fun p hp => List.mem_append_left _ hp
  exact hcalls.nests.sparesBrackets

/-- Every row read on the way nests: the last step that led to it has handed
on a row that does. -/
theorem Nests.of_reflTransGen_calls {ts part : List Token} (h : Nests ts)
    (hcalls : Relation.ReflTransGen Calls ts part) : Nests part := by
  cases hcalls with
  | refl => exact h
  | tail _ hlast => exact hlast.nests

/-- Errors over brackets arise exactly where brackets do not match. A row
that is read nests. If a row nests, then so does every row that is read on
the way, at any depth, and none of them fails over brackets. If it does
not nest, it fails: with the error of the place where it breaks off,
unless what stands before that place fails over something else. The rows
read on the way are those that `Calls` names: the items of a row do not
depend on what the reader says of any other. -/
theorem parse_bracketErrors (ts : List Token) :
    (∀ t, parse ts = .ok t → Nests ts)
    ∧ (Nests ts → ∀ part, Relation.ReflTransGen Calls ts part →
        Nests part ∧ ∀ e, parse part = .error e → e.isBracketError = false)
    ∧ (¬ Nests ts → ∃ ps e, Breaks ts ps e
        ∧ parse ts = (items parse ps >>= fun _ => .error e)
        ∧ ∀ e', items parse ps = .error e' → e'.isBracketError = false)
    ∧ ∀ read : Reader, (∀ part, Calls ts part → read part = parse part) →
        items read (pieces ts) = items parse (pieces ts) := by
  refine ⟨fun t => nests_of_parse_eq_ok, ?_, ?_, fun read => items_congr _⟩
  · intro hnests part hcalls
    have hpart := hnests.of_reflTransGen_calls hcalls
    exact ⟨hpart, hpart.sparesBrackets⟩
  · intro hnot
    rcases cut_or_breaks ts with hcut | ⟨ps, e, hbreaks⟩
    · exact absurd ⟨_, hcut⟩ hnot
    · exact ⟨ps, e, hbreaks, hbreaks.parse_eq, hbreaks.sparesBrackets_before⟩

/-- The tokens of `()`. -/
def emptyCell : List Token := [⟨.opening .paren, 10⟩, ⟨.closing .paren, 11⟩]

/-- The tokens of `[y, ()]`. -/
def matrixRow : List Token :=
  [⟨.opening .square, 6⟩, ⟨.name "y", 7⟩, ⟨.comma, 8⟩] ++ emptyCell
    ++ [⟨.closing .square, 12⟩]

/-- The tokens of `{x; [y, ()]}`. -/
def blockRow : List Token :=
  [⟨.opening .brace, 2⟩, ⟨.name "x", 3⟩, ⟨.semicolon, 4⟩] ++ matrixRow
    ++ [⟨.closing .brace, 13⟩]

/-- The tokens of `f({x; [y, ()]})`. -/
def cellRow : List Token :=
  [⟨.name "f", 0⟩, ⟨.opening .paren, 1⟩] ++ blockRow
    ++ [⟨.closing .paren, 14⟩]

/-- The tokens of `x([)]`. -/
def crossedRow : List Token :=
  [⟨.name "x", 0⟩, ⟨.opening .paren, 1⟩, ⟨.opening .square, 2⟩,
    ⟨.closing .paren, 3⟩, ⟨.closing .square, 4⟩]

/-- A cell deep inside a row that nests has no value, which is no error
over brackets; crossed brackets are one. -/
theorem parse_bracketErrors_cellRow :
    (Nests cellRow ∧ Relation.ReflTransGen Calls cellRow emptyCell
      ∧ parse emptyCell = .error (.noValue "None")
      ∧ (ParseError.noValue "None").isBracketError = false)
    ∧ parse crossedRow = .error (.mismatchedBracket ")" 3)
    ∧ ¬ Nests crossedRow := by
  have hargument : Calls cellRow blockRow :=
    .argument (.tail _ (.head _)) (.head _)
  have hstatement : Calls blockRow matrixRow :=
    .statement (.head _) (.tail _ (.head _))
  have hcell : Calls matrixRow emptyCell :=
    .cell (.head _) (.head _) (.tail _ (.head _))
  have hcalls : Relation.ReflTransGen Calls cellRow emptyCell :=
    .head hargument (.head hstatement (.single hcell))
  have hnests : Nests cellRow := by
    refine ⟨_, cut_pieces fun e he => ?_⟩
    have hpieces : Piece.broken e
        ∈ [.token ⟨.name "f", 0⟩, .group .paren blockRow] := he
    simp at hpieces
  refine ⟨⟨hnests, hcalls, rfl, ?_⟩, rfl, fun hcrossed => ?_⟩
  · exact ((parse_bracketErrors cellRow).2.1 hnests _ hcalls).2 _ rfl
  · cases ((parse_bracketErrors crossedRow).2.1 hcrossed _ .refl).2 _ rfl

end Metrology.Tree
