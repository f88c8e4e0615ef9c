/-
Trees do not depend on places. A token carries the place where it was
found, and only the errors of the parser show it. Here `f` changes the
places of tokens and keeps what they say, and a row that has a tree has
the same tree when `f` is applied to its tokens (`parse_map`).

The argument goes through the parser in its own order: the cut into
pieces and the split at separators commute with `f`, the readers of
groups pass on what the reader of their parts does, and the insides of
groups are shorter than the row around them.
-/
import Metrology.Proofs.Tree.Reading

namespace Metrology.Tree

variable {f : Token → Token}

-- ================================================================ pieces

/-- The piece with its tokens changed. -/
def Piece.map (f : Token → Token) : Piece → Piece
  | .token t => .token (f t)
  | .group b inside => .group b (inside.map f)
  | .broken e => .broken e

/-- A cut of a row is a cut of the changed row. -/
theorem Cut.map (hf : ∀ t, (f t).lexeme = t.lexeme) {ts : List Token}
    {ps : List Piece} (h : Cut ts ps) :
    Cut (ts.map f) (ps.map (Piece.map f)) := by
  induction h with
  | nil => exact .nil
  | token ht _ ih =>
      refine .token ?_ ih
      rw [hf]
      exact ht
  | group ho hc _ _ ihIn ih =>
      rw [List.map_cons, List.map_append, List.map_cons]
      refine .group ?_ ?_ ihIn ih
      · rw [hf]
        exact ho
      · rw [hf]
        exact hc

/-- A row whose brackets match falls into the same pieces, with their tokens
changed. -/
theorem pieces_map (hf : ∀ t, (f t).lexeme = t.lexeme) {ts : List Token}
    (h : IsWhole (pieces ts)) :
    pieces (ts.map f) = (pieces ts).map (Piece.map f) :=
  pieces_eq_of_cut ((cut_pieces h).map hf)

/-- Separators stand where they stood. -/
theorem splitFrom_map (hf : ∀ t, (f t).lexeme = t.lexeme)
    (sep : Lexeme → Bool) (ts : List Token) :
    ∀ (depth : Nat),
      splitFrom sep depth (ts.map f)
        = (splitFrom sep depth ts).map (List.map f) := by
  induction ts with
  | nil => intro depth; rfl
  | cons t ts ih =>
      intro depth
      rw [List.map_cons, splitFrom, splitFrom, hf]
      by_cases hsep : (depth = 0 && sep t.lexeme) = true
      · rw [if_pos hsep, if_pos hsep, ih]
        rfl
      · rw [if_neg hsep, if_neg hsep, ih]
        cases splitFrom sep (depthAfter depth t.lexeme) ts <;> rfl

/-- A parenthesis is still one. -/
@[simp] theorem opensCall_map (ps : List Piece) :
    opensCall (ps.map (Piece.map f)) = opensCall ps := by
  cases ps with
  | nil => rfl
  | cons p ps =>
      cases p with
      | token t => rfl
      | broken e => rfl
      | group b inside => cases b <;> rfl

/-- A square bracket is still one. -/
@[simp] theorem opensSquare_map (ps : List Piece) :
    opensSquare (ps.map (Piece.map f)) = opensSquare ps := by
  cases ps with
  | nil => rfl
  | cons p ps =>
      cases p with
      | token t => rfl
      | broken e => rfl
      | group b inside => cases b <;> rfl

-- =============================================================== readers

/-- The reader does not see what `f` does to the tokens of short rows. -/
def BlindUpTo (n : Nat) (f : Token → Token) (read : Reader) : Prop :=
  ∀ ts, ts.length ≤ n → ∀ t, read ts = .ok t → read (ts.map f) = .ok t

variable {n : Nat} {read : Reader} {inside : List Token}

/-- Parts of a short row are short, so they are read as before. -/
theorem BlindUpTo.mapM_splitFrom (h : BlindUpTo n f read)
    (hf : ∀ t, (f t).lexeme = t.lexeme) (hin : inside.length ≤ n)
    {sep : Lexeme → Bool} {ts : List Tree}
    (hts : (splitFrom sep 0 inside).mapM read = .ok ts) :
    (splitFrom sep 0 (inside.map f)).mapM read = .ok ts := by
  rw [splitFrom_map hf]
  refine mapM_map_eq_ok (fun part hpart t ht => ?_) hts
  have hlen := length_le_of_mem_splitFrom _ _ part hpart
  exact h part (Nat.le_trans hlen hin) t ht

/-- Arguments are read as before. -/
theorem BlindUpTo.readArguments (h : BlindUpTo n f read)
    (hf : ∀ t, (f t).lexeme = t.lexeme) (hin : inside.length ≤ n)
    {ts : List Tree} (hts : Tree.readArguments read inside = .ok ts) :
    Tree.readArguments read (inside.map f) = .ok ts := by
  unfold Tree.readArguments at hts ⊢
  rw [List.isEmpty_map]
  by_cases hempty : inside.isEmpty = true
  · rw [if_pos hempty] at hts ⊢
    exact hts
  · rw [if_neg hempty] at hts ⊢
    exact h.mapM_splitFrom hf hin hts

/-- Blocks are read as before. -/
theorem BlindUpTo.readBlock (h : BlindUpTo n f read)
    (hf : ∀ t, (f t).lexeme = t.lexeme) (hin : inside.length ≤ n)
    {t : Tree} (ht : Tree.readBlock read inside = .ok t) :
    Tree.readBlock read (inside.map f) = .ok t := by
  unfold Tree.readBlock at ht ⊢
  rw [List.isEmpty_map]
  by_cases hempty : inside.isEmpty = true
  · rw [if_pos hempty] at ht ⊢
    exact ht
  · rw [if_neg hempty] at ht ⊢
    obtain ⟨ts, hts, ht⟩ := bind_eq_ok.mp ht
    exact bind_eq_ok.mpr ⟨ts, h.mapM_splitFrom hf hin hts, ht⟩

/-- What stands in parentheses is read as before. -/
theorem BlindUpTo.readGroup (h : BlindUpTo n f read) (hin : inside.length ≤ n)
    {i : Item} (hi : Tree.readGroup read inside = .ok i) :
    Tree.readGroup read (inside.map f) = .ok i := by
  unfold Tree.readGroup at hi ⊢
  rw [List.isEmpty_map]
  by_cases hempty : inside.isEmpty = true
  · rw [if_pos hempty] at hi ⊢
    exact hi
  · rw [if_neg hempty] at hi ⊢
    obtain ⟨t, ht, hi⟩ := bind_eq_ok.mp hi
    exact bind_eq_ok.mpr ⟨t, h inside hin t ht, hi⟩

/-- Rows of a matrix are read as before, and are as wide. -/
theorem BlindUpTo.readRow (h : BlindUpTo n f read)
    (hf : ∀ t, (f t).lexeme = t.lexeme) (hin : inside.length ≤ n)
    {width : Nat} {cells : List Tree}
    (hcells : Tree.readRow read width (splitCommas inside) = .ok cells) :
    Tree.readRow read width ((splitCommas inside).map (List.map f))
      = .ok cells := by
  unfold Tree.readRow at hcells ⊢
  rw [List.length_map]
  by_cases hwidth : (splitCommas inside).length ≠ width
  · rw [if_pos hwidth] at hcells
    cases hcells
  · rw [if_neg hwidth] at hcells ⊢
    rw [splitCommas, ← splitFrom_map hf]
    exact h.mapM_splitFrom hf hin hcells

/-- Matrices are read as before. -/
theorem BlindUpTo.readMatrix (h : BlindUpTo n f read)
    (hf : ∀ t, (f t).lexeme = t.lexeme) (hin : inside.length ≤ n)
    {t : Tree} (ht : Tree.readMatrix read inside = .ok t) :
    Tree.readMatrix read (inside.map f) = .ok t := by
  have hrows : (splitSemicolons (inside.map f)).map splitCommas
      = ((splitSemicolons inside).map splitCommas).map
          (List.map (List.map f)) := by
    rw [splitSemicolons, splitFrom_map hf, List.map_map, List.map_map]
    exact List.map_congr_left fun row _ => splitFrom_map hf _ row 0
  have hwidth : ∀ rows : List (List (List Token)),
      ((rows.map (List.map (List.map f))).head?.map List.length).getD 0
        = (rows.head?.map List.length).getD 0 := by
    intro rows
    cases rows <;> simp
  unfold Tree.readMatrix at ht ⊢
  rw [List.isEmpty_map]
  by_cases hempty : inside.isEmpty = true
  · rw [if_pos hempty] at ht ⊢
    exact ht
  · rw [if_neg hempty] at ht ⊢
    obtain ⟨cells, hcells, ht⟩ := bind_eq_ok.mp ht
    rw [hrows]
    simp only [hwidth, List.length_map] at ht ⊢
    refine bind_eq_ok.mpr ⟨cells, mapM_map_eq_ok ?_ hcells, ht⟩
    intro row hrow ts hts
    obtain ⟨part, hpart, rfl⟩ := List.mem_map.mp hrow
    have hlen := length_le_of_mem_splitFrom _ _ part hpart
    exact h.readRow hf (Nat.le_trans hlen hin) hts

-- ================================================================= trees

/-- A name is still that name. -/
theorem name?_map (hf : ∀ t, (f t).lexeme = t.lexeme) (t : Token) :
    name? (f t) = name? t := by
  unfold name?
  rw [hf]

/-- A token that is an item is still that item. -/
theorem ofToken_map (hf : ∀ t, (f t).lexeme = t.lexeme) {t : Token}
    {i : Item} (h : ofToken t = .ok i) : ofToken (f t) = .ok i := by
  unfold ofToken at h ⊢
  rw [hf]
  cases hl : t.lexeme with
  | number text decorator =>
      rw [hl] at h
      cases hv : Numeral.read? text with
      | none => simp only [hv] at h; cases h
      | some value => simp only [hv] at h ⊢; exact h
  | _ => rw [hl] at h; first | exact h | cases h

/-- Pieces with short insides have the same items. -/
theorem BlindUpTo.items (h : BlindUpTo n f read)
    (hf : ∀ t, (f t).lexeme = t.lexeme) (ps : List Piece) :
    (∀ b inside, Piece.group b inside ∈ ps → inside.length ≤ n) →
    ∀ level, Tree.items read ps = .ok level →
      Tree.items read (ps.map (Piece.map f)) = .ok level := by
  -- the cases are those of the reader: a call, an index, a token alone,
  -- the four groups
  fun_induction Tree.items read ps with
  | case1 => intro _ level hl; exact hl
  | case2 => intro _ level hl; cases hl
  | case3 t inside rest name hname ih =>
      intro hps level hlevel
      obtain ⟨_, _, ha, hl, rfl⟩ := bind_cons_eq_ok.mp hlevel
      have hname' : name? (f t) = some name := by rw [name?_map hf, hname]
      rw [List.map_cons, List.map_cons, Piece.map, Piece.map,
        items_call hname']
      exact bind_cons_eq_ok.mpr
        ⟨_, _, h.readArguments hf (hps .paren inside (by simp)) ha,
          ih (fun b i hi => hps b i (by simp [hi])) _ hl, rfl⟩
  | case4 t inside rest name hname ih =>
      intro hps level hlevel
      obtain ⟨_, _, ha, hl, rfl⟩ := bind_cons_eq_ok.mp hlevel
      have hname' : name? (f t) = some name := by rw [name?_map hf, hname]
      rw [List.map_cons, List.map_cons, Piece.map, Piece.map,
        items_index hname']
      exact bind_cons_eq_ok.mpr
        ⟨_, _, h.readArguments hf (hps .square inside (by simp)) ha,
          ih (fun b i hi => hps b i (by simp [hi])) _ hl, rfl⟩
  | case5 t b inside rest hparen hsquare ih =>
      intro hps level hlevel
      obtain ⟨_, _, hi, hl, rfl⟩ := bind_cons_eq_ok.mp hlevel
      -- the token takes no group behind it, so it does not after the
      -- change either
      have halone : name? (f t) = none
          ∨ opensCall ((Piece.group b inside :: rest).map (Piece.map f))
            = false := by
        rw [name?_map hf, opensCall_map]
        cases hn : name? t <;> cases b <;> simp_all [opensCall]
      rw [List.map_cons, Piece.map, items_token halone]
      exact bind_cons_eq_ok.mpr
        ⟨_, _, ofToken_map hf hi,
          ih (fun b i hi => hps b i (List.mem_cons_of_mem _ hi)) _ hl, rfl⟩
  | case6 t rest hrest ih =>
      intro hps level hlevel
      obtain ⟨_, _, hi, hl, rfl⟩ := bind_cons_eq_ok.mp hlevel
      have halone : opensCall (rest.map (Piece.map f)) = false := by
        rw [opensCall_map]
        unfold opensCall
        split <;> simp_all
      rw [List.map_cons, Piece.map, items_token (.inr halone)]
      exact bind_cons_eq_ok.mpr
        ⟨_, _, ofToken_map hf hi,
          ih (fun b i hi => hps b i (List.mem_cons_of_mem _ hi)) _ hl, rfl⟩
  | case7 inside rest ih =>
      intro hps level hlevel
      obtain ⟨_, _, hi, hl, rfl⟩ := bind_cons_eq_ok.mp hlevel
      rw [List.map_cons, Piece.map, Tree.items]
      exact bind_cons_eq_ok.mpr
        ⟨_, _, h.readGroup (hps .paren inside (by simp)) hi,
          ih (fun b i hi => hps b i (by simp [hi])) _ hl, rfl⟩
  | case8 inside rest ih =>
      intro hps level hlevel
      obtain ⟨_, _, ht, hl, rfl⟩ := bind_cons_eq_ok.mp hlevel
      rw [List.map_cons, Piece.map, Tree.items]
      exact bind_cons_eq_ok.mpr
        ⟨_, _, h.readBlock hf (hps .brace inside (by simp)) ht,
          ih (fun b i hi => hps b i (by simp [hi])) _ hl, rfl⟩
  | case9 inside inside' rest ih =>
      intro hps level hlevel
      obtain ⟨_, ht, hlevel⟩ := bind_eq_ok.mp hlevel
      obtain ⟨_, _, ha, hl, rfl⟩ := bind_cons_eq_ok.mp hlevel
      rw [List.map_cons, List.map_cons, Piece.map, Piece.map, Tree.items]
      refine bind_eq_ok.mpr
        ⟨_, h.readMatrix hf (hps .square inside (by simp)) ht, ?_⟩
      exact bind_cons_eq_ok.mpr
        ⟨_, _, h.readArguments hf (hps .square inside' (by simp)) ha,
          ih (fun b i hi => hps b i (by simp [hi])) _ hl, rfl⟩
  | case10 inside rest hrest ih =>
      intro hps level hlevel
      obtain ⟨_, _, ht, hl, rfl⟩ := bind_cons_eq_ok.mp hlevel
      have halone : opensSquare (rest.map (Piece.map f)) = false := by
        rw [opensSquare_map]
        unfold opensSquare
        split <;> simp_all
      rw [List.map_cons, Piece.map, items_square halone]
      exact bind_cons_eq_ok.mpr
        ⟨_, _, h.readMatrix hf (hps .square inside (by simp)) ht,
          ih (fun b i hi => hps b i (by simp [hi])) _ hl, rfl⟩

/-- Rows of any length are read as before. -/
theorem blindUpTo_parse (hf : ∀ t, (f t).lexeme = t.lexeme) :
    ∀ (n : Nat), BlindUpTo n f parse := by
  intro n
  -- on a bound for the length of the row: the insides of its groups are
  -- shorter
  induction n with
  | zero =>
      intro ts hlen t ht
      rw [List.length_eq_zero_iff.mp (Nat.le_zero.mp hlen)] at ht ⊢
      exact ht
  | succ n ih =>
      intro ts hlen t ht
      cases ts with
      | nil => exact ht
      | cons x xs =>
          rw [parse_cons] at ht
          obtain ⟨level, hlevel, ht⟩ := bind_eq_ok.mp ht
          have hwhole := (reads_of_items_eq_ok hlevel).isWhole
          rw [List.map_cons, parse_cons, ← List.map_cons,
            pieces_map hf hwhole]
          refine bind_eq_ok.mpr ⟨level, ih.items hf _ ?_ level hlevel, ht⟩
          intro b inside hg
          have := length_lt_of_group_mem_pieces hg
          omega

/-- A row with other places has the same tree. -/
theorem parse_map (hf : ∀ t, (f t).lexeme = t.lexeme) {ts : List Token}
    {t : Tree} (h : parse ts = .ok t) : parse (ts.map f) = .ok t :=
  blindUpTo_parse hf ts.length ts (Nat.le_refl _) t h

end Metrology.Tree
