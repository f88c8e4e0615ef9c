/-
Rows whose brackets nest. `Cut ts ps` says without any scanning what the
pieces of a row are: single tokens, and groups whose inside nests in
turn. The scanner `pieces` finds exactly these cuts (`pieces_eq_of_cut`,
`cut_pieces`). On every other row it finds those of a first part that
nests, and then ends in a broken piece (`cut_or_breaks`).

Inside a group the scanner keeps a stack of the brackets that are still
open. A row that nests leaves the stack as it was, whatever the stack is
(`piecesFrom_append`); conversely, a scan that does not break off closes
the open brackets one by one, with rows that nest in between (`Closes`).

Separators are treated alike: `Parts` says what the parts of a row are,
and `splitFrom`, which only counts how deep it is, finds them.
-/
import Metrology.Tree.Group

namespace Metrology

/-- The lexeme opens or closes a group. -/
def Lexeme.isBracket : Lexeme → Bool
  | .opening _ | .closing _ => true
  | _ => false

/-- The error tells of brackets that do not match. -/
def ParseError.isBracketError : ParseError → Bool
  | .mismatchedBracket _ _ | .unclosedBracket _ _ | .unopenedBracket _ _ =>
      true
  | _ => false

namespace Tree

-- ======================================================= rows that nest

/-- The row consists of these pieces. -/
inductive Cut : List Token → List Piece → Prop
  | nil : Cut [] []
  | token {t : Token} {ts : List Token} {ps : List Piece} :
      t.lexeme.isBracket = false → Cut ts ps → Cut (t :: ts) (.token t :: ps)
  | group {o c : Token} {b : Bracket} {inside ts : List Token}
      {within ps : List Piece} :
      o.lexeme = .opening b → c.lexeme = .closing b → Cut inside within →
      Cut ts ps → Cut (o :: (inside ++ c :: ts)) (.group b inside :: ps)

/-- Every bracket of the row has its partner in it, and groups do not
overlap. -/
def Nests (ts : List Token) : Prop := ∃ ps, Cut ts ps

/-- Pieces in a row are the pieces of both rows. -/
theorem Cut.append {xs ys : List Token} {ps qs : List Piece}
    (hx : Cut xs ps) (hy : Cut ys qs) : Cut (xs ++ ys) (ps ++ qs) := by
  induction hx with
  | nil => exact hy
  | token ht _ ih => exact .token ht ih
  | group ho hc hin _ _ ih =>
      rw [List.cons_append, List.append_assoc, List.cons_append]
      exact .group ho hc hin ih

/-- Two rows that nest do so together. -/
theorem Nests.append {xs ys : List Token} (hx : Nests xs) (hy : Nests ys) :
    Nests (xs ++ ys) := by
  obtain ⟨ps, hps⟩ := hx
  obtain ⟨qs, hqs⟩ := hy
  exact ⟨ps ++ qs, hps.append hqs⟩

/-- A group by itself nests when its inside does. -/
theorem Nests.group {o c : Token} {b : Bracket} {inside : List Token}
    (ho : o.lexeme = .opening b) (hc : c.lexeme = .closing b)
    (hin : Nests inside) : Nests (o :: (inside ++ [c])) := by
  obtain ⟨within, hw⟩ := hin
  exact ⟨_, .group ho hc hw .nil⟩

-- ============================================ the scanner finds the cut

/-- The open group with a row of tokens added. -/
def OpenGroup.pushAll (g : OpenGroup) (ts : List Token) : OpenGroup :=
  { g with inside := ts.reverse ++ g.inside }

/-- Outside all groups a token that is no bracket is a piece. -/
theorem piecesFrom_none_plain {t : Token} (ht : t.lexeme.isBracket = false)
    (ts : List Token) :
    piecesFrom none (t :: ts) = .token t :: piecesFrom none ts := by
  obtain ⟨l, p⟩ := t
  cases l <;> first | rfl | cases ht

/-- Inside a group a token that is no bracket is passed over. -/
theorem piecesFrom_some_plain {t : Token} (ht : t.lexeme.isBracket = false)
    (g : OpenGroup) (ts : List Token) :
    piecesFrom (some g) (t :: ts) = piecesFrom (some (g.push t)) ts := by
  obtain ⟨l, p⟩ := t
  cases l <;> first | rfl | cases ht

/-- Inside a group an opening bracket goes onto the stack. -/
theorem piecesFrom_some_opening {o : Token} {b : Bracket}
    (ho : o.lexeme = .opening b) (g : OpenGroup) (ts : List Token) :
    piecesFrom (some g) (o :: ts)
      = piecesFrom (some { g.push o with nested := b :: g.nested }) ts := by
  obtain ⟨l, p⟩ := o
  cases ho
  rfl

/-- A closing one must match the top of the stack; it takes it off, or
closes the group. -/
theorem piecesFrom_some_closing {c : Token} {b : Bracket}
    (hc : c.lexeme = .closing b) (g : OpenGroup) (ts : List Token) :
    piecesFrom (some g) (c :: ts)
      = if b ≠ g.innermost then
          [.broken (.mismatchedBracket b.closing c.position)]
        else
          match g.nested with
          | [] => .group g.bracket g.inside.reverse :: piecesFrom none ts
          | _ :: nested =>
              piecesFrom (some { g.push c with nested := nested }) ts := by
  obtain ⟨l, p⟩ := c
  cases hc
  rfl

/-- A row that nests leaves the stack of open brackets alone. -/
theorem piecesFrom_append {xs : List Token} {ps : List Piece}
    (hx : Cut xs ps) :
    ∀ (g : OpenGroup) (ys : List Token),
      piecesFrom (some g) (xs ++ ys)
        = piecesFrom (some (g.pushAll xs)) ys := by
  induction hx with
  | nil => intro g ys; rfl
  | token ht _ ih =>
      intro g ys
      rw [List.cons_append, piecesFrom_some_plain ht, ih]
      simp [OpenGroup.pushAll, OpenGroup.push]
  | group ho hc _ _ ihIn ih =>
      intro g ys
      rw [List.cons_append, List.append_assoc, List.cons_append,
        piecesFrom_some_opening ho, ihIn, piecesFrom_some_closing hc,
        if_neg (by simp [OpenGroup.pushAll, OpenGroup.innermost])]
      simp only [OpenGroup.pushAll, OpenGroup.push]
      rw [ih]
      simp [OpenGroup.pushAll]

/-- An outermost group is one piece. -/
theorem pieces_group {o c : Token} {b : Bracket} {inside : List Token}
    (ho : o.lexeme = .opening b) (hc : c.lexeme = .closing b)
    (hin : Nests inside) (ts : List Token) :
    pieces (o :: (inside ++ c :: ts)) = .group b inside :: pieces ts := by
  obtain ⟨within, hw⟩ := hin
  have hopen : pieces (o :: (inside ++ c :: ts))
      = piecesFrom (some { bracket := b }) (inside ++ c :: ts) := by
    obtain ⟨l, p⟩ := o
    cases ho
    rfl
  rw [hopen, piecesFrom_append hw, piecesFrom_some_closing hc,
    if_neg (by simp [OpenGroup.pushAll, OpenGroup.innermost])]
  simp [OpenGroup.pushAll, pieces]

/-- A token that is no bracket is a piece. -/
theorem pieces_plain {t : Token} (ht : t.lexeme.isBracket = false)
    (ts : List Token) : pieces (t :: ts) = .token t :: pieces ts :=
  piecesFrom_none_plain ht ts

/-- The scanner finds the pieces a row consists of. -/
theorem pieces_eq_of_cut {ts : List Token} {ps : List Piece}
    (h : Cut ts ps) : pieces ts = ps := by
  induction h with
  | nil => rfl
  | token ht _ ih => rw [pieces_plain ht, ih]
  | group ho hc hin _ _ ih => rw [pieces_group ho hc ⟨_, hin⟩, ih]

-- ============================== a scan that does not break off nests

/-- No piece is broken. -/
def IsWhole (ps : List Piece) : Prop := ∀ e, Piece.broken e ∉ ps

/-- The row closes these brackets one after another, with rows that nest
before each of them and behind the last. -/
def Closes : List Bracket → List Token → Prop
  | [], ts => Nests ts
  | b :: bs, ts =>
      ∃ xs c ys, ts = xs ++ c :: ys ∧ Nests xs ∧ c.lexeme = .closing b
        ∧ Closes bs ys

/-- A row that nests may stand before the first of them. -/
theorem Closes.prepend {bs : List Bracket} {xs ys : List Token}
    (hx : Nests xs) (hy : Closes bs ys) : Closes bs (xs ++ ys) := by
  cases bs with
  | nil => exact hx.append hy
  | cons b bs =>
      obtain ⟨ys', c, zs, rfl, hys, hc, hzs⟩ := hy
      exact ⟨xs ++ ys', c, zs, (List.append_assoc ..).symm,
        hx.append hys, hc, hzs⟩

/-- A token that is no bracket nests. -/
theorem Nests.singleton {t : Token} (ht : t.lexeme.isBracket = false) :
    Nests [t] := ⟨_, .token ht .nil⟩

/-- A lexeme is an opening bracket, a closing one, or none. -/
theorem Lexeme.bracket_cases (l : Lexeme) :
    (∃ b, l = .opening b) ∨ (∃ b, l = .closing b) ∨ l.isBracket = false := by
  cases l with
  | opening b => exact .inl ⟨b, rfl⟩
  | closing b => exact .inr (.inl ⟨b, rfl⟩)
  | _ => exact .inr (.inr rfl)

/-- Inside an open group either the row closes the nested brackets and
then the group, or the scan breaks off there. -/
theorem closes_or_breaks :
    ∀ (ts : List Token) (g : OpenGroup),
      (∃ xs c ys, ts = xs ++ c :: ys ∧ Closes g.nested xs
        ∧ c.lexeme = .closing g.bracket)
      ∨ ∃ e, e.isBracketError = true
          ∧ piecesFrom (some g) ts = [.broken e] := by
  intro ts
  induction ts with
  | nil => exact fun g => .inr ⟨_, rfl, rfl⟩
  | cons t ts ih =>
      intro g
      rcases Lexeme.bracket_cases t.lexeme with ⟨b, ht⟩ | ⟨b, ht⟩ | ht
      · rw [piecesFrom_some_opening ht]
        refine (ih _).imp_left ?_
        rintro ⟨xs, c, ys, rfl, ⟨us, c', vs, rfl, hus, hc', hvs⟩, hc⟩
        refine ⟨(t :: (us ++ [c'])) ++ vs, c, ys, by simp, ?_, hc⟩
        exact hvs.prepend (.group ht hc' hus)
      · rw [piecesFrom_some_closing ht]
        -- a closing bracket that matches closes the group if nothing is
        -- nested, and else the innermost of those that are
        by_cases hb : b = g.innermost
        · rw [if_neg (fun hne => hne hb)]
          subst hb
          obtain ⟨bracket, nested, inside⟩ := g
          cases nested with
          | nil => exact .inl ⟨[], t, ts, rfl, ⟨_, .nil⟩, ht⟩
          | cons b' nested =>
              refine (ih _).imp_left ?_
              rintro ⟨xs, c, ys, rfl, hxs, hc⟩
              exact ⟨t :: xs, c, ys, rfl,
                ⟨[], t, xs, rfl, ⟨_, .nil⟩, ht, hxs⟩, hc⟩
        · rw [if_pos hb]
          exact .inr ⟨_, rfl, rfl⟩
      · rw [piecesFrom_some_plain ht]
        refine (ih _).imp_left ?_
        rintro ⟨xs, c, ys, rfl, hxs, hc⟩
        exact ⟨t :: xs, c, ys, rfl,
          Closes.prepend (.singleton ht : Nests [t]) hxs, hc⟩

/-- The row nests up to a place, where it has these pieces, and from there
on its brackets do not match. -/
structure Breaks (ts : List Token) (ps : List Piece) (e : ParseError) :
    Prop where
  pieces_eq : pieces ts = ps ++ [.broken e]
  isBracketError : e.isBracketError = true
  nests_before : ∃ xs ys, ts = xs ++ ys ∧ Cut xs ps

/-- A row may break off at its first token. -/
theorem Breaks.at_start {t : Token} {ts : List Token} {e : ParseError}
    (h : pieces (t :: ts) = [.broken e]) (he : e.isBracketError = true) :
    Breaks (t :: ts) [] e :=
  ⟨h, he, [], t :: ts, rfl, .nil⟩

/-- With a piece before it a row still breaks off where it did. -/
theorem Breaks.cons {xs ts : List Token} {p : Piece} {ps : List Piece}
    {e : ParseError} (h : Breaks ts ps e) (hp : Cut xs [p])
    (hpieces : pieces (xs ++ ts) = p :: pieces ts) :
    Breaks (xs ++ ts) (p :: ps) e := by
  obtain ⟨hps, he, ys, zs, rfl, hys⟩ := h
  refine ⟨by rw [hpieces, hps]; rfl, he, xs ++ ys, zs, ?_, hp.append hys⟩
  rw [List.append_assoc]

/-- A row consists of the pieces found, or breaks off behind them. -/
theorem cut_or_breaks (ts : List Token) :
    Cut ts (pieces ts) ∨ ∃ ps e, Breaks ts ps e := by
  -- the rest behind a group is not a tail of the row, so the induction
  -- is on a bound of the length
  suffices ∀ (n : Nat) (ts : List Token), ts.length ≤ n →
      Cut ts (pieces ts) ∨ ∃ ps e, Breaks ts ps e from
    this _ ts (Nat.le_refl _)
  intro n
  induction n with
  | zero =>
      intro ts hn
      rw [List.length_eq_zero_iff.mp (Nat.le_zero.mp hn)]
      exact .inl .nil
  | succ n ih =>
      intro ts hn
      cases ts with
      | nil => exact .inl .nil
      | cons t ts =>
          simp only [List.length_cons] at hn
          -- an opening bracket starts a group or breaks off, a closing
          -- one has no partner, anything else is a piece
          rcases Lexeme.bracket_cases t.lexeme with ⟨b, ht⟩ | ⟨b, ht⟩ | ht
          · rcases closes_or_breaks ts { bracket := b } with
              ⟨xs, c, ys, rfl, hxs, hc⟩ | ⟨e, he, hbroken⟩
            · have hnest : Nests xs := hxs
              have hpieces := pieces_group ht hc hnest ys
              obtain ⟨within, hw⟩ := hnest
              simp only [List.length_append, List.length_cons] at hn
              rcases ih ys (by omega) with hys | ⟨ps, e, hys⟩
              · exact .inl (hpieces ▸ .group ht hc hw hys)
              · have hgroup : t :: (xs ++ c :: ys)
                    = (t :: (xs ++ [c])) ++ ys := by simp
                rw [hgroup] at hpieces ⊢
                exact .inr ⟨_, e, hys.cons (.group ht hc hw .nil) hpieces⟩
            · refine .inr ⟨[], e, .at_start ?_ he⟩
              rw [← hbroken]
              obtain ⟨l, p⟩ := t
              cases ht
              rfl
          · obtain ⟨l, p⟩ := t
            cases ht
            exact .inr ⟨[], _, .at_start rfl rfl⟩
          · have hpieces := pieces_plain ht ts
            rcases ih ts (by omega) with hts | ⟨ps, e, hts⟩
            · exact .inl (hpieces ▸ .token ht hts)
            · have hone : Cut [t] [.token t] := .token ht .nil
              exact .inr ⟨_, e, hts.cons hone hpieces⟩

/-- A row without broken pieces consists of the pieces found. -/
theorem cut_pieces {ts : List Token} (h : IsWhole (pieces ts)) :
    Cut ts (pieces ts) := by
  rcases cut_or_breaks ts with hcut | ⟨ps, e, hbreaks⟩
  · exact hcut
  · refine absurd ?_ (h e)
    rw [hbreaks.pieces_eq]
    simp

/-- The inside of a group is shorter than the row around it. -/
theorem length_lt_of_group_mem_pieces {ts : List Token} {b : Bracket}
    {inside : List Token} (h : Piece.group b inside ∈ pieces ts) :
    inside.length < ts.length := by
  have hfrom : ∀ (g? : Option OpenGroup) (ts : List Token),
      Piece.group b inside ∈ piecesFrom g? ts →
      inside.length + 2
        ≤ ts.length + (g?.elim 0 fun g => g.inside.length + 1) := by
    intro g? ts
    fun_induction piecesFrom g? ts <;>
      simp_all [OpenGroup.push] <;> grind
  have := hfrom none ts h
  simp only [Option.elim_none] at this
  omega

-- ========================================================== separators

/-- The row nests, and its separators all stand inside groups. -/
def IsFree (sep : Lexeme → Bool) (ts : List Token) : Prop :=
  ∃ ps, Cut ts ps ∧ ∀ t, Piece.token t ∈ ps → sep t.lexeme = false

/-- The parts of a row between the separators outside its groups. -/
inductive Parts (sep : Lexeme → Bool) : List Token → List (List Token) → Prop
  | last {xs : List Token} : IsFree sep xs → Parts sep xs [xs]
  | cons {xs ys : List Token} {s : Token} {parts : List (List Token)} :
      IsFree sep xs → sep s.lexeme = true → Parts sep ys parts →
      Parts sep (xs ++ s :: ys) (xs :: parts)

variable {sep : Lexeme → Bool}

/-- Such a row nests. -/
theorem IsFree.nests {ts : List Token} (h : IsFree sep ts) : Nests ts := by
  obtain ⟨ps, hps, -⟩ := h
  exact ⟨ps, hps⟩

/-- The empty row is one. -/
theorem IsFree.nil : IsFree sep [] := ⟨_, .nil, by simp⟩

/-- So is a token that is neither a bracket nor a separator. -/
theorem IsFree.singleton {t : Token} (ht : t.lexeme.isBracket = false)
    (hs : sep t.lexeme = false) : IsFree sep [t] :=
  ⟨_, .token ht .nil, by simp [hs]⟩

theorem IsFree.group {o c : Token} {b : Bracket} {inside : List Token}
    (ho : o.lexeme = .opening b) (hc : c.lexeme = .closing b)
    (hin : Nests inside) : IsFree sep (o :: (inside ++ [c])) := by
  obtain ⟨within, hw⟩ := hin
  exact ⟨_, .group ho hc hw .nil, by simp⟩

theorem IsFree.append {xs ys : List Token} (hx : IsFree sep xs)
    (hy : IsFree sep ys) : IsFree sep (xs ++ ys) := by
  obtain ⟨ps, hps, hxs⟩ := hx
  obtain ⟨qs, hqs, hys⟩ := hy
  refine ⟨ps ++ qs, hps.append hqs, fun t ht => ?_⟩
  rcases List.mem_append.mp ht with ht | ht
  · exact hxs t ht
  · exact hys t ht

/-- The parts with a row put before the first of them. -/
def beforeFirst (xs : List Token) (parts : List (List Token)) :
    List (List Token) :=
  parts.modifyHead (xs ++ ·)

/-- Nothing before the first part changes nothing. -/
@[simp] theorem beforeFirst_nil (parts : List (List Token)) :
    beforeFirst [] parts = parts := by
  cases parts <;> rfl

/-- Rows put before the first part one by one are put there together. -/
@[simp] theorem beforeFirst_beforeFirst (xs ys : List Token)
    (parts : List (List Token)) :
    beforeFirst xs (beforeFirst ys parts) = beforeFirst (xs ++ ys) parts := by
  cases parts with
  | nil => rfl
  | cons part parts => simp [beforeFirst]

/-- A row that holds no separator may stand before the first part. -/
theorem Parts.prepend {xs ys : List Token} {parts : List (List Token)}
    (hx : IsFree sep xs) (hy : Parts sep ys parts) :
    Parts sep (xs ++ ys) (beforeFirst xs parts) := by
  cases hy with
  | last hy => exact .last (hx.append hy)
  | cons hy hs hrest =>
      rw [← List.append_assoc]
      exact .cons (hx.append hy) hs hrest

/-- Splitting leaves at least one part. -/
@[simp] theorem splitFrom_ne_nil (depth : Nat) (ts : List Token) :
    splitFrom sep depth ts ≠ [] := by
  cases ts with
  | nil => simp [splitFrom]
  | cons t ts =>
      rw [splitFrom]
      split
      · simp
      · split <;> simp

/-- A token that separates nothing belongs to the first part. -/
theorem splitFrom_cons {depth : Nat} {t : Token}
    (h : depth ≠ 0 ∨ sep t.lexeme = false) (ts : List Token) :
    splitFrom sep depth (t :: ts)
      = beforeFirst [t]
          (splitFrom sep (depthAfter depth t.lexeme) ts) := by
  rw [splitFrom, if_neg (by grind)]
  split
  · next hnil => exact absurd hnil (splitFrom_ne_nil _ _)
  · next hcons => rw [hcons]; rfl

/-- Only brackets change how deep the row is. -/
theorem depthAfter_plain {l : Lexeme} (hl : l.isBracket = false)
    (depth : Nat) : depthAfter depth l = depth := by
  cases l <;> first | rfl | cases hl

/-- Inside a group a row that nests belongs to the first part. -/
theorem splitFrom_inside {xs : List Token} {ps : List Piece}
    (hx : Cut xs ps) :
    ∀ (depth : Nat) (ys : List Token),
      splitFrom sep (depth + 1) (xs ++ ys)
        = beforeFirst xs (splitFrom sep (depth + 1) ys) := by
  induction hx with
  | nil =>
      intro depth ys
      rw [beforeFirst_nil]
      rfl
  | token ht _ ih =>
      intro depth ys
      rw [List.cons_append, splitFrom_cons (.inl (Nat.succ_ne_zero _)),
        depthAfter_plain ht, ih, beforeFirst_beforeFirst]
      rfl
  | group ho hc _ _ ihIn ih =>
      intro depth ys
      rw [List.cons_append, List.append_assoc, List.cons_append,
        splitFrom_cons (.inl (Nat.succ_ne_zero _)), ho]
      show beforeFirst _ (splitFrom sep (depth + 1 + 1) _) = _
      rw [ihIn, splitFrom_cons (.inl (Nat.succ_ne_zero _)), hc]
      show beforeFirst _ (beforeFirst _ (beforeFirst _
        (splitFrom sep (depth + 1) _))) = _
      rw [ih]
      simp [beforeFirst_beforeFirst]

/-- A row that holds no separator belongs to the first part. -/
theorem splitFrom_free {xs : List Token} {ps : List Piece}
    (hx : Cut xs ps) (hs : ∀ t, Piece.token t ∈ ps → sep t.lexeme = false)
    (hsep : ∀ l : Lexeme, l.isBracket = true → sep l = false)
    (ys : List Token) :
    splitFrom sep 0 (xs ++ ys)
      = beforeFirst xs (splitFrom sep 0 ys) := by
  induction hx with
  | nil =>
      rw [beforeFirst_nil]
      rfl
  | token ht _ ih =>
      rw [List.cons_append, splitFrom_cons (.inr (hs _ (by simp))),
        depthAfter_plain ht, ih fun t h => hs t (List.mem_cons_of_mem _ h),
        beforeFirst_beforeFirst]
      rfl
  | @group o c b inside ts within ps ho hc hin _ _ ih =>
      have hso : sep o.lexeme = false := hsep _ (by rw [ho]; rfl)
      rw [List.cons_append, List.append_assoc, List.cons_append,
        splitFrom_cons (.inr hso), ho]
      show beforeFirst _ (splitFrom sep (0 + 1) _) = _
      rw [splitFrom_inside hin,
        splitFrom_cons (.inl (Nat.succ_ne_zero _)), hc]
      show beforeFirst _ (beforeFirst _ (beforeFirst _
        (splitFrom sep 0 _))) = _
      rw [ih fun t h => hs t (List.mem_cons_of_mem _ h)]
      simp [beforeFirst_beforeFirst]

/-- Splitting finds the parts of a row. -/
theorem splitFrom_eq_of_parts {ts : List Token} {parts : List (List Token)}
    (hsep : ∀ l : Lexeme, l.isBracket = true → sep l = false)
    (h : Parts sep ts parts) : splitFrom sep 0 ts = parts := by
  induction h with
  | @last xs hx =>
      obtain ⟨ps, hps, hs⟩ := hx
      have := splitFrom_free hps hs hsep []
      simpa [splitFrom, beforeFirst] using this
  | @cons xs ys s parts hx hs _ ih =>
      obtain ⟨ps, hps, hfree⟩ := hx
      rw [splitFrom_free hps hfree hsep, splitFrom, if_pos (by simp [hs]), ih]
      simp [beforeFirst]

/-- What splitting finds in a row that nests are its parts. -/
theorem parts_splitFrom {ts : List Token}
    (hsep : ∀ l : Lexeme, l.isBracket = true → sep l = false)
    (h : Nests ts) : Parts sep ts (splitFrom sep 0 ts) := by
  obtain ⟨ps, hps⟩ := h
  induction hps with
  | nil => exact .last .nil
  | @token t ts ps ht _ ih =>
      by_cases hs : sep t.lexeme = true
      · rw [splitFrom, if_pos (by simp [hs])]
        exact Parts.cons (.nil : IsFree sep []) hs ih
      · have hs' : sep t.lexeme = false := by simpa using hs
        rw [splitFrom_cons (.inr hs'), depthAfter_plain ht]
        exact ih.prepend (.singleton ht hs' : IsFree sep [t])
  | @group o c b inside ts within ps ho hc hin _ _ ih =>
      have hg : IsFree sep (o :: (inside ++ [c])) := .group ho hc ⟨_, hin⟩
      obtain ⟨qs, hqs, hfree⟩ := hg
      have heq : o :: (inside ++ c :: ts) = (o :: (inside ++ [c])) ++ ts := by
        simp
      rw [heq, splitFrom_free hqs hfree hsep]
      exact ih.prepend ⟨qs, hqs, hfree⟩

/-- A part is no longer than the row. -/
theorem length_le_of_mem_splitFrom :
    ∀ (ts : List Token) (depth : Nat),
      ∀ part ∈ splitFrom sep depth ts, part.length ≤ ts.length := by
  intro ts
  induction ts with
  | nil => intro depth part h; simp_all [splitFrom]
  | cons t ts ih =>
      intro depth part h
      rw [splitFrom] at h
      split at h
      · rcases List.mem_cons.mp h with rfl | h
        · simp
        · exact Nat.le_succ_of_le (ih _ part h)
      · split at h
        · next hnil => exact absurd hnil (splitFrom_ne_nil _ _)
        · next first rest hsplit =>
          have hmem : ∀ x ∈ first :: rest, x.length ≤ ts.length :=
            fun x hx => ih _ x (hsplit ▸ hx)
          rcases List.mem_cons.mp h with rfl | h
          · exact Nat.succ_le_succ (hmem first (List.mem_cons_self ..))
          · exact Nat.le_succ_of_le (hmem part (List.mem_cons_of_mem _ h))

end Tree

end Metrology
