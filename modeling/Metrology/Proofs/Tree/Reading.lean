/-
Reading without a bound. `parse` counts the depth of brackets down from
the number of tokens. Reading a row hands on insides of its groups and
parts of them (`HandsOn`), nothing else (`items_congr`). They are shorter
than the row, so the count never runs out, and `parse` satisfies the
equation that one would write without it: the tree of a row is what its
items reduce to, the insides of its groups read by `parse` itself
(`parse_cons`).

Beside it stand the equations of `items`, one per kind of piece.
-/
import Metrology.Proofs.Sequence
import Metrology.Proofs.Tree.Nesting
import Metrology.Tree.Parse

namespace Metrology.Tree

variable {read read' : Reader}

-- ================================================ the equations of items

/-- The pieces start with a group that makes a name before it a call or
an index. -/
def opensCall : List Piece → Bool
  | .group .paren _ :: _ | .group .square _ :: _ => true
  | _ => false

/-- The pieces start with a group in square brackets. -/
def opensSquare : List Piece → Bool
  | .group .square _ :: _ => true
  | _ => false

/-- A token that is no name, or has no group behind it, stands by
itself. -/
theorem items_token {t : Token} {ps : List Piece}
    (h : name? t = none ∨ opensCall ps = false) :
    items read (.token t :: ps)
      = (do return (← ofToken t) :: (← items read ps)) := by
  cases ps with
  | nil => rfl
  | cons p ps =>
      cases p with
      | token _ => rfl
      | broken _ => rfl
      | group b inside =>
          cases hn : name? t with
          | none => simp only [items, hn]
          | some name =>
              rw [hn] at h
              cases b with
              | brace => simp only [items, hn]
              | paren => simp [opensCall] at h
              | square => simp [opensCall] at h

/-- A name with round brackets behind it is a call. -/
theorem items_call {t : Token} {name : String} (h : name? t = some name)
    (inside : List Token) (ps : List Piece) :
    items read (.token t :: .group .paren inside :: ps)
      = (do
          let arguments ← readArguments read inside
          return .done (.mk (.call name) arguments) :: (← items read ps)) := by
  simp only [items, h]

/-- A name with square brackets behind it is an index. -/
theorem items_index {t : Token} {name : String} (h : name? t = some name)
    (inside : List Token) (ps : List Piece) :
    items read (.token t :: .group .square inside :: ps)
      = (do
          let indices ← readArguments read inside
          return .done (.mk (.index name) indices) :: (← items read ps)) := by
  simp only [items, h]

/-- A matrix that is not indexed. -/
theorem items_square {inside : List Token} {ps : List Piece}
    (h : opensSquare ps = false) :
    items read (.group .square inside :: ps)
      = (do
          let t ← readMatrix read inside
          return .done t :: (← items read ps)) := by
  cases ps with
  | nil => rfl
  | cons p ps =>
      cases p with
      | token _ => rfl
      | broken _ => rfl
      | group b _ =>
          cases b with
          | paren => rfl
          | brace => rfl
          | square => simp [opensSquare] at h

-- ==================================================== successful reading

/-- What the pieces of a row can be read as: everything a successful
reading can do with its first pieces. -/
inductive Reads (read : Reader) : List Piece → Level → Prop
  | nil : Reads read [] []
  | token {t : Token} {i : Item} {ps : List Piece} {level : Level} :
      ofToken t = .ok i → Reads read ps level →
      Reads read (.token t :: ps) (i :: level)
  | call {t : Token} {name : String} {inside : List Token}
      {arguments : List Tree} {ps : List Piece} {level : Level} :
      name? t = some name → readArguments read inside = .ok arguments →
      Reads read ps level →
      Reads read (.token t :: .group .paren inside :: ps)
        (.done (.mk (.call name) arguments) :: level)
  | index {t : Token} {name : String} {inside : List Token}
      {indices : List Tree} {ps : List Piece} {level : Level} :
      name? t = some name → readArguments read inside = .ok indices →
      Reads read ps level →
      Reads read (.token t :: .group .square inside :: ps)
        (.done (.mk (.index (some name)) indices) :: level)
  | paren {inside : List Token} {i : Item} {ps : List Piece}
      {level : Level} :
      readGroup read inside = .ok i → Reads read ps level →
      Reads read (.group .paren inside :: ps) (i :: level)
  | brace {inside : List Token} {t : Tree} {ps : List Piece}
      {level : Level} :
      readBlock read inside = .ok t → Reads read ps level →
      Reads read (.group .brace inside :: ps) (.done t :: level)
  | indexed {inside inside' : List Token} {target : Tree}
      {indices : List Tree} {ps : List Piece} {level : Level} :
      readMatrix read inside = .ok target →
      readArguments read inside' = .ok indices → Reads read ps level →
      Reads read (.group .square inside :: .group .square inside' :: ps)
        (.done (.mk (.index none) (target :: indices)) :: level)
  | square {inside : List Token} {t : Tree} {ps : List Piece}
      {level : Level} :
      readMatrix read inside = .ok t → Reads read ps level →
      Reads read (.group .square inside :: ps) (.done t :: level)

/-- Every successful reading is one of these. -/
theorem reads_of_items_eq_ok {ps : List Piece} :
    ∀ {level : Level}, items read ps = .ok level → Reads read ps level := by
  fun_induction items read ps with
  | case1 => intro level h; cases h; exact .nil
  | case2 => intro level h; cases h
  | case3 t inside rest name hname ih =>
      intro level h
      obtain ⟨_, _, ha, hl, rfl⟩ := bind_cons_eq_ok.mp h
      exact .call hname ha (ih hl)
  | case4 t inside rest name hname ih =>
      intro level h
      obtain ⟨_, _, ha, hl, rfl⟩ := bind_cons_eq_ok.mp h
      exact .index hname ha (ih hl)
  | case5 t b inside rest _ _ ih =>
      intro level h
      obtain ⟨_, _, hi, hl, rfl⟩ := bind_cons_eq_ok.mp h
      exact .token hi (ih hl)
  | case6 t rest _ ih =>
      intro level h
      obtain ⟨_, _, hi, hl, rfl⟩ := bind_cons_eq_ok.mp h
      exact .token hi (ih hl)
  | case7 inside rest ih =>
      intro level h
      obtain ⟨_, _, hi, hl, rfl⟩ := bind_cons_eq_ok.mp h
      exact .paren hi (ih hl)
  | case8 inside rest ih =>
      intro level h
      obtain ⟨_, _, ht, hl, rfl⟩ := bind_cons_eq_ok.mp h
      exact .brace ht (ih hl)
  | case9 inside inside' rest ih =>
      intro level h
      obtain ⟨_, ht, h⟩ := bind_eq_ok.mp h
      obtain ⟨_, _, ha, hl, rfl⟩ := bind_cons_eq_ok.mp h
      exact .indexed ht ha (ih hl)
  | case10 inside rest _ ih =>
      intro level h
      obtain ⟨_, _, ht, hl, rfl⟩ := bind_cons_eq_ok.mp h
      exact .square ht (ih hl)

/-- What can be read has no broken piece. -/
theorem Reads.isWhole {ps : List Piece} {level : Level}
    (h : Reads read ps level) : IsWhole ps := by
  induction h with
  | nil => intro e he; cases he
  | _ => intro e he; simp_all [IsWhole]

-- ======================================================= rows handed on

/-- The rows that reading these pieces hands on, each to be read by
itself: the inside of a group in round brackets, an argument of a call,
an index, a statement of a block, a cell of a matrix. -/
inductive HandsOn (ps : List Piece) : List Token → Prop
  | inside {inside : List Token} :
      Piece.group .paren inside ∈ ps → HandsOn ps inside
  | argument {inside part : List Token} :
      Piece.group .paren inside ∈ ps → part ∈ splitCommas inside →
      HandsOn ps part
  | index {inside part : List Token} :
      Piece.group .square inside ∈ ps → part ∈ splitCommas inside →
      HandsOn ps part
  | statement {inside part : List Token} :
      Piece.group .brace inside ∈ ps → part ∈ splitSemicolons inside →
      HandsOn ps part
  | cell {inside row part : List Token} :
      Piece.group .square inside ∈ ps → row ∈ splitSemicolons inside →
      part ∈ splitCommas row → HandsOn ps part

variable {inside : List Token}

/-- More pieces hand on more rows. -/
theorem HandsOn.mono {ps qs : List Piece} {ts : List Token}
    (h : HandsOn ps ts) (hsub : ∀ p ∈ ps, p ∈ qs) : HandsOn qs ts := by
  cases h with
  | inside hg => exact .inside (hsub _ hg)
  | argument hg hp => exact .argument (hsub _ hg) hp
  | index hg hp => exact .index (hsub _ hg) hp
  | statement hg hp => exact .statement (hsub _ hg) hp
  | cell hg hr hp => exact .cell (hsub _ hg) hr hp

/-- What is handed on is part of a group. -/
theorem HandsOn.exists_group {ps : List Piece} {ts : List Token}
    (h : HandsOn ps ts) :
    ∃ b inside, Piece.group b inside ∈ ps ∧ ts.length ≤ inside.length := by
  cases h with
  | inside hg => exact ⟨_, _, hg, Nat.le_refl _⟩
  | argument hg hp => exact ⟨_, _, hg, length_le_of_mem_splitFrom _ _ _ hp⟩
  | index hg hp => exact ⟨_, _, hg, length_le_of_mem_splitFrom _ _ _ hp⟩
  | statement hg hp => exact ⟨_, _, hg, length_le_of_mem_splitFrom _ _ _ hp⟩
  | cell hg hr hp =>
      exact ⟨_, _, hg, Nat.le_trans (length_le_of_mem_splitFrom _ _ _ hp)
        (length_le_of_mem_splitFrom _ _ _ hr)⟩

/-- A row hands on shorter rows only. -/
theorem HandsOn.length_lt {ts part : List Token}
    (h : HandsOn (pieces ts) part) : part.length < ts.length := by
  obtain ⟨b, inside, hg, hlen⟩ := h.exists_group
  exact Nat.lt_of_le_of_lt hlen (length_lt_of_group_mem_pieces hg)

/-- Arguments depend on the reader only through their parts. -/
theorem readArguments_congr
    (h : ∀ part ∈ splitCommas inside, read part = read' part) :
    readArguments read inside = readArguments read' inside := by
  unfold readArguments
  rw [mapM_congr h]

theorem readBlock_congr
    (h : ∀ part ∈ splitSemicolons inside, read part = read' part) :
    readBlock read inside = readBlock read' inside := by
  unfold readBlock
  rw [mapM_congr h]

/-- A group depends on it only through its inside. -/
theorem readGroup_congr (h : read inside = read' inside) :
    readGroup read inside = readGroup read' inside := by
  unfold readGroup
  rw [h]

/-- A matrix depends on it only through its cells. -/
theorem readMatrix_congr
    (h : ∀ row ∈ splitSemicolons inside, ∀ part ∈ splitCommas row,
      read part = read' part) :
    readMatrix read inside = readMatrix read' inside := by
  -- the width is that of the first row, whatever the reader is
  have hrow : ∀ width, ∀ row ∈ (splitSemicolons inside).map splitCommas,
      readRow read width row = readRow read' width row := by
    intro width row hrow
    obtain ⟨line, hline, rfl⟩ := List.mem_map.mp hrow
    unfold readRow
    rw [mapM_congr (h line hline)]
  unfold readMatrix
  split
  · rfl
  · exact congrArg (· >>= _) (mapM_congr (hrow _))

/-- The items of a row depend on the reader only through the rows handed
on to it. -/
theorem items_congr (ps : List Piece) :
    (∀ ts, HandsOn ps ts → read ts = read' ts) →
    items read ps = items read' ps := by
  fun_induction items read ps with
  | case1 => intro _; rfl
  | case2 => intro _; rfl
  | case3 t inside rest name hname ih =>
      intro h
      rw [items_call hname, readArguments_congr fun part hp =>
          h part (.argument (by simp) hp),
        ih fun ts hts => h ts (hts.mono (by simp_all))]
  | case4 t inside rest name hname ih =>
      intro h
      rw [items_index hname, readArguments_congr fun part hp =>
          h part (.index (by simp) hp),
        ih fun ts hts => h ts (hts.mono (by simp_all))]
  -- a name before braces takes nothing
  | case5 t b inside rest hparen hsquare ih =>
      intro h
      rw [ih fun ts hts => h ts (hts.mono (by simp_all))]
      exact (items_token (by cases hn : name? t <;> cases b <;>
        simp_all [opensCall])).symm
  | case6 t rest hrest ih =>
      intro h
      rw [ih fun ts hts => h ts (hts.mono (by simp_all))]
      refine (items_token (.inr ?_)).symm
      unfold opensCall
      split <;> simp_all
  | case7 inside rest ih =>
      intro h
      rw [items, readGroup_congr (h inside (.inside (by simp))),
        ih fun ts hts => h ts (hts.mono (by simp_all))]
  | case8 inside rest ih =>
      intro h
      rw [items, readBlock_congr fun part hp =>
          h part (.statement (by simp) hp),
        ih fun ts hts => h ts (hts.mono (by simp_all))]
  | case9 inside inside' rest ih =>
      intro h
      rw [items, readMatrix_congr fun row hr part hp =>
          h part (.cell (by simp) hr hp),
        readArguments_congr fun part hp =>
          h part (.index (by simp) hp),
        ih fun ts hts => h ts (hts.mono (by simp_all))]
  | case10 inside rest hrest ih =>
      intro h
      rw [readMatrix_congr fun row hr part hp =>
          h part (.cell (by simp) hr hp),
        ih fun ts hts => h ts (hts.mono (by simp_all))]
      refine (items_square ?_).symm
      unfold opensSquare
      split <;> simp_all

-- ================================================ reading without bound

/-- Any bound that is at least the number of tokens gives the tree. -/
theorem parseWithin_eq_parse (ts : List Token) :
    ∀ (n : Nat), ts.length ≤ n → parseWithin n ts = parse ts := by
  suffices ∀ (m n k : Nat) (ts : List Token), ts.length ≤ m →
      ts.length ≤ n → ts.length ≤ k → parseWithin n ts = parseWithin k ts from
    fun n hn => this ts.length n ts.length ts (Nat.le_refl _) hn (Nat.le_refl _)
  intro m
  induction m with
  | zero =>
      intro n k ts hm _ _
      rw [List.length_eq_zero_iff.mp (Nat.le_zero.mp hm)]
      cases n <;> cases k <;> rfl
  -- the rows handed on are shorter, so both bounds suffice for them too
  | succ m ih =>
      intro n k ts hm hn hk
      match ts, n, k with
      | [], n, k => cases n <;> cases k <;> rfl
      | t :: ts, n + 1, k + 1 =>
          simp only [List.length_cons, Nat.add_le_add_iff_right]
            at hm hn hk
          rw [parseWithin, parseWithin, items_congr]
          intro part hpart
          have hlen := hpart.length_lt
          simp only [List.length_cons] at hlen
          exact ih n k part (by omega) (by omega) (by omega)

/-- The tree of a row is what its items reduce to, the groups read in the
same way. -/
theorem parse_cons (t : Token) (ts : List Token) :
    parse (t :: ts) = items parse (pieces (t :: ts)) >>= reduce := by
  have heq : parse (t :: ts)
      = items (parseWithin ts.length) (pieces (t :: ts)) >>= reduce := rfl
  rw [heq, items_congr]
  intro part hpart
  exact parseWithin_eq_parse part _ (Nat.le_of_lt_succ hpart.length_lt)

end Metrology.Tree
