/-
Parsing keeps every word, once and in its place. The words of a row are
its numbers, names, strings, units and operators; brackets, separators,
`in` and `else` only say how they belong together. A tree has words too:
those of its children from left to right, with the node's own among them
where it was written. Binary operators stand between their operands,
queries and units behind theirs, and all others before. The words of a
tree are the words of the row it was parsed from (`words_of_parse`).

A pass of the parser merges stretches of a level, so it keeps the words
of the level if each merge keeps those of its stretch; that is one fact
per merge. Groups are shorter than the row around them, so their words
are known when the row is read.
-/
import Metrology.Proofs.Tree.Shape

namespace Metrology

/-- What a token says and a tree keeps. Of a number it is the value that
its text spells, if it spells one. -/
inductive Word where
  | number (value? : Option Float) (decorator : String)
  | name (text : String)
  | operator (op : Operator)
  | unitBlock (text : String) (scale : Scale)
  | template (text : String)

/-- The word of a lexeme; brackets, separators, keywords and `else` are
none. -/
def Lexeme.word? : Lexeme → Option Word
  | .number text decorator =>
      some (.number (Numeral.read? text) decorator)
  | .name text => some (.name text)
  | .operator op => if op = .otherwise then none else some (.operator op)
  | .unitBlock text scale => some (.unitBlock text scale)
  | .template text => some (.template text)
  | .opening _ | .closing _ | .comma | .semicolon | .keyword _ => none

/-- The words of a row of tokens. -/
def Token.words (ts : List Token) : List Word :=
  ts.filterMap fun t => t.lexeme.word?

/-- An operator among the words of its operands: a query behind its
operand, a binary operator between two, any other before them. -/
def Operator.among (op : Operator) : List (List Word) → List Word
  | [operand] =>
      if op = .certain then operand ++ [.operator op]
      else .operator op :: operand
  | [left, right] =>
      if op = .ifThen ∨ op = .whileLoop then .operator op :: (left ++ right)
      else left ++ .operator op :: right
  | operands => .operator op :: operands.flatten

/-- A node's own word, if it has one, among the words of its children. -/
def Node.among : Node → List (List Word) → List Word
  | .number value decorator, ws => .number (some value) decorator :: ws.flatten
  | .variable name, ws => .name name :: ws.flatten
  | .call function, ws => .name function :: ws.flatten
  | .index (some name), ws => .name name :: ws.flatten
  | .template text, ws => .template text :: ws.flatten
  | .unitBlock text scale, ws => ws.flatten ++ [.unitBlock text scale]
  | .operator op, ws => op.among ws
  | .index none, ws | .empty, ws | .keyword _, ws | .block, ws
  | .matrix _ _, ws => ws.flatten

namespace Tree

mutual

/-- The words of a tree in the order in which they were written. -/
def words : Tree → List Word
  | .mk n children => n.among (wordsOfAll children)

/-- The words of each tree of a list. -/
def wordsOfAll : List Tree → List (List Word)
  | [] => []
  | t :: ts => words t :: wordsOfAll ts

end

/-- The words of two lists in a row. -/
@[simp] theorem wordsOfAll_append (ts us : List Tree) :
    wordsOfAll (ts ++ us) = wordsOfAll ts ++ wordsOfAll us := by
  induction ts with
  | nil => rfl
  | cons t ts ih => rw [List.cons_append, wordsOfAll, wordsOfAll, ih]; rfl

-- =============================================================== levels

/-- The words of an item. -/
def Item.words : Item → List Word
  | .done t => t.words
  | .waiting (.operator op) =>
      if op = .otherwise then [] else [.operator op]
  | .waiting n => n.among []

/-- The words of a level. -/
def levelWords (level : Level) : List Word := level.flatMap Item.words

variable {level out : Level}

/-- An empty level has no words. -/
@[simp] theorem levelWords_nil : levelWords [] = [] := rfl

/-- Item by item. -/
@[simp] theorem levelWords_cons (i : Item) (level : Level) :
    levelWords (i :: level) = i.words ++ levelWords level := rfl

/-- The words of two levels in a row. -/
@[simp] theorem levelWords_append (level out : Level) :
    levelWords (level ++ out) = levelWords level ++ levelWords out :=
  List.flatMap_append

/-- An operator that still waits is a word, unless it is `else`. -/
theorem words_operator {op : Operator} (h : op ≠ .otherwise) :
    (Item.waiting (.operator op)).words = [.operator op] := if_neg h

/-- A pass keeps the words of a level if each of its merges keeps those of
its stretch. -/
theorem Gathers.levelWords {merge : Level → Tree → Prop}
    (hmerge : ∀ stretch t, merge stretch t →
      t.words = Tree.levelWords stretch)
    (h : Gathers merge level out) :
    Tree.levelWords out = Tree.levelWords level := by
  induction h with
  | nil => rfl
  | keep _ ih => rw [levelWords_cons, levelWords_cons, ih]
  | merge hm _ ih =>
      rw [levelWords_cons, levelWords_append, ih, ← hmerge _ _ hm]
      rfl

/-- A sign goes before the words of the operand behind it. -/
theorem Leads.levelWords {left : Option Item} (h : Leads left level out) :
    Tree.levelWords out = Tree.levelWords level := by
  induction h with
  | nil => rfl
  | last => rfl
  | keep _ _ ih => rw [levelWords_cons, ih, levelWords_cons]
  -- the operand that takes the sign is the first item of what the pass
  -- returned for the rest
  | @sign left op t level out hop _ ih =>
      obtain ⟨op', hmem, heq⟩ := isLeading_cases hop
      cases heq
      have hsign : ∀ op ∈ Operator.lnot :: leadingSigns,
          op ≠ .certain ∧ op ≠ .otherwise := by decide
      have hwords : (Tree.mk (.operator op) [t]).words
          = .operator op :: t.words := if_neg (hsign op hmem).1
      calc (Tree.mk (.operator op) [t]).words ++ Tree.levelWords out
          = [.operator op] ++ Tree.levelWords (.done t :: out) := by
            rw [hwords]
            rfl
        _ = Tree.levelWords (.waiting (.operator op) :: level) := by
            rw [ih, levelWords_cons, words_operator (hsign op hmem).2]

-- =============================================================== merges

/-- What trails an operand goes behind its words. -/
theorem Trailed.words {wanted : Item → Bool}
    (hwrap : ∀ i t, wanted i = true →
      (Tree.mk i.node [t]).words = t.words ++ i.words)
    {stretch : Level} {u : Tree} (h : Trailed wanted stretch u) :
    u.words = levelWords stretch := by
  obtain ⟨t, is, -, his, rfl, rfl⟩ := h
  rw [levelWords_cons]
  show _ = t.words ++ levelWords is
  -- each turn wraps the operand once more
  induction is generalizing t with
  | nil => exact (List.append_nil _).symm
  | cons i is ih =>
      have hrest := ih (.mk i.node [t])
        fun j hj => his j (List.mem_cons_of_mem _ hj)
      rw [levelWords_cons, ← List.append_assoc,
        ← hwrap i t (his i (List.mem_cons_self ..))]
      exact hrest

/-- Binary operators go between the words of their operands. -/
theorem Joined.words {ops : List Operator}
    (hops : ∀ op ∈ ops, op ≠ .ifThen ∧ op ≠ .whileLoop ∧ op ≠ .otherwise)
    {stretch : Level} {u : Tree} (h : Joined ops stretch u) :
    u.words = levelWords stretch := by
  obtain ⟨t, links, -, hlinks, rfl, rfl⟩ := h
  rw [levelWords_cons]
  show _ = t.words ++ levelWords (linkItems links)
  induction links generalizing t with
  | nil => exact (List.append_nil _).symm
  | cons x links ih =>
      obtain ⟨hif, hwhile, helse⟩ := hops x.1 (hlinks x (List.mem_cons_self ..))
      have hpair : (Tree.mk (.operator x.1) [t, x.2]).words
          = t.words ++ .operator x.1 :: x.2.words :=
        if_neg fun h => h.elim hif hwhile
      have hrest := ih (.mk (.operator x.1) [t, x.2])
        fun y hy => hlinks y (List.mem_cons_of_mem _ hy)
      have hlink : levelWords (linkItems (x :: links))
          = .operator x.1 :: (x.2.words ++ levelWords (linkItems links)) := by
        show levelWords (.waiting (.operator x.1) :: .done x.2
          :: linkItems links) = _
        rw [levelWords_cons, words_operator helse]
        rfl
      rw [hlink]
      refine hrest.trans ?_
      rw [hpair, List.append_assoc, List.cons_append]

/-- `if` and `while` go before those of the condition and the block. -/
theorem Guarded.words {op : Operator} (hop : op = .ifThen ∨ op = .whileLoop)
    {stretch : Level} {u : Tree} (h : Guarded op stretch u) :
    u.words = levelWords stretch := by
  obtain ⟨condition, body, rfl, rfl⟩ := h
  have helse : op ≠ .otherwise := by rcases hop with rfl | rfl <;> decide
  have hpair : (Tree.mk (.operator op) [condition, .mk .block body]).words
      = .operator op :: (condition.words ++ (Tree.mk .block body).words) :=
    if_pos hop
  rw [hpair, levelWords_cons, words_operator helse, levelWords_cons,
    levelWords_cons, levelWords_nil, List.append_nil]
  rfl

/-- The words of a second branch are the last. -/
theorem words_twoBranches (condition branch other : Tree) :
    (Tree.mk (.operator .ifThen) [condition, branch, other]).words
      = (Tree.mk (.operator .ifThen) [condition, branch]).words
        ++ other.words := by
  simp [words, wordsOfAll, Node.among, Operator.among]

/-- `else` is no word, so a branch only adds its own. -/
theorem Branched.words {stretch : Level} {u : Tree}
    (h : Branched stretch u) : u.words = levelWords stretch := by
  induction h with
  | last _ =>
      rw [words_twoBranches]
      exact congrArg _ (List.append_nil _).symm
  | chain _ ih =>
      rw [words_twoBranches, ih]
      rfl

/-- `for` goes before the words of its index, its list and its block, and
`in` is none. -/
theorem Looped.words {stretch : Level} {u : Tree} (h : Looped stretch u) :
    u.words = levelWords stretch := by
  obtain ⟨name, cs, cells, body, rfl, rfl⟩ := h
  rfl

/-- The equals sign goes between the name and the value. -/
theorem Assigned.words {stretch : Level} {u : Tree}
    (h : Assigned stretch u) : u.words = levelWords stretch := by
  obtain ⟨name, value, rfl, rfl⟩ := h
  simp [Item.words, Tree.words, wordsOfAll, Node.among, Operator.among, leaf]

/-- Tier by tier. -/
theorem levelWords_foldlM : ∀ (order : List (List Operator))
    {level out : Level},
    (∀ ops ∈ order, ∀ op ∈ ops,
      op ≠ .ifThen ∧ op ≠ .whileLoop ∧ op ≠ .otherwise) →
    order.foldlM (fun level ops => attachBinary ops level) level = .ok out →
    levelWords out = levelWords level := by
  intro order
  induction order with
  | nil => intro level out _ h; cases h; rfl
  | cons ops order ih =>
      intro level out hops h
      rw [List.foldlM_cons] at h
      obtain ⟨mid, hmid, h⟩ := bind_eq_ok.mp h
      rw [ih (fun o ho => hops o (List.mem_cons_of_mem _ ho)) h]
      exact (gathers_of_attachBinary hmid).levelWords
        fun _ _ hm => hm.words (hops ops (List.mem_cons_self ..))

/-- The tree of a level has the words of the level. -/
theorem words_of_reduce {t : Tree} (h : reduce level = .ok t) :
    t.words = levelWords level := by
  unfold reduce at h
  obtain ⟨signed, hsigned, h⟩ := bind_eq_ok.mp h
  obtain ⟨queried, hqueried, h⟩ := bind_eq_ok.mp h
  obtain ⟨measured, hmeasured, h⟩ := bind_eq_ok.mp h
  obtain ⟨joined, hjoined, h⟩ := bind_eq_ok.mp h
  obtain ⟨branched, hbranched, h⟩ := bind_eq_ok.mp h
  obtain ⟨assigned, hassigned, h⟩ := bind_eq_ok.mp h
  -- one equation for each pass, in the order of the passes
  have h₁ : levelWords signed = levelWords level :=
    (leads_of_attachLeading _ _ hsigned).levelWords
  have h₂ : levelWords queried = levelWords signed :=
    (gathers_of_attachTrailing hqueried).levelWords fun _ _ hm => hm.words
      fun i t hi => by
        obtain ⟨op, hop, rfl⟩ := Item.isWaiting_iff.mp hi
        cases List.mem_singleton.mp hop
        rfl
  have h₃ : levelWords measured = levelWords queried :=
    (gathers_of_attachTrailing hmeasured).levelWords fun _ _ hm => hm.words
      fun i t hi => by
        obtain ⟨text, scale, rfl⟩ := Item.isUnitBlock_iff.mp hi
        simp [words, wordsOfAll, Node.among, Item.words, Item.node]
  have h₄ : levelWords joined = levelWords measured :=
    levelWords_foldlM tiers (by decide) hjoined
  have h₅ : levelWords (attachConditional .ifThen joined)
      = levelWords joined :=
    (gathers_attachConditional .ifThen joined).levelWords
      fun _ _ hm => hm.words (.inl rfl)
  have h₆ : levelWords branched
      = levelWords (attachConditional .ifThen joined) :=
    (gathers_of_attachElse _ hbranched).levelWords fun _ _ hm => hm.words
  have h₇ : levelWords (attachConditional .whileLoop branched)
      = levelWords branched :=
    (gathers_attachConditional .whileLoop branched).levelWords
      fun _ _ hm => hm.words (.inr rfl)
  have h₈ : levelWords (attachFor (attachConditional .whileLoop branched))
      = levelWords (attachConditional .whileLoop branched) :=
    (gathers_attachFor _).levelWords fun _ _ hm => hm.words
  have h₉ : levelWords assigned
      = levelWords (attachFor (attachConditional .whileLoop branched)) :=
    (gathers_of_attachAssignment hassigned).levelWords fun _ _ hm => hm.words
  calc t.words
      = levelWords assigned := by
        rw [single_eq_ok h]
        exact (List.append_nil _).symm
    _ = levelWords branched := by rw [h₉, h₈, h₇]
    _ = levelWords measured := by rw [h₆, h₅, h₄]
    _ = levelWords level := by rw [h₃, h₂, h₁]

-- =============================================================== groups

/-- The words of two rows in a row. -/
@[simp] theorem words_append (xs ys : List Token) :
    Token.words (xs ++ ys) = Token.words xs ++ Token.words ys :=
  List.filterMap_append

/-- Brackets are no words. -/
@[simp] theorem words_enclosed (b : Bracket) (p q : Nat)
    (inside : List Token) :
    Token.words (enclosed b p inside q) = Token.words inside := by
  show Token.words (inside ++ [⟨.closing b, q⟩]) = _
  rw [words_append]
  exact List.append_nil _

/-- The words of a row are those of its parts, as separators are none. -/
theorem Parts.words {sep : Lexeme → Bool}
    (hsep : ∀ l, sep l = true → Lexeme.word? l = Option.none) {ts : List Token}
    {parts : List (List Token)} (h : Parts sep ts parts) :
    (parts.map Token.words).flatten = Token.words ts := by
  induction h with
  | last _ => exact List.append_nil _
  | @cons xs ys s parts _ hs _ ih =>
      have hskip : Token.words (s :: ys) = Token.words ys :=
        List.filterMap_cons_none (hsep _ hs)
      rw [List.map_cons, List.flatten_cons, ih, words_append, hskip]

/-- A comma is no word. -/
theorem word?_of_isComma (l : Lexeme) (h : isComma l = true) :
    l.word? = none := by
  cases l <;> first | rfl | cases h

theorem word?_of_isSemicolon (l : Lexeme) (h : isSemicolon l = true) :
    l.word? = none := by
  cases l <;> first | rfl | cases h

/-- Rows up to this length have the words of their trees. -/
def KeepsUpTo (n : Nat) : Prop :=
  ∀ ts t, ts.length ≤ n → parse ts = .ok t → t.words = Token.words ts

variable {n : Nat} {inside : List Token}

/-- The words of parts that are read one by one. -/
theorem ReadAll.words {parts : List (List Token)} {ts : List Tree}
    (h : ReadAll parts ts) (hn : KeepsUpTo n)
    (hlen : ∀ part ∈ parts, part.length ≤ n) :
    wordsOfAll ts = parts.map Token.words := by
  induction h with
  | nil => rfl
  | @cons part t parts ts ht _ ih =>
      rw [wordsOfAll, List.map_cons,
        hn part t (hlen part (List.mem_cons_self ..)) ht,
        ih fun p hp => hlen p (List.mem_cons_of_mem _ hp)]

/-- The words of a group are those of its trees. -/
theorem Contents.words {sep : Lexeme → Bool}
    (hsep : ∀ l, sep l = true → Lexeme.word? l = Option.none) {ts : List Tree}
    (h : Contents sep inside ts) (hn : KeepsUpTo n)
    (hlen : inside.length ≤ n) :
    (wordsOfAll ts).flatten = Token.words inside := by
  cases h with
  | none => rfl
  | some _ hparts hread =>
      rw [hread.words hn fun part hp =>
        Nat.le_trans (hparts.length_le part hp) hlen]
      exact hparts.words hsep

theorem RowCells.words {width : Nat} {row : List Token} {cells : List Tree}
    (h : RowCells width row cells) (hn : KeepsUpTo n)
    (hlen : row.length ≤ n) :
    (wordsOfAll cells).flatten = Token.words row := by
  obtain ⟨parts, hparts, -, hread⟩ := h
  rw [hread.words hn fun part hp =>
    Nat.le_trans (hparts.length_le part hp) hlen]
  exact hparts.words word?_of_isComma

theorem rows_words {width : Nat} {rows : List (List Token)}
    {cells : List (List Tree)}
    (h : List.Forall₂ (RowCells width) rows cells) (hn : KeepsUpTo n)
    (hlen : ∀ row ∈ rows, row.length ≤ n) :
    (wordsOfAll cells.flatten).flatten = (rows.map Token.words).flatten := by
  induction h with
  | nil => rfl
  | @cons row _ _ _ hrow _ ih =>
      rw [List.flatten_cons, wordsOfAll_append, List.flatten_append,
        hrow.words hn (hlen row (List.mem_cons_self ..)),
        ih fun r hr => hlen r (List.mem_cons_of_mem _ hr)]
      rfl

theorem Literal.words {t : Tree} (h : Literal inside t) (hn : KeepsUpTo n)
    (hlen : inside.length ≤ n) : t.words = Token.words inside := by
  cases h with
  | none => rfl
  | some _ hrows hcells =>
      refine (rows_words hcells hn fun row hr =>
        Nat.le_trans (hrows.length_le row hr) hlen).trans ?_
      exact hrows.words word?_of_isSemicolon

-- ================================================================ rows

/-- The words of an atom, whose groups are shorter than it is. -/
theorem Atom.words {xs : List Token} {a : Tree} (h : Atom xs a)
    (hn : KeepsUpTo n) (hlen : xs.length ≤ n + 1) :
    a.words = Token.words xs := by
  cases h with
  | number h =>
      show [Word.number (some _) _] = [Word.number (Numeral.read? _) _]
      rw [h]
  | template => rfl
  | name => rfl
  | call h | index h =>
      rw [List.length_cons, length_enclosed] at hlen
      refine (congrArg (Word.name _ :: ·)
        (h.words word?_of_isComma hn (by omega))).trans ?_
      exact congrArg (Word.name _ :: ·) (words_enclosed ..).symm
  | matrix h =>
      rw [length_enclosed] at hlen
      rw [words_enclosed, h.words hn (by omega)]
  | indexed h h' =>
      rw [List.length_append, length_enclosed, length_enclosed] at hlen
      rw [words_append, words_enclosed, words_enclosed,
        ← h.words hn (by omega), ← h'.words word?_of_isComma hn (by omega)]
      rfl
  | group _ h =>
      rw [length_enclosed] at hlen
      rw [words_enclosed, hn _ _ (by omega) h]
  | block h =>
      rw [length_enclosed] at hlen
      rw [words_enclosed, ← h.words word?_of_isSemicolon hn (by omega)]
      rfl

/-- A token that waits is the item's word. -/
theorem words_of_waiting {t : Token} {node : Node}
    (h : ofToken t = .ok (.waiting node)) :
    (Item.waiting node).words = Token.words [t] := by
  obtain ⟨l, p⟩ := t
  cases l with
  | operator op =>
      cases h
      by_cases hop : op = .otherwise
      · subst hop
        rfl
      · have hword : (Lexeme.operator op).word? = some (.operator op) :=
          if_neg hop
        rw [words_operator hop]
        simp [Token.words, hword]
  | keyword word => cases h; rfl
  | unitBlock text scale => cases h; rfl
  | number text decorator => exact absurd h ofToken_number_ne
  | _ => cases h

/-- The words of a row are those of its items. -/
theorem Written.words {ts : List Token} {level : Level}
    (h : Written ts level) (hn : KeepsUpTo n) :
    ts.length ≤ n + 1 → levelWords level = Token.words ts := by
  induction h with
  | nil => intro _; rfl
  | atom ha _ ih =>
      intro hlen
      rw [List.length_append] at hlen
      rw [levelWords_cons, words_append, ih (by omega),
        ← ha.words hn (by omega)]
      rfl
  | @waiting t _ ts _ ht _ ih =>
      intro hlen
      rw [List.length_cons] at hlen
      rw [levelWords_cons, ih (by omega), words_of_waiting ht]
      exact (words_append [t] ts).symm
  | hollow _ ih =>
      intro hlen
      rw [List.length_append] at hlen
      rw [levelWords_cons, words_append, words_enclosed, ih (by omega)]
      rfl

/-- By induction on the length: reading uses only shorter rows, and reducing
loses nothing. -/
theorem keepsUpTo : ∀ (n : Nat), KeepsUpTo n := by
  intro n
  induction n with
  | zero =>
      intro ts t hlen h
      rw [List.length_eq_zero_iff.mp (Nat.le_zero.mp hlen)] at h ⊢
      cases h
      rfl
  | succ n ih =>
      intro ts t hlen h
      cases ts with
      | nil => cases h; rfl
      | cons x xs =>
          rw [parse_cons] at h
          obtain ⟨level, hlevel, hreduce⟩ := bind_eq_ok.mp h
          have hreads := reads_of_items_eq_ok hlevel
          have hwritten := written_of_reads hreads (cut_pieces hreads.isWhole)
          rw [words_of_reduce hreduce]
          exact hwritten.words ih hlen

/-- The tree of a row has the words of the row, none lost, none twice and
all in their order. -/
theorem words_of_parse (ts : List Token) (t : Tree)
    (h : parse ts = .ok t) : t.words = Token.words ts :=
  keepsUpTo ts.length ts t (Nat.le_refl _) h

/-- The metre as a scale. -/
def metre : Scale := { dimension := { length := 1 } }

/-- The tokens of `for i in [1.50kg] { if a - -b? { c = i|m| } else
{ f("s", m[i]) } }`. -/
def loopRow : List Token :=
  [⟨.operator .forLoop, 0⟩, ⟨.name "i", 4⟩, ⟨.keyword "in", 6⟩,
    ⟨.opening .square, 9⟩, ⟨.number "1.50" "kg", 10⟩, ⟨.closing .square, 16⟩,
    ⟨.opening .brace, 18⟩, ⟨.operator .ifThen, 20⟩, ⟨.name "a", 23⟩,
    ⟨.operator .minus, 25⟩, ⟨.operator .minus, 27⟩, ⟨.name "b", 28⟩,
    ⟨.operator .certain, 29⟩, ⟨.opening .brace, 31⟩, ⟨.name "c", 33⟩,
    ⟨.operator .assign, 35⟩, ⟨.name "i", 37⟩, ⟨.unitBlock "m" metre, 38⟩,
    ⟨.closing .brace, 42⟩, ⟨.operator .otherwise, 44⟩, ⟨.opening .brace, 49⟩,
    ⟨.name "f", 51⟩, ⟨.opening .paren, 52⟩, ⟨.template "s", 53⟩, ⟨.comma, 56⟩,
    ⟨.name "m", 58⟩, ⟨.opening .square, 59⟩, ⟨.name "i", 60⟩,
    ⟨.closing .square, 61⟩, ⟨.closing .paren, 62⟩, ⟨.closing .brace, 64⟩,
    ⟨.closing .brace, 66⟩]

/-- The tree of that row. -/
def loopTree : Tree :=
  .mk (.operator .forLoop)
    [leaf (.variable "i"),
      .mk (.matrix 1 1) [leaf (.number (Numeral.ofDecimal 150 (-2)) "kg")],
      .mk .block
        [.mk (.operator .ifThen)
          [.mk (.operator .minus)
              [leaf (.variable "a"),
                .mk (.operator .certain)
                  [.mk (.operator .minus) [leaf (.variable "b")]]],
            .mk .block
              [.mk (.operator .assign)
                [leaf (.variable "c"),
                  .mk (.unitBlock "m" metre) [leaf (.variable "i")]]],
            .mk .block
              [.mk (.call "f")
                [leaf (.template "s"),
                  .mk (.index (some "m")) [leaf (.variable "i")]]]]]]

/-- Signs, queries, units and both branches read as they were written. -/
theorem words_of_parse_loopRow :
    parse loopRow = .ok loopTree ∧ loopTree.words = Token.words loopRow :=
  ⟨rfl, words_of_parse loopRow loopTree rfl⟩

end Tree

end Metrology
