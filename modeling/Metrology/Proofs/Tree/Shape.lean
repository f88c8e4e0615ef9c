/-
The shapes of parsed trees. `Formed` has one constructor for each kind of
node with the children it may have; the empty tree is not formed, and
stands only where a list of statements, arguments, cells or indices has
an entry with nothing in it. A list with such a gap has two entries at
least, since a list without content has none at all.

Every tree the parser finds is formed. On a level this is an invariant of
the complete items: atoms have it, and each merge of each pass keeps it.
Items that still wait are never put into a tree, so no keyword, no bare
operator and no `else` can end up there.
-/
import Metrology.Proofs.Tree.Grammar

namespace Metrology.Tree

-- ========================================================= formed trees

/-- The operators with one operand. -/
def unaryOperators : List Operator := .certain :: signOperators

/-- The nodes that hold a list of any length, gaps included. -/
def HoldsList : Node → Prop
  | .call _ | .block | .index (some _) => True
  | _ => False

/-- The tree can be the other branch of a conditional. -/
def IsBranch (t : Tree) : Prop :=
  (∃ cs, t = .mk .block cs) ∨ ∃ cs, t = .mk (.operator .ifThen) cs

/-- Every node of the tree is complete and has the children it needs. -/
inductive Formed : Tree → Prop
  | number {text decorator : String} {value : Float} :
      Numeral.read? text = some value →
      Formed (leaf (.number value decorator))
  | name {name : String} : Formed (leaf (.variable name))
  | template {text : String} : Formed (leaf (.template text))
  | list {n : Node} {ts : List Tree} :
      HoldsList n → (∀ t ∈ ts, t ≠ empty → Formed t) →
      (empty ∈ ts → 2 ≤ ts.length) → Formed (.mk n ts)
  | hollow : Formed (leaf (.matrix 0 0))
  | matrix {width height : Nat} {cells : List Tree} :
      0 < width → 0 < height → cells.length = width * height →
      (∀ t ∈ cells, t ≠ empty → Formed t) →
      (empty ∈ cells → 2 ≤ cells.length) →
      Formed (.mk (.matrix width height) cells)
  | indexed {width height : Nat} {cells indices : List Tree} :
      Formed (.mk (.matrix width height) cells) →
      (∀ t ∈ indices, t ≠ empty → Formed t) →
      (empty ∈ indices → 2 ≤ indices.length) →
      Formed (.mk (.index none) (.mk (.matrix width height) cells :: indices))
  | unit {text : String} {scale : Scale} {t : Tree} :
      Formed t → Formed (.mk (.unitBlock text scale) [t])
  | unary {op : Operator} {t : Tree} :
      op ∈ unaryOperators → Formed t → Formed (.mk (.operator op) [t])
  | binary {op : Operator} {l r : Tree} :
      op ∈ precedence.flatten → Formed l → Formed r →
      Formed (.mk (.operator op) [l, r])
  | assign {name : String} {t : Tree} :
      Formed t → Formed (.mk (.operator .assign) [leaf (.variable name), t])
  | oneBranch {condition : Tree} {body : List Tree} :
      Formed condition → Formed (.mk .block body) →
      Formed (.mk (.operator .ifThen) [condition, .mk .block body])
  | twoBranches {condition other : Tree} {body : List Tree} :
      Formed condition → Formed (.mk .block body) → Formed other →
      IsBranch other →
      Formed (.mk (.operator .ifThen) [condition, .mk .block body, other])
  | whileLoop {condition : Tree} {body : List Tree} :
      Formed condition → Formed (.mk .block body) →
      Formed (.mk (.operator .whileLoop) [condition, .mk .block body])
  | forLoop {name : String} {cells : Tree} {body : List Tree} :
      Formed cells → Formed (.mk .block body) →
      Formed (.mk (.operator .forLoop)
        [leaf (.variable name), cells, .mk .block body])

/-- The empty tree is not formed. -/
theorem Formed.ne_empty {t : Tree} (h : Formed t) : t ≠ empty := by
  rintro rfl
  cases h
  contradiction

/-- A variable has no children. -/
theorem Formed.eq_leaf {name : String} {cs : List Tree}
    (h : Formed (.mk (.variable name) cs)) : cs = [] := by
  cases h with
  | name => rfl
  | list hn => cases hn

/-- A conditional that may take another branch has a condition and a
block. -/
theorem Formed.of_oneBranch {a b : Tree}
    (h : Formed (.mk (.operator .ifThen) [a, b])) :
    Formed a ∧ Formed b ∧ ∃ body, b = .mk .block body := by
  cases h with
  | list hn => cases hn
  | binary hop => exact absurd hop (by decide)
  | oneBranch ha hb => exact ⟨ha, hb, _, rfl⟩

-- ==================================================== lists and matrices

/-- A single part is the whole row. -/
theorem Parts.eq_of_singleton {sep : Lexeme → Bool} {ts part : List Token}
    (h : Parts sep ts [part]) : part = ts := by
  generalize hl : [part] = parts at h
  cases h with
  | last _ => cases hl; rfl
  | cons _ _ h =>
      cases hl
      exact absurd rfl h.ne_nil

/-- Parts are no longer than the row. -/
theorem Parts.length_le {sep : Lexeme → Bool} {ts : List Token}
    {parts : List (List Token)} (h : Parts sep ts parts) :
    ∀ part ∈ parts, part.length ≤ ts.length := by
  induction h with
  | last _ => intro part hp; cases List.mem_singleton.mp hp; exact Nat.le_refl _
  | cons _ _ _ ih =>
      intro part hp
      rw [List.length_append, List.length_cons]
      rcases List.mem_cons.mp hp with rfl | hp
      · omega
      · have := ih part hp
        omega

/-- Rows up to this length are read as formed trees, the empty row
apart. -/
def FormedUpTo (n : Nat) : Prop :=
  ∀ ts t, ts.length ≤ n → ts ≠ [] → parse ts = .ok t → Formed t

variable {n : Nat} {inside : List Token}

/-- Parts that are not empty are read as formed trees. -/
theorem ReadAll.formed {parts : List (List Token)} {ts : List Tree}
    (h : ReadAll parts ts) (hn : FormedUpTo n)
    (hlen : ∀ part ∈ parts, part.length ≤ n) :
    ∀ t ∈ ts, t ≠ empty → Formed t := by
  induction h with
  | nil => intro t ht; cases ht
  | @cons part u parts ts hu _ ih =>
      intro t ht hne
      rcases List.mem_cons.mp ht with rfl | ht
      · refine hn part t (hlen part (List.mem_cons_self ..)) ?_ hu
        rintro rfl
        cases hu
        exact hne rfl
      · exact ih (fun part hp => hlen part (List.mem_cons_of_mem _ hp)) t ht hne

/-- The trees of a list: a gap is not the only one. -/
theorem Contents.formed {sep : Lexeme → Bool} {ts : List Tree}
    (h : Contents sep inside ts) (hn : FormedUpTo n)
    (hlen : inside.length ≤ n) :
    (∀ t ∈ ts, t ≠ empty → Formed t) ∧ (empty ∈ ts → 2 ≤ ts.length) := by
  cases h with
  | none => exact ⟨by simp, by simp⟩
  | @some _ parts _ hne hparts hread =>
      have hle : ∀ part ∈ parts, part.length ≤ n := fun part hp =>
        Nat.le_trans (hparts.length_le part hp) hlen
      refine ⟨hread.formed hn hle, fun hmem => ?_⟩
      match hread with
      | .nil => cases hmem
      | .cons _ (.cons _ _) => simp
      -- a single part is the whole inside, and that is not empty
      | .cons (a := part) (b := t) ht .nil =>
          cases hparts.eq_of_singleton
          cases List.mem_singleton.mp hmem
          exact absurd rfl (hn _ _ hlen hne ht).ne_empty

/-- A row has as many cells as the matrix is wide. -/
theorem RowCells.length_eq {width : Nat} {row : List Token}
    {cells : List Tree} (h : RowCells width row cells) :
    cells.length = width := by
  obtain ⟨parts, -, hlen, hread⟩ := h
  rw [← hlen, hread.length_eq]

/-- All rows together have the width times their number. -/
theorem length_flatten_rows {width : Nat} {rows : List (List Token)}
    {cells : List (List Tree)} (h : List.Forall₂ (RowCells width) rows cells) :
    cells.flatten.length = width * rows.length := by
  induction h with
  | nil => rfl
  | cons hrow _ ih =>
      rw [List.flatten_cons, List.length_append, ih, hrow.length_eq,
        List.length_cons, Nat.mul_succ, Nat.add_comm]

/-- The cells of all rows are formed or gaps. -/
theorem rows_formed {width : Nat} {rows : List (List Token)}
    {cells : List (List Tree)} (h : List.Forall₂ (RowCells width) rows cells)
    (hn : FormedUpTo n) (hlen : ∀ row ∈ rows, row.length ≤ n) :
    ∀ t ∈ cells.flatten, t ≠ empty → Formed t := by
  induction h with
  | nil => intro t ht; cases ht
  | @cons row _ _ _ hrow _ ih =>
      intro t ht
      rw [List.flatten_cons] at ht
      rcases List.mem_append.mp ht with ht | ht
      · obtain ⟨parts, hparts, -, hread⟩ := hrow
        refine hread.formed hn (fun part hp => ?_) t ht
        exact Nat.le_trans (hparts.length_le part hp)
          (hlen row (List.mem_cons_self ..))
      · exact ih (fun row hr => hlen row (List.mem_cons_of_mem _ hr)) t ht

/-- A matrix with a gap is not a single cell. -/
theorem two_le_of_gap {width : Nat} {rows : List (List Token)}
    {cells : List (List Tree)} (hwidth : 0 < width) (hne : inside ≠ [])
    (hrows : Parts isSemicolon inside rows)
    (h : List.Forall₂ (RowCells width) rows cells) (hn : FormedUpTo n)
    (hlen : inside.length ≤ n) (hgap : empty ∈ cells.flatten) :
    2 ≤ cells.flatten.length := by
  match h with
  | .nil => cases hgap
  | .cons ⟨parts, hparts, _, hread⟩ .nil =>
      -- the only row is the whole inside, read like a list
      cases hrows.eq_of_singleton
      rw [List.flatten_cons, List.flatten_nil, List.append_nil] at hgap ⊢
      exact ((Contents.some hne hparts hread).formed hn hlen).2 hgap
  | .cons hrow (.cons hrow' hrest) =>
      rw [length_flatten_rows (.cons hrow (.cons hrow' hrest))]
      show 1 * 2 ≤ _
      exact Nat.mul_le_mul hwidth (by simp)

/-- A matrix is formed, its cells counted. -/
theorem Literal.formed {t : Tree} (h : Literal inside t)
    (hn : FormedUpTo n) (hlen : inside.length ≤ n) : Formed t := by
  cases h with
  | none => exact .hollow
  | @some _ width rows cells hne hrows hcells =>
      have hle : ∀ row ∈ rows, row.length ≤ n := fun row hr =>
        Nat.le_trans (hrows.length_le row hr) hlen
      have hwidth : 0 < width := by
        match hcells with
        | .nil => exact absurd rfl hrows.ne_nil
        | .cons ⟨parts, hparts, heq, _⟩ _ =>
            rw [← heq]
            exact List.length_pos_iff.mpr hparts.ne_nil
      exact .matrix hwidth (List.length_pos_iff.mpr hrows.ne_nil)
        (length_flatten_rows hcells) (rows_formed hcells hn hle)
        (two_le_of_gap hwidth hne hrows hcells hn hlen)

-- ================================================================ atoms

/-- Brackets add two tokens. -/
@[simp] theorem length_enclosed (b : Bracket) (p q : Nat)
    (inside : List Token) :
    (enclosed b p inside q).length = inside.length + 2 := by
  rw [enclosed, List.length_cons, List.length_append]
  rfl

/-- Atoms are formed if what stands in their brackets is. -/
theorem Atom.formed {xs : List Token} {a : Tree} (h : Atom xs a)
    (hn : FormedUpTo n) (hlen : xs.length ≤ n + 1) : Formed a := by
  cases h with
  | number h => exact .number h
  | template => exact .template
  | name => exact .name
  | call h | index h =>
      rw [List.length_cons, length_enclosed] at hlen
      obtain ⟨hts, hgap⟩ := h.formed hn (by omega)
      exact .list trivial hts hgap
  | matrix h =>
      rw [length_enclosed] at hlen
      exact h.formed hn (by omega)
  | indexed h h' =>
      rw [List.length_append, length_enclosed, length_enclosed] at hlen
      obtain ⟨hts, hgap⟩ := h'.formed hn (by omega)
      have hformed := h.formed hn (by omega)
      cases h with
      | none => exact .indexed hformed hts hgap
      | some => exact .indexed hformed hts hgap
  | group hne h =>
      rw [length_enclosed] at hlen
      exact hn _ _ (by omega) hne h
  | block h =>
      rw [length_enclosed] at hlen
      obtain ⟨hts, hgap⟩ := h.formed hn (by omega)
      exact .list trivial hts hgap

/-- The complete items of a row are formed. -/
theorem Written.formed {ts : List Token} {level : Level}
    (h : Written ts level) (hn : FormedUpTo n) :
    ts.length ≤ n + 1 → ∀ u, .done u ∈ level → Formed u := by
  induction h with
  | nil => intro _ u hu; cases hu
  | atom ha _ ih =>
      intro hlen u hu
      rw [List.length_append] at hlen
      rcases List.mem_cons.mp hu with hu | hu
      · cases hu
        exact ha.formed hn (by omega)
      · exact ih (by omega) u hu
  | waiting _ _ ih =>
      intro hlen u hu
      rw [List.length_cons] at hlen
      rcases List.mem_cons.mp hu with hu | hu
      · cases hu
      · exact ih (by omega) u hu
  | hollow _ ih =>
      intro hlen u hu
      rw [List.length_append] at hlen
      rcases List.mem_cons.mp hu with hu | hu
      · cases hu
      · exact ih (by omega) u hu

-- =============================================================== passes

/-- The complete items of a level are formed. -/
def FormedLevel (level : Level) : Prop := ∀ u, .done u ∈ level → Formed u

variable {level out : Level}

/-- A query or a unit around a formed tree is formed. -/
theorem Trailed.formed {wanted : Item → Bool}
    (hwrap : ∀ i t, wanted i = true → Formed t → Formed (.mk i.node [t]))
    {stretch : Level} {u : Tree} (h : Trailed wanted stretch u)
    (hs : FormedLevel stretch) : Formed u := by
  obtain ⟨t, is, -, his, rfl, rfl⟩ := h
  have ht : Formed t := hs t (List.mem_cons_self ..)
  clear hs
  induction is generalizing t with
  | nil => exact ht
  | cons i is ih =>
      exact ih _ (fun j hj => his j (List.mem_cons_of_mem _ hj))
        (hwrap i t (his i (List.mem_cons_self ..)) ht)

/-- A binary operator between formed trees is formed. -/
theorem Joined.formed {ops : List Operator}
    (hops : ∀ op ∈ ops, op ∈ precedence.flatten) {stretch : Level}
    {u : Tree} (h : Joined ops stretch u) (hs : FormedLevel stretch) :
    Formed u := by
  obtain ⟨t, links, -, hlinks, rfl, rfl⟩ := h
  have ht : Formed t := hs t (List.mem_cons_self ..)
  have hr : ∀ x ∈ links, Formed x.2 := fun x hx =>
    hs x.2 (List.mem_cons_of_mem _
      (List.mem_flatMap.mpr ⟨x, hx, by simp⟩))
  clear hs
  induction links generalizing t with
  | nil => exact ht
  | cons x links ih =>
      exact ih _ (fun y hy => hlinks y (List.mem_cons_of_mem _ hy))
        (.binary (hops _ (hlinks x (List.mem_cons_self ..))) ht
          (hr x (List.mem_cons_self ..)))
        (fun y hy => hr y (List.mem_cons_of_mem _ hy))

/-- What chained conditionals become is formed and a conditional. -/
theorem Branched.formed {stretch : Level} {u : Tree}
    (h : Branched stretch u) : FormedLevel stretch → Formed u ∧ IsBranch u := by
  induction h with
  | last hother =>
      intro hs
      obtain ⟨hc, hb, body, rfl⟩ :=
        (hs _ (List.mem_cons_self ..)).of_oneBranch
      refine ⟨.twoBranches hc hb (hs _ (by simp)) ?_, .inr ⟨_, rfl⟩⟩
      rcases hother with h | h
      · obtain ⟨cs, hcs⟩ := Item.isIf_iff.mp h
        cases hcs
        exact .inr ⟨cs, rfl⟩
      · obtain ⟨cs, hcs⟩ := Item.isBlock_iff.mp h
        cases hcs
        exact .inl ⟨cs, rfl⟩
  | chain _ ih =>
      intro hs
      obtain ⟨hc, hb, body, rfl⟩ :=
        (hs _ (List.mem_cons_self ..)).of_oneBranch
      obtain ⟨hother, hbranch⟩ := ih fun u hu =>
        hs u (List.mem_cons_of_mem _ (List.mem_cons_of_mem _ hu))
      exact ⟨.twoBranches hc hb hother hbranch, .inr ⟨_, rfl⟩⟩

/-- A loop over a formed tree is formed. -/
theorem Looped.formed {stretch : Level} {u : Tree}
    (h : Looped stretch u) (hs : FormedLevel stretch) : Formed u := by
  obtain ⟨name, cs, cells, body, rfl, rfl⟩ := h
  cases (hs (.mk (.variable name) cs) (by simp)).eq_leaf
  exact .forLoop (hs _ (by simp)) (hs _ (by simp))

/-- A tier of binary operators. -/
theorem formed_foldlM : ∀ (order : List (List Operator)) {level out : Level},
    (∀ ops ∈ order, ∀ op ∈ ops, op ∈ precedence.flatten) →
    order.foldlM (fun level ops => attachBinary ops level) level = .ok out →
    FormedLevel level → FormedLevel out := by
  intro order
  induction order with
  | nil => intro level out _ h hl; cases h; exact hl
  | cons ops order ih =>
      intro level out hops h hl
      rw [List.foldlM_cons] at h
      obtain ⟨mid, hmid, h⟩ := bind_eq_ok.mp h
      refine ih (fun o ho => hops o (List.mem_cons_of_mem _ ho)) h ?_
      exact (gathers_of_attachBinary hmid).forall_done
        (fun _ _ hm hs => hm.formed (hops ops (List.mem_cons_self ..)) hs) hl

/-- The passes make formed trees of formed trees. -/
theorem formed_of_reduce {t : Tree} (hl : FormedLevel level)
    (h : reduce level = .ok t) : Formed t := by
  unfold reduce at h
  obtain ⟨signed, hsigned, h⟩ := bind_eq_ok.mp h
  obtain ⟨queried, hqueried, h⟩ := bind_eq_ok.mp h
  obtain ⟨measured, hmeasured, h⟩ := bind_eq_ok.mp h
  obtain ⟨joined, hjoined, h⟩ := bind_eq_ok.mp h
  obtain ⟨branched, hbranched, h⟩ := bind_eq_ok.mp h
  obtain ⟨assigned, hassigned, h⟩ := bind_eq_ok.mp h
  -- the invariant is handed from pass to pass
  have h₁ : FormedLevel signed :=
    (leads_of_attachLeading _ _ hsigned).forall_done
      (fun op hop t ht => .unary (List.mem_cons_of_mem _ hop) ht) hl
  have h₂ : FormedLevel queried :=
    (gathers_of_attachTrailing hqueried).forall_done (fun _ _ hm => hm.formed
      fun i t hi ht => by
        obtain ⟨op, hop, rfl⟩ := Item.isWaiting_iff.mp hi
        cases List.mem_singleton.mp hop
        exact .unary (List.mem_cons_self ..) ht) h₁
  have h₃ : FormedLevel measured :=
    (gathers_of_attachTrailing hmeasured).forall_done (fun _ _ hm => hm.formed
      fun i t hi ht => by
        obtain ⟨text, scale, rfl⟩ := Item.isUnitBlock_iff.mp hi
        exact .unit ht) h₂
  have h₄ : FormedLevel joined := formed_foldlM tiers (by decide) hjoined h₃
  have h₅ : FormedLevel (attachConditional .ifThen joined) :=
    (gathers_attachConditional .ifThen joined).forall_done (by
      rintro _ _ ⟨condition, body, rfl, rfl⟩ hs
      exact .oneBranch (hs _ (by simp)) (hs _ (by simp))) h₄
  have h₆ : FormedLevel branched :=
    (gathers_of_attachElse _ hbranched).forall_done
      (fun _ _ hm hs => (hm.formed hs).1) h₅
  have h₇ : FormedLevel (attachConditional .whileLoop branched) :=
    (gathers_attachConditional .whileLoop branched).forall_done (by
      rintro _ _ ⟨condition, body, rfl, rfl⟩ hs
      exact .whileLoop (hs _ (by simp)) (hs _ (by simp))) h₆
  have h₈ : FormedLevel (attachFor (attachConditional .whileLoop branched)) :=
    (gathers_attachFor _).forall_done (fun _ _ hm hs => hm.formed hs) h₇
  have h₉ : FormedLevel assigned :=
    (gathers_of_attachAssignment hassigned).forall_done (by
      rintro _ _ ⟨name, value, rfl, rfl⟩ hs
      exact .assign (hs _ (by simp))) h₈
  rw [single_eq_ok h] at h₉
  exact h₉ t (List.mem_cons_self ..)

-- ================================================================= rows

/-- Rows of any length are read as formed trees, the empty row apart. -/
theorem formedUpTo : ∀ (n : Nat), FormedUpTo n := by
  intro n
  induction n with
  | zero =>
      intro ts t hlen hne
      exact absurd (List.length_eq_zero_iff.mp (Nat.le_zero.mp hlen)) hne
  | succ n ih =>
      intro ts t hlen hne h
      match ts with
      | [] => exact absurd rfl hne
      | x :: xs =>
          rw [parse_cons] at h
          obtain ⟨level, hlevel, hreduce⟩ := bind_eq_ok.mp h
          have hreads := reads_of_items_eq_ok hlevel
          have hwritten := written_of_reads hreads (cut_pieces hreads.isWhole)
          exact formed_of_reduce (hwritten.formed ih hlen) hreduce

/-- What the parser finds is the empty tree or formed. -/
theorem eq_empty_or_formed {ts : List Token} {t : Tree}
    (h : parse ts = .ok t) : t = empty ∨ Formed t := by
  cases ts with
  | nil => cases h; exact .inl rfl
  | cons x xs =>
      exact .inr (formedUpTo _ _ t (Nat.le_refl _) (List.cons_ne_nil x xs) h)

/-- Whatever row of tokens the parser accepts, each node of the tree is
complete and has the children its kind calls for. -/
theorem formed_of_parse (ts : List Token) (t : Tree) (hne : ts ≠ [])
    (h : parse ts = .ok t) : Formed t :=
  formedUpTo ts.length ts t (Nat.le_refl _) hne h

/-- The tokens of `if x { ; f(, y) }`. -/
def gapRow : List Token :=
  [⟨.operator .ifThen, 0⟩, ⟨.name "x", 3⟩, ⟨.opening .brace, 5⟩,
    ⟨.semicolon, 7⟩, ⟨.name "f", 9⟩, ⟨.opening .paren, 10⟩, ⟨.comma, 11⟩,
    ⟨.name "y", 13⟩, ⟨.closing .paren, 14⟩, ⟨.closing .brace, 16⟩]

/-- An empty statement and a missing argument leave gaps. -/
theorem formed_of_parse_gapRow :
    Formed (.mk (.operator .ifThen)
      [leaf (.variable "x"),
       .mk .block [empty, .mk (.call "f") [empty, leaf (.variable "y")]]]) :=
  formed_of_parse gapRow _ (List.cons_ne_nil _ _) rfl

end Metrology.Tree
