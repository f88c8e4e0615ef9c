/-
Conditionals with any number of arms. A row

    if c₁ b₁ else if c₂ b₂ … else b

is read as conditionals nested to the right: the branch behind each `else`
is the conditional of the arms that follow, or the last block. The
conditions are expressions that can be read by themselves, and they keep
the trees they have alone.

The passes for operators treat each condition apart from the rest of the
level. They run from left to right and look back no further than one item,
and neither `if`, `else` nor a complete operand makes them attach anything
to what stands before it, so a level may be cut there (`IsLocal`). What they
do to the condition alone they do to it inside the row. Then `if` takes the
condition and the block behind it, and the pass for `else`, which starts at
the end, puts each conditional into the one before it.
-/
import Metrology.Proofs.Tree.Grammar

namespace Metrology.Tree

-- ========================================================= cutting a level

/-- A complete operand, `if` or `else`. -/
def Item.isDivider : Item → Bool
  | .done _ => true
  | i => i.isWaiting [.ifThen, .otherwise]

/-- A level is empty or starts with a divider. -/
def StartsDivided (level : Level) : Prop :=
  ∀ i ∈ level.head?, i.isDivider = true

/-- The pass treats what stands before a divider apart from the rest. -/
structure IsLocal (pass : Level → Except ParseError Level) : Prop where
  nil : pass [] = .ok []
  single : ∀ {i : Item}, i.isDivider = true → pass [i] = .ok [i]
  append : ∀ {i : Item} {level rest out out' : Level}, i.isDivider = true →
    pass level = .ok out → pass (i :: rest) = .ok out' →
    pass (level ++ i :: rest) = .ok (out ++ out')
  head : ∀ {i : Item} {rest out : Level}, i.isDivider = true →
    pass (i :: rest) = .ok out →
    ∃ j out', out = j :: out' ∧ j.isDivider = true

namespace IsLocal

variable {pass next : Level → Except ParseError Level}
  {level rest out out' : Level}

/-- What starts with a divider, or is empty, is treated apart. -/
theorem append_of_startsDivided (h : IsLocal pass)
    (hlevel : pass level = .ok out) (hrest : pass rest = .ok out')
    (hstarts : StartsDivided rest) :
    pass (level ++ rest) = .ok (out ++ out') := by
  cases rest with
  | nil =>
      rw [h.nil] at hrest
      cases hrest
      rw [List.append_nil, List.append_nil, hlevel]
  | cons i rest => exact h.append (hstarts i rfl) hlevel hrest

/-- A divider before it is kept. -/
theorem cons (h : IsLocal pass) {i : Item} (hi : i.isDivider = true)
    (hrest : pass rest = .ok out) (hstarts : StartsDivided rest) :
    pass (i :: rest) = .ok (i :: out) :=
  h.append_of_startsDivided (h.single hi) hrest hstarts

/-- Two such passes in a row are one. -/
theorem bind (h : IsLocal pass) (hnext : IsLocal next) :
    IsLocal fun level => pass level >>= next where
  nil := by
    rw [h.nil]
    exact hnext.nil
  single hi := by
    rw [h.single hi]
    exact hnext.single hi
  append hi hlevel hrest := by
    obtain ⟨out₁, h₁, hout⟩ := bind_eq_ok.mp hlevel
    obtain ⟨out₂, h₂, hout'⟩ := bind_eq_ok.mp hrest
    obtain ⟨j, out₂, rfl, hj⟩ := h.head hi h₂
    rw [h.append hi h₁ h₂]
    exact hnext.append hj hout hout'
  head hi hrest := by
    obtain ⟨out₁, h₁, hout⟩ := bind_eq_ok.mp hrest
    obtain ⟨j, out₁, rfl, hj⟩ := h.head hi h₁
    exact hnext.head hj hout

end IsLocal

/-- What a pass gathers into one tree is a complete operand. -/
theorem Gathers.head_isDivider {merge : Level → Tree → Prop} {i : Item}
    {rest out : Level} (hi : i.isDivider = true)
    (h : Gathers merge (i :: rest) out) :
    ∃ j out', out = j :: out' ∧ j.isDivider = true := by
  rcases h.of_cons with ⟨out', rfl, -⟩ | ⟨-, -, t, out', -, -, rfl, -⟩
  · exact ⟨i, out', rfl, hi⟩
  · exact ⟨.done t, out', rfl, rfl⟩

/-- An item that is not wanted cuts the level in two. -/
theorem attachTrailingTo_append {wanted : Item → Bool} {i : Item}
    {rest out' : Level} (hi : wanted i = false)
    (hrest : attachTrailingTo wanted i rest = .ok out') :
    ∀ (level : Level) (left : Item) {out : Level},
      attachTrailingTo wanted left level = .ok out →
      attachTrailingTo wanted left (level ++ i :: rest)
        = .ok (out ++ out') := by
  intro level
  induction level with
  | nil =>
      intro left out h
      cases h
      rw [List.nil_append, attachTrailingTo, hi, hrest]
      rfl
  | cons j level ih =>
      intro left out h
      rw [attachTrailingTo] at h
      rw [List.cons_append, attachTrailingTo]
      split
      · next hj =>
        rw [if_pos hj] at h
        split
        · next hleft =>
          rw [if_pos hleft] at h
          exact ih _ h
        · next hleft =>
          rw [if_neg hleft] at h
          cases h
      · next hj =>
        rw [if_neg hj] at h
        obtain ⟨out, hout, h⟩ := bind_eq_ok.mp h
        cases h
        rw [ih _ hout]
        rfl

/-- What trails is attached to its left, and a divider does not trail. -/
theorem isLocal_attachTrailing {wanted : Item → Bool}
    (hwanted : ∀ i : Item, i.isDivider = true → wanted i = false) :
    IsLocal (attachTrailing wanted) where
  nil := rfl
  single _ := rfl
  append {i level rest out out'} hi hlevel hrest := by
    cases level with
    | nil => cases hlevel; exact hrest
    | cons left level =>
        exact attachTrailingTo_append (hwanted i hi) hrest level left hlevel
  head hi hrest := (gathers_of_attachTrailing hrest).head_isDivider hi

/-- An item that is no operator of the tier cuts the level in two. -/
theorem attachBinaryTo_append {ops : List Operator} {i : Item}
    {rest out' : Level} (hi : i.isWaiting ops = false)
    (hrest : attachBinaryTo ops i rest = .ok out') (level : Level)
    (left : Item) :
    ∀ {out : Level}, attachBinaryTo ops left level = .ok out →
      attachBinaryTo ops left (level ++ i :: rest) = .ok (out ++ out') := by
  fun_induction attachBinaryTo ops left level with
  | case1 left =>
      intro out h
      cases h
      rw [List.nil_append, attachBinaryTo, hi, hrest]
      rfl
  | case2 => intro out h; cases h
  | case3 left j hj right level hv ih =>
      intro out h
      rw [List.cons_append, List.cons_append, attachBinaryTo, if_pos hj]
      simp only [if_pos hv]
      exact ih h
  | case4 => intro out h; cases h
  | case5 left j level hj ih =>
      intro out h
      obtain ⟨out, hout, h⟩ := bind_eq_ok.mp h
      cases h
      rw [List.cons_append, attachBinaryTo, if_neg hj, ih hout]
      rfl

theorem isLocal_attachBinary {ops : List Operator}
    (hops : ∀ i : Item, i.isDivider = true → i.isWaiting ops = false) :
    IsLocal (attachBinary ops) where
  nil := rfl
  single hi := by
    rw [attachBinary, hops _ hi]
    rfl
  append {i level rest out out'} hi hlevel hrest := by
    cases level with
    | nil => cases hlevel; exact hrest
    | cons left level =>
        rw [attachBinary, hops i hi] at hrest
        rw [attachBinary] at hlevel
        rw [List.cons_append, attachBinary]
        split at hlevel
        · cases hlevel
        · next hleft =>
          rw [if_neg hleft]
          exact attachBinaryTo_append (hops i hi) hrest level left hlevel
  head hi hrest := (gathers_of_attachBinary hrest).head_isDivider hi

/-- Tier by tier, with neither `if` nor `else` in any of them. -/
theorem isLocal_tiers : ∀ (order : List (List Operator)),
    (∀ tier ∈ order, Operator.ifThen ∉ tier ∧ Operator.otherwise ∉ tier) →
    IsLocal fun level =>
      order.foldlM (fun level ops => attachBinary ops level) level := by
  intro order
  induction order with
  | nil =>
      intro _
      exact ⟨rfl, fun _ => rfl, fun _ h h' => by cases h; cases h'; rfl,
        fun hi h => by cases h; exact ⟨_, _, rfl, hi⟩⟩
  | cons tier order ih =>
      intro horder
      obtain ⟨hif, helse⟩ := horder tier (List.mem_cons_self ..)
      have hfirst : IsLocal (attachBinary tier) := by
        -- a divider that waits is `if` or `else`, and these are not of
        -- the tier
        refine isLocal_attachBinary fun i hi => ?_
        cases i with
        | done t => rfl
        | waiting n =>
            obtain ⟨op, hop, heq⟩ := Item.isWaiting_iff.mp hi
            rw [heq, ← Bool.not_eq_true, Item.isWaiting_iff]
            rintro ⟨op', hop', heq'⟩
            cases heq'
            simp only [List.mem_cons, List.not_mem_nil, or_false] at hop
            rcases hop with rfl | rfl
            · exact hif hop'
            · exact helse hop'
      have hrest := ih fun tier' ht => horder tier' (List.mem_cons_of_mem _ ht)
      simpa only [List.foldlM_cons] using hfirst.bind hrest

theorem isLocal_attachOperators : IsLocal attachOperators := by
  have htrailing : ∀ wanted : Item → Bool,
      (∀ t, wanted (.done t) = false) →
      (∀ op ∈ [Operator.ifThen, .otherwise],
        wanted (.waiting (.operator op)) = false) →
      IsLocal (attachTrailing wanted) := by
    intro wanted hdone hop
    refine isLocal_attachTrailing fun i hi => ?_
    cases i with
    | done t => exact hdone t
    | waiting n =>
        obtain ⟨op, hmem, heq⟩ := Item.isWaiting_iff.mp hi
        rw [heq]
        exact hop op hmem
  have hqueries := htrailing (·.isWaiting [.certain]) (fun _ => rfl)
    (by decide)
  have hunits := htrailing Item.isUnitBlock (fun _ => rfl) (by decide)
  exact hqueries.bind (hunits.bind (isLocal_tiers tiers (by decide)))

-- ================================================================ arms

/-- A row that is read as an expression: it is not empty, no construct
stands outside its brackets, and it has a tree by itself. -/
structure IsExpression (ts : List Token) (t : Tree) : Prop where
  ne_nil : ts ≠ []
  plain : ∀ x ∈ outside 0 ts, ∀ op ∈ constructOperators,
    x.lexeme ≠ .operator op
  parse_eq : parse ts = .ok t

/-- Expressions are phrases with binary operators between them. -/
theorem IsExpression.exists_chain {ts : List Token} {t : Tree}
    (h : IsExpression ts t) :
    ∃ c : Chain, c.IsLegal ∧ c.Spells ts ∧ c.Groups t := by
  obtain ⟨c, hlegal, hspells⟩ := exists_chain_of_parse h.ne_nil h.plain
    h.parse_eq
  obtain ⟨u, hu, hgroups⟩ := parse_of_spells hlegal hspells
  rw [h.parse_eq] at hu
  exact ⟨c, hlegal, hspells, (hgroups t).mpr (Except.ok.inj hu)⟩

/-- A block in braces and its tree. -/
inductive Braced : List Token → Tree → Prop
  | mk {p q : Nat} {inside : List Token} {ts : List Tree} :
      Contents isSemicolon inside ts →
      Braced (enclosed .brace p inside q) (.mk .block ts)

/-- A block is an atom. -/
theorem Braced.atom {ts : List Token} {t : Tree} (h : Braced ts t) :
    Atom ts t := by
  cases h with
  | mk h => exact .block h

/-- Its tree is that of a block. -/
theorem Braced.isBlock {ts : List Token} {t : Tree} (h : Braced ts t) :
    (Item.done t).isBlock = true := by
  cases h
  rfl

/-- It does not make a call of a name before it. -/
theorem Braced.opensCall {ts : List Token} {t : Tree} (h : Braced ts t)
    (tail : List Token) : opensCall (pieces (ts ++ tail)) = false := by
  cases h with
  | mk h =>
      rw [pieces_enclosed (h.nests isSemicolon_bracket)]
      rfl

/-- An arm of a conditional: `if` at a position, a condition and a block,
with the trees of both. -/
structure Arm where
  position : Nat
  condition : List Token
  block : List Token
  test : Tree
  body : Tree
  isExpression : IsExpression condition test
  isBraced : Braced block body

/-- The block behind the last `else`. -/
structure LastBlock where
  block : List Token
  body : Tree
  isBraced : Braced block body

namespace Arm

/-- Its tokens: `if`, the condition and the block. -/
def tokens (a : Arm) : List Token :=
  ⟨.operator .ifThen, a.position⟩ :: (a.condition ++ a.block)

/-- The conditional of an arm, with what its `else` leads to. -/
def tree (a : Arm) (other : Option Tree) : Tree :=
  .mk (.operator .ifThen) (a.test :: a.body :: other.toList)

/-- The phrases of the condition. -/
noncomputable def chain (a : Arm) : Chain :=
  a.isExpression.exists_chain.choose

/-- They spell the condition and group to its tree. -/
theorem chain_spec (a : Arm) : a.chain.IsLegal
    ∧ a.chain.Spells a.condition ∧ a.chain.Groups a.test :=
  a.isExpression.exists_chain.choose_spec

end Arm

/-- The tokens behind an arm: `else` with the next arm, the last one with a
block, each `else` at a position. -/
def tokensBehind : List (Nat × Arm) → Option (Nat × LastBlock) → List Token
  | [], none => []
  | [], some (p, b) => ⟨.operator .otherwise, p⟩ :: b.block
  | (p, a) :: more, last =>
      ⟨.operator .otherwise, p⟩ :: (a.tokens ++ tokensBehind more last)

/-- What the `else` of an arm leads to: the conditional of the arms behind
it, or the last block. -/
def branchBehind : List Arm → Option Tree → Option Tree
  | [], last => last
  | a :: more, last => some (a.tree (branchBehind more last))

-- =============================================================== levels

/-- An arm as items, its condition in one of the states that the passes
leave it in. -/
def armLevel (condition : Arm → Level) (a : Arm) (behind : Level) : Level :=
  .waiting (.operator .ifThen) :: (condition a ++ .done a.body :: behind)

/-- What stands behind an arm, as items. -/
def levelBehind (condition : Arm → Level) :
    List Arm → Option Tree → Level
  | [], none => []
  | [], some t => [.waiting (.operator .otherwise), .done t]
  | a :: more, last => .waiting (.operator .otherwise)
      :: armLevel condition a (levelBehind condition more last)

variable {condition condition' : Arm → Level} {behind out : Level}

/-- It is empty or starts with `else`. -/
theorem startsDivided_levelBehind (more : List Arm) (last : Option Tree) :
    StartsDivided (levelBehind condition more last) := by
  intro i hi
  cases more with
  | nil =>
      cases last with
      | none => cases hi
      | some t => cases hi; rfl
  | cons a more => cases hi; rfl

/-- The items of an arm before other tokens. -/
theorem items_arm (a : Arm) {tail : List Token}
    (hcall : opensCall (pieces tail) = false)
    (htail : items parse (pieces tail) = .ok behind) :
    items parse (pieces (a.tokens ++ tail))
      = .ok (armLevel (fun a => a.chain.items) a behind) := by
  have hblock := items_atom a.isBraced.atom hcall htail
  have hcondition := items_chain_append a.chain_spec.2.1
    (a.isBraced.opensCall tail) hblock
  have hif : ofToken ⟨.operator .ifThen, a.position⟩
      = .ok (.waiting (.operator .ifThen)) := rfl
  have heq : a.tokens ++ tail = ⟨.operator .ifThen, a.position⟩
      :: (a.condition ++ (a.block ++ tail)) := by
    simp [Arm.tokens]
  rw [heq]
  exact (items_waiting hif hcondition).1

/-- The items of what stands behind an arm. -/
theorem items_tokensBehind (more : List (Nat × Arm))
    (last : Option (Nat × LastBlock)) :
    items parse (pieces (tokensBehind more last))
        = .ok (levelBehind (fun a => a.chain.items) (more.map Prod.snd)
          (last.map (·.2.body)))
      ∧ opensCall (pieces (tokensBehind more last)) = false := by
  induction more with
  | nil =>
      cases last with
      | none => exact ⟨rfl, rfl⟩
      | some b =>
          obtain ⟨p, b⟩ := b
          have hnil : items parse (pieces []) = .ok [] := rfl
          have hblock := items_atom b.isBraced.atom rfl hnil
          rw [List.append_nil] at hblock
          exact items_waiting rfl hblock
  | cons x more ih =>
      obtain ⟨p, a⟩ := x
      exact items_waiting rfl (items_arm a ih.2 ih.1)

-- ====================================================== operator passes

/-- The condition with its signs attached. -/
noncomputable def Arm.signed (a : Arm) : Level :=
  a.chain.first.attachSigns.items
    ++ restItems (mapRest Phrase.attachSigns a.chain.rest)

/-- Signs are attached inside the conditions. -/
theorem attachLeading_arm (a : Arm)
    (h : ∀ left, attachLeading left behind = .ok out) (left : Option Item) :
    attachLeading left (armLevel (fun a => a.chain.items) a behind)
      = .ok (armLevel Arm.signed a out) := by
  have hbody : ∀ left, attachLeading left (.done a.body :: behind)
      = .ok (.done a.body :: out) := fun left => attachLeading_done (h _)
  have hleft : (some (.waiting (.operator .ifThen))).all Item.isPlaceholder
      = true := rfl
  -- `if` is a placeholder, so a sign behind it is a sign of the condition
  have hchain := attachLeading_chain_append hbody a.chain.rest
    a.chain_spec.1 hleft
  rw [← List.append_assoc, ← List.append_assoc] at hchain
  exact attachLeading_keep rfl hchain

theorem attachLeading_levelBehind (more : List Arm) (last : Option Tree) :
    ∀ left, attachLeading left
        (levelBehind (fun a => a.chain.items) more last)
      = .ok (levelBehind Arm.signed more last) := by
  induction more with
  | nil =>
      intro left
      cases last with
      | none => rfl
      | some t => exact attachLeading_keep rfl (attachLeading_done rfl)
  | cons a more ih =>
      intro left
      exact attachLeading_keep rfl (attachLeading_arm a ih _)

/-- A pass that can be cut at dividers does to the conditions what it does
to each of them alone. -/
theorem IsLocal.armLevel {pass : Level → Except ParseError Level}
    (h : IsLocal pass)
    (hcondition : ∀ a, pass (condition a) = .ok (condition' a))
    (hstarts : ∀ a, StartsDivided (condition a))
    (a : Arm) (hbehind : pass behind = .ok out)
    (hdivided : StartsDivided behind) :
    pass (armLevel condition a behind)
      = .ok (armLevel condition' a out) := by
  have hbody : pass (.done a.body :: behind) = .ok (.done a.body :: out) :=
    h.cons rfl hbehind hdivided
  have harm := h.append_of_startsDivided (hcondition a) hbody
    (by intro i hi; cases hi; rfl)
  refine h.cons rfl harm ?_
  have hhead := hstarts a
  cases hc : condition a with
  | nil => intro i hi; cases hi; rfl
  | cons i level =>
      rw [hc] at hhead
      exact hhead

theorem IsLocal.levelBehind {pass : Level → Except ParseError Level}
    (h : IsLocal pass)
    (hcondition : ∀ a, pass (condition a) = .ok (condition' a))
    (hstarts : ∀ a, StartsDivided (condition a))
    (more : List Arm) (last : Option Tree) :
    pass (levelBehind condition more last)
      = .ok (levelBehind condition' more last) := by
  induction more with
  | nil =>
      cases last with
      | none => exact h.nil
      | some t =>
          exact h.cons rfl (h.single rfl) (by intro i hi; cases hi; rfl)
  | cons a more ih =>
      refine h.cons rfl (h.armLevel hcondition hstarts a ih
        (startsDivided_levelBehind more last)) ?_
      intro i hi
      cases hi
      rfl

/-- All operator passes leave the trees of the conditions. -/
theorem attachOperators_arms (a : Arm) (more : List Arm)
    (last : Option Tree) :
    attachOperators (armLevel Arm.signed a
        (levelBehind Arm.signed more last))
      = .ok (armLevel (fun a => [.done a.test]) a
          (levelBehind (fun a => [.done a.test]) more last)) := by
  have hcondition : ∀ a : Arm, attachOperators a.signed = .ok [.done a.test] :=
    fun a => attachOperators_chain a.chain_spec.1 a.chain_spec.2.2
  have hstarts : ∀ a : Arm, StartsDivided a.signed := by
    intro a i hi
    cases hi
    rfl
  exact isLocal_attachOperators.armLevel hcondition hstarts a
    (isLocal_attachOperators.levelBehind hcondition hstarts more last)
    (startsDivided_levelBehind more last)

-- ===================================================== `if` and `else`

/-- `if` takes its condition and its block. -/
theorem attachConditional_arm (a : Arm) (behind : Level) :
    attachConditional .ifThen
        (armLevel (fun a => [.done a.test]) a behind)
      = .done (a.tree none) :: attachConditional .ifThen behind := by
  show attachConditional .ifThen (.waiting (.operator .ifThen)
    :: .done a.test :: .done a.body :: behind) = _
  rw [attachConditional, a.isBraced.isBlock]
  rfl

/-- A conditional takes the branch behind its `else`. -/
theorem attachElse_branch (a : Arm) {level : Level} {other : Tree}
    (h : attachElse level = .ok [.done other])
    (hother : ((Item.done other).isIf || (Item.done other).isBlock) = true) :
    attachElse (.done (a.tree none) :: .waiting (.operator .otherwise)
        :: level)
      = .ok [.done (a.tree (some other))] := by
  have helse : attachElse (.waiting (.operator .otherwise) :: level)
      = .ok [.waiting (.operator .otherwise), .done other] := by
    rw [attachElse, h]
    rfl
  have htakes : takesElse (.done (a.tree none)) = true := rfl
  rw [attachElse, helse]
  show (if (takesElse (.done (a.tree none))
    && ((Item.done other).isIf || (Item.done other).isBlock)) = true
    then _ else _) = _
  rw [htakes, hother]
  rfl

/-- The arms go into one another from the last to the first. -/
theorem attachElse_arms (more : List Arm) (last : Option LastBlock) :
    ∀ a : Arm, attachElse (attachConditional .ifThen
        (armLevel (fun a => [.done a.test]) a
          (levelBehind (fun a => [.done a.test]) more
            (last.map LastBlock.body))))
      = .ok [.done
          (a.tree (branchBehind more (last.map LastBlock.body)))] := by
  induction more with
  | nil =>
      intro a
      rw [attachConditional_arm]
      cases last with
      | none => rfl
      | some b =>
          exact attachElse_branch a rfl
            (by rw [b.isBraced.isBlock, Bool.or_true])
  | cons a' more ih =>
      intro a
      rw [attachConditional_arm]
      have helse : attachConditional .ifThen
          (levelBehind (fun a => [.done a.test]) (a' :: more)
            (last.map LastBlock.body))
          = .waiting (.operator .otherwise) :: attachConditional .ifThen
            (armLevel (fun a => [.done a.test]) a'
              (levelBehind (fun a => [.done a.test]) more
                (last.map LastBlock.body))) := rfl
      rw [helse]
      exact attachElse_branch a (ih a') rfl

/-- A row of arms joined by `else`, with or without a last block, is read
as conditionals nested to the right. -/
theorem parse_arms (a : Arm) (more : List (Nat × Arm))
    (last : Option (Nat × LastBlock)) :
    parse (a.tokens ++ tokensBehind more last)
      = .ok (a.tree (branchBehind (more.map Prod.snd)
          (last.map (·.2.body)))) := by
  obtain ⟨hitems, hcall⟩ := items_tokensBehind more last
  have hlast : last.map (·.2.body)
      = (last.map Prod.snd).map LastBlock.body := by
    rw [Option.map_map]
    rfl
  show parse (⟨.operator .ifThen, a.position⟩
    :: (a.condition ++ a.block ++ tokensBehind more last)) = _
  rw [parse_cons]
  show items parse (pieces (a.tokens ++ tokensBehind more last)) >>= reduce
    = _
  rw [items_arm a hcall hitems, ok_bind, reduce_eq,
    attachLeading_arm a (attachLeading_levelBehind _ _), ok_bind,
    attachOperators_arms, ok_bind, hlast, attachElse_arms]
  rfl

end Metrology.Tree
