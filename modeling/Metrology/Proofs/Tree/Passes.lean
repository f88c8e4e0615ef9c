/-
What each pass can do to a level. A pass merges stretches of a level into
one complete tree each and keeps all other items where they are:
`Gathers merge level out`, where `merge stretch t` says which stretches
become which trees. What holds of every merge of a pass holds of the
whole pass, so later proofs look at single merges only.

Signs are the exception. Whether one stands before its operand depends
on the item to its left, which is not part of the stretch; their pass
has a relation of its own, `Leads`, that carries this item along.

A pass that finds nothing of its own in a level leaves the level alone;
the last section says so for all of them.
-/
import Metrology.Proofs.Tree.Reading

namespace Metrology.Tree

-- ================================================== kinds of items

namespace Item

/-- An item has a value if it is a complete tree. -/
@[simp] theorem hasValue_iff {i : Item} :
    i.hasValue = true ↔ ∃ t, i = .done t := by
  cases i <;> simp [hasValue]

/-- It waits as one of these operators. -/
@[simp] theorem isWaiting_iff {ops : List Operator} {i : Item} :
    i.isWaiting ops = true ↔ ∃ op ∈ ops, i = .waiting (.operator op) := by
  rcases i with t | n
  · simp [isWaiting, waitingOperator?]
  · cases n <;> simp [isWaiting, waitingOperator?]

/-- An operator waits as one of these if it is one of them. -/
@[simp] theorem isWaiting_operator {ops : List Operator} {op : Operator} :
    (Item.waiting (.operator op)).isWaiting ops = decide (op ∈ ops) := by
  simp [isWaiting, waitingOperator?]

/-- It is a block. -/
@[simp] theorem isBlock_iff {i : Item} :
    i.isBlock = true ↔ ∃ cs, i = .done (.mk .block cs) := by
  rcases i with ⟨n, cs⟩ | n
  · cases n <;> simp [isBlock]
  · simp [isBlock]

/-- It is a variable. -/
@[simp] theorem isVariable_iff {i : Item} :
    i.isVariable = true ↔ ∃ name cs, i = .done (.mk (.variable name) cs) := by
  rcases i with ⟨n, cs⟩ | n
  · cases n <;> simp [isVariable]
  · simp [isVariable]

/-- It is a conditional, with one branch or with two. -/
@[simp] theorem isIf_iff {i : Item} :
    i.isIf = true ↔ ∃ cs, i = .done (.mk (.operator .ifThen) cs) := by
  rcases i with ⟨n, cs⟩ | n
  · cases n with
    | operator op => cases op <;> simp [isIf]
    | _ => simp [isIf]
  · simp [isIf]

/-- It is a unit that waits. -/
@[simp] theorem isUnitBlock_iff {i : Item} :
    i.isUnitBlock = true ↔ ∃ text scale, i = .waiting (.unitBlock text scale)
      := by
  rcases i with t | n
  · simp [isUnitBlock]
  · cases n <;> simp [isUnitBlock]

/-- It is that keyword. -/
@[simp] theorem isKeyword_iff {i : Item} {word : String} :
    i.isKeyword word = true ↔ i = .waiting (.keyword word) := by
  rcases i with t | n
  · simp [isKeyword]
  · cases n <;> simp [isKeyword]

end Item

/-- Only a conditional with one branch takes an `else`. -/
@[simp] theorem takesElse_iff {i : Item} :
    takesElse i = true ↔ ∃ a b, i = .done (.mk (.operator .ifThen) [a, b]) := by
  rcases i with ⟨n, cs⟩ | n
  · cases n with
    | operator op =>
        cases op <;> simp [takesElse]
        match cs with
        | [] => simp
        | [_] => simp
        | [_, _] => simp
        | _ :: _ :: _ :: _ => simp
    | _ => simp [takesElse]
  · simp [takesElse]

-- ====================================================== merging stretches

/-- The second level is the first with some stretches merged. -/
inductive Gathers (merge : Level → Tree → Prop) : Level → Level → Prop
  | nil : Gathers merge [] []
  | keep {i : Item} {level out : Level} :
      Gathers merge level out → Gathers merge (i :: level) (i :: out)
  | merge {s level out : Level} {t : Tree} :
      merge s t → Gathers merge level out →
      Gathers merge (s ++ level) (.done t :: out)

variable {merge : Level → Tree → Prop} {level out : Level}

/-- A pass may merge nothing. -/
theorem Gathers.refl : ∀ (level : Level), Gathers merge level level
  | [] => .nil
  | _ :: level => .keep (refl level)

/-- Waiting items are kept, never made. -/
theorem Gathers.mem_of_waiting_mem (h : Gathers merge level out) {n : Node}
    (hn : .waiting n ∈ out) : .waiting n ∈ level := by
  induction h with
  | nil => exact hn
  | keep _ ih =>
      rcases List.mem_cons.mp hn with rfl | hn
      · exact List.mem_cons_self ..
      · exact List.mem_cons_of_mem _ (ih hn)
  | merge _ _ ih =>
      rcases List.mem_cons.mp hn with hn | hn
      · cases hn
      · exact List.mem_append_right _ (ih hn)

/-- What every merge makes of complete trees with a property has the
property, so the whole pass does. -/
theorem Gathers.forall_done {P : Tree → Prop}
    (hmerge : ∀ stretch t, merge stretch t →
      (∀ u, .done u ∈ stretch → P u) → P t)
    (h : Gathers merge level out) (hP : ∀ u, .done u ∈ level → P u) :
    ∀ u, .done u ∈ out → P u := by
  induction h with
  | nil => exact hP
  | keep _ ih =>
      intro u hu
      rcases List.mem_cons.mp hu with rfl | hu
      · exact hP u (List.mem_cons_self ..)
      · exact ih (fun u hu => hP u (List.mem_cons_of_mem _ hu)) u hu
  | merge hm _ ih =>
      intro u hu
      rcases List.mem_cons.mp hu with hu | hu
      · cases hu
        exact hmerge _ _ hm fun u hu => hP u (List.mem_append_left _ hu)
      · exact ih (fun u hu => hP u (List.mem_append_right _ hu)) u hu

/-- A waiting item in the result was there before. -/
theorem Gathers.of_waiting_cons {n : Node}
    (h : Gathers merge level (.waiting n :: out)) :
    ∃ rest, level = .waiting n :: rest ∧ Gathers merge rest out := by
  cases h with
  | keep h => exact ⟨_, rfl, h⟩

/-- A complete tree in the result was there before or is a merge. -/
theorem Gathers.of_done_cons {t : Tree}
    (h : Gathers merge level (.done t :: out)) :
    (∃ rest, level = .done t :: rest ∧ Gathers merge rest out)
      ∨ ∃ stretch rest, level = stretch ++ rest ∧ merge stretch t
          ∧ Gathers merge rest out := by
  cases h with
  | keep h => exact .inl ⟨_, rfl, h⟩
  | merge hm h => exact .inr ⟨_, _, rfl, hm, h⟩

/-- The first item of a level is kept or begins a merged stretch. -/
theorem Gathers.of_cons {i : Item} (h : Gathers merge (i :: level) out) :
    (∃ out', out = i :: out' ∧ Gathers merge level out')
      ∨ ∃ stretch rest t out', i :: level = stretch ++ rest
          ∧ merge stretch t ∧ out = .done t :: out'
          ∧ Gathers merge rest out' := by
  generalize hl : i :: level = l at h
  cases h with
  | nil => cases hl
  | keep h =>
      cases hl
      exact .inl ⟨_, rfl, h⟩
  | merge hm h => exact .inr ⟨_, _, _, _, rfl, hm, rfl, h⟩

-- ================================================ signs before operands

/-- The second level is the first with signs attached; the item before
the level is given. The last item of a level is kept, whatever it is. -/
inductive Leads : Option Item → Level → Level → Prop
  | nil {left : Option Item} : Leads left [] []
  | last {left : Option Item} {i : Item} : Leads left [i] [i]
  | keep {left : Option Item} {i right : Item} {level out : Level} :
      isLeading left i = false → Leads (some i) level (right :: out) →
      Leads left (i :: level) (i :: right :: out)
  | sign {left : Option Item} {op : Operator} {t : Tree}
      {level out : Level} :
      isLeading left (.waiting (.operator op)) = true →
      Leads (some (.waiting (.operator op))) level (.done t :: out) →
      Leads left (.waiting (.operator op) :: level)
        (.done (.mk (.operator op) [t]) :: out)

/-- Only a waiting sign takes the operand to its right. -/
theorem isLeading_cases {left : Option Item} {i : Item}
    (h : isLeading left i = true) :
    ∃ op ∈ Operator.lnot :: leadingSigns, i = .waiting (.operator op) := by
  unfold isLeading at h
  simp only [Bool.or_eq_true, Bool.and_eq_true] at h
  rcases h with h | ⟨h, -⟩
  · obtain ⟨op, hop, rfl⟩ := Item.isWaiting_iff.mp h
    exact ⟨op, by simp_all, rfl⟩
  · obtain ⟨op, hop, rfl⟩ := Item.isWaiting_iff.mp h
    exact ⟨op, List.mem_cons_of_mem _ hop, rfl⟩

/-- The pass for signs attaches signs and nothing else. -/
theorem leads_of_attachLeading :
    ∀ (level : Level) (left : Option Item) {out : Level},
      attachLeading left level = .ok out → Leads left level out := by
  intro level
  induction level with
  | nil => intro left out h; cases h; exact .nil
  | cons i rest ih =>
      intro left out h
      rw [attachLeading] at h
      obtain ⟨out', hout, h⟩ := bind_eq_ok.mp h
      -- the rest comes first, so a sign finds its operand complete
      have hrest := ih (some i) hout
      split at h
      · cases h
        cases hrest
        exact .last
      · split at h
        · next hi =>
          split at h
          · next hv =>
            cases h
            obtain ⟨op, -, rfl⟩ := isLeading_cases hi
            obtain ⟨t, rfl⟩ := Item.hasValue_iff.mp hv
            exact .sign hi hrest
          · cases h
        · next hi =>
          cases h
          exact .keep (by simpa using hi) hrest

/-- Attached signs make waiting items complete and none wait. -/
theorem Leads.mem_of_waiting_mem {left : Option Item}
    (h : Leads left level out) {n : Node} (hn : .waiting n ∈ out) :
    .waiting n ∈ level := by
  induction h with
  | nil => exact hn
  | last => exact hn
  | keep _ _ ih =>
      rcases List.mem_cons.mp hn with rfl | hn
      · exact List.mem_cons_self ..
      · exact List.mem_cons_of_mem _ (ih hn)
  | sign _ _ ih =>
      rcases List.mem_cons.mp hn with hn | hn
      · cases hn
      · exact List.mem_cons_of_mem _ (ih (List.mem_cons_of_mem _ hn))

/-- What a sign makes of a tree with a property has the property, so all
complete trees have it once the signs are attached. -/
theorem Leads.forall_done {P : Tree → Prop} {left : Option Item}
    (hsign : ∀ op ∈ Operator.lnot :: leadingSigns, ∀ t, P t →
      P (.mk (.operator op) [t]))
    (h : Leads left level out) (hP : ∀ u, .done u ∈ level → P u) :
    ∀ u, .done u ∈ out → P u := by
  induction h with
  | nil => exact hP
  | last => exact hP
  | keep _ _ ih =>
      intro u hu
      rcases List.mem_cons.mp hu with rfl | hu
      · exact hP u (List.mem_cons_self ..)
      · exact ih (fun u hu => hP u (List.mem_cons_of_mem _ hu)) u hu
  | sign hop _ ih =>
      have hrest := ih fun u hu => hP u (List.mem_cons_of_mem _ hu)
      intro u hu
      rcases List.mem_cons.mp hu with hu | hu
      · cases hu
        obtain ⟨op, hmem, heq⟩ := isLeading_cases hop
        cases heq
        exact hsign _ hmem _ (hrest _ (List.mem_cons_self ..))
      · exact hrest u (List.mem_cons_of_mem _ hu)

-- =================================================== queries and units

/-- The tree with queries or units put around it, the first innermost. -/
def trail (t : Tree) (is : List Item) : Tree :=
  is.foldl (fun t i => .mk i.node [t]) t

/-- An operand and the items behind it that take it. -/
def Trailed (wanted : Item → Bool) (stretch : Level) (u : Tree) : Prop :=
  ∃ t is, is ≠ [] ∧ (∀ i ∈ is, wanted i = true)
    ∧ stretch = .done t :: is ∧ u = trail t is

/-- With the item before the level at hand, which is the operand so far. -/
theorem gathers_of_attachTrailingTo {wanted : Item → Bool} :
    ∀ (level : Level) (left : Item) {out : Level},
      attachTrailingTo wanted left level = .ok out →
      Gathers (Trailed wanted) (left :: level) out := by
  intro level
  induction level with
  | nil =>
      intro left out h
      cases h
      exact .refl _
  | cons i rest ih =>
      intro left out h
      rw [attachTrailingTo] at h
      split at h
      · next hi =>
        split at h
        · next hleft =>
          obtain ⟨t, rfl⟩ := Item.hasValue_iff.mp hleft
          -- the operand found so far is merged alone or with what follows
          rcases (ih _ h).of_cons with
            ⟨out', rfl, hout⟩ | ⟨_, rest', _, out', heq, hm, rfl, hout⟩
          · exact .merge (s := [.done t, i])
              ⟨t, [i], by simp, by simp [hi], rfl, rfl⟩ hout
          · obtain ⟨t', is, _, his, rfl, rfl⟩ := hm
            obtain ⟨ht, rfl⟩ := List.cons.inj heq
            cases ht
            exact .merge (s := .done t :: i :: is)
              ⟨t, i :: is, by simp, by simpa [hi] using his, rfl, rfl⟩ hout
        · cases h
      · obtain ⟨_, hout, h⟩ := bind_eq_ok.mp h
        cases h
        exact .keep (ih i hout)

/-- The passes for queries and units merge operands with what trails
them. -/
theorem gathers_of_attachTrailing {wanted : Item → Bool}
    (h : attachTrailing wanted level = .ok out) :
    Gathers (Trailed wanted) level out := by
  cases level with
  | nil => cases h; exact .nil
  | cons i rest => exact gathers_of_attachTrailingTo rest i h

-- ==================================================== binary operators

/-- Operators, each with the operand behind it, as items. -/
def linkItems (links : List (Operator × Tree)) : Level :=
  links.flatMap fun x => [.waiting (.operator x.1), .done x.2]

/-- The tree of an operand and the operators behind it, from the left. -/
def joinLeft (t : Tree) (links : List (Operator × Tree)) : Tree :=
  links.foldl (fun l x => .mk (.operator x.1) [l, x.2]) t

/-- An operand and the operators of a tier behind it, with theirs. -/
def Joined (ops : List Operator) (stretch : Level) (u : Tree) : Prop :=
  ∃ t links, links ≠ [] ∧ (∀ x ∈ links, x.1 ∈ ops)
    ∧ stretch = .done t :: linkItems links ∧ u = joinLeft t links

/-- With the item before the level at hand, which is the left operand so
far. -/
theorem gathers_of_attachBinaryTo {ops : List Operator} (level : Level)
    (left : Item) :
    ∀ {out : Level}, attachBinaryTo ops left level = .ok out →
      Gathers (Joined ops) (left :: level) out := by
  fun_induction attachBinaryTo ops left level with
  | case1 left => intro out h; cases h; exact .refl _
  | case2 => intro out h; cases h
  -- the left operand takes the right one, and goes on as the left operand
  | case3 left i hi right rest hv ih =>
      intro out h
      obtain ⟨op, hop, rfl⟩ := Item.isWaiting_iff.mp hi
      simp only [Bool.and_eq_true, Item.hasValue_iff] at hv
      obtain ⟨⟨l, rfl⟩, r, rfl⟩ := hv
      rcases (ih h).of_cons with
        ⟨out', rfl, hout⟩ | ⟨_, rest', _, out', heq, hm, rfl, hout⟩
      · exact .merge (s := [.done l, .waiting (.operator op), .done r])
          ⟨l, [(op, r)], by simp, by simp [hop], rfl, rfl⟩ hout
      · obtain ⟨t', links, _, hlinks, rfl, rfl⟩ := hm
        obtain ⟨ht, rfl⟩ := List.cons.inj heq
        cases ht
        exact .merge
          (s := .done l :: linkItems ((op, r) :: links))
          ⟨l, (op, r) :: links, by simp, by simpa [hop] using hlinks,
            rfl, rfl⟩ hout
  | case4 => intro out h; cases h
  | case5 left i rest hi ih =>
      intro out h
      obtain ⟨_, hout, h⟩ := bind_eq_ok.mp h
      cases h
      exact .keep (ih hout)

/-- The pass for a tier merges operands with operators of the tier between
them. -/
theorem gathers_of_attachBinary {ops : List Operator}
    (h : attachBinary ops level = .ok out) :
    Gathers (Joined ops) level out := by
  cases level with
  | nil => cases h; exact .nil
  | cons i rest =>
      rw [attachBinary] at h
      split at h
      · cases h
      · exact gathers_of_attachBinaryTo rest i h

-- ========================================================== constructs

/-- `if` or `while`, a condition and a block. -/
def Guarded (op : Operator) (stretch : Level) (u : Tree) : Prop :=
  ∃ condition body,
    stretch = [.waiting (.operator op), .done condition,
      .done (.mk .block body)]
    ∧ u = .mk (.operator op) [condition, .mk .block body]

/-- The pass for `if` or `while` merges it with its condition and its
block. -/
theorem gathers_attachConditional (op : Operator) (level : Level) :
    Gathers (Guarded op) level (attachConditional op level) := by
  fun_induction attachConditional op level with
  | case1 i condition body rest h ih =>
      simp only [Bool.and_eq_true, Item.isWaiting_iff, List.mem_singleton,
        exists_eq_left, Item.hasValue_iff, Item.isBlock_iff] at h
      obtain ⟨⟨rfl, c, rfl⟩, b, rfl⟩ := h
      exact .merge (s := [_, _, _]) ⟨c, b, rfl, rfl⟩ ih
  | case2 i condition body rest h ih => exact .keep ih
  | case3 => exact .refl _

/-- Conditionals with one branch each, joined by `else`, and the branch
behind the last `else`. -/
inductive Branched : Level → Tree → Prop
  | last {condition branch other : Tree} :
      (Item.done other).isIf = true ∨ (Item.done other).isBlock = true →
      Branched
        [.done (.mk (.operator .ifThen) [condition, branch]),
          .waiting (.operator .otherwise), .done other]
        (.mk (.operator .ifThen) [condition, branch, other])
  | chain {condition branch other : Tree} {stretch : Level} :
      Branched stretch other →
      Branched
        (.done (.mk (.operator .ifThen) [condition, branch])
          :: .waiting (.operator .otherwise) :: stretch)
        (.mk (.operator .ifThen) [condition, branch, other])

/-- The pass for `else` merges conditionals with their second branches. -/
theorem gathers_of_attachElse :
    ∀ (level : Level) {out : Level}, attachElse level = .ok out →
      Gathers Branched level out := by
  intro level
  induction level with
  | nil => intro out h; cases h; exact .nil
  | cons left rest ih =>
      intro out h
      rw [attachElse] at h
      obtain ⟨out', hout, h⟩ := bind_eq_ok.mp h
      have hrest := ih hout
      split at h
      · next i right rest' =>
        split at h
        · next hi =>
          split at h
          · next hv =>
            cases h
            simp only [Item.isWaiting_iff, List.mem_singleton,
              exists_eq_left] at hi
            subst hi
            simp only [Bool.and_eq_true, Bool.or_eq_true, takesElse_iff] at hv
            obtain ⟨⟨a, b, rfl⟩, hbranch⟩ := hv
            obtain ⟨rest₁, rfl, hright⟩ := hrest.of_waiting_cons
            obtain ⟨other, rfl⟩ : ∃ u, right = .done u := by
              simp only [Item.isIf_iff, Item.isBlock_iff] at hbranch
              rcases hbranch with ⟨cs, rfl⟩ | ⟨cs, rfl⟩
              · exact ⟨_, rfl⟩
              · exact ⟨_, rfl⟩
            -- the other branch stood there or is a conditional made
            -- from the stretch behind this `else`
            rcases hright.of_done_cons with
              ⟨rest₂, rfl, hr⟩ | ⟨stretch, rest₂, rfl, hm, hr⟩
            · exact .merge (s := [_, _, _]) (.last hbranch) hr
            · exact .merge (s := _ :: _ :: stretch) (.chain hm) hr
          · cases h
        · cases h
          exact .keep hrest
      · cases h
        exact .keep hrest

/-- `for`, a variable, `in`, a value and a block. -/
def Looped (stretch : Level) (u : Tree) : Prop :=
  ∃ name cs cells body,
    stretch = [.waiting (.operator .forLoop),
      .done (.mk (.variable name) cs), .waiting (.keyword "in"),
      .done cells, .done (.mk .block body)]
    ∧ u = .mk (.operator .forLoop)
        [.mk (.variable name) cs, cells, .mk .block body]

/-- The pass for `for` merges it with its index, its list and its block. -/
theorem gathers_attachFor (level : Level) :
    Gathers Looped level (attachFor level) := by
  fun_induction attachFor level with
  | case1 i name key cells body rest h ih =>
      simp only [Bool.and_eq_true, Item.isWaiting_iff, List.mem_singleton,
        exists_eq_left, Item.isVariable_iff, Item.isKeyword_iff,
        Item.hasValue_iff, Item.isBlock_iff] at h
      obtain ⟨⟨⟨⟨rfl, x, cs, rfl⟩, rfl⟩, m, rfl⟩, b, rfl⟩ := h
      exact .merge (s := [_, _, _, _, _]) ⟨x, cs, m, b, rfl, rfl⟩ ih
  | case2 i name key cells body rest h ih => exact .keep ih
  | case3 => exact .refl _

/-- A variable, `=` and a value. -/
def Assigned (stretch : Level) (u : Tree) : Prop :=
  ∃ name value,
    stretch = [.done (leaf (.variable name)), .waiting (.operator .assign),
      .done value]
    ∧ u = .mk (.operator .assign) [leaf (.variable name), value]

/-- With the item before the level at hand, which is the left side. -/
theorem gathers_of_attachAssignmentTo (level : Level) (left : Item) :
    ∀ {out : Level}, attachAssignmentTo left level = .ok out →
      Gathers Assigned (left :: level) out := by
  fun_induction attachAssignmentTo left level with
  | case1 left => intro out h; cases h; exact .refl _
  | case2 => intro out h; cases h
  | case3 => intro out h; cases h
  | case4 => intro out h; cases h
  | case5 left i hi right rest hl hr ih =>
      intro out h
      simp only [Item.isWaiting_iff, List.mem_singleton, exists_eq_left] at hi
      subst hi
      simp only [Bool.not_eq_true, Bool.not_eq_false', Bool.and_eq_true,
        Item.isVariable_iff, Item.hasValue_iff] at hl hr
      obtain ⟨⟨x, cs, rfl⟩, hleaf⟩ := hl
      cases List.isEmpty_iff.mp hleaf
      obtain ⟨v, rfl⟩ := hr
      rcases (ih h).of_cons with
        ⟨out', rfl, hout⟩ | ⟨_, rest', _, out', heq, hm, rfl, hout⟩
      · exact .merge (s := [_, _, _]) ⟨x, v, rfl, rfl⟩ hout
      · -- an assignment is no variable
        obtain ⟨name, value, rfl, rfl⟩ := hm
        cases heq
  | case6 left i rest hi ih =>
      intro out h
      obtain ⟨_, hout, h⟩ := bind_eq_ok.mp h
      cases h
      exact .keep (ih hout)

/-- The pass for assignments merges a name with its value. -/
theorem gathers_of_attachAssignment
    (h : attachAssignment level = .ok out) : Gathers Assigned level out := by
  cases level with
  | nil => cases h; exact .nil
  | cons i rest =>
      rw [attachAssignment] at h
      split at h
      · cases h
      · exact gathers_of_attachAssignmentTo rest i h

-- ============================================= passes with nothing to do

/-- None of these operators waits in the level. -/
def Lacks (ops : List Operator) (level : Level) : Prop :=
  ∀ op ∈ ops, Item.waiting (.operator op) ∉ level

variable {ops : List Operator}

theorem Lacks.isWaiting_eq_false (h : Lacks ops level) {i : Item}
    (hi : i ∈ level) : i.isWaiting ops = false := by
  rw [← Bool.not_eq_true]
  intro hw
  obtain ⟨op, hop, rfl⟩ := Item.isWaiting_iff.mp hw
  exact h op hop hi

/-- A level that lacks them does so behind its first item. -/
theorem Lacks.tail {i : Item} (h : Lacks ops (i :: level)) :
    Lacks ops level :=
  fun op hop hmem => h op hop (List.mem_cons_of_mem _ hmem)

/-- It lacks fewer of them too. -/
theorem Lacks.mono {ops' : List Operator} (h : Lacks ops level)
    (hsub : ops' ⊆ ops) : Lacks ops' level :=
  fun op hop => h op (hsub hop)

/-- Without signs, the pass for signs changes nothing. -/
theorem attachLeading_eq_self :
    ∀ {level : Level} (left : Option Item),
      Lacks (.lnot :: leadingSigns) level →
      attachLeading left level = .ok level := by
  intro level
  induction level with
  | nil => intro left _; rfl
  | cons i rest ih =>
      intro left h
      have hi : isLeading left i = false := by
        rw [← Bool.not_eq_true]
        intro hl
        obtain ⟨op, hop, rfl⟩ := isLeading_cases hl
        exact h op hop (List.mem_cons_self ..)
      rw [attachLeading, ih (some i) h.tail]
      cases rest with
      | nil => rfl
      | cons right rest =>
          show (if isLeading left i = true then _ else _) = _
          rw [hi]
          rfl

/-- Nor do those for queries and units without any. -/
theorem attachTrailing_eq_self {wanted : Item → Bool}
    (h : ∀ i ∈ level, wanted i = false) :
    attachTrailing wanted level = .ok level := by
  have hto : ∀ (rest : Level) (left : Item),
      (∀ i ∈ rest, wanted i = false) →
      attachTrailingTo wanted left rest = .ok (left :: rest) := by
    intro rest
    induction rest with
    | nil => intro left _; rfl
    | cons i rest ih =>
        intro left h
        rw [attachTrailingTo, h i (List.mem_cons_self ..),
          ih i fun j hj => h j (List.mem_cons_of_mem _ hj)]
        rfl
  cases level with
  | nil => rfl
  | cons i rest =>
      exact hto rest i fun j hj => h j (List.mem_cons_of_mem _ hj)

/-- Nor does that for a tier, with the left operand at hand. -/
theorem attachBinaryTo_eq_self (left : Item) (h : Lacks ops level) :
    attachBinaryTo ops left level = .ok (left :: level) := by
  fun_induction attachBinaryTo ops left level with
  | case1 => rfl
  | case5 left i rest hi ih => rw [ih h.tail]; rfl
  | _ =>
      rename_i hi _
      exact absurd (h.isWaiting_eq_false (List.mem_cons_self ..))
        (by simp_all)

/-- The whole pass for a tier. -/
theorem attachBinary_eq_self (h : Lacks ops level) :
    attachBinary ops level = .ok level := by
  cases level with
  | nil => rfl
  | cons i rest =>
      rw [attachBinary, h.isWaiting_eq_false (List.mem_cons_self ..)]
      exact attachBinaryTo_eq_self i h.tail

theorem attachConditional_eq_self {op : Operator} (h : Lacks [op] level) :
    attachConditional op level = level := by
  fun_induction attachConditional op level with
  | case1 i condition body rest hi ih =>
      rw [h.isWaiting_eq_false (List.mem_cons_self ..)] at hi
      cases hi
  | case2 i condition body rest hi ih => rw [ih h.tail]
  | case3 => rfl

theorem attachElse_eq_self (h : Lacks [.otherwise] level) :
    attachElse level = .ok level := by
  induction level with
  | nil => rfl
  | cons left rest ih =>
      rw [attachElse, ih h.tail]
      match rest with
      | [] => rfl
      | [i] => rfl
      | i :: right :: rest =>
          show (if i.isWaiting [.otherwise] = true then _ else _) = _
          rw [h.tail.isWaiting_eq_false (List.mem_cons_self ..)]
          rfl

theorem attachFor_eq_self (h : Lacks [.forLoop] level) :
    attachFor level = level := by
  fun_induction attachFor level with
  | case1 i name key cells body rest hi ih =>
      rw [h.isWaiting_eq_false (List.mem_cons_self ..)] at hi
      cases hi
  | case2 i name key cells body rest hi ih => rw [ih h.tail]
  | case3 => rfl

/-- Nor does that for assignments, with the left side at hand. -/
theorem attachAssignmentTo_eq_self (left : Item)
    (h : Lacks [.assign] level) :
    attachAssignmentTo left level = .ok (left :: level) := by
  fun_induction attachAssignmentTo left level with
  | case1 => rfl
  | case6 left i rest hi ih => rw [ih h.tail]; rfl
  | _ =>
      rename_i hi _
      exact absurd (h.isWaiting_eq_false (List.mem_cons_self ..))
        (by simp_all)

/-- The whole pass for assignments. -/
theorem attachAssignment_eq_self (h : Lacks [.assign] level) :
    attachAssignment level = .ok level := by
  cases level with
  | nil => rfl
  | cons i rest =>
      rw [attachAssignment, h.isWaiting_eq_false (List.mem_cons_self ..)]
      exact attachAssignmentTo_eq_self i h.tail

end Metrology.Tree
