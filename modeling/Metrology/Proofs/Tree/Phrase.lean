/-
Expressions on the level. A phrase is an operand with everything that
sticks to it: signs before it, then queries and units behind it. A chain
is a row of phrases with binary operators between them. This file shows
that the passes accept exactly the chains, and what they make of them.

Forwards, a pass turns a chain into a chain with less to attach: signs
go into the operands, then queries, then units, until a row of bare
operands is left for the tiers. Backwards, a level that a pass turns into
a chain was a chain before; so from the single tree at the end the shape
of the level at the start follows pass by pass. The tree need not be
tracked on the way back: the way forwards gives it.

A sign is told from a binary operator by the item before it. Behind a
query, which still waits for its operand when signs are attached, plus
and minus count as signs; this is the one place where a row of phrases
and binary operators is not accepted.
-/
import Metrology.Proofs.Tree.Precedence

namespace Metrology.Tree

/-- The operators that may stand before an operand. -/
def signOperators : List Operator :=
  [.lnot, .plus, .minus, .valueOf, .uncertaintyOf]

/-- These are the operators that the pass for signs looks for. -/
theorem signOperators_eq : signOperators = .lnot :: leadingSigns := rfl

-- ====================================================== phrases and chains

/-- An operand with its signs, queries and units. -/
structure Phrase where
  signs : List Operator
  atom : Tree
  queries : Nat
  units : List (String × Scale)

namespace Phrase

/-- The operand with its signs, the last innermost. -/
def signed (p : Phrase) : Tree :=
  p.signs.foldr (fun op t => .mk (.operator op) [t]) p.atom

/-- The queries and units as items. -/
def tail (p : Phrase) : Level :=
  List.replicate p.queries (.waiting (.operator .certain))
    ++ p.units.map fun u => .waiting (.unitBlock u.1 u.2)

/-- The phrase as items. -/
def items (p : Phrase) : Level :=
  p.signs.map (fun op => .waiting (.operator op)) ++ .done p.atom :: p.tail

/-- The tree of a phrase: the operand, its signs around it, then its
queries, then its units. -/
def tree (p : Phrase) : Tree :=
  p.units.foldl (fun t u => .mk (.unitBlock u.1 u.2) [t])
    (Nat.repeat (fun t => .mk (.operator .certain) [t]) p.queries p.signed)

/-- The last that was written of the phrase is a query. -/
def EndsInQuery (p : Phrase) : Prop := p.queries ≠ 0 ∧ p.units = []

/-- The phrase with its signs attached. -/
def attachSigns (p : Phrase) : Phrase :=
  { p with signs := [], atom := p.signed }

/-- The phrase with its queries attached as well. -/
def attachQueries (p : Phrase) : Phrase :=
  { p with
    atom := Nat.repeat (fun t => .mk (.operator .certain) [t]) p.queries p.atom
    queries := 0 }

end Phrase

/-- Binary operators, each with the phrase behind it, as items. -/
def restItems (rest : List (Operator × Phrase)) : Level :=
  rest.flatMap fun x => .waiting (.operator x.1) :: x.2.items

/-- Operators and phrases with each phrase changed. -/
def mapRest {α : Type} (f : Phrase → α) (rest : List (Operator × Phrase)) :
    List (Operator × α) :=
  rest.map fun x => (x.1, f x.2)

/-- The signs are signs, the operators between the phrases are binary,
and no query has plus or minus right behind it. -/
def IsLegalFrom (p : Phrase) : List (Operator × Phrase) → Prop
  | [] => ∀ op ∈ p.signs, op ∈ signOperators
  | (op, q) :: rest =>
      (∀ op ∈ p.signs, op ∈ signOperators) ∧ op ∈ precedence.flatten
        ∧ (op = .plus ∨ op = .minus → ¬ p.EndsInQuery) ∧ IsLegalFrom q rest

/-- A row of phrases with operators between them. -/
structure Chain where
  first : Phrase
  rest : List (Operator × Phrase)

namespace Chain

/-- The chain as items. -/
def items (c : Chain) : Level := c.first.items ++ restItems c.rest

/-- The chain is legal from its first phrase on. -/
def IsLegal (c : Chain) : Prop := IsLegalFrom c.first c.rest

/-- The tree is that of the chain: the phrases are its operands, and the
operators between them group by precedence. -/
def Groups (c : Chain) (u : Tree) : Prop :=
  Tree.Groups precedence c.first.tree (mapRest Phrase.tree c.rest) u

end Chain

/-- The signs of the first phrase are signs. -/
theorem IsLegalFrom.signs {p : Phrase} {rest : List (Operator × Phrase)}
    (h : IsLegalFrom p rest) : ∀ op ∈ p.signs, op ∈ signOperators := by
  cases rest with
  | nil => exact h
  | cons x rest => exact h.1

/-- The operators between the phrases are binary. -/
theorem IsLegalFrom.binary :
    ∀ {rest : List (Operator × Phrase)} {p : Phrase}, IsLegalFrom p rest →
      ∀ x ∈ rest, x.1 ∈ precedence.flatten := by
  intro rest
  induction rest with
  | nil => intro p _ x hx; cases hx
  | cons y rest ih =>
      intro p h x hx
      rcases List.mem_cons.mp hx with rfl | hx
      · exact h.2.1
      · exact ih h.2.2.2 x hx

-- ================================================== signs, going forwards

variable {left : Option Item} {rest out : Level}

/-- An operand is kept. -/
theorem attachLeading_done {t : Tree}
    (h : attachLeading (some (.done t)) rest = .ok out) :
    attachLeading left (.done t :: rest) = .ok (.done t :: out) := by
  rw [attachLeading, h]
  cases out <;> rfl

theorem attachLeading_keep {i : Item} (hi : isLeading left i = false)
    (h : attachLeading (some i) rest = .ok out) :
    attachLeading left (i :: rest) = .ok (i :: out) := by
  rw [attachLeading, h]
  cases out with
  | nil => rfl
  | cons right out =>
      show (if isLeading left i = true then _ else _) = _
      rw [hi]
      rfl

/-- A sign takes the operand behind it. -/
theorem attachLeading_sign {op : Operator} {t : Tree}
    (hi : isLeading left (.waiting (.operator op)) = true)
    (h : attachLeading (some (.waiting (.operator op))) rest
      = .ok (.done t :: out)) :
    attachLeading left (.waiting (.operator op) :: rest)
      = .ok (.done (.mk (.operator op) [t]) :: out) := by
  rw [attachLeading, h]
  show (if isLeading left _ = true then _ else _) = _
  rw [hi]
  rfl

/-- A sign takes its operand where no operand stands before it. -/
theorem isLeading_of_placeholder {op : Operator}
    (hop : op ∈ signOperators) (hleft : left.all Item.isPlaceholder = true) :
    isLeading left (.waiting (.operator op)) = true := by
  rw [signOperators_eq, List.mem_cons] at hop
  unfold isLeading
  rw [hleft, Bool.and_true, Bool.or_eq_true]
  rcases hop with rfl | hop
  · exact .inl rfl
  · exact .inr (Item.isWaiting_iff.mpr ⟨op, hop, rfl⟩)

/-- A binary operator is no sign behind an operand or a unit. -/
theorem isLeading_binary {op : Operator} {i : Item}
    (hop : op ∈ precedence.flatten)
    (hi : op = .plus ∨ op = .minus → i.isPlaceholder = false) :
    isLeading (some i) (.waiting (.operator op)) = false := by
  have hcases : ∀ op ∈ precedence.flatten, op = .plus ∨ op = .minus
      ∨ (op ≠ .lnot ∧ op ∉ leadingSigns) := by
    decide
  unfold isLeading
  rcases hcases op hop with rfl | rfl | ⟨hnot, hsign⟩
  · rw [Option.all_some, hi (.inl rfl)]
    rfl
  · rw [Option.all_some, hi (.inr rfl)]
    rfl
  · simp [hnot, hsign]

/-- The item that stands right before what follows the phrase. -/
def Phrase.last (p : Phrase) : Item := p.tail.getLast?.getD (.done p.atom)

/-- The items before what follows a phrase's operand. -/
theorem attachLeading_tail :
    ∀ (tail : Level) (i : Item),
      (∀ j ∈ tail, ∀ left, isLeading left j = false) →
      attachLeading (some (tail.getLast?.getD i)) rest = .ok out →
      attachLeading (some i) (tail ++ rest) = .ok (tail ++ out) := by
  intro tail
  induction tail with
  | nil => intro i _ h; exact h
  | cons j tail ih =>
      intro i htail h
      refine attachLeading_keep (htail j (List.mem_cons_self ..) _)
        (ih j (fun k hk => htail k (List.mem_cons_of_mem _ hk)) ?_)
      rw [List.getLast?_cons] at h
      exact h

/-- Queries and units are no signs. -/
theorem Phrase.isLeading_tail (p : Phrase) :
    ∀ j ∈ p.tail, ∀ left, isLeading left j = false := by
  intro j hj left
  unfold Phrase.tail at hj
  rcases List.mem_append.mp hj with hj | hj
  · cases List.eq_of_mem_replicate hj
    rfl
  · obtain ⟨u, -, rfl⟩ := List.mem_map.mp hj
    rfl

/-- Only a query at its end makes a phrase end in a placeholder. -/
theorem Phrase.isPlaceholder_last (p : Phrase) :
    p.last.isPlaceholder = true ↔ p.EndsInQuery := by
  unfold Phrase.last Phrase.tail Phrase.EndsInQuery
  rcases List.eq_nil_or_concat p.units with hu | ⟨us, u, hu⟩
  · rw [hu]
    cases hq : p.queries with
    | zero => simp [Item.isPlaceholder]
    | succ n =>
        rw [List.map_nil, List.append_nil, List.replicate_succ',
          List.getLast?_append]
        simp [Item.isPlaceholder]
  · rw [hu]
    simp [Item.isPlaceholder]

/-- The signs of a phrase go into its operand, the last one first. -/
theorem attachLeading_phrase {p : Phrase}
    (hsigns : ∀ op ∈ p.signs, op ∈ signOperators)
    (h : attachLeading (some p.last) rest = .ok out) :
    ∀ {left : Option Item}, left.all Item.isPlaceholder = true →
      attachLeading left (p.items ++ rest)
        = .ok (p.attachSigns.items ++ out) := by
  have htail : attachLeading (some (.done p.atom)) (p.tail ++ rest)
      = .ok (p.tail ++ out) :=
    attachLeading_tail p.tail _ p.isLeading_tail h
  -- the signs, from the last one backwards
  have hfold : ∀ (ops : List Operator), (∀ op ∈ ops, op ∈ signOperators) →
      ∀ {left : Option Item}, left.all Item.isPlaceholder = true →
        attachLeading left (ops.map (fun op => .waiting (.operator op))
            ++ .done p.atom :: (p.tail ++ rest))
          = .ok (.done (ops.foldr (fun op t => .mk (.operator op) [t]) p.atom)
              :: (p.tail ++ out)) := by
    intro ops
    induction ops with
    | nil => intro _ left _; exact attachLeading_done htail
    | cons op ops ih =>
        intro hops left hleft
        exact attachLeading_sign
          (isLeading_of_placeholder (hops op (List.mem_cons_self ..)) hleft)
          (ih (fun o ho => hops o (List.mem_cons_of_mem _ ho)) rfl)
  intro left hleft
  have hitems : p.items ++ rest
      = p.signs.map (fun op => .waiting (.operator op))
        ++ .done p.atom :: (p.tail ++ rest) := by
    simp [Phrase.items]
  rw [hitems, hfold p.signs hsigns hleft]
  rfl

/-- An operator, its phrase and the rest. -/
@[simp] theorem restItems_cons (op : Operator) (p : Phrase)
    (rest : List (Operator × Phrase)) :
    restItems ((op, p) :: rest)
      = .waiting (.operator op) :: (p.items ++ restItems rest) := rfl

/-- Signs go into the operands of a legal chain; what follows the chain is
left to itself if it does not look back. -/
theorem attachLeading_chain_append {tail out : Level}
    (htail : ∀ left, attachLeading left tail = .ok out)
    (rest : List (Operator × Phrase)) :
    ∀ {p : Phrase} {left : Option Item}, IsLegalFrom p rest →
      left.all Item.isPlaceholder = true →
      attachLeading left (p.items ++ (restItems rest ++ tail))
        = .ok (p.attachSigns.items
            ++ (restItems (mapRest Phrase.attachSigns rest) ++ out)) := by
  induction rest with
  | nil =>
      intro p left h hleft
      exact attachLeading_phrase h.signs (htail _) hleft
  | cons x rest ih =>
      intro p left h hleft
      obtain ⟨op, q⟩ := x
      obtain ⟨hsigns, hop, hquery, hrest⟩ := h
      have hwaiting : (some (.waiting (.operator op))).all Item.isPlaceholder
          = true := rfl
      have hq := ih hrest hwaiting
      rw [← List.append_assoc, ← List.append_assoc] at hq
      refine attachLeading_phrase hsigns ?_ hleft
      refine attachLeading_keep (isLeading_binary hop fun hsign => ?_) hq
      rw [← Bool.not_eq_true, Phrase.isPlaceholder_last]
      exact hquery hsign

/-- The same for a chain with nothing behind it. -/
theorem attachLeading_chain (rest : List (Operator × Phrase)) {p : Phrase}
    {left : Option Item} (h : IsLegalFrom p rest)
    (hleft : left.all Item.isPlaceholder = true) :
    attachLeading left (p.items ++ restItems rest)
      = .ok (p.attachSigns.items
          ++ restItems (mapRest Phrase.attachSigns rest)) := by
  have hnil : ∀ left, attachLeading left [] = .ok [] := fun _ => rfl
  have happend := attachLeading_chain_append hnil rest h hleft
  rwa [List.append_nil, List.append_nil] at happend

-- ====================================== queries and units, going forwards

variable {wanted : Item → Bool}

/-- Items that are wanted go around the operand. -/
theorem attachTrailingTo_wanted :
    ∀ (is : List Item) (t : Tree), (∀ i ∈ is, wanted i = true) →
      attachTrailingTo wanted (.done t) (is ++ rest)
        = attachTrailingTo wanted (.done (trail t is)) rest := by
  intro is
  induction is with
  | nil => intro t _; rfl
  | cons i is ih =>
      intro t his
      rw [List.cons_append, attachTrailingTo,
        if_pos (his i (List.mem_cons_self ..))]
      exact ih _ fun j hj => his j (List.mem_cons_of_mem _ hj)

/-- Items that are not wanted are passed over. -/
theorem attachTrailingTo_kept (hhead : ∀ i ∈ rest.head?, wanted i = false)
    (h : attachTrailing wanted rest = .ok out) :
    ∀ (us : List Item) (left : Item), (∀ i ∈ us, wanted i = false) →
      attachTrailingTo wanted left (us ++ rest)
        = .ok (left :: (us ++ out)) := by
  intro us
  induction us with
  | nil =>
      intro left _
      cases rest with
      | nil => cases h; rfl
      | cons i rest =>
          rw [List.nil_append, attachTrailingTo, hhead i rfl]
          show (do return left :: (← attachTrailing wanted (i :: rest))) = _
          rw [h]
          rfl
  | cons u us ih =>
      intro left hus
      rw [List.cons_append, attachTrailingTo, hus u (List.mem_cons_self ..),
        ih u fun j hj => hus j (List.mem_cons_of_mem _ hj)]
      rfl

/-- The wanted items of a phrase follow its operand and the others follow
them, and the second phrase is the first with the wanted ones attached. -/
def Trails (wanted : Item → Bool) (p q : Phrase) : Prop :=
  ∃ t is us, p.items = .done t :: (is ++ us)
    ∧ q.items = .done (trail t is) :: us ∧ (∀ i ∈ is, wanted i = true)
    ∧ ∀ i ∈ us, wanted i = false

/-- A pass that attaches what stands behind operands treats a phrase
apart from what follows it. -/
theorem attachTrailing_phrase {p q : Phrase} (h : Trails wanted p q)
    (hhead : ∀ i ∈ rest.head?, wanted i = false)
    (hrest : attachTrailing wanted rest = .ok out) :
    attachTrailing wanted (p.items ++ rest) = .ok (q.items ++ out) := by
  obtain ⟨t, is, us, hitems, hout, his, hus⟩ := h
  rw [hitems, hout, List.cons_append, attachTrailing, List.append_assoc,
    attachTrailingTo_wanted _ _ his, attachTrailingTo_kept hhead hrest _ _ hus]
  rfl

/-- A phrase starts with its operand. -/
theorem Trails.head?_not_wanted {p q : Phrase} (h : Trails wanted p q)
    (hdone : ∀ t, wanted (.done t) = false) (rest : Level) :
    ∀ i ∈ (p.items ++ rest).head?, wanted i = false := by
  obtain ⟨t, is, us, hitems, -⟩ := h
  intro i hi
  rw [hitems] at hi
  cases hi
  exact hdone t

/-- So it treats the phrases of a chain one by one. -/
theorem attachTrailing_chain {f : Phrase → Phrase}
    (hdone : ∀ t, wanted (.done t) = false)
    (rest : List (Operator × Phrase)) :
    ∀ {p : Phrase}, Trails wanted p (f p) →
      (∀ x ∈ rest, Trails wanted x.2 (f x.2)
        ∧ wanted (.waiting (.operator x.1)) = false) →
      attachTrailing wanted (p.items ++ restItems rest)
        = .ok ((f p).items ++ restItems (mapRest f rest)) := by
  induction rest with
  | nil =>
      intro p hp _
      exact attachTrailing_phrase hp (by simp [restItems]) rfl
  | cons x rest ih =>
      intro p hp hrest
      obtain ⟨op, q⟩ := x
      obtain ⟨hq, hop⟩ := hrest (op, q) (List.mem_cons_self ..)
      have hq' := ih hq fun x hx => hrest x (List.mem_cons_of_mem _ hx)
      have htail : attachTrailing wanted (restItems ((op, q) :: rest))
          = .ok (restItems (mapRest f ((op, q) :: rest))) := by
        have hkept := attachTrailingTo_kept (hq.head?_not_wanted hdone _) hq'
          [] (.waiting (.operator op))
        exact hkept (by simp)
      exact attachTrailing_phrase hp (by simp [restItems_cons, hop]) htail

/-- Queries go around the operand one by one. -/
theorem trail_replicate (n : Nat) :
    ∀ (t : Tree),
      trail t (List.replicate n (.waiting (.operator .certain)))
        = Nat.repeat (fun t => .mk (.operator .certain) [t]) n t := by
  induction n with
  | zero => intro t; rfl
  | succ n ih =>
      intro t
      rw [List.replicate_succ', trail, List.foldl_append]
      show Tree.mk _ [trail t _] = _
      rw [ih]
      rfl

theorem trail_map_units (units : List (String × Scale)) :
    ∀ (t : Tree),
      trail t (units.map fun u => .waiting (.unitBlock u.1 u.2))
        = units.foldl (fun t u => .mk (.unitBlock u.1 u.2) [t]) t := by
  intro t
  rw [trail, List.foldl_map]
  rfl

/-- Once the signs are attached, the queries come next. -/
theorem trails_queries {p : Phrase} (hp : p.signs = []) :
    Trails (·.isWaiting [.certain]) p p.attachQueries := by
  refine ⟨p.atom, List.replicate p.queries (.waiting (.operator .certain)),
    p.units.map fun u => .waiting (.unitBlock u.1 u.2), ?_, ?_, ?_, ?_⟩
  · rw [Phrase.items, hp]
    rfl
  · rw [trail_replicate, Phrase.items, Phrase.attachQueries, hp]
    rfl
  · intro i hi
    cases List.eq_of_mem_replicate hi
    rfl
  · intro i hi
    obtain ⟨u, -, rfl⟩ := List.mem_map.mp hi
    rfl

/-- The phrase that is only its tree. -/
def Phrase.ofTree (t : Tree) : Phrase := ⟨[], t, 0, []⟩

/-- Once the queries are attached, only units are left. -/
theorem trails_units {p : Phrase} (hp : p.signs = []) (hq : p.queries = 0) :
    Trails Item.isUnitBlock p (.ofTree p.tree) := by
  refine ⟨p.atom, p.units.map fun u => .waiting (.unitBlock u.1 u.2), [],
    ?_, ?_, ?_, ?_⟩
  · rw [Phrase.items, Phrase.tail, hp, hq, List.append_nil]
    rfl
  · rw [trail_map_units, Phrase.tree, Phrase.signed, hp, hq]
    rfl
  · intro i hi
    obtain ⟨u, -, rfl⟩ := List.mem_map.mp hi
    rfl
  · intro i hi
    cases hi

/-- Phrases that are only their trees are bare operands. -/
theorem restItems_ofTree (links : List (Operator × Tree)) :
    restItems (links.map fun x => (x.1, Phrase.ofTree x.2))
      = linkItems links := by
  rw [restItems, linkItems, List.flatMap_map]
  rfl

-- ============================================== all passes, going forwards

/-- The passes for queries, units and binary operators. -/
def attachOperators (level : Level) : Except ParseError Level := do
  let level ← attachTrailing (·.isWaiting [.certain]) level
  let level ← attachTrailing Item.isUnitBlock level
  tiers.foldlM (fun level ops => attachBinary ops level) level

/-- The passes of a level: signs, operators, constructs. -/
theorem reduce_eq (level : Level) :
    reduce level = (do
      let level ← attachLeading none level
      let level ← attachOperators level
      let level ← attachElse (attachConditional .ifThen level)
      let level := attachFor (attachConditional .whileLoop level)
      single (← attachAssignment level)) := by
  simp only [reduce, attachOperators, bind_assoc]

/-- Once the signs of a legal chain are attached, the other operators make
it one tree. -/
theorem attachOperators_chain {p : Phrase} {rest : List (Operator × Phrase)}
    (h : IsLegalFrom p rest) {u : Tree} (hu : Chain.Groups ⟨p, rest⟩ u) :
    attachOperators (p.attachSigns.items
      ++ restItems (mapRest Phrase.attachSigns rest)) = .ok [.done u] := by
  have hqueries : attachTrailing (·.isWaiting [.certain])
      (p.attachSigns.items ++ restItems (mapRest Phrase.attachSigns rest))
      = _ :=
    attachTrailing_chain (f := Phrase.attachQueries) (fun _ => rfl) _
      (trails_queries rfl) (by
      intro x hx
      obtain ⟨y, hy, rfl⟩ := List.mem_map.mp hx
      refine ⟨trails_queries rfl, ?_⟩
      have hcertain : Operator.certain ∉ precedence.flatten := by decide
      have hne : y.1 ≠ .certain :=
        fun heq => hcertain (heq ▸ IsLegalFrom.binary h y hy)
      simpa using hne)
  have hunits : attachTrailing Item.isUnitBlock
      (p.attachSigns.attachQueries.items ++ restItems
        (mapRest Phrase.attachQueries (mapRest Phrase.attachSigns rest)))
      = _ :=
    attachTrailing_chain (f := fun p => .ofTree p.tree) (fun _ => rfl) _
      (trails_units rfl rfl) (by
      intro x hx
      obtain ⟨y, hy, rfl⟩ := List.mem_map.mp hx
      obtain ⟨z, hz, rfl⟩ := List.mem_map.mp hy
      exact ⟨trails_units rfl rfl, rfl⟩)
  -- attaching signs and queries does not change the tree of a phrase
  have hrow : (Phrase.ofTree p.attachSigns.attachQueries.tree).items
      ++ restItems (mapRest (fun p => .ofTree p.tree)
          (mapRest Phrase.attachQueries (mapRest Phrase.attachSigns rest)))
      = rowItems (p.tree, mapRest Phrase.tree rest) := by
    rw [rowItems, ← restItems_ofTree]
    simp only [mapRest, List.map_map]
    rfl
  have htiers := foldlM_attachBinary tiers (p.tree, mapRest Phrase.tree rest)
  rw [groups_precedence_iff.mp hu] at htiers
  rw [attachOperators, hqueries, ok_bind, hunits, hrow, ok_bind, htiers]
  rfl

/-- The passes find the tree of a legal chain. -/
theorem reduce_chain {c : Chain} (h : c.IsLegal) {u : Tree}
    (hu : c.Groups u) : reduce c.items = .ok u := by
  rw [reduce_eq, Chain.items, attachLeading_chain c.rest h rfl, ok_bind,
    attachOperators_chain h hu]
  rfl

-- =================================== queries and units, going backwards

/-- Items that wait in the result were there before. -/
theorem Gathers.of_waiting_append {merge : Level → Tree → Prop} :
    ∀ (ns : List Node) {level : Level},
      Gathers merge level (ns.map .waiting ++ out) →
      ∃ rest, level = ns.map .waiting ++ rest ∧ Gathers merge rest out := by
  intro ns
  induction ns with
  | nil => intro level h; exact ⟨level, rfl, h⟩
  | cons n ns ih =>
      intro level h
      obtain ⟨tail, rfl, htail⟩ := h.of_waiting_cons
      obtain ⟨rest, rfl, hrest⟩ := ih htail
      exact ⟨rest, rfl, hrest⟩

/-- An operand with waiting items behind it had the wanted items between
them. -/
theorem Gathers.of_operand {t : Tree} (ns : List Node) {level : Level}
    (h : Gathers (Trailed wanted) level
      (.done t :: (ns.map .waiting ++ out))) :
    ∃ t' is rest, level = .done t' :: (is ++ (ns.map .waiting ++ rest))
      ∧ (∀ i ∈ is, wanted i = true) ∧ Gathers (Trailed wanted) rest out := by
  rcases h.of_done_cons with ⟨tail, rfl, htail⟩ | ⟨_, tail, rfl, hm, htail⟩
  · obtain ⟨rest, rfl, hrest⟩ := Gathers.of_waiting_append ns htail
    exact ⟨t, [], rest, rfl, by simp, hrest⟩
  · obtain ⟨t', is, -, his, rfl, -⟩ := hm
    obtain ⟨rest, rfl, hrest⟩ := Gathers.of_waiting_append ns htail
    exact ⟨t', is, rest, rfl, his, hrest⟩

/-- The nodes of the units of a phrase. -/
def unitNodes (units : List (String × Scale)) : List Node :=
  units.map fun u => .unitBlock u.1 u.2

/-- Items that are all units are the units of a phrase. -/
theorem exists_unitNodes {is : List Item}
    (h : ∀ i ∈ is, i.isUnitBlock = true) :
    ∃ units, is = (unitNodes units).map .waiting := by
  induction is with
  | nil => exact ⟨[], rfl⟩
  | cons i is ih =>
      obtain ⟨text, scale, rfl⟩ :=
        Item.isUnitBlock_iff.mp (h i (List.mem_cons_self ..))
      obtain ⟨units, rfl⟩ := ih fun j hj => h j (List.mem_cons_of_mem _ hj)
      exact ⟨(text, scale) :: units, rfl⟩

/-- What becomes a row of bare operands was a chain without signs and
queries. -/
theorem exists_rest_of_units (links : List (Operator × Tree)) :
    ∀ (t : Tree) {level : Level},
      Gathers (Trailed Item.isUnitBlock) level (rowItems (t, links)) →
      ∃ p rest, level = p.items ++ restItems rest
        ∧ rest.map Prod.fst = links.map Prod.fst
        ∧ ∀ q ∈ p :: rest.map Prod.snd, q.signs = [] ∧ q.queries = 0 := by
  induction links with
  | nil =>
      intro t level h
      obtain ⟨t', is, rest, rfl, his, hrest⟩ :=
        Gathers.of_operand [] h
      obtain ⟨units, rfl⟩ := exists_unitNodes his
      cases hrest
      refine ⟨⟨[], t', 0, units⟩, [], ?_, rfl, by simp⟩
      simp [Phrase.items, Phrase.tail, restItems, unitNodes]
  | cons x links ih =>
      intro t level h
      obtain ⟨op, s⟩ := x
      obtain ⟨t', is, tail, rfl, his, htail⟩ :=
        Gathers.of_operand [] h
      obtain ⟨units, rfl⟩ := exists_unitNodes his
      obtain ⟨level, rfl, hlevel⟩ := htail.of_waiting_cons
      obtain ⟨q, rest, rfl, hops, hq⟩ := ih s hlevel
      refine ⟨⟨[], t', 0, units⟩, (op, q) :: rest, ?_, ?_, ?_⟩
      · simp [Phrase.items, Phrase.tail, restItems, unitNodes]
      · simp [hops]
      · simpa using hq

/-- What becomes a phrase without queries was a phrase. -/
theorem Gathers.of_phrase {p' : Phrase} (hsigns : p'.signs = [])
    (hqueries : p'.queries = 0) {level out : Level}
    (h : Gathers (Trailed (·.isWaiting [.certain])) level
      (p'.items ++ out)) :
    ∃ (p : Phrase) (rest : Level), level = p.items ++ rest ∧ p.signs = []
      ∧ Gathers (Trailed (·.isWaiting [.certain])) rest out := by
  have hitems : p'.items ++ out
      = .done p'.atom :: ((unitNodes p'.units).map .waiting ++ out) := by
    simp [Phrase.items, Phrase.tail, hsigns, hqueries, unitNodes]
  rw [hitems] at h
  obtain ⟨t, is, rest, rfl, his, hrest⟩ := Gathers.of_operand _ h
  have hrep : is
      = List.replicate is.length (.waiting (.operator .certain)) := by
    refine List.eq_replicate_iff.mpr ⟨rfl, fun i hi => ?_⟩
    obtain ⟨op, hop, rfl⟩ := Item.isWaiting_iff.mp (his i hi)
    cases List.mem_singleton.mp hop
    rfl
  refine ⟨⟨[], t, is.length, p'.units⟩, rest, ?_, rfl, hrest⟩
  rw [Phrase.items, Phrase.tail, ← hrep]
  simp [unitNodes]

/-- What becomes a chain without signs and queries was one without
signs. -/
theorem exists_rest_of_queries (rest' : List (Operator × Phrase)) :
    ∀ (p' : Phrase) {level : Level},
      Gathers (Trailed (·.isWaiting [.certain])) level
        (p'.items ++ restItems rest') →
      (∀ q ∈ p' :: rest'.map Prod.snd, q.signs = [] ∧ q.queries = 0) →
      ∃ p rest, level = p.items ++ restItems rest
        ∧ rest.map Prod.fst = rest'.map Prod.fst
        ∧ ∀ q ∈ p :: rest.map Prod.snd, q.signs = [] := by
  induction rest' with
  | nil =>
      intro p' level h hp
      obtain ⟨hsigns, hqueries⟩ := hp p' (List.mem_cons_self ..)
      obtain ⟨p, rest, rfl, hp', hrest⟩ := Gathers.of_phrase hsigns hqueries h
      cases hrest
      exact ⟨p, [], rfl, rfl, by simpa using hp'⟩
  | cons x rest' ih =>
      intro p' level h hp
      obtain ⟨op, q'⟩ := x
      obtain ⟨hsigns, hqueries⟩ := hp p' (List.mem_cons_self ..)
      obtain ⟨p, tail, rfl, hp', htail⟩ := Gathers.of_phrase hsigns hqueries h
      obtain ⟨level, rfl, hlevel⟩ := htail.of_waiting_cons
      obtain ⟨q, rest, rfl, hops, hq⟩ :=
        ih q' hlevel fun q hq => hp q (List.mem_cons_of_mem _ hq)
      refine ⟨p, (op, q) :: rest, rfl, by simp [hops], ?_⟩
      intro r hr
      rcases List.mem_cons.mp hr with rfl | hr
      · exact hp'
      · exact hq r hr

-- ================================================= signs, going backwards

/-- A complete tree in the result was an operand with signs before it. -/
theorem Leads.of_done :
    ∀ {level : Level} {left : Option Item} {t : Tree},
      Leads left level (.done t :: out) →
      ∃ (ops : List Operator) (a : Tree) (rest : Level),
        level = ops.map (fun op => .waiting (.operator op))
          ++ .done a :: rest
        ∧ (∀ op ∈ ops, op ∈ signOperators)
        ∧ Leads (some (.done a)) rest out := by
  intro level
  induction level with
  | nil => intro left t h; cases h
  | cons i level ih =>
      intro left t h
      cases h with
      | last => exact ⟨[], t, [], rfl, by simp, .nil⟩
      | keep _ h => exact ⟨[], t, level, rfl, by simp, h⟩
      | sign hop h =>
          obtain ⟨ops, a, rest, rfl, hops, hrest⟩ := ih h
          obtain ⟨op, hmem, heq⟩ := isLeading_cases hop
          cases heq
          exact ⟨_ :: ops, a, rest, rfl, by simpa using ⟨hmem, hops⟩, hrest⟩

/-- A waiting item in the result was there before, and is no sign unless
it is the last. -/
theorem Leads.of_waiting {level : Level} {n : Node}
    (h : Leads left level (.waiting n :: out)) :
    ∃ rest, level = .waiting n :: rest
      ∧ (out ≠ [] → isLeading left (.waiting n) = false)
      ∧ Leads (some (.waiting n)) rest out := by
  cases h with
  | last => exact ⟨[], rfl, fun hne => absurd rfl hne, .nil⟩
  | keep hi h => exact ⟨_, rfl, fun _ => hi, h⟩

/-- Items that wait in the result were there before, the last of them before
the rest. -/
theorem Leads.of_waiting_append :
    ∀ (ns : List Node) {level : Level} {i : Item},
      Leads (some i) level (ns.map .waiting ++ out) →
      ∃ rest, level = ns.map .waiting ++ rest
        ∧ Leads (some ((ns.map Item.waiting).getLast?.getD i)) rest out := by
  intro ns
  induction ns with
  | nil => intro level i h; exact ⟨level, rfl, h⟩
  | cons n ns ih =>
      intro level i h
      obtain ⟨tail, rfl, -, htail⟩ := h.of_waiting
      obtain ⟨rest, rfl, hrest⟩ := ih htail
      refine ⟨rest, rfl, ?_⟩
      rw [List.map_cons, List.getLast?_cons]
      exact hrest

/-- The nodes that wait behind the operand of a phrase. -/
def Phrase.tailNodes (p : Phrase) : List Node :=
  List.replicate p.queries (.operator .certain) ++ unitNodes p.units

/-- They are its queries and units as items. -/
theorem Phrase.tail_eq (p : Phrase) : p.tail = p.tailNodes.map .waiting := by
  simp [Phrase.tail, Phrase.tailNodes, unitNodes]

/-- What becomes a phrase without signs was a phrase with signs. -/
theorem Leads.of_phrase {p' : Phrase} (hsigns : p'.signs = [])
    {level out : Level} {left : Option Item}
    (h : Leads left level (p'.items ++ out)) :
    ∃ (p : Phrase) (rest : Level), level = p.items ++ rest
      ∧ (∀ op ∈ p.signs, op ∈ signOperators)
      ∧ Leads (some p.last) rest out := by
  have hitems : p'.items ++ out
      = .done p'.atom :: (p'.tailNodes.map .waiting ++ out) := by
    rw [Phrase.items, hsigns, p'.tail_eq]
    rfl
  rw [hitems] at h
  obtain ⟨ops, a, tail, rfl, hops, htail⟩ := h.of_done
  obtain ⟨rest, rfl, hrest⟩ := Leads.of_waiting_append _ htail
  refine ⟨⟨ops, a, p'.queries, p'.units⟩, rest, ?_, hops, ?_⟩
  · rw [Phrase.items, Phrase.tail_eq, List.append_assoc]
    rfl
  · rw [Phrase.last, Phrase.tail_eq]
    exact hrest

/-- What becomes a chain of binary operators without signs was a legal
chain. -/
theorem exists_legal_of_leads (rest' : List (Operator × Phrase)) :
    ∀ (p' : Phrase) {level : Level} {left : Option Item},
      Leads left level (p'.items ++ restItems rest') →
      (∀ q ∈ p' :: rest'.map Prod.snd, q.signs = []) →
      (∀ x ∈ rest', x.1 ∈ precedence.flatten) →
      ∃ p rest, level = p.items ++ restItems rest ∧ IsLegalFrom p rest := by
  induction rest' with
  | nil =>
      intro p' level left h hsigns _
      obtain ⟨p, rest, rfl, hp, hrest⟩ :=
        Leads.of_phrase (hsigns p' (List.mem_cons_self ..)) h
      cases hrest
      exact ⟨p, [], rfl, hp⟩
  | cons x rest' ih =>
      intro p' level left h hsigns hops
      obtain ⟨op, q'⟩ := x
      have hop := hops (op, q') (List.mem_cons_self ..)
      obtain ⟨p, tail, rfl, hp, htail⟩ :=
        Leads.of_phrase (hsigns p' (List.mem_cons_self ..)) h
      obtain ⟨level, rfl, hlead, hlevel⟩ := htail.of_waiting
      obtain ⟨q, rest, rfl, hq⟩ := ih q' hlevel
        (fun q hq => hsigns q (List.mem_cons_of_mem _ hq))
        (fun x hx => hops x (List.mem_cons_of_mem _ hx))
      refine ⟨p, (op, q) :: rest, rfl, hp, hop, fun hsign hquery => ?_, hq⟩
      -- behind a query the operator would have been taken for a sign
      have hlast : p.last.isPlaceholder = true :=
        p.isPlaceholder_last.mpr hquery
      have hmem : op ∈ signOperators := by
        rcases hsign with rfl | rfl <;> decide
      have htrue := @isLeading_of_placeholder (some p.last) _ hmem hlast
      have hfalse := hlead (by
        show q'.items ++ restItems rest' ≠ []
        simp [Phrase.items])
      rw [htrue] at hfalse
      cases hfalse

-- ============================================= all passes, going backwards

/-- The operators that steer a program. -/
def constructOperators : List Operator :=
  [.ifThen, .otherwise, .whileLoop, .forLoop, .assign]

/-- What waits behind all tiers waited before them. -/
theorem mem_of_waiting_mem_foldlM {n : Node} :
    ∀ (order : List (List Operator)) {level : Level},
      order.foldlM (fun level ops => attachBinary ops level) level
        = .ok out →
      .waiting n ∈ out → .waiting n ∈ level := by
  intro order
  induction order with
  | nil => intro level h hn; cases h; exact hn
  | cons tier order ih =>
      intro level h hn
      rw [List.foldlM_cons] at h
      obtain ⟨level', hpass, h⟩ := bind_eq_ok.mp h
      exact (gathers_of_attachBinary hpass).mem_of_waiting_mem (ih h hn)

/-- A single tree is what is left. -/
theorem single_eq_ok {level : Level} {u : Tree}
    (h : single level = .ok u) : level = [.done u] := by
  unfold single at h
  split at h
  · cases h; rfl
  · cases h
  · cases h

/-- Without constructs the passes for constructs change nothing. -/
theorem eq_singleton_of_constructs {level : Level} {u : Tree}
    (hlack : Lacks constructOperators level)
    (h : (do
      let level ← attachElse (attachConditional .ifThen level)
      let level := attachFor (attachConditional .whileLoop level)
      single (← attachAssignment level)) = Except.ok u) :
    level = [.done u] := by
  rw [attachConditional_eq_self (hlack.mono (by decide)),
    attachElse_eq_self (hlack.mono (by decide)), ok_bind] at h
  simp only at h
  rw [attachConditional_eq_self (hlack.mono (by decide)),
    attachFor_eq_self (hlack.mono (by decide)),
    attachAssignment_eq_self (hlack.mono (by decide)), ok_bind] at h
  exact single_eq_ok h

/-- A level without constructs that reduces to a tree is a legal chain. -/
theorem exists_chain_of_reduce {level : Level} {u : Tree}
    (hlack : Lacks constructOperators level) (h : reduce level = .ok u) :
    ∃ c : Chain, c.IsLegal ∧ level = c.items := by
  unfold reduce at h
  obtain ⟨signed, hsigned, h⟩ := bind_eq_ok.mp h
  obtain ⟨queried, hqueried, h⟩ := bind_eq_ok.mp h
  obtain ⟨measured, hmeasured, h⟩ := bind_eq_ok.mp h
  obtain ⟨grouped, hgrouped, h⟩ := bind_eq_ok.mp h
  have hsigned := leads_of_attachLeading _ _ hsigned
  have hqueried := gathers_of_attachTrailing hqueried
  have hmeasured := gathers_of_attachTrailing hmeasured
  -- no pass makes an item wait, so there are no constructs behind the
  -- operators either
  have hlack' : Lacks constructOperators grouped := fun op hop hmem =>
    hlack op hop (hsigned.mem_of_waiting_mem (hqueried.mem_of_waiting_mem
      (hmeasured.mem_of_waiting_mem
        (mem_of_waiting_mem_foldlM _ hgrouped hmem))))
  cases eq_singleton_of_constructs hlack' h
  -- from here on backwards, one pass at a time
  obtain ⟨t, links, rfl, hops⟩ := rowItems_of_foldlM _ hgrouped
  obtain ⟨p₂, rest₂, rfl, hops₂, hp₂⟩ := exists_rest_of_units _ _ hmeasured
  obtain ⟨p₁, rest₁, rfl, hops₁, hp₁⟩ :=
    exists_rest_of_queries _ _ hqueried hp₂
  have hbinary : ∀ x ∈ rest₁, x.1 ∈ precedence.flatten := by
    intro x hx
    have hmem : x.1 ∈ links.map Prod.fst := by
      rw [← hops₂, ← hops₁]
      exact List.mem_map_of_mem hx
    obtain ⟨y, hy, hxy⟩ := List.mem_map.mp hmem
    obtain ⟨tier, htier, hop⟩ := List.mem_flatten.mp (hops y hy)
    rw [precedence_eq, ← hxy]
    exact List.mem_flatten.mpr ⟨tier, List.mem_reverse.mpr htier, hop⟩
  obtain ⟨p, rest, rfl, hlegal⟩ :=
    exists_legal_of_leads _ _ hsigned hp₁ hbinary
  exact ⟨⟨p, rest⟩, hlegal, rfl⟩

end Metrology.Tree
