/-
Plus and minus between two phrases. Both operators are also signs, and
which of the two they are is settled by the item right before them, while
the queries and units of that phrase still wait for their operand. A unit
that waits counts as the end of an operand, a query does not.

So between two phrases the operator is binary, unless the first one ends
in a query. There it is taken for a sign of the second phrase, the two
phrases end up side by side with nothing between them, and the row cannot
be read, though either phrase can be read alone.
-/
import Metrology.Proofs.Tree.Grammar

namespace Metrology.Tree

/-- The row is this phrase, and what stands before its atom are signs. -/
def Phrase.Reads (p : Phrase) (ts : List Token) : Prop :=
  (∀ op ∈ p.signs, op ∈ signOperators) ∧ p.Spells ts

/-- The phrase with one more sign before it. -/
def Phrase.addSign (op : Operator) (p : Phrase) : Phrase :=
  { p with signs := op :: p.signs }

/-- A phrase has tokens. -/
theorem Phrase.Spells.ne_nil {p : Phrase} {ts : List Token}
    (h : p.Spells ts) : ts ≠ [] := by
  obtain ⟨signs, atom, queries, units, rfl, -, hatom, -⟩ := h
  have hne := hatom.ne_nil
  simp [hne]

-- ============================================================ one phrase

/-- A phrase can be read alone, as its tree. -/
theorem Phrase.Reads.parse {p : Phrase} {ts : List Token} (h : p.Reads ts) :
    Tree.parse ts = .ok p.tree := by
  have hlegal : (Chain.mk p []).IsLegal := h.1
  have hspells : (Chain.mk p []).Spells ts :=
    ⟨ts, [], (List.append_nil ts).symm, h.2, rfl⟩
  obtain ⟨t, ht, hgroups⟩ := parse_of_spells hlegal hspells
  rw [ht, ← (hgroups p.tree).mp (groups_precedence_iff.mpr rfl)]

-- ==================================================== the operator between

/-- The operator between two phrases is binary where the first one does
not end in a query. -/
theorem parse_between {x y : Phrase} {xs ys : List Token} (hx : x.Reads xs)
    (hy : y.Reads ys) {op : Operator} (hop : op = .plus ∨ op = .minus)
    (hquery : ¬ x.EndsInQuery) (position : Nat) :
    parse (xs ++ ⟨.operator op, position⟩ :: ys)
      = .ok (.mk (.operator op) [x.tree, y.tree]) := by
  have hbinary : op ∈ precedence.flatten := by
    rcases hop with rfl | rfl <;> decide
  have hlegal : (Chain.mk x [(op, y)]).IsLegal :=
    ⟨hx.1, hbinary, fun _ => hquery, hy.1⟩
  have hspells : (Chain.mk x [(op, y)]).Spells
      (xs ++ ⟨.operator op, position⟩ :: ys) :=
    ⟨xs, _, rfl, hx.2, _, ys, [], by rw [List.append_nil], rfl, hy.2, rfl⟩
  -- a row of two phrases has one tree, and this is one
  have hgroups : (Chain.mk x [(op, y)]).Groups
      (.mk (.operator op) [x.tree, y.tree]) := by
    refine groups_precedence_iff.mpr ?_
    rcases hop with rfl | rfl <;> rfl
  obtain ⟨t, ht, hunique⟩ := parse_of_spells hlegal hspells
  rw [ht, ← (hunique _).mp hgroups]

-- ================================================= two phrases side by side

/-- What stands behind operands stays with the phrase it belongs to. -/
theorem attachTrailing_pair {wanted : Item → Bool} {p q p' q' : Phrase}
    (hdone : ∀ t, wanted (.done t) = false) (hp : Trails wanted p p')
    (hq : Trails wanted q q') :
    attachTrailing wanted (p.items ++ q.items)
      = .ok (p'.items ++ q'.items) := by
  have hhead := hq.head?_not_wanted hdone []
  have hrest : attachTrailing wanted (q.items ++ []) = .ok (q'.items ++ []) :=
    attachTrailing_phrase hq (by simp) rfl
  rw [List.append_nil] at hhead
  rw [List.append_nil, List.append_nil] at hrest
  exact attachTrailing_phrase hp hhead hrest

/-- Two trees are no single one; the error shows both. -/
theorem single_pair (t u : Tree) :
    single [.done t, .done u]
      = .error (.unfinished s!"[{t.describe}, {u.describe}]") := rfl

/-- Behind a query the signs of a phrase are signs, and two phrases with
nothing between them do not make one tree. -/
theorem reduce_side_by_side {p q : Phrase}
    (hp : ∀ op ∈ p.signs, op ∈ signOperators)
    (hq : ∀ op ∈ q.signs, op ∈ signOperators) (hquery : p.EndsInQuery) :
    reduce (p.items ++ q.items)
      = single [.done p.tree, .done q.tree] := by
  -- the query still waits when signs are attached, so what follows starts
  -- like a level of its own
  have hsecond : attachLeading (some p.last) q.items
      = .ok q.attachSigns.items := by
    have h : attachLeading (some p.last) (q.items ++ [])
        = .ok (q.attachSigns.items ++ []) :=
      attachLeading_phrase hq rfl (p.isPlaceholder_last.mpr hquery)
    rwa [List.append_nil, List.append_nil] at h
  have hsigns : attachLeading none (p.items ++ q.items)
      = .ok (p.attachSigns.items ++ q.attachSigns.items) :=
    attachLeading_phrase hp hsecond rfl
  have hqueries := attachTrailing_pair (fun _ => rfl)
    (trails_queries (p := p.attachSigns) rfl)
    (trails_queries (p := q.attachSigns) rfl)
  have hunits := attachTrailing_pair (fun _ => rfl)
    (trails_units (p := p.attachSigns.attachQueries) rfl rfl)
    (trails_units (p := q.attachSigns.attachQueries) rfl rfl)
  unfold reduce
  rw [hsigns, ok_bind, hqueries, ok_bind, hunits, ok_bind]
  rfl

/-- Behind a query the operator becomes a sign of the second phrase, and
the row cannot be read. -/
theorem parse_behind_query {x y : Phrase} {xs ys : List Token}
    (hx : x.Reads xs) (hy : y.Reads ys) (op : Operator)
    (hop : op ∈ signOperators) (hquery : x.EndsInQuery) (position : Nat) :
    parse (xs ++ ⟨.operator op, position⟩ :: ys)
      = single [.done x.tree, .done (y.addSign op).tree] := by
  have hys : items parse (pieces ys) = .ok y.items := by
    have h : items parse (pieces (ys ++ [])) = .ok (y.items ++ []) :=
      items_phrase hy.2 rfl rfl
    rwa [List.append_nil, List.append_nil] at h
  obtain ⟨hsign, hcall⟩ :=
    items_waiting (t := ⟨.operator op, position⟩) rfl hys
  have hitems : items parse (pieces (xs ++ ⟨.operator op, position⟩ :: ys))
      = .ok (x.items ++ (y.addSign op).items) :=
    items_phrase hx.2 hcall hsign
  have hsigns : ∀ o ∈ (y.addSign op).signs, o ∈ signOperators := by
    intro o ho
    rcases List.mem_cons.mp ho with rfl | ho
    · exact hop
    · exact hy.1 o ho
  obtain ⟨t, ts, rfl⟩ := List.exists_cons_of_ne_nil hx.2.ne_nil
  rw [List.cons_append, parse_cons, ← List.cons_append, hitems, ok_bind]
  exact reduce_side_by_side hx.1 hsigns hquery

-- ======================================================= the main theorem

/-- Plus and minus between two phrases. Either phrase can be read alone.
If the first one does not end in a query the operator is binary, with the
two trees as its operands; if it does, the operator goes to the second
phrase as a sign and the row is left with two trees. -/
theorem parse_phrase_sign_phrase (x y : Phrase) (xs ys : List Token)
    (hx : x.Reads xs) (hy : y.Reads ys) (op : Operator)
    (hop : op = .plus ∨ op = .minus) (position : Nat) :
    parse xs = .ok x.tree ∧ parse ys = .ok y.tree
      ∧ (¬ x.EndsInQuery →
          parse (xs ++ ⟨.operator op, position⟩ :: ys)
            = .ok (.mk (.operator op) [x.tree, y.tree]))
      ∧ (x.EndsInQuery →
          parse (xs ++ ⟨.operator op, position⟩ :: ys)
            = .error (.unfinished
                s!"[{x.tree.describe}, {(y.addSign op).tree.describe}]")) := by
  refine ⟨hx.parse, hy.parse, fun h => parse_between hx hy hop h position,
    fun h => ?_⟩
  have hsign : op ∈ signOperators := by
    rcases hop with rfl | rfl <;> decide
  rw [parse_behind_query hx hy op hsign h position, single_pair]

/-- The phrase `- x ? |m|`. -/
def measuredPhrase : Phrase :=
  ⟨[.minus], leaf (.variable "x"), 1, [("m", ⟨{ length := 1 }, 1.0, 0.0⟩)]⟩

/-- The phrase `x ?`. -/
def queriedPhrase : Phrase := ⟨[], leaf (.variable "x"), 1, []⟩

/-- The phrase `- y`. -/
def negatedPhrase : Phrase := ⟨[.minus], leaf (.variable "y"), 0, []⟩

/-- In `- x ? |m| - - y` the unit ends the operand and the minus behind it
is binary; in `x ? + - y` the plus is a sign. -/
theorem parse_phrase_sign_phrase_unit_query :
    parse [⟨.operator .minus, 0⟩, ⟨.name "x", 1⟩, ⟨.operator .certain, 2⟩,
        ⟨.unitBlock "m" ⟨{ length := 1 }, 1.0, 0.0⟩, 3⟩,
        ⟨.operator .minus, 6⟩, ⟨.operator .minus, 7⟩, ⟨.name "y", 8⟩]
      = .ok (.mk (.operator .minus)
          [.mk (.unitBlock "m" ⟨{ length := 1 }, 1.0, 0.0⟩)
            [.mk (.operator .certain)
              [.mk (.operator .minus) [leaf (.variable "x")]]],
           .mk (.operator .minus) [leaf (.variable "y")]])
      ∧ parse [⟨.name "x", 0⟩, ⟨.operator .certain, 1⟩, ⟨.operator .plus, 2⟩,
          ⟨.operator .minus, 3⟩, ⟨.name "y", 4⟩]
        = .error (.unfinished ("[Operator(?)[Variable(x)], " ++
            "Operator(+)[Operator(-)[Variable(y)]]]")) := by
  have hmeasured : measuredPhrase.Reads [⟨.operator .minus, 0⟩,
      ⟨.name "x", 1⟩, ⟨.operator .certain, 2⟩,
      ⟨.unitBlock "m" ⟨{ length := 1 }, 1.0, 0.0⟩, 3⟩] :=
    ⟨by decide, [_], [_], [_], [_], rfl, rfl, .name, rfl, rfl⟩
  have hqueried : queriedPhrase.Reads
      [⟨.name "x", 0⟩, ⟨.operator .certain, 1⟩] :=
    ⟨by decide, [], [_], [_], [], rfl, rfl, .name, rfl, rfl⟩
  have hnegated (p : Nat) : negatedPhrase.Reads
      [⟨.operator .minus, p⟩, ⟨.name "y", p + 1⟩] :=
    ⟨by decide, [_], [_], [], [], rfl, rfl, .name, rfl, rfl⟩
  have hunit := parse_phrase_sign_phrase _ _ _ _ hmeasured (hnegated 7)
    .minus (.inr rfl) 6
  have hquery := parse_phrase_sign_phrase _ _ _ _ hqueried (hnegated 3)
    .plus (.inl rfl) 2
  refine ⟨hunit.2.2.1 (by simp [Phrase.EndsInQuery, measuredPhrase]), ?_⟩
  refine (hquery.2.2.2 ⟨by decide, rfl⟩).trans ?_
  exact congrArg (Except.error ∘ ParseError.unfinished) (by decide +kernel)

/-- `x?` and `y` can be read, `x? + y` cannot. -/
theorem parse_query_plus :
    parse [⟨.name "x", 0⟩, ⟨.operator .certain, 1⟩]
        = .ok (.mk (.operator .certain) [leaf (.variable "x")])
      ∧ parse [⟨.name "y", 5⟩] = .ok (leaf (.variable "y"))
      ∧ parse [⟨.name "x", 0⟩, ⟨.operator .certain, 1⟩, ⟨.operator .plus, 3⟩,
          ⟨.name "y", 5⟩]
        = .error (.unfinished
            "[Operator(?)[Variable(x)], Operator(+)[Variable(y)]]") := by
  have hx : queriedPhrase.Reads [⟨.name "x", 0⟩, ⟨.operator .certain, 1⟩] :=
    ⟨by decide, [], [_], [_], [], rfl, rfl, .name, rfl, rfl⟩
  have hy : (Phrase.ofTree (leaf (.variable "y"))).Reads [⟨.name "y", 5⟩] :=
    ⟨by decide, [], [_], [], [], rfl, rfl, .name, rfl, rfl⟩
  refine ⟨hx.parse, hy.parse, ?_⟩
  refine (parse_behind_query hx hy .plus (by decide)
    ⟨by decide, rfl⟩ 3).trans ?_
  rw [single_pair]
  exact congrArg (Except.error ∘ ParseError.unfinished) (by decide +kernel)

end Metrology.Tree
