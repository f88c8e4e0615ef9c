/-
Levels worked on in place. The passes take a level apart item by item. The
same work can be done by loops over an index: a loop looks at the items
around its index, takes some of them out, puts a complete tree in place of
another, and goes on from the next place, rightward or leftward.

Such a loop can ask for a place that the level does not have, before its
start or, once items have been taken out, behind its end. Reading, taking
out and replacing an item there is a misstep of its own (`outside`), apart
from the errors of the program that is read (`refused`).

A step of a loop makes the level shorter or moves the index on, so a loop
ends (`Loop.runFrom`). That it never asks for a place outside the level is
shown in `InRange`.
-/
import Metrology.Proofs.Sequence
import Metrology.Tree.Parse

namespace Metrology.Tree

-- ============================================================== places

/-- Why work in place stops early. -/
inductive Misstep where
  | refused (e : ParseError)
  /-- A place was asked for that a level of this length does not have. -/
  | outside (place : Int) (length : Nat)

/-- The item at a place. -/
def itemAt (level : Level) (i : Int) : Except Misstep Item :=
  if h : 0 ≤ i ∧ i < level.length then
    .ok (level.get ⟨i.toNat, by omega⟩)
  else .error (.outside i level.length)

/-- The level without the item at a place. -/
def deleteAt (level : Level) (i : Int) : Except Misstep Level := do
  let _ ← itemAt level i
  return level.eraseIdx i.toNat

/-- The level with another item at a place. -/
def putAt (level : Level) (i : Int) (new : Item) : Except Misstep Level := do
  let _ ← itemAt level i
  return level.set i.toNat new

/-- The item to the left of a place; none stands before the first. -/
def leftOf (level : Level) (i : Int) : Except Misstep (Option Item) :=
  if 0 < i then some <$> itemAt level (i - 1) else .ok none

/-- A place whose item is read is in the level. -/
theorem lt_length_of_itemAt {level : Level} {i : Int} {x : Item}
    (h : itemAt level i = .ok x) : i.toNat < level.length := by
  unfold itemAt at h
  split at h
  · omega
  · cases h

/-- Taking an item out makes the level shorter by one. -/
theorem length_of_deleteAt {level out : Level} {i : Int}
    (h : deleteAt level i = .ok out) : out.length + 1 = level.length := by
  obtain ⟨x, hx, h⟩ := bind_eq_ok.mp h
  cases h
  have hlt := lt_length_of_itemAt hx
  rw [List.length_eraseIdx_of_lt hlt]
  omega

/-- Replacing an item keeps the length of the level. -/
theorem length_of_putAt {level out : Level} {i : Int} {new : Item}
    (h : putAt level i new = .ok out) : out.length = level.length := by
  obtain ⟨x, -, h⟩ := bind_eq_ok.mp h
  cases h
  exact List.length_set

-- =============================================================== loops

/-- A level and the place in it where work goes on. -/
structure Cursor where
  index : Int
  level : Level

/-- Which way an index goes. -/
inductive Direction where
  | rightward
  | leftward

namespace Direction

/-- The next place. -/
def next : Direction → Int → Int
  | .rightward, i => i + 1
  | .leftward, i => i - 1

/-- How many places lie ahead of the index. -/
def ahead : Direction → Cursor → Nat
  | .rightward, c => (c.level.length - c.index).toNat
  | .leftward, c => (c.index + 1).toNat

end Direction

/-- The second cursor has a shorter level, or one as long and the next
index. -/
def Advances (d : Direction) (c c' : Cursor) : Prop :=
  c'.level.length < c.level.length
    ∨ c'.level.length = c.level.length ∧ c'.index = d.next c.index

/-- Going on to the next place of the same level is an advance. -/
theorem Advances.move {d : Direction} {c : Cursor} :
    Advances d c ⟨d.next c.index, c.level⟩ := .inr ⟨rfl, rfl⟩

/-- Whatever makes the level shorter is an advance, wherever it goes on. -/
theorem Advances.shorter {d : Direction} {c : Cursor} {i : Int}
    {level : Level} (h : level.length < c.level.length) :
    Advances d c ⟨i, level⟩ := .inl h

/-- A loop over the places of a level. -/
structure Loop where
  direction : Direction
  /-- The first place. -/
  start : Level → Int
  /-- How many places the index stays away from the end it moves to. -/
  margin : Nat
  step : Cursor → Except Misstep Cursor
  advances : ∀ c, YieldsOnly (Advances direction c) (step c)

namespace Loop

/-- The index has not come to its end. -/
def goesOn (loop : Loop) (c : Cursor) : Bool :=
  match loop.direction with
  | .rightward => c.index + loop.margin < c.level.length
  | .leftward => loop.margin ≤ c.index

/-- A step from a place before the end leaves a shorter level, or as long
a one and less ahead. -/
theorem lex_of_step {loop : Loop} {c c' : Cursor}
    (hc : loop.goesOn c = true) (hs : loop.step c = .ok c') :
    Prod.Lex (· < ·) (· < ·)
      (c'.level.length, loop.direction.ahead c')
      (c.level.length, loop.direction.ahead c) := by
  rcases loop.advances c c' hs with hlt | ⟨heq, hindex⟩
  · exact .left _ _ hlt
  · rw [heq]
    -- the level is as long as before, so the index has moved on, and the
    -- loop had not come to its end
    refine .right _ ?_
    unfold goesOn at hc
    cases hd : loop.direction with
    | rightward =>
        simp only [hd, decide_eq_true_eq, Direction.next] at hc hindex
        simp only [Direction.ahead]
        omega
    | leftward =>
        simp only [hd, decide_eq_true_eq, Direction.next] at hc hindex
        simp only [Direction.ahead]
        omega

/-- There is no endless row of steps. -/
theorem wellFounded_step (loop : Loop) :
    WellFounded fun c' c => loop.goesOn c = true ∧ loop.step c = .ok c' := by
  have hlex := InvImage.wf
    (fun c : Cursor => (c.level.length, loop.direction.ahead c))
    (Prod.lex Nat.lt_wfRel Nat.lt_wfRel).wf
  exact Subrelation.wf (fun h => lex_of_step h.1 h.2) hlex

/-- The level when the loop is over. -/
def runFrom (loop : Loop) (c : Cursor) : Except Misstep Level :=
  if _hc : loop.goesOn c = true then
    match _hs : loop.step c with
    | .ok c' => loop.runFrom c'
    | .error m => .error m
  else .ok c.level
termination_by (c.level.length, loop.direction.ahead c)
decreasing_by exact lex_of_step _hc _hs

/-- Before its end, a loop goes on behind its next step. -/
theorem runFrom_of_goesOn {loop : Loop} {c : Cursor}
    (h : loop.goesOn c = true) :
    loop.runFrom c = loop.step c >>= loop.runFrom := by
  rw [runFrom, dif_pos h]
  split
  · next hs => rw [hs]; rfl
  · next hs => rw [hs]; rfl

/-- At its end, a loop is over. -/
theorem runFrom_of_not_goesOn {loop : Loop} {c : Cursor}
    (h : loop.goesOn c = false) : loop.runFrom c = .ok c.level := by
  rw [runFrom, dif_neg (by simp [h])]

/-- The level a loop makes of a level. -/
def runOn (loop : Loop) (level : Level) : Except Misstep Level :=
  loop.runFrom ⟨loop.start level, level⟩

end Loop

-- ================================================ loops for the passes

/-- The symbol of a waiting operator. -/
def Item.symbol (i : Item) : String :=
  (i.waitingOperator?.map Operator.symbol).getD ""

/-- A sign takes out the operand behind it. -/
def signStep (c : Cursor) : Except Misstep Cursor := do
  let here ← itemAt c.level c.index
  let left ← leftOf c.level c.index
  if isLeading left here then
    let right ← itemAt c.level (c.index + 1)
    let level ← deleteAt c.level (c.index + 1)
    if right.hasValue then
      let level ← putAt level c.index (here.attach [right])
      return ⟨c.index - 1, level⟩
    else throw (.refused (.signWithoutOperand here.symbol right.label))
  else return ⟨c.index - 1, c.level⟩

/-- Signs, from the last item but one to the first. -/
def signLoop : Loop where
  direction := .leftward
  start level := level.length - 2
  margin := 0
  step := signStep
  advances c := by
    refine .bind fun here _ => .bind fun left _ => .ite ?_ (.ok .move)
    refine .bind fun right _ => .bind fun level hdel => .ite ?_ .error
    refine .bind fun level' hput => .ok (.shorter ?_)
    have hlen := length_of_deleteAt hdel
    have hlen' := length_of_putAt hput
    omega

/-- A query or unit takes out the operand before it. It then stands one
place before the index, which stays. -/
def trailingStep (wanted : Item → Bool) (c : Cursor) :
    Except Misstep Cursor := do
  let here ← itemAt c.level c.index
  if wanted here then
    let left ← itemAt c.level (c.index - 1)
    let level ← deleteAt c.level (c.index - 1)
    let operator ← itemAt level (c.index - 1)
    if left.hasValue then
      let level ← putAt level (c.index - 1) (operator.attach [left])
      return ⟨c.index, level⟩
    else throw (.refused (.nothingBefore left.label operator.label))
  else return ⟨c.index + 1, c.level⟩

/-- Queries or units, from the second item on. -/
def trailingLoop (wanted : Item → Bool) : Loop where
  direction := .rightward
  start _ := 1
  margin := 0
  step := trailingStep wanted
  advances c := by
    refine .bind fun here _ => .ite ?_ (.ok .move)
    refine .bind fun left _ => .bind fun level hdel => ?_
    refine .bind fun operator _ => .ite ?_ .error
    refine .bind fun level' hput => .ok (.shorter ?_)
    have hlen := length_of_deleteAt hdel
    have hlen' := length_of_putAt hput
    omega

/-- What an operator between two operands is, and what can be wrong with
its surroundings. -/
structure Joint where
  wanted : Item → Bool
  /-- It stands at an end of the level. -/
  atEdge : Item → ParseError
  /-- Its neighbours, to the left and right of it, do not suit it. -/
  fault? : Item → Item → Item → Option ParseError

namespace Joint

/-- An operator of a tier. -/
def binary (ops : List Operator) : Joint where
  wanted i := i.isWaiting ops
  atEdge i := .operatorAtEdge i.symbol
  fault? left i right :=
    if left.hasValue && right.hasValue then none
    else some (.operandWithoutValue left.label i.symbol right.label)

/-- The sign of an assignment. -/
def assignment : Joint where
  wanted i := i.isWaiting [.assign]
  atEdge _ := .assignmentAtEdge
  fault? left _ right :=
    if !(left.isVariable && left.tree.children.isEmpty) then
      some (.assignmentTarget left.label)
    else if !right.hasValue then some (.assignmentValue right.label)
    else none

/-- An operator takes out both its neighbours. It then stands one place
before the index, which stays. -/
def step (j : Joint) (c : Cursor) : Except Misstep Cursor := do
  let here ← itemAt c.level c.index
  if j.wanted here then
    if c.index = 0 ∨ c.index = c.level.length - 1 then
      throw (.refused (j.atEdge here))
    else
      let left ← itemAt c.level (c.index - 1)
      let right ← itemAt c.level (c.index + 1)
      match j.fault? left here right with
      | some e => throw (.refused e)
      | none =>
          let level ← deleteAt c.level (c.index + 1)
          let level ← deleteAt level (c.index - 1)
          let level ← putAt level (c.index - 1) (here.attach [left, right])
          return ⟨c.index, level⟩
  else return ⟨c.index + 1, c.level⟩

/-- Operators between operands, from the first item on. -/
def loop (j : Joint) : Loop where
  direction := .rightward
  start _ := 0
  margin := 0
  step := j.step
  advances c := by
    refine .bind fun here _ => .ite (.ite .error ?_) (.ok .move)
    refine .bind fun left _ => .bind fun right _ => ?_
    split
    · exact .error
    · refine .bind fun level hdel => .bind fun level' hdel' => ?_
      refine .bind fun level'' hput => .ok (.shorter ?_)
      have hlen := length_of_deleteAt hdel
      have hlen' := length_of_deleteAt hdel'
      have hlen'' := length_of_putAt hput
      omega

end Joint

/-- `if` or `while` takes out the condition and the block behind it. -/
def conditionalStep (op : Operator) (c : Cursor) :
    Except Misstep Cursor := do
  let here ← itemAt c.level c.index
  let condition ← itemAt c.level (c.index + 1)
  let body ← itemAt c.level (c.index + 2)
  if here.isWaiting [op] && condition.hasValue && body.isBlock then
    let level ← deleteAt c.level (c.index + 1)
    let level ← deleteAt level (c.index + 1)
    let level ← putAt level c.index (here.attach [condition, body])
    return ⟨c.index + 1, level⟩
  else return ⟨c.index + 1, c.level⟩

/-- Conditionals, while two more items follow. -/
def conditionalLoop (op : Operator) : Loop where
  direction := .rightward
  start _ := 0
  margin := 2
  step := conditionalStep op
  advances c := by
    refine .bind fun here _ => .bind fun condition _ => ?_
    refine .bind fun body _ => .ite ?_ (.ok .move)
    refine .bind fun level hdel => .bind fun level' hdel' => ?_
    refine .bind fun level'' hput => .ok (.shorter ?_)
    have hlen := length_of_deleteAt hdel
    have hlen' := length_of_deleteAt hdel'
    have hlen'' := length_of_putAt hput
    omega

/-- `else` goes with the branch behind it to the conditional before it.
Only an `else` is asked what stands behind it. -/
def elseStep (c : Cursor) : Except Misstep Cursor := do
  let here ← itemAt c.level c.index
  if here.isWaiting [.otherwise] then
    let left ← itemAt c.level (c.index - 1)
    let right ← itemAt c.level (c.index + 1)
    if takesElse left && (right.isIf || right.isBlock) then
      let level ← putAt c.level (c.index - 1) (addBranch left right)
      let level ← deleteAt level c.index
      let level ← deleteAt level c.index
      return ⟨c.index - 1, level⟩
    else throw (.refused (.misplacedElse left.label right.label))
  else return ⟨c.index - 1, c.level⟩

/-- Branches, from the last item but one to the second. -/
def elseLoop : Loop where
  direction := .leftward
  start level := level.length - 2
  margin := 1
  step := elseStep
  advances c := by
    refine .bind fun here _ => .ite ?_ (.ok .move)
    refine .bind fun left _ => .bind fun right _ => .ite ?_ .error
    refine .bind fun level hput => .bind fun level' hdel => ?_
    refine .bind fun level'' hdel' => .ok (.shorter ?_)
    have hlen := length_of_putAt hput
    have hlen' := length_of_deleteAt hdel
    have hlen'' := length_of_deleteAt hdel'
    omega

/-- `for` takes out its variable, the word `in`, the matrix and the
block. -/
def forStep (c : Cursor) : Except Misstep Cursor := do
  let here ← itemAt c.level c.index
  let name ← itemAt c.level (c.index + 1)
  let key ← itemAt c.level (c.index + 2)
  let cells ← itemAt c.level (c.index + 3)
  let body ← itemAt c.level (c.index + 4)
  if here.isWaiting [.forLoop] && name.isVariable && key.isKeyword "in"
      && cells.hasValue && body.isBlock then
    let level ← putAt c.level c.index (here.attach [name, cells, body])
    let level ← deleteAt level (c.index + 1)
    let level ← deleteAt level (c.index + 1)
    let level ← deleteAt level (c.index + 1)
    let level ← deleteAt level (c.index + 1)
    return ⟨c.index + 1, level⟩
  else return ⟨c.index + 1, c.level⟩

/-- Loops over a matrix, while four more items follow. -/
def forLoop : Loop where
  direction := .rightward
  start _ := 0
  margin := 4
  step := forStep
  advances c := by
    refine .bind fun here _ => .bind fun name _ => .bind fun key _ => ?_
    refine .bind fun cells _ => .bind fun body _ => .ite ?_ (.ok .move)
    refine .bind fun level hput => .bind fun level₁ hdel₁ => ?_
    refine .bind fun level₂ hdel₂ => .bind fun level₃ hdel₃ => ?_
    refine .bind fun level₄ hdel₄ => .ok (.shorter ?_)
    have hlen := length_of_putAt hput
    have hlen₁ := length_of_deleteAt hdel₁
    have hlen₂ := length_of_deleteAt hdel₂
    have hlen₃ := length_of_deleteAt hdel₃
    have hlen₄ := length_of_deleteAt hdel₄
    omega

-- =========================================================== reduction

/-- The loops in order. -/
def loops : List Loop :=
  [signLoop, trailingLoop (·.isWaiting [.certain]),
    trailingLoop Item.isUnitBlock]
  ++ tiers.map (fun ops => (Joint.binary ops).loop)
  ++ [conditionalLoop .ifThen, elseLoop, conditionalLoop .whileLoop, forLoop,
    Joint.assignment.loop]

/-- An error of the program that is read, as a misstep. -/
def refusing {α : Type} (x : Except ParseError α) : Except Misstep α :=
  x.mapError .refused

/-- All loops over a level, one after another. -/
def reduceInPlace (level : Level) : Except Misstep Tree := do
  let level ← loops.foldlM (fun level loop => loop.runOn level) level
  refusing (single level)

/-- The tree of a row of tokens, its level reduced in place. What stands
inside its groups is read by `parse`. -/
def parseInPlace : List Token → Except Misstep Tree
  | [] => .ok empty
  | t :: ts => refusing (items parse (pieces (t :: ts))) >>= reduceInPlace

end Metrology.Tree
