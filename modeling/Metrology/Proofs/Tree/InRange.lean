/-
Work in place never leaves the level. Each loop of `InPlace` makes of every
level what the pass of its name makes of it, with the same errors
(`Loop.Performs`); a misstep outside the level is none of them.

A loop is followed place by place. What stands before its index, going
rightward, is as the pass leaves it; what stands behind, going leftward,
likewise. Taking items out moves the end of the level towards the index,
so going leftward an index can come to stand on the last place. Signs ask
for the place behind all the same, but it is there: something is left of
what stood behind. The loop for branches takes out the last two items when
an `else` stands before the last, and its index then stands on the last
place. It does not ask further, since the item there is the conditional
that has just taken the branch, not an `else` (`IsSettled`).
-/
import Metrology.Proofs.Tree.InPlace
import Metrology.Proofs.Tree.Passes

namespace Metrology.Tree

-- ====================================================== known places

section

variable {front rest : Level} {k : Nat} {i : Int} {x : Item}

/-- The item at a place behind a known front. -/
theorem itemAt_eq (hi : i = front.length + k) (hx : rest[k]? = some x) :
    itemAt (front ++ rest) i = .ok x := by
  obtain ⟨hk, rfl⟩ := List.getElem?_eq_some_iff.mp hx
  have hplace : i.toNat = front.length + k := by omega
  rw [itemAt, dif_pos (by rw [List.length_append]; omega)]
  simp [hplace]

/-- Taking out an item behind a known front leaves the front. -/
theorem deleteAt_eq (hi : i = front.length + k) (hx : rest[k]? = some x) :
    deleteAt (front ++ rest) i = .ok (front ++ rest.eraseIdx k) := by
  have hplace : i.toNat = front.length + k := by omega
  rw [deleteAt, itemAt_eq hi hx, ok_bind, hplace,
    List.eraseIdx_append_of_length_le (Nat.le_add_right ..),
    Nat.add_sub_cancel_left]
  rfl

/-- Replacing an item behind a known front leaves the front. -/
theorem putAt_eq {new : Item} (hi : i = front.length + k)
    (hx : rest[k]? = some x) :
    putAt (front ++ rest) i new = .ok (front ++ rest.set k new) := by
  have hplace : i.toNat = front.length + k := by omega
  rw [putAt, itemAt_eq hi hx, ok_bind, hplace,
    List.set_append_right _ _ (Nat.le_add_right ..),
    Nat.add_sub_cancel_left]
  rfl

/-- To the left of a place stands the last item of the front. -/
theorem leftOf_eq (front rest : Level) :
    leftOf (front ++ rest) front.length = .ok front.getLast? := by
  rcases List.eq_nil_or_concat' front with rfl | ⟨front, left, rfl⟩
  · rfl
  · have hlength : (front ++ [left]).length = front.length + 1 :=
      List.length_append
    rw [leftOf, hlength, if_pos (by omega), List.append_assoc,
      itemAt_eq (k := 0) (by omega) rfl, List.getLast?_concat]
    rfl

end

-- =========================================================== refusals

/-- A result is not refused. -/
@[simp] theorem refusing_ok {α : Type} (a : α) :
    refusing (.ok a) = .ok a := rfl

/-- Refusal goes through a sequence step by step. -/
theorem refusing_bind {α β : Type} (x : Except ParseError α)
    (f : α → Except ParseError β) :
    refusing (x >>= f) = refusing x >>= fun a => refusing (f a) := by
  cases x <;> rfl

/-- The loop does what the pass does. -/
def Loop.Performs (loop : Loop) (pass : Level → Except ParseError Level) :
    Prop :=
  ∀ level, loop.runOn level = refusing (pass level)

/-- The place behind an item, with the item counted to those before. -/
theorem cursor_behind (front : Level) (left : Item) (rest : Level) :
    (⟨front.length + 1, front ++ left :: rest⟩ : Cursor)
      = ⟨(front ++ [left]).length, front ++ [left] ++ rest⟩ := by
  simp

/-- A loop to the left goes on while its index is not below the margin. -/
theorem goesOn_leftward {loop : Loop} {c : Cursor}
    (hd : loop.direction = .leftward) (h : (loop.margin : Int) ≤ c.index) :
    loop.goesOn c = true := by
  rw [Loop.goesOn, hd]
  exact decide_eq_true h

/-- A loop to the right goes on while more than the margin stands behind its
index. -/
theorem goesOn_rightward {loop : Loop} {front rest : Level} {k : Nat}
    {i : Int} (hd : loop.direction = .rightward) (hi : i = front.length + k)
    (h : k + loop.margin < rest.length) :
    loop.goesOn ⟨i, front ++ rest⟩ = true := by
  rw [Loop.goesOn, hd]
  refine decide_eq_true ?_
  simp only [List.length_append]
  omega

/-- A loop to the right is over once no more than the margin stands behind
its index. -/
theorem not_goesOn_rightward {loop : Loop} {front rest : Level} {k : Nat}
    {i : Int} (hd : loop.direction = .rightward) (hi : i = front.length + k)
    (h : rest.length ≤ k + loop.margin) :
    loop.goesOn ⟨i, front ++ rest⟩ = false := by
  rw [Loop.goesOn, hd]
  refine decide_eq_false ?_
  simp only [List.length_append]
  omega

-- ================================================================ signs

/-- What the loop for signs does where two items stand. -/
theorem signStep_eq (front : Level) (i right : Item) (rest : Level) :
    signStep ⟨front.length, front ++ i :: right :: rest⟩
      = if isLeading front.getLast? i then
          if right.hasValue then
            .ok ⟨front.length - 1, front ++ i.attach [right] :: rest⟩
          else .error (.refused (.signWithoutOperand i.symbol right.label))
        else .ok ⟨front.length - 1, front ++ i :: right :: rest⟩ := by
  simp only [signStep]
  rw [itemAt_eq (k := 0) (by omega) rfl, ok_bind, leftOf_eq, ok_bind]
  split
  · rw [itemAt_eq (k := 1) (by omega) rfl, ok_bind,
      deleteAt_eq (k := 1) (by omega) rfl, ok_bind]
    split
    · rw [putAt_eq (k := 0) (by omega) rfl]
      rfl
    · rfl
  · rfl

/-- Attaching signs leaves something of what there is. -/
theorem ne_nil_of_attachLeading {left : Option Item} {level out : Level}
    (hlevel : level ≠ []) (h : attachLeading left level = .ok out) :
    out ≠ [] := by
  intro hout
  subst hout
  cases leads_of_attachLeading level left h
  exact hlevel rfl

/-- What the pass for signs does with an item before a level that it has
been through. -/
theorem attachLeading_cons {left : Option Item} {i right : Item}
    {rest out : Level}
    (h : attachLeading (some i) rest = .ok (right :: out)) :
    attachLeading left (i :: rest)
      = if isLeading left i then
          if right.hasValue then .ok (i.attach [right] :: out)
          else .error (.signWithoutOperand i.symbol right.label)
        else .ok (i :: right :: out) := by
  rw [attachLeading, h]
  rfl

/-- When the loop comes to a place, what stands behind is as the pass
makes it. -/
theorem signLoop_runFrom (rest : Level) : ∀ (front : Level), rest ≠ [] →
    signLoop.runFrom ⟨(front ++ rest).length - 2, front ++ rest⟩
      = refusing (attachLeading front.getLast? rest) >>= fun out =>
          signLoop.runFrom ⟨front.length - 1, front ++ out⟩ := by
  induction rest with
  | nil => exact fun front h => absurd rfl h
  | cons i rest ih =>
      intro front _
      cases rest with
      | nil =>
          have hindex : ((front ++ [i]).length : Int) - 2
              = front.length - 1 := by
            rw [List.length_append, List.length_singleton]
            omega
          rw [hindex]
          rfl
      | cons next rest =>
          have hne : next :: rest ≠ [] := List.cons_ne_nil next rest
          have hindex : ((front ++ [i]).length : Int) - 1 = front.length := by
            rw [List.length_append, List.length_singleton]
            omega
          -- the item joins the front, and the loop has been through what
          -- stands behind it when it comes to it
          rw [List.append_cons, ih (front ++ [i]) hne, List.getLast?_concat,
            hindex]
          cases hout : attachLeading (some i) (next :: rest) with
          | error e =>
              rw [attachLeading, hout]
              rfl
          | ok out =>
              obtain ⟨right, out, rfl⟩ := List.exists_cons_of_ne_nil
                (ne_nil_of_attachLeading hne hout)
              have hgoes : signLoop.goesOn
                  ⟨front.length, front ++ i :: right :: out⟩ = true :=
                goesOn_leftward rfl (Int.natCast_nonneg front.length)
              rw [attachLeading_cons hout, refusing_ok, ok_bind,
                ← List.append_cons, Loop.runFrom_of_goesOn hgoes]
              show signStep _ >>= _ = _
              rw [signStep_eq]
              split
              · split
                · rfl
                · rfl
              · rfl

/-- The loop for signs does what the pass does. -/
theorem performs_signLoop : signLoop.Performs (attachLeading none) := by
  intro level
  cases level with
  | nil => exact Loop.runFrom_of_not_goesOn rfl
  | cons i rest =>
      have hne : i :: rest ≠ [] := List.cons_ne_nil i rest
      refine (signLoop_runFrom (i :: rest) [] hne).trans ?_
      show refusing (attachLeading none (i :: rest)) >>= _ = _
      cases attachLeading none (i :: rest) with
      | error e => rfl
      | ok out => exact Loop.runFrom_of_not_goesOn rfl

-- ==================================================== queries and units

section

variable {wanted : Item → Bool}

/-- What the loop for queries and units does where two items stand. -/
theorem trailingStep_eq (front : Level) (left i : Item) (rest : Level) :
    trailingStep wanted ⟨front.length + 1, front ++ left :: i :: rest⟩
      = if wanted i then
          if left.hasValue then
            .ok ⟨front.length + 1, front ++ i.attach [left] :: rest⟩
          else .error (.refused (.nothingBefore left.label i.label))
        else .ok ⟨front.length + 1 + 1, front ++ left :: i :: rest⟩ := by
  simp only [trailingStep]
  rw [itemAt_eq (k := 1) (by omega) rfl, ok_bind]
  split
  · rw [itemAt_eq (k := 0) (by omega) rfl, ok_bind,
      deleteAt_eq (k := 0) (by omega) rfl, ok_bind,
      itemAt_eq (k := 0) (by omega) rfl, ok_bind]
    split
    · rw [putAt_eq (k := 0) (by omega) rfl]
      rfl
    · rfl
  · rfl

/-- Behind a place the loop makes of a level what the pass does. -/
theorem trailingLoop_runFrom (rest : Level) :
    ∀ (front : Level) (left : Item),
      (trailingLoop wanted).runFrom
          ⟨front.length + 1, front ++ left :: rest⟩
        = refusing (do return front ++ (← attachTrailingTo wanted left rest))
      := by
  induction rest with
  | nil =>
      intro front left
      exact Loop.runFrom_of_not_goesOn
        (not_goesOn_rightward (k := 1) rfl (by omega) (Nat.le_refl 1))
  | cons i rest ih =>
      intro front left
      have hgoes : (trailingLoop wanted).goesOn
          ⟨front.length + 1, front ++ left :: i :: rest⟩ = true := by
        refine goesOn_rightward (k := 1) rfl (by omega) ?_
        show 1 + 0 < rest.length + 1 + 1
        omega
      rw [Loop.runFrom_of_goesOn hgoes, attachTrailingTo]
      show trailingStep wanted _ >>= _ = _
      rw [trailingStep_eq]
      split
      · split
        · -- the operator has taken the item before it, and stands in its
          -- place
          exact ih front _
        · rfl
      · -- nothing is attached here, so the item before joins the front
        have hnext := ih (front ++ [left]) i
        rw [← List.append_cons, List.length_append] at hnext
        refine hnext.trans ?_
        cases attachTrailingTo wanted i rest with
        | error e => rfl
        | ok out => simp

/-- The loop for queries or units does what the pass does. -/
theorem performs_trailingLoop :
    (trailingLoop wanted).Performs (attachTrailing wanted) := by
  intro level
  cases level with
  | nil => exact Loop.runFrom_of_not_goesOn rfl
  | cons i rest =>
      refine (trailingLoop_runFrom rest [] i).trans ?_
      rw [attachTrailing]
      cases attachTrailingTo wanted i rest <;> rfl

end

-- ============================================ operators between operands

namespace Joint

variable {j : Joint} {attachTo : Item → Level → Except ParseError Level}
  {front rest : Level} {left i right : Item}

/-- The pass, from an item and the level behind it, attaches and refuses
the operators that the loop does. -/
structure Follows (j : Joint)
    (attachTo : Item → Level → Except ParseError Level) : Prop where
  nil : ∀ {left}, attachTo left [] = .ok [left]
  keep : ∀ {left i rest}, j.wanted i = false →
    attachTo left (i :: rest) = do return left :: (← attachTo i rest)
  edge : ∀ {left i}, j.wanted i = true →
    attachTo left [i] = .error (j.atEdge i)
  between : ∀ {left i right rest}, j.wanted i = true →
    attachTo left (i :: right :: rest)
      = (j.fault? left i right).elim
          (attachTo (i.attach [left, right]) rest) .error

/-- The pass for a tier attaches and refuses what its loop does. -/
theorem follows_binary (ops : List Operator) :
    (binary ops).Follows (attachBinaryTo ops) where
  nil := rfl
  keep {left i rest} hi := by
    rw [attachBinaryTo.eq_def]
    exact if_neg (Bool.not_eq_true _ ▸ hi)
  edge {left i} hi := by
    rw [attachBinaryTo.eq_def]
    exact if_pos hi
  between {left i right rest} hi := by
    rw [attachBinaryTo.eq_def]
    refine (if_pos hi).trans ?_
    simp only [binary]
    split <;> rfl

/-- The pass for assignment attaches and refuses what its loop does. -/
theorem follows_assignment : assignment.Follows attachAssignmentTo where
  nil := rfl
  keep {left i rest} hi := by
    rw [attachAssignmentTo.eq_def]
    exact if_neg (Bool.not_eq_true _ ▸ hi)
  edge {left i} hi := by
    rw [attachAssignmentTo.eq_def]
    exact if_pos hi
  between {left i right rest} hi := by
    rw [attachAssignmentTo.eq_def]
    refine (if_pos hi).trans ?_
    simp only [assignment]
    split
    · rfl
    · split <;> rfl

/-- Any other item is passed by. -/
theorem step_of_not_wanted (hi : j.wanted i = false) :
    j.step ⟨front.length, front ++ i :: rest⟩
      = .ok ⟨front.length + 1, front ++ i :: rest⟩ := by
  simp only [step]
  rw [itemAt_eq (k := 0) (by omega) rfl, ok_bind, if_neg (by simp [hi])]
  rfl

/-- At an end of the level an operator is refused. -/
theorem step_at_edge (hi : j.wanted i = true)
    (hedge : front = [] ∨ rest = []) :
    j.step ⟨front.length, front ++ i :: rest⟩
      = .error (.refused (j.atEdge i)) := by
  simp only [step]
  rw [itemAt_eq (k := 0) (by omega) rfl, ok_bind, if_pos hi, if_pos ?_]
  · rfl
  · rcases hedge with rfl | rfl
    · exact .inl rfl
    · refine .inr ?_
      rw [List.length_append, List.length_singleton]
      omega

/-- Between two items an operator takes both, or is refused over one of
them. -/
theorem step_between (hi : j.wanted i = true) :
    j.step ⟨front.length + 1, front ++ left :: i :: right :: rest⟩
      = (j.fault? left i right).elim
          (.ok ⟨front.length + 1, front ++ i.attach [left, right] :: rest⟩)
          fun e => .error (.refused e) := by
  simp only [step]
  have hinner : ¬ ((front.length : Int) + 1 = 0 ∨ (front.length : Int) + 1
      = (front ++ left :: i :: right :: rest).length - 1) := by
    simp only [List.length_append, List.length_cons]
    omega
  rw [itemAt_eq (k := 1) (by omega) rfl, ok_bind, if_pos hi, if_neg hinner,
    itemAt_eq (k := 0) (by omega) rfl, ok_bind,
    itemAt_eq (k := 2) (by omega) rfl, ok_bind]
  cases j.fault? left i right with
  | some e => rfl
  | none =>
      simp only []
      rw [deleteAt_eq (k := 2) (by omega) rfl, ok_bind,
        deleteAt_eq (k := 0) (by omega) rfl, ok_bind,
        putAt_eq (k := 0) (by omega) rfl]
      rfl

/-- Behind a place the loop makes of a level what the pass does. -/
theorem loop_runFrom (h : j.Follows attachTo) (rest : Level) :
    ∀ (front : Level) (left : Item),
      j.loop.runFrom ⟨front.length + 1, front ++ left :: rest⟩
        = refusing (do return front ++ (← attachTo left rest)) := by
  -- an operator takes out two items, so the induction is on the length
  induction hn : rest.length using Nat.strongRecOn generalizing rest with
  | _ n ih =>
      intro front left
      cases rest with
      | nil =>
          rw [h.nil]
          exact Loop.runFrom_of_not_goesOn
            (not_goesOn_rightward (k := 1) rfl (by omega) (Nat.le_refl 1))
      | cons i rest =>
          rw [List.length_cons] at hn
          have hgoes : j.loop.goesOn
              ⟨front.length + 1, front ++ left :: i :: rest⟩ = true := by
            refine goesOn_rightward (k := 1) rfl (by omega) ?_
            show 1 + 0 < rest.length + 1 + 1
            omega
          rw [Loop.runFrom_of_goesOn hgoes]
          show j.step _ >>= _ = _
          cases hi : j.wanted i with
          | false =>
              have hnext := ih rest.length (by omega) rest rfl
                (front ++ [left]) i
              rw [cursor_behind, step_of_not_wanted hi, ok_bind, hnext,
                h.keep hi]
              cases attachTo i rest with
              | error e => rfl
              | ok out => simp
          | true =>
              cases rest with
              | nil =>
                  rw [cursor_behind, step_at_edge hi (.inr rfl), h.edge hi]
                  rfl
              | cons right rest =>
                  rw [List.length_cons] at hn
                  rw [step_between hi, h.between hi]
                  cases j.fault? left i right with
                  | some e => rfl
                  | none => exact ih rest.length (by omega) rest rfl front _

/-- At its start the loop looks for an operator with nothing before it. -/
theorem runOn_cons (h : j.Follows attachTo) (i : Item) (rest : Level) :
    j.loop.runOn (i :: rest)
      = refusing (if j.wanted i then .error (j.atEdge i)
          else attachTo i rest) := by
  have hgoes : j.loop.goesOn ⟨([] : Level).length, [] ++ i :: rest⟩ = true :=
    goesOn_rightward (k := 0) rfl (by omega) (Nat.succ_pos rest.length)
  refine (Loop.runFrom_of_goesOn hgoes).trans ?_
  show j.step _ >>= _ = _
  split
  · next hi =>
    rw [step_at_edge hi (.inl rfl)]
    rfl
  · next hi =>
    rw [step_of_not_wanted (by simpa using hi), ok_bind]
    refine (loop_runFrom h rest [] i).trans ?_
    cases attachTo i rest <;> rfl

/-- The loop for a tier does what the pass does. -/
theorem performs_binary (ops : List Operator) :
    (binary ops).loop.Performs (attachBinary ops) := by
  intro level
  cases level with
  | nil => exact Loop.runFrom_of_not_goesOn rfl
  | cons i rest => exact runOn_cons (follows_binary ops) i rest

/-- The loop for assignment does what the pass does. -/
theorem performs_assignment : assignment.loop.Performs attachAssignment := by
  intro level
  cases level with
  | nil => exact Loop.runFrom_of_not_goesOn rfl
  | cons i rest => exact runOn_cons follows_assignment i rest

end Joint

-- ========================================================== constructs

/-- What the loop for conditionals does where three items stand. -/
theorem conditionalStep_eq (op : Operator) (front : Level)
    (i condition body : Item) (rest : Level) :
    conditionalStep op ⟨front.length, front ++ i :: condition :: body :: rest⟩
      = if i.isWaiting [op] && condition.hasValue && body.isBlock then
          .ok ⟨front.length + 1, front ++ i.attach [condition, body] :: rest⟩
        else .ok ⟨front.length + 1, front ++ i :: condition :: body :: rest⟩
      := by
  simp only [conditionalStep]
  rw [itemAt_eq (k := 0) (by omega) rfl, ok_bind,
    itemAt_eq (k := 1) (by omega) rfl, ok_bind,
    itemAt_eq (k := 2) (by omega) rfl, ok_bind]
  split
  · rw [deleteAt_eq (k := 1) (by omega) rfl, ok_bind,
      deleteAt_eq (k := 1) (by omega) rfl, ok_bind,
      putAt_eq (k := 0) (by omega) rfl]
    rfl
  · rfl

/-- Behind a place the loop makes of a level what the pass does. -/
theorem conditionalLoop_runFrom (op : Operator) (level : Level) :
    ∀ (front : Level),
      (conditionalLoop op).runFrom ⟨front.length, front ++ level⟩
        = .ok (front ++ attachConditional op level) := by
  have hgoes : ∀ (front rest : Level) (i condition body : Item),
      (conditionalLoop op).goesOn
        ⟨front.length, front ++ i :: condition :: body :: rest⟩ = true := by
    intro front rest i condition body
    refine goesOn_rightward (k := 0) rfl (by omega) ?_
    show 0 + 2 < rest.length + 1 + 1 + 1
    omega
  fun_induction attachConditional op level with
  | case1 i condition body rest h ih =>
      intro front
      rw [Loop.runFrom_of_goesOn (hgoes ..)]
      show conditionalStep op _ >>= _ = _
      rw [conditionalStep_eq, if_pos h, cursor_behind, ok_bind, ih]
      simp
  | case2 i condition body rest h ih =>
      intro front
      rw [Loop.runFrom_of_goesOn (hgoes ..)]
      show conditionalStep op _ >>= _ = _
      rw [conditionalStep_eq, if_neg h, cursor_behind, ok_bind, ih]
      simp
  | case3 short h =>
      intro front
      refine Loop.runFrom_of_not_goesOn
        (not_goesOn_rightward (k := 0) rfl (by omega) ?_)
      show short.length ≤ 2
      rcases short with - | ⟨_, - | ⟨_, - | ⟨_, rest⟩⟩⟩
      · simp
      · simp
      · simp
      · exact (h _ _ _ _ rfl).elim

/-- The loop for conditionals does what the pass does. -/
theorem performs_conditionalLoop (op : Operator) :
    (conditionalLoop op).Performs fun level =>
      .ok (attachConditional op level) :=
  fun level => conditionalLoop_runFrom op level []

/-- What the loop for loops over a matrix does where five items stand. -/
theorem forStep_eq (front : Level) (i name key cells body : Item)
    (rest : Level) :
    forStep ⟨front.length, front ++ i :: name :: key :: cells :: body :: rest⟩
      = if i.isWaiting [.forLoop] && name.isVariable && key.isKeyword "in"
            && cells.hasValue && body.isBlock then
          .ok ⟨front.length + 1, front ++ i.attach [name, cells, body] :: rest⟩
        else .ok ⟨front.length + 1,
          front ++ i :: name :: key :: cells :: body :: rest⟩ := by
  simp only [forStep]
  rw [itemAt_eq (k := 0) (by omega) rfl, ok_bind,
    itemAt_eq (k := 1) (by omega) rfl, ok_bind,
    itemAt_eq (k := 2) (by omega) rfl, ok_bind,
    itemAt_eq (k := 3) (by omega) rfl, ok_bind,
    itemAt_eq (k := 4) (by omega) rfl, ok_bind]
  split
  · rw [putAt_eq (k := 0) (by omega) rfl, ok_bind,
      deleteAt_eq (k := 1) (by omega) rfl, ok_bind,
      deleteAt_eq (k := 1) (by omega) rfl, ok_bind,
      deleteAt_eq (k := 1) (by omega) rfl, ok_bind,
      deleteAt_eq (k := 1) (by omega) rfl]
    rfl
  · rfl

/-- Behind a place the loop makes of a level what the pass does. -/
theorem forLoop_runFrom (level : Level) : ∀ (front : Level),
    forLoop.runFrom ⟨front.length, front ++ level⟩
      = .ok (front ++ attachFor level) := by
  have hgoes : ∀ (front rest : Level) (i name key cells body : Item),
      forLoop.goesOn ⟨front.length,
        front ++ i :: name :: key :: cells :: body :: rest⟩ = true := by
    intro front rest i name key cells body
    refine goesOn_rightward (k := 0) rfl (by omega) ?_
    show 0 + 4 < rest.length + 1 + 1 + 1 + 1 + 1
    omega
  fun_induction attachFor level with
  | case1 i name key cells body rest h ih =>
      intro front
      rw [Loop.runFrom_of_goesOn (hgoes ..)]
      show forStep _ >>= _ = _
      rw [forStep_eq, if_pos h, cursor_behind, ok_bind, ih]
      simp
  | case2 i name key cells body rest h ih =>
      intro front
      rw [Loop.runFrom_of_goesOn (hgoes ..)]
      show forStep _ >>= _ = _
      rw [forStep_eq, if_neg h, cursor_behind, ok_bind, ih]
      simp
  | case3 short h =>
      intro front
      refine Loop.runFrom_of_not_goesOn
        (not_goesOn_rightward (k := 0) rfl (by omega) ?_)
      show short.length ≤ 4
      -- fewer than five items are left, so nothing is a loop
      rcases short with - | ⟨_, - | ⟨_, - | ⟨_, - | ⟨_, - | ⟨_, rest⟩⟩⟩⟩⟩
      · simp
      · simp
      · simp
      · simp
      · simp
      · exact (h _ _ _ _ _ _ rfl).elim

/-- The loop for loops over a matrix does what the pass does. -/
theorem performs_forLoop :
    forLoop.Performs fun level => .ok (attachFor level) :=
  fun level => forLoop_runFrom level []

-- ============================================================ branches

/-- What can be left of two items and more: two items and more, or a
single one, which is complete. -/
def IsSettled (level : Level) : Prop :=
  (∃ i right rest, level = i :: right :: rest) ∨ ∃ t, level = [.done t]

/-- Attaching branches never leaves a single item that waits: what waits
stands as it stood, and so do those beside it. -/
theorem isSettled_of_attachElse {level out : Level}
    (hlevel : 2 ≤ level.length) (h : attachElse level = .ok out) :
    IsSettled out := by
  have hgathers := gathers_of_attachElse level h
  rcases out with - | ⟨x, - | ⟨y, out⟩⟩
  · cases hgathers
    exact absurd hlevel (by decide)
  · cases x with
    | done t => exact .inr ⟨t, rfl⟩
    | waiting n =>
        obtain ⟨rest, rfl, hrest⟩ := hgathers.of_waiting_cons
        cases hrest
        exact absurd hlevel (by simp)
  · exact .inl ⟨x, y, out, rfl⟩

/-- What the pass for branches does with an item before a level that it has
been through. -/
theorem attachElse_cons {left i right : Item} {rest out : Level}
    (h : attachElse rest = .ok (i :: right :: out)) :
    attachElse (left :: rest)
      = if i.isWaiting [.otherwise] then
          if takesElse left && (right.isIf || right.isBlock) then
            .ok (addBranch left right :: out)
          else .error (.misplacedElse left.label right.label)
        else .ok (left :: i :: right :: out) := by
  rw [attachElse, h]
  rfl

/-- What the loop for branches does where three items stand. -/
theorem elseStep_eq (front : Level) (left i right : Item) (rest : Level) :
    elseStep ⟨front.length + 1, front ++ left :: i :: right :: rest⟩
      = if i.isWaiting [.otherwise] then
          if takesElse left && (right.isIf || right.isBlock) then
            .ok ⟨front.length, front ++ addBranch left right :: rest⟩
          else .error (.refused (.misplacedElse left.label right.label))
        else .ok ⟨front.length, front ++ left :: i :: right :: rest⟩ := by
  simp only [elseStep]
  rw [itemAt_eq (k := 1) (by omega) rfl, ok_bind]
  split
  · rw [itemAt_eq (k := 0) (by omega) rfl, ok_bind,
      itemAt_eq (k := 2) (by omega) rfl, ok_bind]
    split
    · rw [putAt_eq (k := 0) (by omega) rfl, ok_bind,
        deleteAt_eq (k := 1) (by omega) rfl, ok_bind,
        deleteAt_eq (k := 1) (by omega) rfl, ok_bind, Int.add_sub_cancel]
      rfl
    · rfl
  · rw [Int.add_sub_cancel]
    rfl

/-- A place where something complete stands is passed by, whether or not
anything stands behind it. -/
theorem elseStep_done (front : Level) (left : Item) (t : Tree)
    (rest : Level) :
    elseStep ⟨front.length + 1, front ++ left :: .done t :: rest⟩
      = .ok ⟨front.length, front ++ left :: .done t :: rest⟩ := by
  have ht : ¬ (Item.done t).isWaiting [.otherwise] = true :=
    Bool.false_ne_true
  simp only [elseStep]
  rw [itemAt_eq (k := 1) (by omega) rfl, ok_bind, if_neg ht,
    Int.add_sub_cancel]
  rfl

-- an `else` on the last place would ask for the place behind it
example : elseStep ⟨1, [.done empty, .waiting (.operator .otherwise)]⟩
    = .error (.outside 2 2) := rfl

/-- When the loop comes to a place, what stands behind is as the pass makes
it. It may have become a single item; then this is complete, and the loop
does not ask for the place behind it. -/
theorem elseLoop_runFrom (rest : Level) : ∀ (front : Level),
    2 ≤ rest.length →
    elseLoop.runFrom ⟨(front ++ rest).length - 2, front ++ rest⟩
      = refusing (attachElse rest) >>= fun out =>
          elseLoop.runFrom ⟨front.length, front ++ out⟩ := by
  induction rest with
  | nil => exact fun front h => absurd h (by decide)
  | cons left rest ih =>
      intro front hlength
      rcases rest with - | ⟨x, - | ⟨y, rest⟩⟩
      · exact absurd hlength (by simp)
      · have hindex : ((front ++ [left, x]).length : Int) - 2
            = front.length := by
          simp only [List.length_append, List.length_cons, List.length_nil]
          omega
        rw [hindex]
        rfl
      · have hrest : 2 ≤ (x :: y :: rest).length := by simp
        rw [List.append_cons, ih (front ++ [left]) hrest]
        cases hout : attachElse (x :: y :: rest) with
        | error e =>
            rw [attachElse, hout]
            rfl
        | ok out =>
            have hgoes : elseLoop.goesOn ⟨front.length + 1,
                front ++ left :: out⟩ = true := by
              refine goesOn_leftward rfl ?_
              show (1 : Int) ≤ front.length + 1
              omega
            rw [refusing_ok, ok_bind, ← cursor_behind,
              Loop.runFrom_of_goesOn hgoes]
            show elseStep _ >>= _ = _
            -- the place behind the index is asked for only if an `else`
            -- stands at it, which a single item left behind cannot be
            rcases isSettled_of_attachElse hrest hout with
              ⟨i, right, out, rfl⟩ | ⟨t, rfl⟩
            · rw [elseStep_eq, attachElse_cons hout]
              split
              · split
                · rfl
                · rfl
              · rfl
            · rw [elseStep_done, attachElse, hout]
              rfl

/-- The loop for branches does what the pass does. -/
theorem performs_elseLoop : elseLoop.Performs attachElse := by
  intro level
  rcases level with - | ⟨x, - | ⟨y, rest⟩⟩
  · exact Loop.runFrom_of_not_goesOn rfl
  · exact Loop.runFrom_of_not_goesOn rfl
  · refine (elseLoop_runFrom (x :: y :: rest) [] (by simp)).trans ?_
    cases attachElse (x :: y :: rest) with
    | error e => rfl
    | ok out => exact Loop.runFrom_of_not_goesOn rfl

-- =========================================================== reduction

/-- Loops in a row do what their passes do in a row. -/
theorem Loop.Performs.foldlM {α : Type} {loop : α → Loop}
    {pass : α → Level → Except ParseError Level}
    (h : ∀ a, (loop a).Performs (pass a)) (order : List α) :
    ∀ (level : Level),
      (order.map loop).foldlM (fun level loop => loop.runOn level) level
        = refusing (order.foldlM (fun level a => pass a level) level) := by
  induction order with
  | nil => exact fun level => rfl
  | cons a order ih =>
      intro level
      rw [List.map_cons, List.foldlM_cons, List.foldlM_cons, h a level,
        refusing_bind]
      exact congrArg _ (funext ih)

/-- Reducing a level in place is reducing it. -/
theorem reduceInPlace_eq (level : Level) :
    reduceInPlace level = refusing (reduce level) := by
  -- the tiers are one loop each, all of a kind
  have hbinary := Loop.Performs.foldlM Joint.performs_binary tiers
  unfold reduceInPlace loops reduce
  simp only [List.foldlM_append, List.foldlM_cons, List.foldlM_nil, hbinary,
    performs_signLoop _, performs_trailingLoop _, performs_conditionalLoop _ _,
    performs_elseLoop _, performs_forLoop _, Joint.performs_assignment _,
    refusing_bind, refusing_ok, ok_bind, bind_assoc, pure_bind]

/-- Reading a row in place is reading it. -/
theorem parseInPlace_eq (ts : List Token) :
    parseInPlace ts = refusing (parse ts) := by
  cases ts with
  | nil => rfl
  | cons t ts =>
      rw [parseInPlace, parse_cons, refusing_bind]
      exact congrArg _ (funext reduceInPlace_eq)

/-- Every loop does what some pass does. -/
theorem exists_performs {loop : Loop} (h : loop ∈ loops) :
    ∃ pass, loop.Performs pass := by
  simp only [loops, List.mem_append, List.mem_cons, List.not_mem_nil,
    or_false, List.mem_map] at h
  rcases h with ((rfl | rfl | rfl) | ⟨ops, -, rfl⟩) | rfl | rfl | rfl | rfl | rfl
  · exact ⟨_, performs_signLoop⟩
  · exact ⟨_, performs_trailingLoop⟩
  · exact ⟨_, performs_trailingLoop⟩
  · exact ⟨_, Joint.performs_binary ops⟩
  · exact ⟨_, performs_conditionalLoop _⟩
  · exact ⟨_, performs_elseLoop⟩
  · exact ⟨_, performs_conditionalLoop _⟩
  · exact ⟨_, performs_forLoop⟩
  · exact ⟨_, Joint.performs_assignment⟩

/-- The result, or the error of the program that is read. -/
theorem refusing_cases {α : Type} (x : Except ParseError α) :
    (∃ a, refusing x = .ok a ∧ x = .ok a)
      ∨ ∃ e, refusing x = .error (.refused e) ∧ x = .error e := by
  cases x with
  | ok a => exact .inl ⟨a, rfl, rfl⟩
  | error e => exact .inr ⟨e, rfl, rfl⟩

/-- No row of tokens leads outside a level. Read in place, it gives the
tree that `parse` gives, or the same error of the program; as this holds of
any row, it holds of those inside its groups. Each loop by itself, over any
level whatever, ends with a level or with an error of the program: whatever
place it asks for is there at that moment. It does end, from wherever it
starts, since each of its steps makes the level shorter or moves the index
on. -/
theorem parse_stays_in_range (ts : List Token) :
    ((∃ t, parseInPlace ts = .ok t ∧ parse ts = .ok t)
      ∨ ∃ e, parseInPlace ts = .error (.refused e) ∧ parse ts = .error e)
    ∧ ∀ loop ∈ loops,
        (∀ level, (∃ out, loop.runOn level = .ok out)
          ∨ ∃ e, loop.runOn level = .error (.refused e))
        ∧ WellFounded (fun c' c =>
            loop.goesOn c = true ∧ loop.step c = .ok c')
        ∧ ∀ c c', loop.step c = .ok c' → Advances loop.direction c c' := by
  rw [parseInPlace_eq]
  refine ⟨refusing_cases _, fun loop hloop => ⟨fun level => ?_,
    loop.wellFounded_step, loop.advances⟩⟩
  obtain ⟨pass, hpass⟩ := exists_performs hloop
  rw [hpass level]
  rcases refusing_cases (pass level) with ⟨out, hout, -⟩ | ⟨e, he, -⟩
  · exact .inl ⟨out, hout⟩
  · exact .inr ⟨e, he⟩

end Metrology.Tree
