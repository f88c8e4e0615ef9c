/-
Failures that programs may have. Most errors say something about the
program or its input. Some do not: an operator without a meaning, a
keyword in the place of a value, a tree or a matrix that lacks a part.
These are internal, and this file shows that nothing that computes with
units and numbers, writes values as text or reads tokens brings one up.

`Mild x` says that the result `x` is no internal failure. Like every
limit on errors it passes through sequences, so a computation is mild if
its steps are.
-/
import Metrology.Proofs.Program.Full
import Metrology.Proofs.Token.Blocks
import Metrology.Proofs.Tree.Reading
import Metrology.Program.Run

namespace Metrology

/-- The error is one that no program should be answered with: it speaks of an
operator, a tree or a matrix that cannot occur. -/
def Error.IsInternal : Error → Prop
  | .malformed _ => True
  | .eval (.unknownOperator _ _) | .eval (.keywordWithoutValue _)
  | .eval (.assignmentTarget _) | .eval (.unknownComparison _) => True
  | _ => False

/-- The result is no internal failure. -/
def Mild {α : Type} (x : Except Error α) : Prop :=
  ∀ e, x = .error e → ¬ e.IsInternal

namespace Mild

variable {α β ε : Type}

/-- A result is no failure. -/
theorem ok {a : α} : Mild (.ok a : Except Error α) := FailsOnly.ok

/-- An error that is not internal. -/
theorem error {e : Error} (h : ¬ e.IsInternal) :
    Mild (.error e : Except Error α) :=
  FailsOnly.error h

/-- A step may rely on what the one before it has given. -/
theorem bind {x : Except Error α} {f : α → Except Error β} (hx : Mild x)
    (hf : ∀ a, x = .ok a → Mild (f a)) : Mild (x >>= f) :=
  FailsOnly.bind hx hf

/-- Errors of one kind stay of that kind. -/
theorem mapError {x : Except ε α} {f : ε → Error}
    (hf : ∀ e, ¬ (f e).IsInternal) : Mild (x.mapError f) :=
  FailsOnly.mapError fun e _ => hf e

/-- Unit errors speak of the program. -/
theorem unit {x : Except UnitError α} : Mild (x.mapError Error.unit) :=
  mapError fun _ => id

theorem arithmetic {x : Except ArithmeticFault α} :
    Mild (x.mapError Error.arithmetic) :=
  mapError fun _ => id

theorem ite {c : Prop} [Decidable c] {x y : Except Error α} (hx : Mild x)
    (hy : Mild y) : Mild (if c then x else y) :=
  FailsOnly.ite hx hy

end Mild

-- ============================================================== scales

namespace Scale

/-- What is wrong with a term, the program has written. -/
theorem mild_readTerm (term : String) : Mild (readTerm term) :=
  failsOnly_readTerm (fun _ => id) (fun _ _ => id) term

theorem mild_readBlock (block : String) : Mild (readBlock block) :=
  failsOnly_readBlock (fun _ => id) (fun _ _ => id) block

end Scale

-- ========================================================== quantities

namespace Quantity

/-- The complex operand of a comparison is the program's. -/
theorem mild_requireReal (a b : Quantity) (operator : String) :
    Mild ((a.requireReal b operator).mapError Error.eval) := by
  unfold requireReal
  split
  · exact .ok
  · exact .error id

theorem mild_requireUnitless (q : Quantity) (function : String) :
    Mild ((q.requireUnitless function).mapError Error.eval) := by
  unfold requireUnitless
  split
  · exact .ok
  · exact .error id

/-- A fault of arithmetic is not internal, whether or not the operation is
named. -/
theorem not_isInternal_overflowIn (operation : String) :
    ∀ f : ArithmeticFault, ¬ (overflowIn operation f).IsInternal
  | .overflow => id
  | .zeroDivision => id
  | .domain => id

/-- A number with a unit may have a wrong unit. -/
theorem mild_literal (value : Float) (decorator : String) :
    Mild (literal value decorator) := by
  unfold literal
  refine .ite .ok (.ite .ok ?_)
  exact .bind (Scale.mild_readTerm decorator) fun _ _ => .ok

/-- The operators that compare. -/
def comparisons : List Operator :=
  [.equal, .notEqual, .greater, .greaterEqual, .less, .lessEqual]

/-- A comparison by an operator that compares has a meaning. -/
theorem mild_compare (a b : Quantity) :
    ∀ op ∈ comparisons, Mild (a.compare b op) := by
  intro op hop
  refine .bind .unit fun _ _ => ?_
  simp only [comparisons, List.mem_cons, List.not_mem_nil, or_false] at hop
  rcases hop with rfl | rfl | rfl | rfl | rfl | rfl
  · exact .ok
  · exact .ok
  all_goals exact .bind (mild_requireReal a b _) fun _ _ => .ok

theorem mild_sin (q : Quantity) : Mild q.sin :=
  .bind (mild_requireUnitless q _) fun _ _ =>
    .bind .arithmetic fun _ _ => .bind .arithmetic fun _ _ => .ok

theorem mild_cos (q : Quantity) : Mild q.cos :=
  .bind (mild_requireUnitless q _) fun _ _ =>
    .bind .arithmetic fun _ _ => .bind .arithmetic fun _ _ => .ok

theorem mild_exp (q : Quantity) : Mild q.exp :=
  .bind (mild_requireUnitless q _) fun _ _ =>
    .bind (.mapError (not_isInternal_overflowIn _)) fun _ _ => .ok

theorem mild_max (a b : Quantity) : Mild (a.max b) :=
  .bind .unit fun _ _ => .bind (mild_requireReal a b _) fun _ _ => .ok

theorem mild_min (a b : Quantity) : Mild (a.min b) :=
  .bind .unit fun _ _ => .bind (mild_requireReal a b _) fun _ _ => .ok

/-- A power, whose exponent may be of any kind. -/
theorem mild_pow (a b : Quantity) : Mild (a.pow b) := by
  refine .ite (.error id) (.ite (.error id) ?_)
  refine .bind .unit fun unit _ => ?_
  refine .bind (.mapError (not_isInternal_overflowIn _)) fun value _ => ?_
  exact .bind .arithmetic fun _ _ => .ok

/-- Writing a quantity down. -/
theorem mild_text (q : Quantity) : Mild q.text :=
  .bind .unit fun _ _ => .arithmetic

/-- Writing a quantity down in a unit that is given. -/
theorem mild_textIn (q : Quantity) (unitText : String) :
    Mild (q.textIn unitText) := by
  refine .bind (Scale.mild_readBlock unitText) fun scale _ => ?_
  refine .ite (.error id) ?_
  exact .bind .arithmetic fun _ _ => .arithmetic

end Quantity

-- ============================================================== values

namespace Value

/-- Values are written down one by one. -/
theorem mild_renderAll : ∀ (vs : List Value), (∀ v ∈ vs, Mild v.render) →
    Mild (renderAll vs) := by
  intro vs
  induction vs with
  | nil => intro _; exact .ok
  | cons v vs ih =>
      intro h
      rw [renderAll]
      refine .bind (h v (List.mem_cons_self ..)) fun _ _ => ?_
      refine .bind (ih fun w hw => h w (List.mem_cons_of_mem _ hw)) ?_
      exact fun _ _ => .ok

/-- As many texts as there were values. -/
theorem length_renderAll : ∀ (vs : List Value) {texts : List String},
    renderAll vs = .ok texts → texts.length = vs.length := by
  intro vs
  induction vs with
  | nil => intro texts h; cases h; rfl
  | cons v vs ih =>
      intro texts h
      rw [renderAll] at h
      obtain ⟨s, texts', -, htexts, rfl⟩ := bind_cons_eq_ok.mp h
      rw [List.length_cons, List.length_cons, ih htexts]

/-- A value without broken matrices can be written down, unless one of
its numbers cannot. -/
theorem Full.mild_render {v : Value} (h : v.Full) : Mild v.render := by
  induction h with
  | void => exact .ok
  | text => exact .ok
  | number => exact Quantity.mild_text _
  | @matrix m hfull _ ih =>
      rw [render]
      refine .bind (mild_renderAll m.cells ih) fun texts htexts => ?_
      -- the texts fill the matrix as the values did, so it has rows
      have htexts' : (Matrix.mk m.width m.height texts).IsFull :=
        (length_renderAll m.cells htexts).trans hfull
      obtain ⟨rows, hrows⟩ := htexts'.rows?
      rw [hrows]
      exact .ok

end Value

-- ============================================================== tokens

namespace Token

/-- An error of scanning speaks of a character or of a unit. -/
theorem mild_scanFrom (position : Nat) (cs : List Text.Cluster) :
    Mild (scanFrom position cs) := by
  refine (explained_of_scanFrom position cs).mono fun e he => ?_
  rcases he with ⟨l, rfl⟩ | ⟨_, inside, _, _, hread⟩
  · exact id
  · exact Scale.mild_readBlock _ e hread

end Token

namespace Program

/-- A text that is no program says so. -/
theorem mild_parse (source : String) : Mild (parse source) :=
  .bind (Token.mild_scanFrom _ _) fun _ _ => .mapError fun _ => id

end Program

end Metrology
