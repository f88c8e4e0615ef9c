/-
What programs do. Beside computing, the evaluation of a tree looks
variables up, assigns to them and stops with errors. `Does` says which of
these a tree may do, going by its nodes alone.

A relation between actions is stepwise if it relates every basic action
with itself and passes through sequences; it is a lockstep if it also
passes through the loops that two limits give. The evaluations of one
tree under the two limits are then related, provided that the tree does
only what the relation allows. This is the one induction over trees: what
two runs of a program have in common, be it under other limits or with
other variables, follows from it by looking at basic actions and loops.
-/
import Metrology.Program.Run

namespace Metrology.Program

-- ============================================================= effects

/-- What an evaluation may do beside computing. -/
inductive Effect where
  | read (name : String)
  | assign (name : String)
  | raise (e : Error)

/-- The variable that a place of a template shows. -/
def placeName (content : String) : String :=
  Text.trim (String.ofList (content.toList.takeWhile (· != '|')))

/-- The functions that write values as text. -/
def showFunctions : List String :=
  ["write", "print", "writeln", "assert", "error"]

/-- The node writes values as text, if only to complain about them. -/
def Shows : Node → Prop
  | .call name => name ∈ showFunctions
  | .index _ => True
  | .template text => ∃ content, .place content ∈ parts text
  | _ => False

/-- What the nodes of a tree may do. Any node may object to its
operands. -/
inductive Does : Tree → Effect → Prop
  | name {name : String} {cs : List Tree} :
      Does (.mk (.variable name) cs) (.read name)
  | indexed {name : String} {cs : List Tree} :
      Does (.mk (.index (some name)) cs) (.read name)
  | place {text content : String} {cs : List Tree} :
      .place content ∈ parts text → Text.isName (placeName content) = true →
      Does (.mk (.template text) cs) (.read (placeName content))
  | target {name : String} {target expression : Tree} :
      target.node = .variable name →
      Does (.mk (.operator .assign) [target, expression]) (.assign name)
  | counter {name : String} {index cells body : Tree} :
      index.node.name? = some name →
      Does (.mk (.operator .forLoop) [index, cells, body]) (.assign name)
  | literal {value : Float} {decorator : String} {cs : List Tree}
      {e : Error} :
      Quantity.literal value decorator = .error e →
      Does (.mk (.number value decorator) cs) (.raise e)
  | unary {op : Operator} {f : Quantity → Except Error Quantity}
      {q : Quantity} {cs : List Tree} {e : Error} :
      unary? op = some f → f q = .error e →
      Does (.mk (.operator op) cs) (.raise e)
  | binary {op : Operator} {f : Quantity → Quantity → Except Error Quantity}
      {a b : Quantity} {cs : List Tree} {e : Error} :
      binary? op = some f → f a b = .error e →
      Does (.mk (.operator op) cs) (.raise e)
  | scale {text : String} {scale : Scale} {q : Quantity} {cs : List Tree}
      {e : UnitError} :
      q.onScale scale = .error e →
      Does (.mk (.unitBlock text scale) cs) (.raise (.unit e))
  | one {name : String} {f : Quantity → Except Error Quantity}
      {q : Quantity} {cs : List Tree} {e : Error} :
      (name, .one f) ∈ numberFunctions → f q = .error e →
      Does (.mk (.call name) cs) (.raise e)
  | two {name : String} {f : Quantity → Quantity → Except Error Quantity}
      {a b : Quantity} {cs : List Tree} {e : Error} :
      (name, .two f) ∈ numberFunctions → f a b = .error e →
      Does (.mk (.call name) cs) (.raise e)
  | render {n : Node} {v : Value} {cs : List Tree} {e : Error} :
      Shows n → v.render = .error e → Does (.mk n cs) (.raise e)
  | renderIn {text content unit : String} {q : Quantity} {cs : List Tree}
      {e : Error} :
      .place content ∈ parts text → q.textIn unit = .error e →
      Does (.mk (.template text) cs) (.raise e)
  | object {t : Tree} {e : EvalError} : Does t (.raise (.eval e))
  | malformed {t : Tree} {m : Malformation} : Does t (.raise (.malformed m))
  | inside {n : Node} {cs : List Tree} {c : Tree} {effect : Effect} :
      c ∈ cs → Does c effect → Does (.mk n cs) effect

-- ========================================================== relations

/-- A relation between actions of every type. -/
abbrev Relation := (α : Type) → Action α → Action α → Prop

/-- The relation holds between every allowed basic action and itself, and
between sequences of related actions. -/
structure Stepwise (allowed : Effect → Prop) (R : Relation) : Prop where
  pure : ∀ {α : Type} (a : α), R α (Pure.pure a) (Pure.pure a)
  bind : ∀ {α β : Type} {x y : Action α} {f g : α → Action β},
    R α x y → (∀ a, R β (f a) (g a)) → R β (x >>= f) (y >>= g)
  fail : ∀ {α : Type} {e : Error}, allowed (.raise e) →
    R α (Program.fail e) (Program.fail e)
  lookup : ∀ {name : String}, allowed (.read name) →
    R Value (Program.lookup name) (Program.lookup name)
  assign : ∀ {name : String} (v : Value), allowed (.assign name) →
    R Unit (Program.assign name v) (Program.assign name v)
  write : ∀ text : String, R Unit (Program.write text) (Program.write text)

/-- The relation also holds between loops of related actions, under the
one and the other limits. -/
structure Lockstep (lim lim' : Limits) (allowed : Effect → Prop)
    (R : Relation) : Prop extends Stepwise allowed R where
  whileLoop : ∀ {condition condition' : Action Bool}
    {body body' : Action Value},
    R Bool condition condition' → R Value body body' →
    R (List Value) (repeatWhile lim condition body lim.turns 0 [])
      (repeatWhile lim' condition' body' lim'.turns 0 [])
  forLoop : ∀ {bind bind' : Value → Action Unit} {body body' : Action Value},
    (∀ v, R Unit (bind v) (bind' v)) → R Value body body' →
    ∀ cells, R (List Value) (repeatFor lim bind body 0 cells [])
      (repeatFor lim' bind' body' 0 cells [])

-- =========================================================== sequences

section Sequences

variable {ε σ α β : Type} {x : EStateM ε σ α} {f : α → EStateM ε σ β}
  {s s' : σ}

/-- Behind an action that ends with a result the next one starts. -/
theorem bind_of_ok {a : α} (h : x s = .ok a s') : (x >>= f) s = f a s' := by
  show EStateM.bind x f s = f a s'
  unfold EStateM.bind
  rw [h]

/-- Behind an action that stops nothing starts. -/
theorem bind_of_error {e : ε} (h : x s = .error e s') :
    (x >>= f) s = .error e s' := by
  show EStateM.bind x f s = .error e s'
  unfold EStateM.bind
  rw [h]

end Sequences

/-- A text that has a tree is evaluated as the tree, whatever takes it
apart. -/
theorem runWith_eq_evaluate {split : Text.Splitter} {p : String} {t : Tree}
    (h : parseWith split p = .ok t) (lim : Limits) :
    runWith split lim p = evaluate lim t := by
  rw [runWith, h]
  rfl

/-- A program is evaluated as its tree. -/
theorem run_eq_evaluate {p : String} {t : Tree} (h : parse p = .ok t)
    (lim : Limits) : run lim p = evaluate lim t := runWith_eq_evaluate h lim

/-- A text that has none fails and changes nothing. -/
theorem run_eq_fail {p : String} {e : Error} (h : parse p = .error e)
    (lim : Limits) : run lim p = fail e := by
  rw [run_eq_bind, h]
  rfl

-- ======================================================= basic actions

namespace Stepwise

variable {allowed : Effect → Prop} {R : Relation} {α β : Type}

/-- A computation whose errors are all allowed. -/
theorem lift (h : Stepwise allowed R) {x : Except Error α}
    (hx : ∀ e, x = .error e → allowed (.raise e)) :
    R α (Program.lift x) (Program.lift x) := by
  cases x with
  | error e => exact h.fail (hx e rfl)
  | ok a => exact h.pure a

/-- A part that has to be there, where its absence may be complained
about. -/
theorem require (h : Stepwise allowed R) {m : Malformation} {o : Option α}
    (hm : allowed (.raise (.malformed m))) :
    R α (Program.require m o) (Program.require m o) := by
  cases o with
  | none => exact h.fail hm
  | some a => exact h.pure a

/-- A choice that both sides make alike. -/
theorem ite {c : Prop} [Decidable c] {x x' y y' : Action α}
    (hx : c → R α x x') (hy : ¬ c → R α y y') :
    R α (if c then x else y) (if c then x' else y') := by
  split
  · next hc => exact hx hc
  · next hc => exact hy hc

/-- A traversal by related steps. -/
theorem mapM (h : Stepwise allowed R) {f g : β → Action α} :
    ∀ {xs : List β}, (∀ x ∈ xs, R α (f x) (g x)) →
      R (List α) (xs.mapM f) (xs.mapM g) := by
  intro xs
  induction xs with
  | nil => intro _; exact h.pure []
  | cons x xs ih =>
      intro hxs
      rw [List.mapM_cons, List.mapM_cons]
      refine h.bind (hxs x (List.mem_cons_self ..)) fun a => ?_
      refine h.bind (ih fun x hx => hxs x (List.mem_cons_of_mem _ hx)) ?_
      exact fun as => h.pure (a :: as)

end Stepwise

-- ================================================ loops in equal limits

section Loops

variable {lim : Limits} {allowed : Effect → Prop} {R : Relation}

/-- Under a cap a loop has a turn for each iteration, and one for the
condition that ends it. -/
theorem turns_of_cap {n : Int} (hcap : lim.iterations = some n) :
    lim.turns = n.toNat + 1 := by
  unfold Limits.turns
  rw [hcap]

/-- The check that a loop makes before a turn. -/
theorem Stepwise.checkIterations (h : Stepwise allowed R)
    (hallowed : ∀ e, allowed (.raise (.eval e))) (loop : String)
    (count : Nat) :
    R Unit (checkIterations lim loop count)
      (checkIterations lim loop count) := by
  unfold Program.checkIterations
  split
  · exact h.pure ()
  · exact ite (fun _ => h.fail (hallowed _)) fun _ => h.pure ()

/-- Under equal limits, loops on a condition take their turns alike. -/
theorem Stepwise.repeatWhile (h : Stepwise allowed R)
    (hallowed : ∀ e, allowed (.raise (.eval e)))
    (hexhausted : R (List Value) (throw .exhausted) (throw .exhausted))
    {condition condition' : Action Bool} {body body' : Action Value}
    (hcondition : R Bool condition condition')
    (hbody : R Value body body') : ∀ (turns count : Nat)
      (results : List Value),
      R (List Value) (repeatWhile lim condition body turns count results)
        (repeatWhile lim condition' body' turns count results) := by
  intro turns
  induction turns with
  | zero => intro _ _; exact hexhausted
  | succ turns ih =>
      intro count results
      refine h.bind hcondition fun holds => ite (fun _ => ?_) fun _ => h.pure _
      refine h.bind (h.checkIterations hallowed _ _) fun _ => ?_
      exact h.bind hbody fun v => ih _ _

theorem Stepwise.repeatFor (h : Stepwise allowed R)
    (hallowed : ∀ e, allowed (.raise (.eval e)))
    {bind bind' : Value → Action Unit} {body body' : Action Value}
    (hbind : ∀ v, R Unit (bind v) (bind' v)) (hbody : R Value body body') :
    ∀ (cells : List Value) (count : Nat) (results : List Value),
      R (List Value) (repeatFor lim bind body count cells results)
        (repeatFor lim bind' body' count cells results) := by
  intro cells
  induction cells with
  | nil => intro _ _; exact h.pure _
  | cons c cells ih =>
      intro count results
      refine h.bind (h.checkIterations hallowed _ _) fun _ => ?_
      refine h.bind (hbind c) fun _ => ?_
      exact h.bind hbody fun v => ih _ _

/-- With the same limits on both sides loops come for free. -/
theorem Stepwise.lockstep (h : Stepwise allowed R)
    (hallowed : ∀ e, allowed (.raise (.eval e)))
    (hexhausted : R (List Value) (throw .exhausted) (throw .exhausted)) :
    Lockstep lim lim allowed R where
  toStepwise := h
  whileLoop hcondition hbody :=
    h.repeatWhile hallowed hexhausted hcondition hbody _ _ _
  forLoop hbind hbody cells := h.repeatFor hallowed hbind hbody cells _ _

end Loops

-- ============================================================ operands

/-- The tree does nothing but what is allowed. -/
def Within (allowed : Effect → Prop) (t : Tree) : Prop :=
  ∀ effect, Does t effect → allowed effect

namespace Within

variable {allowed : Effect → Prop}

/-- Objections to operands are among what is allowed. -/
theorem object {t : Tree} (ht : Within allowed t) (e : EvalError) :
    allowed (.raise (.eval e)) :=
  ht _ .object

theorem malformed {t : Tree} (ht : Within allowed t) (m : Malformation) :
    allowed (.raise (.malformed m)) :=
  ht _ .malformed

/-- What is allowed to a tree is allowed to its parts. -/
theorem inside {n : Node} {cs : List Tree} {c : Tree}
    (ht : Within allowed (.mk n cs)) (hc : c ∈ cs) : Within allowed c :=
  fun effect hdoes => ht effect (.inside hc hdoes)

end Within

namespace Lockstep

variable {lim lim' : Limits} {allowed : Effect → Prop} {R : Relation}
  {t : Tree} {x x' : Action Value}

/-- An operand that has to be a number. -/
theorem number (h : Lockstep lim lim' allowed R)
    (hallowed : ∀ e, allowed (.raise (.eval e)))
    (hx : R Value x x') (operator : String) (side : Option String) :
    R Quantity (Operand.number ⟨t, x⟩ operator side)
      (Operand.number ⟨t, x'⟩ operator side) := by
  refine h.bind hx fun v => ?_
  split
  · exact h.pure _
  · exact h.fail (hallowed _)

/-- An argument that has to be a number. -/
theorem argument (h : Lockstep lim lim' allowed R)
    (hallowed : ∀ e, allowed (.raise (.eval e)))
    (hx : R Value x x') (function : String) (position : Nat) :
    R Quantity (Operand.argument ⟨t, x⟩ function position)
      (Operand.argument ⟨t, x'⟩ function position) := by
  refine h.bind hx fun v => ?_
  split
  · exact h.pure _
  · exact h.fail (hallowed _)

/-- Every error of writing a value as text is allowed. -/
def AllowsText (allowed : Effect → Prop) : Prop :=
  ∀ (v : Value) (e : Error), v.render = .error e → allowed (.raise e)

/-- An operand that is written as text. -/
theorem text (h : Lockstep lim lim' allowed R) (htext : AllowsText allowed)
    (hx : R Value x x') :
    R String (Operand.text ⟨t, x⟩) (Operand.text ⟨t, x'⟩) :=
  h.bind hx fun v => h.lift (htext v)

/-- The trees are evaluated in lockstep. -/
def Kids (lim lim' : Limits) (R : Relation) (ts : List Tree) : Prop :=
  ∀ t ∈ ts, R Value (evaluate lim t) (evaluate lim' t)

variable {ts us : List Tree}

theorem Kids.head {t : Tree} (hts : Kids lim lim' R (t :: ts)) :
    R Value (evaluate lim t) (evaluate lim' t) :=
  hts t (List.mem_cons_self ..)

theorem Kids.tail {t : Tree} (hts : Kids lim lim' R (t :: ts)) :
    Kids lim lim' R ts :=
  fun u hu => hts u (List.mem_cons_of_mem _ hu)

/-- A traversal of operands by an action on each. -/
theorem mapM_operands (h : Lockstep lim lim' allowed R) {α : Type}
    {p : Operand → Action α}
    (hp : ∀ {t : Tree} {x x' : Action Value}, R Value x x' →
      R α (p ⟨t, x⟩) (p ⟨t, x'⟩)) :
    ∀ {ts : List Tree}, Kids lim lim' R ts →
      R (List α) ((operands lim ts).mapM p) ((operands lim' ts).mapM p) := by
  intro ts
  induction ts with
  | nil => intro _; exact h.pure []
  | cons t ts ih =>
      intro hts
      rw [operands, operands, List.mapM_cons, List.mapM_cons]
      refine h.bind (hp hts.head) fun a => ?_
      exact h.bind (ih hts.tail) fun as => h.pure (a :: as)

-- =========================================================== operators

/-- An assignment evaluates its second operand, and assigns to the name that
the first one is. -/
theorem assignment (h : Lockstep lim lim' allowed R)
    (ht : Within allowed (.mk (.operator .assign) ts))
    (hts : Kids lim lim' R ts) :
    R Value (runAssign (operands lim ts)) (runAssign (operands lim' ts)) := by
  -- the number of operands is the node's to check: a tree may have any
  match ts with
  | [target, expression] =>
      simp only [operands, runAssign]
      split
      · next name hname =>
        refine h.bind hts.tail.head fun v => ?_
        exact h.bind (h.assign v (ht _ (.target hname))) fun _ => h.pure _
      · exact h.fail (ht.object _)
  | [] | [_] | _ :: _ :: _ :: _ => exact h.fail (ht.malformed _)

/-- A conditional evaluates the condition and then one branch, on both sides
the same. -/
theorem branches (h : Lockstep lim lim' allowed R) {n : Node}
    (ht : Within allowed (.mk n ts)) (hts : Kids lim lim' R ts) :
    R Value (runIf (operands lim ts)) (runIf (operands lim' ts)) := by
  match ts with
  | [] => exact h.fail (ht.malformed _)
  | condition :: branches =>
      refine h.bind (h.number ht.object hts.head _ _) fun q => ?_
      refine Stepwise.ite (fun _ => ?_) fun _ => ?_
      · match branches with
        | [] => exact h.fail (ht.malformed _)
        | _ :: _ => exact hts.tail.head
      · match branches with
        | [_, _] => exact hts.tail.tail.head
        | [] | [_] | _ :: _ :: _ :: _ => exact h.pure _

/-- A loop on a condition is among the loops of the relation. -/
theorem repetition (h : Lockstep lim lim' allowed R) {n : Node}
    (ht : Within allowed (.mk n ts)) (hts : Kids lim lim' R ts) :
    R Value (runWhile lim (operands lim ts))
      (runWhile lim' (operands lim' ts)) := by
  match ts with
  | [condition, body] =>
      have hholds := h.bind
        (h.number ht.object (t := condition) hts.head "while" "condition")
        fun q => h.pure q.isTrue
      refine h.bind (h.whileLoop hholds hts.tail.head) fun results => ?_
      exact h.pure _
  | [] | [_] | _ :: _ :: _ :: _ => exact h.fail (ht.malformed _)

/-- A loop over a matrix too, since it binds its index alike. -/
theorem visits (h : Lockstep lim lim' allowed R)
    (ht : Within allowed (.mk (.operator .forLoop) ts))
    (hts : Kids lim lim' R ts) :
    R Value (runFor lim (operands lim ts))
      (runFor lim' (operands lim' ts)) := by
  match ts with
  | [index, cells, body] =>
      refine h.bind hts.tail.head fun v => ?_
      split
      · next m =>
        refine h.bind (h.require (ht.malformed _)) fun visited => ?_
        refine h.bind (h.forLoop (fun v => ?_) hts.tail.tail.head visited) ?_
        · show R Unit (bindIndex index v) (bindIndex index v)
          unfold bindIndex
          cases hname : index.node.name? with
          | some name => exact h.assign v (ht _ (.counter hname))
          | none => exact h.pure ()
        · exact fun results =>
            h.bind (h.require (ht.malformed _)) fun _ => h.pure _
      · exact h.fail (ht.object _)
  | [] | [_] | [_, _] | _ :: _ :: _ :: _ :: _ =>
      exact h.fail (ht.malformed _)

/-- The other operators compute with the numbers that their operands are. -/
theorem compute (h : Lockstep lim lim' allowed R) {op : Operator}
    (ht : Within allowed (.mk (.operator op) ts))
    (hts : Kids lim lim' R ts) :
    R Value (runCompute op (operands lim ts))
      (runCompute op (operands lim' ts)) := by
  match ts with
  | [a] =>
      simp only [operands, runCompute]
      split
      · next f hf =>
        refine h.bind (h.number ht.object hts.head _ _) fun q => ?_
        refine h.bind (h.lift fun e he => ht _ (.unary hf he)) fun _ => ?_
        exact h.pure _
      · exact h.fail (ht.object _)
  | [a, b] =>
      simp only [operands, runCompute]
      split
      · next f hf =>
        refine h.bind (h.number ht.object hts.head _ _) fun q => ?_
        refine h.bind (h.number ht.object hts.tail.head _ _) fun r => ?_
        refine h.bind (h.lift fun e he => ht _ (.binary hf he)) fun _ => ?_
        exact h.pure _
      · exact h.fail (ht.object _)
  | [] => exact h.fail (ht.object _)
  | _ :: _ :: _ :: ts =>
      simp only [operands, runCompute, List.length_cons, length_operands]
      exact h.fail (ht.object _)

/-- An operator, of whatever kind. -/
theorem operator (h : Lockstep lim lim' allowed R) {op : Operator}
    (ht : Within allowed (.mk (.operator op) ts))
    (hts : Kids lim lim' R ts) :
    R Value (runOperator lim op (operands lim ts))
      (runOperator lim' op (operands lim' ts)) := by
  unfold runOperator
  split
  · exact h.assignment ht hts
  · exact h.branches ht hts
  · exact h.repetition ht hts
  · exact h.visits ht hts
  · exact h.compute ht hts

-- =========================================================== functions

/-- A function of numbers, for the number of arguments that it takes and for
others. -/
theorem numberFunction (h : Lockstep lim lim' allowed R) {name : String}
    {f : NumberFunction} (hf : (name, f) ∈ numberFunctions)
    (ht : Within allowed (.mk (.call name) ts))
    (hts : Kids lim lim' R ts) :
    R Value (runNumberFunction name f (operands lim ts))
      (runNumberFunction name f (operands lim' ts)) := by
  cases f with
  | one f =>
      rcases ts with - | ⟨a, - | ⟨b, ts⟩⟩
      · exact h.fail (ht.object _)
      · refine h.bind (h.argument ht.object hts.head _ _) fun q => ?_
        refine h.bind (h.lift fun e he => ht _ (.one hf he)) fun _ => ?_
        exact h.pure _
      · simp only [operands, runNumberFunction, List.length_cons,
          length_operands]
        exact h.fail (ht.object _)
  | two f =>
      rcases ts with - | ⟨a, - | ⟨b, - | ⟨c, ts⟩⟩⟩
      · exact h.fail (ht.object _)
      · exact h.fail (ht.object _)
      · refine h.bind (h.argument ht.object hts.head _ _) fun q => ?_
        refine h.bind (h.argument ht.object hts.tail.head _ _) fun r => ?_
        refine h.bind (h.lift fun e he => ht _ (.two hf he)) fun _ => ?_
        exact h.pure _
      · simp only [operands, runNumberFunction, List.length_cons,
          length_operands]
        exact h.fail (ht.object _)

/-- The functions that write their arguments down. -/
theorem writing (h : Lockstep lim lim' allowed R)
    (htext : AllowsText allowed) (gap stop : String)
    (hts : Kids lim lim' R ts) :
    R Value (runWrite gap stop (operands lim ts))
      (runWrite gap stop (operands lim' ts)) := by
  refine h.bind (h.mapM_operands (h.text htext) hts) fun texts => ?_
  exact h.bind (h.write _) fun _ => h.pure _

/-- The text of a failed assertion, given or made up. -/
theorem failureText (h : Lockstep lim lim' allowed R)
    (htext : AllowsText allowed) (heading : String) (v : Value)
    (hts : Kids lim lim' R ts) :
    R String (failureText heading v (operands lim ts))
      (failureText heading v (operands lim' ts)) := by
  cases ts with
  | nil => exact h.bind (h.lift (htext v)) fun _ => h.pure _
  | cons t ts => exact h.text htext hts.head

/-- The functions that may stop the program. -/
theorem assertion (h : Lockstep lim lim' allowed R)
    (htext : AllowsText allowed)
    (hallowed : ∀ e, allowed (.raise (.eval e))) (name heading : String)
    (asserts : Bool) (hts : Kids lim lim' R ts) :
    R Value (runAssert name heading asserts (operands lim ts))
      (runAssert name heading asserts (operands lim' ts)) := by
  cases ts with
  | nil => exact h.fail (hallowed _)
  | cons t ts =>
      simp only [operands, runAssert, List.length_cons, length_operands]
      refine Stepwise.ite (fun _ => h.fail (hallowed _)) fun _ => ?_
      refine h.bind hts.head fun v => ?_
      refine Stepwise.ite (fun _ => h.pure _) fun _ => ?_
      refine h.bind (h.failureText htext heading v hts.tail) fun text => ?_
      exact h.fail (hallowed _)

/-- A call, of a function that there is or of another. -/
theorem call (h : Lockstep lim lim' allowed R) {name : String}
    (ht : Within allowed (.mk (.call name) ts))
    (hts : Kids lim lim' R ts) :
    R Value (runCall name (operands lim ts))
      (runCall name (operands lim' ts)) := by
  have htext : name ∈ showFunctions → AllowsText allowed :=
    fun hname v e he => ht _ (.render hname he)
  unfold runCall
  split
  · next f hf =>
    -- the name is in the table of functions, so what it raises is known
    obtain ⟨before, behind, heq, -⟩ := List.lookup_eq_some_iff.mp hf
    exact h.numberFunction (by simp [heq]) ht hts
  · refine Stepwise.ite (fun hwrite => ?_) fun _ => ?_
    · cases ts with
      | nil => exact h.fail (ht.object _)
      | cons t ts =>
          exact h.writing (htext (by simp [showFunctions, hwrite])) _ _ hts
    refine Stepwise.ite (fun hprint => ?_) fun _ => ?_
    · have hname : name = "print" ∨ name = "writeln" := by simpa using hprint
      refine h.writing (htext ?_) _ _ hts
      rcases hname with rfl | rfl <;> decide
    refine Stepwise.ite (fun hassert => ?_) fun _ => ?_
    · have hshow := htext (by simp [showFunctions, hassert])
      exact h.assertion hshow ht.object _ _ _ hts
    refine Stepwise.ite (fun herror => ?_) fun _ => ?_
    · have hshow := htext (by simp [showFunctions, herror])
      exact h.assertion hshow ht.object _ _ _ hts
    exact h.fail (ht.object _)

-- ============================================================ matrices

/-- An index is a whole number, or is complained about with its text. -/
theorem place (h : Lockstep lim lim' allowed R)
    (htext : AllowsText allowed)
    (hallowed : ∀ e, allowed (.raise (.eval e))) (hx : R Value x x')
    (size : Nat) (label : String) :
    R Nat (Operand.index ⟨t, x⟩ size label)
      (Operand.index ⟨t, x'⟩ size label) := by
  refine h.bind hx fun v => ?_
  split
  · exact h.bind (h.lift (htext v)) fun _ => h.fail (hallowed _)
  · split
    · exact h.pure _
    · exact h.fail (hallowed _)

/-- One index or two, into what has to be a matrix. -/
theorem indices (h : Lockstep lim lim' allowed R)
    {target : Option String} (ht : Within allowed (.mk (.index target) us))
    (label : String) (v : Value) (hts : Kids lim lim' R ts) :
    R Value (runIndices label v (operands lim ts))
      (runIndices label v (operands lim' ts)) := by
  have htext : AllowsText allowed := fun v e he => ht _ (.render trivial he)
  unfold runIndices
  split
  · next m =>
    match ts with
    | [a] =>
        refine Stepwise.ite (fun _ => h.fail (ht.object _)) fun _ => ?_
        refine h.bind (h.place htext ht.object hts.head _ _) fun row => ?_
        exact h.require (ht.malformed _)
    | [a, b] =>
        refine h.bind (h.place htext ht.object hts.head _ _) fun row => ?_
        refine h.bind (h.place htext ht.object hts.tail.head _ _) ?_
        exact fun col => h.require (ht.malformed _)
    | [] => exact h.fail (ht.object _)
    | _ :: _ :: _ :: ts =>
        simp only [operands, List.length_cons, length_operands]
        exact h.fail (ht.object _)
  · exact h.fail (ht.object _)

/-- The matrix is a variable, or an operand of its own. -/
theorem index (h : Lockstep lim lim' allowed R) {target : Option String}
    (ht : Within allowed (.mk (.index target) ts))
    (hts : Kids lim lim' R ts) :
    R Value (runIndex target (operands lim ts))
      (runIndex target (operands lim' ts)) := by
  cases target with
  | some name =>
      refine h.bind (h.lookup (ht _ .indexed)) fun v => ?_
      exact h.indices ht name v hts
  | none =>
      cases ts with
      | nil => exact h.fail (ht.malformed _)
      | cons t ts =>
          exact h.bind hts.head fun v => h.indices ht _ v hts.tail

/-- The cells of a matrix, in their order. -/
theorem matrix (h : Lockstep lim lim' allowed R) {width height : Nat}
    (ht : Within allowed (.mk (.matrix width height) ts))
    (hts : Kids lim lim' R ts) :
    R Value (runMatrix width height (operands lim ts))
      (runMatrix width height (operands lim' ts)) := by
  refine h.bind (h.mapM_operands (fun hx => hx) hts) fun vs => ?_
  exact h.bind (h.require (ht.malformed _)) fun _ => h.pure _

-- ==================================================== blocks and strings

/-- The statements of a block, in their order. -/
theorem block (h : Lockstep lim lim' allowed R) :
    ∀ {ts : List Tree} (last : Value), Kids lim lim' R ts →
      R Value (runBlock last (operands lim ts))
        (runBlock last (operands lim' ts)) := by
  intro ts
  induction ts with
  | nil => intro last _; exact h.pure last
  | cons t ts ih =>
      intro last hts
      exact h.bind hts.head fun v => ih v hts.tail

/-- A unit behind an operand. -/
theorem unitBlock (h : Lockstep lim lim' allowed R) {text : String}
    {scale : Scale} (ht : Within allowed (.mk (.unitBlock text scale) ts))
    (hts : Kids lim lim' R ts) :
    R Value (runUnitBlock text scale (operands lim ts))
      (runUnitBlock text scale (operands lim' ts)) := by
  cases ts with
  | nil => exact h.fail (ht.malformed _)
  | cons t ts =>
      refine h.bind (h.number ht.object hts.head _ _) fun q => ?_
      refine h.bind (h.lift fun e he => ?_) fun _ => h.pure _
      cases hscale : q.onScale scale with
      | ok r => rw [hscale] at he; cases he
      | error u =>
          rw [hscale] at he
          cases he
          exact ht _ (.scale hscale)

/-- The place of a template shows a variable, perhaps in a unit. -/
theorem fillPlace (h : Lockstep lim lim' allowed R) {text content : String}
    {cs : List Tree} (ht : Within allowed (.mk (.template text) cs))
    (hplace : .place content ∈ parts text) :
    R String (fillPlace text content) (fillPlace text content) := by
  unfold Program.fillPlace
  extract_lets chars name
  refine Stepwise.ite (fun _ => h.fail (ht.object _)) fun hname => ?_
  have hname : Text.isName name = true := by simpa using hname
  refine h.bind (h.lookup (ht _ (.place hplace hname))) fun v => ?_
  split
  · exact h.lift fun e he => ht _ (.render ⟨content, hplace⟩ he)
  · split
    · exact h.fail (ht.object _)
    · exact h.lift fun e he => ht _ (.renderIn hplace he)
    · exact h.fail (ht.object _)

/-- A part of a template. -/
theorem fillPart (h : Lockstep lim lim' allowed R) {text : String}
    {cs : List Tree} (ht : Within allowed (.mk (.template text) cs))
    {part : Part} (hpart : part ∈ parts text) :
    R String (fillPart text part) (fillPart text part) := by
  unfold Program.fillPart
  split
  · exact h.pure _
  · exact h.fillPlace ht hpart
  · exact h.fail (ht.object _)

/-- A template is filled part by part. -/
theorem template (h : Lockstep lim lim' allowed R) {text : String}
    {cs : List Tree} (ht : Within allowed (.mk (.template text) cs)) :
    R String (fill text) (fill text) := by
  have hparts : R (List String) ((parts text).mapM (Program.fillPart text))
      ((parts text).mapM (Program.fillPart text)) :=
    h.mapM fun _ hpart => h.fillPart ht hpart
  exact h.bind hparts fun _ => h.pure _

-- =============================================================== trees

/-- A node does what its operands do, and what it does itself. -/
theorem node (h : Lockstep lim lim' allowed R) {n : Node}
    (ht : Within allowed (.mk n ts)) (hts : Kids lim lim' R ts) :
    R Value (runNode lim n (operands lim ts))
      (runNode lim' n (operands lim' ts)) := by
  match n with
  | .empty => exact h.pure _
  | .number value decorator =>
      refine h.bind (h.lift fun e he => ht _ (.literal he)) fun _ => ?_
      exact h.pure _
  | .operator op => exact h.operator ht hts
  | .keyword word => exact h.fail (ht.object _)
  | .variable name => exact h.lookup (ht _ .name)
  | .call name => exact h.call ht hts
  | .block => exact h.block _ hts
  | .unitBlock text scale => exact h.unitBlock ht hts
  | .template text => exact h.bind (h.template ht) fun _ => h.pure _
  | .matrix width height => exact h.matrix ht hts
  | .index target => exact h.index ht hts

/-- The evaluations of a tree that does only what is allowed are
related. -/
theorem evaluate (h : Lockstep lim lim' allowed R) :
    ∀ t : Tree, Within allowed t →
      R Value (evaluate lim t) (evaluate lim' t)
  | .mk n cs, ht => by
      rw [Program.evaluate, Program.evaluate]
      -- the one recursion over trees: the children are in lockstep, so
      -- the node is
      exact h.node ht fun c hc => h.evaluate c (ht.inside hc)
termination_by t => t
decreasing_by
  have hlt := List.sizeOf_lt_of_mem hc
  simp only [Tree.mk.sizeOf_spec]
  omega

end Lockstep

end Metrology.Program
