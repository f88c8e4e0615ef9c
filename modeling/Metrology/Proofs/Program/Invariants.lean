/-
Invariants of quantities are invariants of programs. A program computes
with quantities, hands them on and keeps them in variables and matrices.
If every operation on quantities keeps a property, so does every program:
from variables that hold nothing without the property, nothing without it
is computed, returned or left in a variable, however the run ends.

That nothing without it is computed on the way is said by watching. The
watched evaluation looks at the value of every node, each time the node is
evaluated, and at the variables; where it finds a quantity without the
property it does something else instead of going on, whatever that may be
(`watched`). It is the plain evaluation all the same, since there is
nothing to find.

The two evaluations go side by side. `Shadows` relates an action to one
that it does not differ from and says how the two end; it passes through
sequences and loops, so what is left is one lemma per kind of node, each
from what is known of the node's operands. Which errors the operations
leave to a node is part of the invariant, and an error of a run is one of
a node that occurs in the tree.
-/
import Metrology.Proofs.Program.Faults
import Metrology.Proofs.Program.Full

namespace Metrology

-- ============================================================== values

/-- Every quantity in the value is good, also in the cells of matrices and
in theirs. -/
inductive Value.All (Good : Quantity → Prop) : Value → Prop
  | void : All Good .void
  | text {s : String} : All Good (.text s)
  | number {q : Quantity} : Good q → All Good (.number q)
  | matrix {m : Matrix Value} :
      (∀ v ∈ m.cells, All Good v) → All Good (.matrix m)

/-- Every quantity in a variable is good. -/
def Environment.All (Good : Quantity → Prop) (env : Environment) : Prop :=
  ∀ name v, env.get? name = some v → v.All Good

/-- A variable that is given a good value leaves the others as they are. -/
theorem Environment.All.set {Good : Quantity → Prop} {env : Environment}
    (h : env.All Good) {v : Value} (hv : v.All Good) (name : String) :
    (env.set name v).All Good := by
  intro other w hw
  rw [Environment.get?_set] at hw
  split at hw
  · cases hw; exact hv
  · exact h other w hw

namespace Program

-- ========================================================== invariants

/-- The computation yields what is wanted or fails as it may. -/
structure Computes {α : Type} (P : α → Prop) (E : Error → Prop)
    (x : Except Error α) : Prop where
  yields : YieldsOnly P x
  fails : FailsOnly E x

/-- More errors may be allowed. -/
theorem Computes.mono {α : Type} {P : α → Prop} {E E' : Error → Prop}
    {x : Except Error α} (h : Computes P E x) (hE : ∀ e, E e → E' e) :
    Computes P E' x :=
  ⟨h.yields, h.fails.mono hE⟩

/-- Operations on good quantities give good ones. Where they fail, the
error is one of those that the node raises whose operation it is. -/
structure Invariant (Good : Quantity → Prop)
    (Raises : Node → Error → Prop) : Prop where
  literal : ∀ value decorator, Computes Good
    (Raises (.number value decorator)) (Quantity.literal value decorator)
  unary : ∀ {op f q}, unary? op = some f → Good q →
    Computes Good (Raises (.operator op)) (f q)
  binary : ∀ {op f a b}, binary? op = some f → Good a → Good b →
    Computes Good (Raises (.operator op)) (f a b)
  scale : ∀ {q} text scale, Good q → Computes Good
    (Raises (.unitBlock text scale)) ((q.onScale scale).mapError Error.unit)
  one : ∀ {name f q}, (name, .one f) ∈ numberFunctions → Good q →
    Computes Good (Raises (.call name)) (f q)
  two : ∀ {name f a b}, (name, .two f) ∈ numberFunctions → Good a → Good b →
    Computes Good (Raises (.call name)) (f a b)
  render : ∀ {v : Value} n, v.All Good → FailsOnly (Raises n) v.render
  renderIn : ∀ {q} n unit, Good q → FailsOnly (Raises n) (q.textIn unit)
  object : ∀ n e, Raises n (.eval e)
  malformed : ∀ n m, Raises n (.malformed m)

-- ============================================================ watching

open Classical in
/-- The action with an alarm that goes off where it leaves a quantity that
is not good, in its value or in a variable. -/
noncomputable def watched (Good : Quantity → Prop) (alarm x : Action Value) :
    Action Value := do
  let v ← x
  let s ← get
  if v.All Good ∧ s.env.All Good then return v else alarm

mutual

/-- The evaluation of a tree with every node watched. -/
noncomputable def evaluateWatched (Good : Quantity → Prop)
    (alarm : Action Value) (lim : Limits) : Tree → Action Value
  | .mk n children =>
      watched Good alarm
        (runNode lim n (operandsWatched Good alarm lim children))

/-- Trees with their watched actions. -/
noncomputable def operandsWatched (Good : Quantity → Prop)
    (alarm : Action Value) (lim : Limits) : List Tree → List Operand
  | [] => []
  | t :: ts =>
      ⟨t, evaluateWatched Good alarm lim t⟩
        :: operandsWatched Good alarm lim ts

end

/-- A run with every node watched. -/
noncomputable def runWatched (Good : Quantity → Prop) (alarm : Action Value)
    (lim : Limits) (source : String) : Action Value := do
  evaluateWatched Good alarm lim (← lift (parse source))

-- ============================================================= actions

/-- How an action ends: with a result as wanted or an error as allowed,
and with good variables either way. -/
def Upholds (Good : Quantity → Prop) (E : Error → Prop) {α : Type}
    (P : α → Prop) : EStateM.Result Stop State α → Prop
  | .ok a s => P a ∧ s.env.All Good
  | .error stop s => (∀ e, stop = .failed e → E e) ∧ s.env.All Good

/-- From good variables the first action does what the second does, and
that ends well. -/
structure Shadows (Good : Quantity → Prop) (E : Error → Prop) {α : Type}
    (P : α → Prop) (x y : Action α) : Prop where
  ends : ∀ s : State, s.env.All Good → x s = y s ∧ Upholds Good E P (y s)

/-- Objections to operands, and to trees that are not formed, are among
the errors. -/
structure Objects (E : Error → Prop) : Prop where
  eval : ∀ e, E (.eval e)
  malformed : ∀ m, E (.malformed m)

variable {Good : Quantity → Prop} {E : Error → Prop}

namespace Shadows

variable {α β : Type} {P : α → Prop} {Q : β → Prop}

/-- A result as wanted. -/
theorem pure {a : α} (h : P a) :
    Shadows Good E P (Pure.pure a) (Pure.pure a) :=
  ⟨fun _ hs => ⟨rfl, h, hs⟩⟩

/-- The second actions start from one and the same state, and it has good
variables. -/
theorem bind {x y : Action β} {f g : β → Action α}
    (hx : Shadows Good E Q x y)
    (hf : ∀ b, Q b → Shadows Good E P (f b) (g b)) :
    Shadows Good E P (x >>= f) (y >>= g) := by
  refine ⟨fun s hs => ?_⟩
  obtain ⟨hsame, hends⟩ := hx.ends s hs
  cases hy : y s with
  | ok b s' =>
      rw [hy] at hsame hends
      rw [bind_of_ok hsame, bind_of_ok hy]
      exact (hf b hends.1).ends s' hends.2
  | error stop s' =>
      rw [hy] at hsame hends
      rw [bind_of_error hsame, bind_of_error hy]
      exact ⟨rfl, hends⟩

/-- A choice that both make alike. -/
theorem ite {c : Prop} [Decidable c] {x x' y y' : Action α}
    (hx : Shadows Good E P x x') (hy : Shadows Good E P y y') :
    Shadows Good E P (if c then x else y) (if c then x' else y') := by
  split
  · exact hx
  · exact hy

/-- An error as allowed. -/
theorem fail {e : Error} (h : E e) :
    Shadows Good E P (Program.fail e) (Program.fail e) := by
  refine ⟨fun s hs => ⟨rfl, fun e' he => ?_, hs⟩⟩
  cases he
  exact h

/-- Turns that are used up are no error. -/
theorem exhausted : Shadows Good E P (throw .exhausted) (throw .exhausted) :=
  ⟨fun _ hs => ⟨rfl, fun _ he => (nomatch he), hs⟩⟩

theorem lift {x : Except Error α} (hx : Computes P E x) :
    Shadows Good E P (Program.lift x) (Program.lift x) := by
  cases x with
  | error e => exact .fail (hx.fails e rfl)
  | ok a => exact .pure (hx.yields a rfl)

/-- A text, of which nothing is wanted but that its errors are allowed. -/
theorem liftText {x : Except Error String} (hx : FailsOnly E x) :
    Shadows Good E (fun _ => True) (Program.lift x) (Program.lift x) :=
  .lift ⟨fun _ _ => trivial, hx⟩

/-- A part that has to be there. -/
theorem require (hE : Objects E) {m : Malformation} {o : Option α}
    (h : ∀ a, o = some a → P a) :
    Shadows Good E P (Program.require m o) (Program.require m o) := by
  cases o with
  | none => exact .fail (hE.malformed m)
  | some a => exact .pure (h a rfl)

/-- The variables that an action meets are good. -/
theorem get : Shadows Good E (fun s => s.env.All Good)
    (MonadState.get : Action State) MonadState.get :=
  ⟨fun _ hs => ⟨rfl, hs, hs⟩⟩

/-- What is looked up is good, as all variables are. -/
theorem lookup (hE : Objects E) (name : String) :
    Shadows Good E (Value.All Good) (Program.lookup name)
      (Program.lookup name) := by
  refine .bind .get fun s hs => ?_
  split
  · next v h => exact .pure (hs name v h)
  · exact .fail (hE.eval _)

/-- A good value may be assigned. -/
theorem assign {v : Value} (hv : v.All Good) (name : String) :
    Shadows Good E (fun _ => True) (Program.assign name v)
      (Program.assign name v) :=
  ⟨fun _ hs => ⟨rfl, trivial, hs.set hv name⟩⟩

/-- What is written touches no variables. -/
theorem write (text : String) :
    Shadows Good E (fun _ => True) (Program.write text)
      (Program.write text) :=
  ⟨fun _ hs => ⟨rfl, trivial, hs⟩⟩

/-- Nothing sets the alarm off. -/
theorem watched {x y : Action Value}
    (h : Shadows Good E (Value.All Good) x y) (alarm : Action Value) :
    Shadows Good E (Value.All Good) (watched Good alarm x) y := by
  refine ⟨fun s hs => ?_⟩
  obtain ⟨hsame, hends⟩ := h.ends s hs
  refine ⟨?_, hends⟩
  cases hy : y s with
  | ok v s' =>
      rw [hy] at hsame hends
      rw [Program.watched, bind_of_ok hsame]
      have hget : (MonadState.get : Action State) s' = .ok s' s' := rfl
      -- the condition of the alarm is what is known of the end
      have hgood : v.All Good ∧ s'.env.All Good := hends
      rw [bind_of_ok hget, if_pos hgood]
      rfl
  | error stop s' =>
      rw [hy] at hsame
      exact bind_of_error hsame

end Shadows

-- =============================================================== loops

/-- All values of the list are good. -/
def AllGood (Good : Quantity → Prop) (vs : List Value) : Prop :=
  ∀ v ∈ vs, v.All Good

/-- A good value before good values. -/
theorem AllGood.cons {v : Value} {vs : List Value} (hv : v.All Good)
    (hvs : AllGood Good vs) : AllGood Good (v :: vs) :=
  List.forall_mem_cons.mpr ⟨hv, hvs⟩

theorem AllGood.reverse {vs : List Value} (h : AllGood Good vs) :
    AllGood Good vs.reverse :=
  fun v hv => h v (List.mem_reverse.mp hv)

variable {lim : Limits}

/-- The check before a turn computes nothing. -/
theorem shadows_checkIterations (hE : Objects E) (loop : String)
    (count : Nat) :
    Shadows Good E (fun _ => True) (checkIterations lim loop count)
      (checkIterations lim loop count) := by
  unfold checkIterations
  split
  · exact .pure trivial
  · exact .ite (.fail (hE.eval _)) (.pure trivial)

/-- The results of a loop on a condition are values of its body. -/
theorem shadows_repeatWhile (hE : Objects E)
    {condition condition' : Action Bool} {body body' : Action Value}
    (hcondition : Shadows Good E (fun _ => True) condition condition')
    (hbody : Shadows Good E (Value.All Good) body body') :
    ∀ (turns count : Nat) (results : List Value), AllGood Good results →
      Shadows Good E (AllGood Good)
        (repeatWhile lim condition body turns count results)
        (repeatWhile lim condition' body' turns count results) := by
  intro turns
  induction turns with
  | zero => intro _ _ _; exact .exhausted
  | succ turns ih =>
      intro count results hresults
      rw [repeatWhile, repeatWhile]
      refine .bind hcondition fun _ _ => .ite ?_ (.pure hresults.reverse)
      refine .bind (shadows_checkIterations hE _ _) fun _ _ => ?_
      exact .bind hbody fun v hv => ih _ _ (hresults.cons hv)

/-- So are those of a loop over cells, which binds its index to one cell
after the other. -/
theorem shadows_repeatFor (hE : Objects E) {bind : Value → Action Unit}
    {body body' : Action Value}
    (hbind : ∀ v, v.All Good →
      Shadows Good E (fun _ => True) (bind v) (bind v))
    (hbody : Shadows Good E (Value.All Good) body body') :
    ∀ (cells : List Value) (count : Nat) (results : List Value),
      AllGood Good cells → AllGood Good results →
      Shadows Good E (AllGood Good)
        (repeatFor lim bind body count cells results)
        (repeatFor lim bind body' count cells results) := by
  intro cells
  induction cells with
  | nil => intro _ _ _ hresults; exact .pure hresults.reverse
  | cons c cells ih =>
      intro count results hcells hresults
      rw [repeatFor, repeatFor]
      obtain ⟨hc, hcells⟩ := List.forall_mem_cons.mp hcells
      refine .bind (shadows_checkIterations hE _ _) fun _ _ => ?_
      refine .bind (hbind c hc) fun _ _ => ?_
      exact .bind hbody fun v hv => ih _ _ hcells (hresults.cons hv)

-- ============================================================ operands

section Operands

variable {t : Tree} {x y : Action Value}

/-- An operand that is a number is a good one. -/
theorem shadows_number (hE : Objects E)
    (hx : Shadows Good E (Value.All Good) x y) (operator : String)
    (side : Option String) :
    Shadows Good E Good (Operand.number ⟨t, x⟩ operator side)
      (Operand.number ⟨t, y⟩ operator side) := by
  refine .bind hx fun v hv => ?_
  cases hv with
  | number hq => exact .pure hq
  | void | text | matrix => exact .fail (hE.eval _)

theorem shadows_argument (hE : Objects E)
    (hx : Shadows Good E (Value.All Good) x y) (function : String)
    (position : Nat) :
    Shadows Good E Good (Operand.argument ⟨t, x⟩ function position)
      (Operand.argument ⟨t, y⟩ function position) := by
  refine .bind hx fun v hv => ?_
  cases hv with
  | number hq => exact .pure hq
  | void | text | matrix => exact .fail (hE.eval _)

/-- Writing good values down fails as allowed. -/
def Writes (Good : Quantity → Prop) (E : Error → Prop) : Prop :=
  ∀ v : Value, v.All Good → FailsOnly E v.render

/-- A good value is written down, or fails as allowed. -/
theorem shadows_text (hE : Writes Good E)
    (hx : Shadows Good E (Value.All Good) x y) :
    Shadows Good E (fun _ => True) (Operand.text ⟨t, x⟩)
      (Operand.text ⟨t, y⟩) :=
  .bind hx fun v hv => .liftText (hE v hv)

end Operands

/-- The watched evaluation of each tree shadows the plain one. -/
def ShadowKids (Good : Quantity → Prop) (E : Error → Prop)
    (alarm : Action Value) (lim : Limits) (ts : List Tree) : Prop :=
  ∀ t ∈ ts, Shadows Good E (Value.All Good)
    (evaluateWatched Good alarm lim t) (evaluate lim t)

variable {alarm : Action Value} {ts : List Tree}

theorem ShadowKids.head {t : Tree}
    (hts : ShadowKids Good E alarm lim (t :: ts)) :
    Shadows Good E (Value.All Good) (evaluateWatched Good alarm lim t)
      (evaluate lim t) :=
  hts t (List.mem_cons_self ..)

theorem ShadowKids.tail {t : Tree}
    (hts : ShadowKids Good E alarm lim (t :: ts)) :
    ShadowKids Good E alarm lim ts :=
  fun u hu => hts u (List.mem_cons_of_mem _ hu)

/-- As many operands as there are trees. -/
@[simp] theorem length_operandsWatched (ts : List Tree) :
    (operandsWatched Good alarm lim ts).length = ts.length := by
  induction ts with
  | nil => rfl
  | cons t ts ih => rw [operandsWatched, List.length_cons, ih]; rfl

/-- A traversal of operands by an action on each. -/
theorem shadows_mapM {α : Type} {P : α → Prop} {p : Operand → Action α}
    (hp : ∀ {t : Tree} {x y : Action Value},
      Shadows Good E (Value.All Good) x y →
      Shadows Good E P (p ⟨t, x⟩) (p ⟨t, y⟩)) :
    ∀ {ts : List Tree}, ShadowKids Good E alarm lim ts →
      Shadows Good E (fun as => ∀ a ∈ as, P a)
        ((operandsWatched Good alarm lim ts).mapM p)
        ((operands lim ts).mapM p) := by
  intro ts
  induction ts with
  | nil =>
      intro _
      rw [operandsWatched, operands]
      exact .pure (List.forall_mem_nil P)
  | cons t ts ih =>
      intro hts
      rw [operandsWatched, operands, List.mapM_cons, List.mapM_cons]
      refine .bind (hp hts.head) fun a ha => ?_
      refine .bind (ih hts.tail) fun as has => ?_
      exact .pure (List.forall_mem_cons.mpr ⟨ha, has⟩)

-- =========================================================== operators

/-- What is assigned is the value of an operand. -/
theorem shadows_assignment (hE : Objects E)
    (hts : ShadowKids Good E alarm lim ts) :
    Shadows Good E (Value.All Good)
      (runAssign (operandsWatched Good alarm lim ts))
      (runAssign (operands lim ts)) := by
  rcases ts with - | ⟨target, - | ⟨expression, - | ⟨u, ts⟩⟩⟩
  · exact .fail (hE.malformed _)
  · exact .fail (hE.malformed _)
  · simp only [operandsWatched, operands, runAssign]
    split
    · refine .bind hts.tail.head fun v hv => ?_
      exact .bind (.assign hv _) fun _ _ => .pure .void
    · exact .fail (hE.eval _)
  · exact .fail (hE.malformed _)

/-- What a conditional gives is the value of an operand, or none. -/
theorem shadows_branches (hE : Objects E)
    (hts : ShadowKids Good E alarm lim ts) :
    Shadows Good E (Value.All Good)
      (runIf (operandsWatched Good alarm lim ts))
      (runIf (operands lim ts)) := by
  cases ts with
  | nil => exact .fail (hE.malformed _)
  | cons condition branches =>
      refine .bind (shadows_number hE hts.head _ _) fun q _ => .ite ?_ ?_
      · cases branches with
        | nil => exact .fail (hE.malformed _)
        | cons branch branches => exact hts.tail.head
      · rcases branches with - | ⟨a, - | ⟨b, - | ⟨c, branches⟩⟩⟩
        · exact .pure .void
        · exact .pure .void
        · exact hts.tail.tail.head
        · exact .pure .void

/-- The results of a loop make a column. -/
theorem shadows_repetition (hE : Objects E)
    (hts : ShadowKids Good E alarm lim ts) :
    Shadows Good E (Value.All Good)
      (runWhile lim (operandsWatched Good alarm lim ts))
      (runWhile lim (operands lim ts)) := by
  rcases ts with - | ⟨condition, - | ⟨body, - | ⟨u, ts⟩⟩⟩
  · exact .fail (hE.malformed _)
  · exact .fail (hE.malformed _)
  · refine .bind (shadows_repeatWhile hE ?_ hts.tail.head _ _ []
      (List.forall_mem_nil _)) fun results hresults => ?_
    · exact .bind (shadows_number hE hts.head _ _) fun _ _ => .pure trivial
    · exact .pure (.matrix hresults)
  · exact .fail (hE.malformed _)

/-- The cells that a loop visits are cells of its matrix, and the cells of
its own value are among its results. -/
theorem shadows_visits (hE : Objects E)
    (hts : ShadowKids Good E alarm lim ts) :
    Shadows Good E (Value.All Good)
      (runFor lim (operandsWatched Good alarm lim ts))
      (runFor lim (operands lim ts)) := by
  rcases ts with - | ⟨index, - | ⟨cells, - | ⟨body, - | ⟨u, ts⟩⟩⟩⟩
  · exact .fail (hE.malformed _)
  · exact .fail (hE.malformed _)
  · exact .fail (hE.malformed _)
  · refine .bind hts.tail.head fun v hv => ?_
    cases hv with
    | void | text | number => exact .fail (hE.eval _)
    | @matrix m hcells =>
        -- how many cells there are does not matter: a reading that misses
        -- one fails
        refine .bind (.require hE fun cs hcs c hc =>
          hcells c (Matrix.mem_of_columns? hcs c hc)) fun visited hvisited => ?_
        refine .bind (shadows_repeatFor hE (fun v hv => ?_)
          hts.tail.tail.head visited 0 [] hvisited (List.forall_mem_nil _)) ?_
        · show Shadows _ _ _ (bindIndex index v) (bindIndex index v)
          unfold bindIndex
          cases index.node.name? with
          | some name => exact .assign hv name
          | none => exact .pure trivial
        · intro results hresults
          refine .bind (.require hE fun m hm c hc =>
            hresults c (Matrix.mem_of_ofColumns? hm c hc)) fun m hm => ?_
          exact .pure (.matrix hm)
  · exact .fail (hE.malformed _)

/-- What an operator computes from good numbers is good. -/
theorem shadows_compute {Raises : Node → Error → Prop}
    (h : Invariant Good Raises) {op : Operator}
    (hop : ∀ e, Raises (.operator op) e → E e) (hE : Objects E)
    (hts : ShadowKids Good E alarm lim ts) :
    Shadows Good E (Value.All Good)
      (runCompute op (operandsWatched Good alarm lim ts))
      (runCompute op (operands lim ts)) := by
  rcases ts with - | ⟨a, - | ⟨b, - | ⟨u, ts⟩⟩⟩
  · exact .fail (hE.eval _)
  · simp only [operandsWatched, operands, runCompute]
    split
    · next f hf =>
      refine .bind (shadows_number hE hts.head _ _) fun q hq => ?_
      refine .bind (.lift ((h.unary hf hq).mono hop)) fun r hr => ?_
      exact .pure (.number hr)
    · exact .fail (hE.eval _)
  · simp only [operandsWatched, operands, runCompute]
    split
    · next f hf =>
      refine .bind (shadows_number hE hts.head _ _) fun q hq => ?_
      refine .bind (shadows_number hE hts.tail.head _ _) fun r hr => ?_
      refine .bind (.lift ((h.binary hf hq hr).mono hop)) fun z hz => ?_
      exact .pure (.number hz)
    · exact .fail (hE.eval _)
  · simp only [operandsWatched, operands, runCompute, List.length_cons,
      length_operandsWatched, length_operands]
    exact .fail (hE.eval _)

-- =========================================================== functions

theorem shadows_numberFunction {Raises : Node → Error → Prop}
    (h : Invariant Good Raises) {name : String} {f : NumberFunction}
    (hf : (name, f) ∈ numberFunctions)
    (hname : ∀ e, Raises (.call name) e → E e) (hE : Objects E)
    (hts : ShadowKids Good E alarm lim ts) :
    Shadows Good E (Value.All Good)
      (runNumberFunction name f (operandsWatched Good alarm lim ts))
      (runNumberFunction name f (operands lim ts)) := by
  cases f with
  | one f =>
      rcases ts with - | ⟨a, - | ⟨b, ts⟩⟩
      · exact .fail (hE.eval _)
      · refine .bind (shadows_argument hE hts.head _ _) fun q hq => ?_
        refine .bind (.lift ((h.one hf hq).mono hname)) fun r hr => ?_
        exact .pure (.number hr)
      · simp only [operandsWatched, operands, runNumberFunction,
          List.length_cons, length_operandsWatched, length_operands]
        exact .fail (hE.eval _)
  | two f =>
      rcases ts with - | ⟨a, - | ⟨b, - | ⟨c, ts⟩⟩⟩
      · exact .fail (hE.eval _)
      · exact .fail (hE.eval _)
      · refine .bind (shadows_argument hE hts.head _ _) fun q hq => ?_
        refine .bind (shadows_argument hE hts.tail.head _ _) fun r hr => ?_
        refine .bind (.lift ((h.two hf hq hr).mono hname)) fun z hz => ?_
        exact .pure (.number hz)
      · simp only [operandsWatched, operands, runNumberFunction,
          List.length_cons, length_operandsWatched, length_operands]
        exact .fail (hE.eval _)

/-- Writing values down gives none. -/
theorem shadows_writing (hW : Writes Good E) (gap stop : String)
    (hts : ShadowKids Good E alarm lim ts) :
    Shadows Good E (Value.All Good)
      (runWrite gap stop (operandsWatched Good alarm lim ts))
      (runWrite gap stop (operands lim ts)) := by
  refine .bind (shadows_mapM (shadows_text hW) hts) fun texts _ => ?_
  exact .bind (.write _) fun _ _ => .pure .void

/-- The text of a failed assertion may have a value in it. -/
theorem shadows_failureText (hW : Writes Good E) (heading : String)
    {v : Value} (hv : v.All Good) (hts : ShadowKids Good E alarm lim ts) :
    Shadows Good E (fun _ => True)
      (failureText heading v (operandsWatched Good alarm lim ts))
      (failureText heading v (operands lim ts)) := by
  cases ts with
  | nil => exact .bind (.liftText (hW v hv)) fun _ _ => .pure trivial
  | cons t ts => exact shadows_text hW hts.head

/-- An assertion that holds gives no value. -/
theorem shadows_assertion (hE : Objects E) (hW : Writes Good E)
    (name heading : String) (asserts : Bool)
    (hts : ShadowKids Good E alarm lim ts) :
    Shadows Good E (Value.All Good)
      (runAssert name heading asserts (operandsWatched Good alarm lim ts))
      (runAssert name heading asserts (operands lim ts)) := by
  cases ts with
  | nil => exact .fail (hE.eval _)
  | cons t ts =>
      simp only [operandsWatched, operands, runAssert, List.length_cons,
        length_operandsWatched, length_operands]
      refine .ite (.fail (hE.eval _)) ?_
      refine .bind hts.head fun v hv => .ite (.pure .void) ?_
      refine .bind (shadows_failureText hW heading hv hts.tail) ?_
      exact fun text _ => .fail (hE.eval _)

/-- A call, of a function that there is or of another. -/
theorem shadows_call {Raises : Node → Error → Prop}
    (h : Invariant Good Raises) {name : String}
    (hname : ∀ e, Raises (.call name) e → E e) (hE : Objects E)
    (hW : Writes Good E) (hts : ShadowKids Good E alarm lim ts) :
    Shadows Good E (Value.All Good)
      (runCall name (operandsWatched Good alarm lim ts))
      (runCall name (operands lim ts)) := by
  unfold runCall
  split
  · next f hf =>
    obtain ⟨before, behind, heq, -⟩ := List.lookup_eq_some_iff.mp hf
    exact shadows_numberFunction h (by simp [heq]) hname hE hts
  · refine .ite ?_ (.ite (shadows_writing hW _ _ hts) ?_)
    · cases ts with
      | nil => exact .fail (hE.eval _)
      | cons t ts => exact shadows_writing hW _ _ hts
    · refine .ite (shadows_assertion hE hW _ _ _ hts) ?_
      exact .ite (shadows_assertion hE hW _ _ _ hts) (.fail (hE.eval _))

-- ============================================================ matrices

/-- An index is a place, and no value. -/
theorem shadows_place (hE : Objects E) (hW : Writes Good E) {t : Tree}
    {x y : Action Value} (hx : Shadows Good E (Value.All Good) x y)
    (size : Nat) (label : String) :
    Shadows Good E (fun _ => True) (Operand.index ⟨t, x⟩ size label)
      (Operand.index ⟨t, y⟩ size label) := by
  refine .bind hx fun v hv => ?_
  split
  · exact .bind (.liftText (hW v hv)) fun _ _ => .fail (hE.eval _)
  · split
    · exact .pure trivial
    · exact .fail (hE.eval _)

/-- What stands at a place is a cell of a good matrix. -/
theorem shadows_indices (hE : Objects E) (hW : Writes Good E)
    (label : String) {v : Value} (hv : v.All Good)
    (hts : ShadowKids Good E alarm lim ts) :
    Shadows Good E (Value.All Good)
      (runIndices label v (operandsWatched Good alarm lim ts))
      (runIndices label v (operands lim ts)) := by
  cases hv with
  | void | text | number => exact .fail (hE.eval _)
  | @matrix m hcells =>
      -- whatever the place, a cell that is found is one of the matrix
      have hcell : ∀ row col, Shadows Good E (Value.All Good)
          (require .cellCount (m.cell? row col))
          (require .cellCount (m.cell? row col)) :=
        fun row col => .require hE fun c hc =>
          hcells c (List.mem_of_getElem? hc)
      rcases ts with - | ⟨a, - | ⟨b, - | ⟨u, ts⟩⟩⟩
      · exact .fail (hE.eval _)
      · refine .ite (.fail (hE.eval _)) ?_
        exact .bind (shadows_place hE hW hts.head _ _) fun _ _ => hcell _ _
      · refine .bind (shadows_place hE hW hts.head _ _) fun _ _ => ?_
        refine .bind (shadows_place hE hW hts.tail.head _ _) fun _ _ => ?_
        exact hcell _ _
      · simp only [operandsWatched, operands, runIndices, List.length_cons,
          length_operandsWatched, length_operands]
        exact .fail (hE.eval _)

/-- The matrix may be a variable or an operand, and is good either way. -/
theorem shadows_index (hE : Objects E) (hW : Writes Good E)
    (target : Option String) (hts : ShadowKids Good E alarm lim ts) :
    Shadows Good E (Value.All Good)
      (runIndex target (operandsWatched Good alarm lim ts))
      (runIndex target (operands lim ts)) := by
  cases target with
  | some name =>
      refine .bind (.lookup hE name) fun v hv => ?_
      exact shadows_indices hE hW name hv hts
  | none =>
      cases ts with
      | nil => exact .fail (hE.malformed _)
      | cons t ts =>
          refine .bind hts.head fun v hv => ?_
          exact shadows_indices hE hW _ hv hts.tail

/-- The cells of a matrix are the values of its operands. -/
theorem shadows_matrix (hE : Objects E) (width height : Nat)
    (hts : ShadowKids Good E alarm lim ts) :
    Shadows Good E (Value.All Good)
      (runMatrix width height (operandsWatched Good alarm lim ts))
      (runMatrix width height (operands lim ts)) := by
  refine .bind (shadows_mapM (fun hx => hx) hts) fun vs hvs => ?_
  refine .bind (.require hE fun m hm c hc =>
    hvs c (Matrix.mem_of_ofCells? hm c hc)) fun m hm => ?_
  exact .pure (.matrix hm)

-- =================================================== blocks and strings

/-- A block gives the value of its last statement. -/
theorem shadows_block : ∀ {ts : List Tree} {last : Value},
    last.All Good → ShadowKids Good E alarm lim ts →
    Shadows Good E (Value.All Good)
      (runBlock last (operandsWatched Good alarm lim ts))
      (runBlock last (operands lim ts)) := by
  intro ts
  induction ts with
  | nil => intro last hlast _; exact .pure hlast
  | cons t ts ih =>
      intro last _ hts
      exact .bind hts.head fun v hv => ih hv hts.tail

/-- A good number on a scale is good. -/
theorem shadows_unitBlock {Raises : Node → Error → Prop}
    (h : Invariant Good Raises) {text : String} {scale : Scale}
    (hscale : ∀ e, Raises (.unitBlock text scale) e → E e) (hE : Objects E)
    (hts : ShadowKids Good E alarm lim ts) :
    Shadows Good E (Value.All Good)
      (runUnitBlock text scale (operandsWatched Good alarm lim ts))
      (runUnitBlock text scale (operands lim ts)) := by
  cases ts with
  | nil => exact .fail (hE.malformed _)
  | cons t ts =>
      refine .bind (shadows_number hE hts.head _ _) fun q hq => ?_
      refine .bind (.lift ((h.scale text scale hq).mono hscale)) ?_
      exact fun r hr => .pure (.number hr)

/-- What a place of a template shows is a good value. -/
theorem shadows_fillPlace (hE : Objects E) (hW : Writes Good E)
    (hin : ∀ (q : Quantity) unit, Good q → FailsOnly E (q.textIn unit))
    (text content : String) :
    Shadows Good E (fun _ => True) (fillPlace text content)
      (fillPlace text content) := by
  unfold fillPlace
  extract_lets chars name
  refine .ite (.fail (hE.eval _)) (.bind (.lookup hE name) fun v hv => ?_)
  split
  · exact .liftText (hW v hv)
  · split
    · exact .fail (hE.eval _)
    · cases hv with
      | number hq => exact .liftText (hin _ _ hq)
    · exact .fail (hE.eval _)

/-- A template is a text, so only its errors matter. -/
theorem shadows_fill (hE : Objects E) (hW : Writes Good E)
    (hin : ∀ (q : Quantity) unit, Good q → FailsOnly E (q.textIn unit))
    (text : String) :
    Shadows Good E (fun _ => True) (fill text) (fill text) := by
  have hpart : ∀ part, Shadows Good E (fun _ => True) (fillPart text part)
      (fillPart text part) := by
    intro part
    cases part with
    | literal s => exact .pure trivial
    | place content => exact shadows_fillPlace hE hW hin text content
    | broken e => exact .fail (hE.eval _)
  have hparts : ∀ ps : List Part, Shadows Good E (fun _ => True)
      (ps.mapM (fillPart text)) (ps.mapM (fillPart text)) := by
    intro ps
    induction ps with
    | nil => exact .pure trivial
    | cons p ps ih =>
        rw [List.mapM_cons]
        exact .bind (hpart p) fun _ _ => .bind ih fun _ _ => .pure trivial
  exact .bind (hparts _) fun _ _ => .pure trivial

-- =============================================================== trees

section Trees

variable {Raises : Node → Error → Prop}

/-- A node gives a good value if its operands do, with an error that it
raises itself. -/
theorem shadows_node (h : Invariant Good Raises) {n : Node}
    (hn : ∀ e, Raises n e → E e) (hts : ShadowKids Good E alarm lim ts) :
    Shadows Good E (Value.All Good)
      (runNode lim n (operandsWatched Good alarm lim ts))
      (runNode lim n (operands lim ts)) := by
  -- any node may object to its operands or to its form
  have hE : Objects E :=
    ⟨fun e => hn _ (h.object n e), fun m => hn _ (h.malformed n m)⟩
  have hW : Writes Good E := fun v hv => (h.render n hv).mono hn
  match n with
  | .empty => exact .pure .void
  | .number value decorator =>
      refine .bind (.lift ((h.literal value decorator).mono hn)) ?_
      exact fun q hq => .pure (.number hq)
  | .operator op =>
      unfold runNode runOperator
      dsimp only
      split
      · exact shadows_assignment hE hts
      · exact shadows_branches hE hts
      · exact shadows_repetition hE hts
      · exact shadows_visits hE hts
      · exact shadows_compute h hn hE hts
  | .keyword word => exact .fail (hE.eval _)
  | .variable name => exact .lookup hE name
  | .call name => exact shadows_call h hn hE hW hts
  | .block => exact shadows_block .void hts
  | .unitBlock text scale => exact shadows_unitBlock h hn hE hts
  | .template text =>
      have hin : ∀ (q : Quantity) unit, Good q →
          FailsOnly E (q.textIn unit) :=
        fun q unit hq => (h.renderIn _ unit hq).mono hn
      exact .bind (shadows_fill hE hW hin text) fun _ _ => .pure .text
  | .matrix width height => exact shadows_matrix hE width height hts
  | .index target => exact shadows_index hE hW target hts

/-- The watched evaluation of a tree shadows the plain one, and errors
come from its nodes. -/
theorem shadows_evaluate (h : Invariant Good Raises) (alarm : Action Value)
    (lim : Limits) : ∀ t : Tree, (∀ n e, Occurs n t → Raises n e → E e) →
      Shadows Good E (Value.All Good) (evaluateWatched Good alarm lim t)
        (evaluate lim t)
  | .mk n cs, ht => by
      rw [evaluateWatched, evaluate]
      refine (shadows_node h (fun e he => ht n e .root he) ?_).watched alarm
      -- a node of a child is a node of the tree
      intro c hc
      exact shadows_evaluate h alarm lim c
        fun m e hm he => ht m e (.inside hc hm) he
termination_by t => t
decreasing_by
  have hlt := List.sizeOf_lt_of_mem hc
  simp only [Tree.mk.sizeOf_spec]
  omega

theorem shadows_run (h : Invariant Good Raises) (alarm : Action Value)
    (lim : Limits) {source : String} (hparse : FailsOnly E (parse source))
    (ht : ∀ t, parse source = .ok t →
      ∀ n e, Occurs n t → Raises n e → E e) :
    Shadows Good E (Value.All Good) (runWatched Good alarm lim source)
      (run lim source) := by
  have hlift : Shadows Good E (fun t => parse source = .ok t)
      (lift (parse source)) (lift (parse source)) :=
    .lift ⟨fun _ htree => htree, hparse⟩
  exact .bind hlift fun t htree => shadows_evaluate h alarm lim t (ht t htree)

end Trees

end Program

end Metrology
