/-
Dimensional analysis. What a calculation measures can be told before any
of its numbers is known: whichever values the variables take, as long as
their dimensions stay, the result has the same dimension, and units that
do not fit in one case fit in no other.

Between two runs errors may strike at different nodes, so the runs are
not compared with each other. Both are compared with a dimension, or the
lack of one, that each tree has by the dimensions of its variables. What
a power measures depends on its exponent as a number, and so exponents
must not contain variables: they come to the same in every run.
-/
import Metrology.Proofs.Program.Effects
import Metrology.Proofs.Program.Safety
import Metrology.Proofs.Quantity.Dimensions

namespace Metrology.Program

open Quantity

-- ================================================== tables of operations

/-- The operators on one operand, down the table. -/
theorem determined_unary {op : Operator}
    {f : Quantity → Except Error Quantity} (h : unary? op = some f) :
    Determined f := by
  unfold unary? at h
  split at h <;> cases h
  · exact determined_total id fun _ => rfl
  · exact determined_total id fun _ => rfl
  · exact determined_total (fun _ => .unitless) fun _ => rfl
  · exact determined_total (fun _ => .unitless) fun _ => rfl
  · exact determined_total id fun _ => rfl
  · exact determined_arithmetic id fun _ _ => unit_sigma

/-- The operators between operands, powers apart. -/
theorem determined_binary {op : Operator}
    {f : Quantity → Quantity → Except Error Quantity}
    (h : binary? op = some f) (hop : op ≠ .power) (C : Quantity → Prop) :
    Determined₂ C f := by
  unfold binary? at h
  split at h <;> cases h
  · exact determined_add
  · exact determined_sub
  · exact determined_mul
  · exact determined_div
  · exact absurd rfl hop
  · exact determined_plusMinus
  iterate 6 exact determined_compare
  iterate 4 exact determined_ofBool

/-- The dimension of the function's result follows from those of its
arguments. -/
def NumberFunction.Determined : NumberFunction → Prop
  | .one f => Metrology.Determined f
  | .two f => Determined₂ (fun _ => True) f

/-- The functions of numbers, down their table. -/
theorem determined_numberFunctions :
    ∀ entry ∈ numberFunctions, entry.2.Determined := by
  simp only [numberFunctions, List.forall_mem_cons, List.not_mem_nil,
    false_imp_iff, implies_true, and_true]
  exact ⟨determined_sin, determined_cos, determined_exp,
    determined_total id fun _ => rfl, determined_total id fun _ => rfl,
    determined_total id fun _ => rfl, determined_total id fun _ => rfl,
    determined_total id fun _ => rfl,
    determined_arithmetic id fun _ _ => unit_sigma,
    determined_total (fun u => u * u) fun _ => rfl,
    determined_total id fun _ => rfl,
    determined_arithmetic id fun _ _ => unit_abs,
    determined_arithmetic (fun _ => .unitless) fun _ _ => unit_arg,
    determined_max, determined_min⟩

-- ================================================ dimensions of variables

/-- The variables with a dimension are numbers of it, the others are not
there. -/
def HasDimensions (dims : String → Option Dimension) (env : Environment) :
    Prop :=
  ∀ name, (env.get? name = none ∧ dims name = none) ∨
    ∃ q, env.get? name = some (.number q) ∧ dims name = some q.unit

/-- The action stopped because units do not fit. -/
def Stop.IsUnit : Stop → Prop
  | .failed e => e.IsUnit
  | .exhausted => False

/-- The end of an action among such variables: a result as wanted, or a
stop that is a unit error only if `unfit`. -/
def EndsMeasured {α : Type} (dims : String → Option Dimension)
    (unfit : Prop) (P : α → Prop) : EStateM.Result Stop State α → Prop
  | .ok a s => P a ∧ HasDimensions dims s.env
  | .error stop _ => stop.IsUnit → unfit

/-- From variables of these dimensions, the action gives a result as
wanted, if any. -/
structure Gives {α : Type} (dims : String → Option Dimension)
    (unfit : Prop) (P : α → Prop) (x : Action α) : Prop where
  ends : ∀ s, HasDimensions dims s.env → EndsMeasured dims unfit P (x s)

namespace Gives

variable {α β : Type} {dims : String → Option Dimension}
  {unfit unfit' : Prop} {P : α → Prop} {Q : β → Prop}

/-- A result as wanted. -/
theorem pure {a : α} (h : P a) :
    Gives dims unfit P (Pure.pure a : Action α) :=
  ⟨fun _ hs => ⟨h, hs⟩⟩

/-- An error of evaluation is none of units. -/
theorem eval {e : EvalError} :
    Gives dims unfit P (fail (.eval e) : Action α) :=
  ⟨fun _ _ => False.elim⟩

/-- If an action may find units unfit, so may the sequence. -/
theorem bind {x : Action α} {f : α → Action β} (hx : Gives dims unfit P x)
    (hunfit : unfit → unfit') (hf : ∀ a, P a → Gives dims unfit' Q (f a)) :
    Gives dims unfit' Q (x >>= f) := by
  refine ⟨fun s hs => ?_⟩
  have h := hx.ends s hs
  show EndsMeasured dims unfit' Q (EStateM.bind x f s)
  unfold EStateM.bind
  split
  · next a s' heq =>
    rw [heq] at h
    exact (hf a h.1).ends s' h.2
  · next stop s' heq =>
    rw [heq] at h
    exact fun hstop => hunfit (h hstop)

/-- A computed quantity has the dimension that its computation fits. -/
theorem lift {o : Option Dimension} {x : Except Error Quantity}
    (hx : Fits o x) :
    Gives dims (o = none) (fun q => o = some q.unit) (Program.lift x) := by
  cases x with
  | ok q => exact .pure hx
  | error e => exact ⟨fun _ _ => hx⟩

/-- The variables keep their dimensions. -/
theorem get : Gives dims unfit (fun s => HasDimensions dims s.env)
    (MonadState.get : Action State) :=
  ⟨fun _ hs => ⟨hs, hs⟩⟩

/-- The action gives a number of dimension `o`, and one of `C`. -/
abbrev Number (dims : String → Option Dimension) (C : Quantity → Prop)
    (o : Option Dimension) (x : Action Value) : Prop :=
  Gives dims (o = none)
    (fun v => ∃ q, v = .number q ∧ o = some q.unit ∧ C q) x

variable {C : Quantity → Prop} {o : Option Dimension} {x : Action Value}
  {t : Tree}

/-- An operand that is a number of this dimension. -/
theorem number (hx : Number dims C o x) (operator : String)
    (side : Option String) :
    Gives dims (o = none) (fun q => o = some q.unit ∧ C q)
      (Operand.number ⟨t, x⟩ operator side) := by
  refine hx.bind id fun v hv => ?_
  obtain ⟨q, rfl, hq⟩ := hv
  exact .pure hq

theorem argument (hx : Number dims C o x) (function : String)
    (position : Nat) :
    Gives dims (o = none) (fun q => o = some q.unit ∧ C q)
      (Operand.argument ⟨t, x⟩ function position) := by
  refine hx.bind id fun v hv => ?_
  obtain ⟨q, rfl, hq⟩ := hv
  exact .pure hq

/-- A variable has its dimension, or is not there. -/
theorem lookup (name : String) :
    Number dims (fun _ => True) (dims name) (Program.lookup name) := by
  have hget : Gives dims False _ _ := .get
  refine hget.bind False.elim fun s hs => ?_
  rcases hs name with ⟨hget, -⟩ | ⟨q, hget, hdims⟩
  · rw [hget]
    exact .eval
  · rw [hget]
    exact .pure ⟨q, rfl, hdims, trivial⟩

-- ======================================================= computed numbers

/-- A number computed from another. -/
theorem exists_one {f : Quantity → Except Error Quantity}
    {x : Action Quantity}
    (hx : Gives dims (o = none) (fun q => o = some q.unit ∧ C q) x)
    (hf : Determined f) :
    ∃ o', Number dims (fun _ => True) o' do
      return .number (← Program.lift (f (← x))) := by
  cases o with
  | none =>
      refine ⟨none, hx.bind id fun q hq => ?_⟩
      cases hq.1
  | some u =>
      obtain ⟨o', ho'⟩ := hf u
      refine ⟨o', hx.bind (fun h => by cases h) fun q hq => ?_⟩
      have hu : q.unit = u := (Option.some.inj hq.1).symm
      refine (Gives.lift (ho' q hu)).bind id fun r hr => ?_
      exact .pure ⟨r, rfl, hr, trivial⟩

/-- A number computed from two others. -/
theorem exists_two {f : Quantity → Quantity → Except Error Quantity}
    {o₁ o₂ : Option Dimension} {x y : Action Quantity}
    (hx : Gives dims (o₁ = none) (fun q => o₁ = some q.unit ∧ True) x)
    (hy : Gives dims (o₂ = none) (fun q => o₂ = some q.unit ∧ C q) y)
    (hf : Determined₂ C f) :
    ∃ o', Number dims (fun _ => True) o' do
      let a ← x
      let b ← y
      return .number (← Program.lift (f a b)) := by
  cases o₁ with
  | none =>
      refine ⟨none, hx.bind id fun a ha => ?_⟩
      cases ha.1
  | some u =>
  cases o₂ with
  | none =>
      refine ⟨none, hx.bind (fun h => by cases h) fun a ha => ?_⟩
      refine hy.bind id fun b hb => ?_
      cases hb.1
  | some v =>
      obtain ⟨o', ho'⟩ := hf u v
      refine ⟨o', hx.bind (fun h => by cases h) fun a ha => ?_⟩
      refine hy.bind (fun h => by cases h) fun b hb => ?_
      have hu : a.unit = u := (Option.some.inj ha.1).symm
      have hv : b.unit = v := (Option.some.inj hb.1).symm
      refine (Gives.lift (ho' a b hu hv hb.2)).bind id fun r hr => ?_
      exact .pure ⟨r, rfl, hr, trivial⟩

end Gives

-- ============================================================= exponents

/-- What came of an action, whatever the variables are now. -/
def outcome {α : Type} : EStateM.Result Stop State α → Except Stop α
  | .ok a _ => .ok a
  | .error stop _ => .error stop

/-- The tree looks no variable up. -/
def VariableFree (t : Tree) : Prop := ∀ name, ¬ Does t (.read name)

/-- The actions come to the same, whatever the variables. -/
def SameOutcome : Relation := fun _ x y =>
  ∀ s s', outcome (x s) = outcome (y s')

/-- Only looking a variable up shows what it holds. -/
theorem stepwise_sameOutcome :
    Stepwise (fun effect => ∀ name, effect ≠ .read name) SameOutcome where
  pure _ _ _ := rfl
  bind {_ _ x y f g} hx hf s s' := by
    show outcome (EStateM.bind x f s) = outcome (EStateM.bind y g s')
    have h := hx s s'
    unfold EStateM.bind
    cases hxs : x s with
    | ok a t =>
        cases hys : y s' with
        | ok b t' =>
            rw [hxs, hys] at h
            cases h
            exact hf a t t'
        | error stop t' => rw [hxs, hys] at h; cases h
    | error stop t =>
        cases hys : y s' with
        | ok b t' => rw [hxs, hys] at h; cases h
        | error stop' t' => rw [hxs, hys] at h; cases h; rfl
  fail _ _ _ := rfl
  lookup h := absurd rfl (h _)
  assign _ _ _ _ := rfl
  write _ _ _ := rfl

/-- A tree that looks none up comes to the same in every state. -/
theorem outcome_evaluate_eq (lim : Limits) {t : Tree} (ht : VariableFree t)
    (s s' : State) :
    outcome (evaluate lim t s) = outcome (evaluate lim t s') := by
  have hlock : Lockstep lim lim _ SameOutcome :=
    stepwise_sameOutcome.lockstep nofun fun _ _ => rfl
  refine hlock.evaluate t (fun effect hdoes name heq => ?_) s s'
  rw [heq] at hdoes
  exact ht name hdoes

/-- An exponent without variables is one and the same number. -/
theorem Gives.exponent {lim : Limits} {dims : String → Option Dimension}
    {o : Option Dimension} {t : Tree} (ht : VariableFree t)
    (h : Number dims (fun _ => True) o (evaluate lim t)) :
    Number dims (fun q => outcome (evaluate lim t {}) = .ok (.number q)) o
      (evaluate lim t) := by
  refine ⟨fun s hs => ?_⟩
  have hends := h.ends s hs
  have hsame := outcome_evaluate_eq lim ht {} s
  cases heval : evaluate lim t s with
  | error stop s' =>
      rw [heval] at hends
      exact hends
  | ok v s' =>
      rw [heval] at hends hsame
      obtain ⟨⟨q, rfl, hq, -⟩, hs'⟩ := hends
      exact ⟨⟨q, rfl, hq, hsame⟩, hs'⟩

/-- A power by an exponent that is always the same is determined by its
base. -/
theorem determined_power (x : Except Stop Value) :
    Determined₂ (fun q => x = .ok (.number q)) fun a b => a.pow b := by
  intro u v
  -- an exponent that is no number leaves nothing to show
  by_cases hx : ∃ c, x = .ok (.number c)
  · obtain ⟨c, rfl⟩ := hx
    obtain ⟨o, ho⟩ := determined_pow c u
    refine ⟨o, fun a b ha _ hb => ?_⟩
    cases hb
    exact ho a ha
  · exact ⟨none, fun a b _ _ hb => absurd ⟨b, hb⟩ hx⟩

-- ========================================================== calculations

/-- The tree computes a number from numbers and variables, with constant
exponents. -/
inductive Calculation : Tree → Prop
  | number {value : Float} {decorator : String} :
      Calculation (.leaf (.number value decorator))
  | name {name : String} : Calculation (.leaf (.variable name))
  | unit {text : String} {scale : Scale} {t : Tree} :
      Calculation t → Calculation (.mk (.unitBlock text scale) [t])
  | unary {op : Operator} {t : Tree} :
      op ∈ Tree.unaryOperators → Calculation t →
      Calculation (.mk (.operator op) [t])
  | binary {op : Operator} {l r : Tree} :
      op ∈ Tree.precedence.flatten → op ≠ .power →
      Calculation l → Calculation r → Calculation (.mk (.operator op) [l, r])
  | power {base exponent : Tree} :
      Calculation base → Calculation exponent → VariableFree exponent →
      Calculation (.mk (.operator .power) [base, exponent])
  | call {name : String} {ts : List Tree} :
      name ∈ numberFunctions.map Prod.fst → (∀ t ∈ ts, Calculation t) →
      Calculation (.mk (.call name) ts)

section

variable {lim : Limits} {dims : String → Option Dimension}

open Gives

/-- An operator on an operand that has a dimension. -/
theorem exists_unary {op : Operator} (hop : op ∈ Tree.unaryOperators)
    {o : Option Dimension} {x : Action Value} {t : Tree}
    (hx : Number dims (fun _ => True) o x) :
    ∃ o', Number dims (fun _ => True) o' (runOperator lim op [⟨t, x⟩]) := by
  have hne : ∀ op ∈ Tree.unaryOperators, op ∉ statementOperators := by decide
  obtain ⟨f, hf, -⟩ := unary?_mild op hop
  rw [runOperator_eq_runCompute (hne op hop)]
  simp only [runCompute, hf]
  exact exists_one (hx.number _ _) (determined_unary hf)

/-- An operator between operands that have dimensions. -/
theorem exists_binary (lim : Limits) {op : Operator}
    (hop : op ∈ Tree.precedence.flatten)
    {C : Quantity → Prop}
    (hdet : ∀ f, binary? op = some f → Determined₂ C f)
    {o₁ o₂ : Option Dimension} {x y : Action Value} {t u : Tree}
    (hx : Number dims (fun _ => True) o₁ x) (hy : Number dims C o₂ y) :
    ∃ o', Number dims (fun _ => True) o'
      (runOperator lim op [⟨t, x⟩, ⟨u, y⟩]) := by
  have hne : ∀ op ∈ Tree.precedence.flatten, op ∉ statementOperators := by
    decide
  obtain ⟨f, hf, -⟩ := binary?_mild op hop
  rw [runOperator_eq_runCompute (hne op hop)]
  simp only [runCompute, hf]
  exact exists_two (hx.number _ _) (hy.number _ _) (hdet f hf)

/-- A function of arguments that have dimensions; with the wrong number of
them it gives none. -/
theorem exists_call {name : String}
    (hname : name ∈ numberFunctions.map Prod.fst) {ts : List Tree}
    (hts : ∀ t ∈ ts, ∃ o, Number dims (fun _ => True) o (evaluate lim t)) :
    ∃ o, Number dims (fun _ => True) o (runCall name (operands lim ts)) := by
  obtain ⟨f, hlookup⟩ : ∃ f, numberFunctions.lookup name = some f := by
    cases hlookup : numberFunctions.lookup name with
    | some f => exact ⟨f, rfl⟩
    | none =>
        obtain ⟨entry, hmem, rfl⟩ := List.mem_map.mp hname
        have hne := List.lookup_eq_none_iff.mp hlookup entry hmem
        simp at hne
  obtain ⟨before, behind, heq, -⟩ := List.lookup_eq_some_iff.mp hlookup
  have hf := determined_numberFunctions (name, f) (by simp [heq])
  simp only [runCall, hlookup]
  match f, ts, hf, hts with
  | .one f, [a], hf, hts =>
      obtain ⟨o, ha⟩ := hts a (by simp)
      exact exists_one (ha.argument _ _) hf
  | .two f, [a, b], hf, hts =>
      obtain ⟨o₁, ha⟩ := hts a (by simp)
      obtain ⟨o₂, hb⟩ := hts b (by simp)
      exact exists_two (ha.argument _ _) (hb.argument _ _) hf
  | .one _, [], _, _ | .one _, _ :: _ :: _, _, _
  | .two _, [], _, _ | .two _, [_], _, _ | .two _, _ :: _ :: _ :: _, _, _ =>
      exact ⟨none, .eval⟩

/-- What a calculation measures follows from what its variables
measure. -/
theorem Calculation.exists_number {t : Tree} (h : Calculation t) :
    ∃ o, Number dims (fun _ => True) o (evaluate lim t) := by
  induction h with
  | @number value decorator =>
      obtain ⟨o, ho⟩ := Fits.exists_fits (literal value decorator)
      refine ⟨o, (Gives.lift ho).bind id fun q hq => ?_⟩
      exact .pure ⟨q, rfl, hq, trivial⟩
  | @name name => exact ⟨dims name, .lookup name⟩
  | @unit text scale t _ ih =>
      obtain ⟨o, ho⟩ := ih
      exact exists_one (ho.number _ _) (determined_onScale scale)
  | unary hop _ ih =>
      obtain ⟨o, ho⟩ := ih
      exact exists_unary hop ho
  | binary hop hpower _ _ ihl ihr =>
      obtain ⟨o₁, ho₁⟩ := ihl
      obtain ⟨o₂, ho₂⟩ := ihr
      exact exists_binary lim hop (fun f hf => determined_binary hf hpower _)
        ho₁ ho₂
  | power _ _ hfree ihbase ihexponent =>
      obtain ⟨o₁, ho₁⟩ := ihbase
      obtain ⟨o₂, ho₂⟩ := ihexponent
      have hop : Operator.power ∈ Tree.precedence.flatten := by decide
      refine exists_binary lim hop (fun f hf => ?_) ho₁ (ho₂.exponent hfree)
      cases hf
      exact determined_power _
  | call hname _ ih => exact exists_call hname ih

end

-- ============================================================== two runs

/-- The same names stand for numbers of the same dimensions. -/
def SameUnits (env₁ env₂ : Environment) : Prop :=
  ∀ name, (env₁.get? name = none ∧ env₂.get? name = none) ∨
    ∃ p q : Quantity, env₁.get? name = some (.number p) ∧
      env₂.get? name = some (.number q) ∧ p.unit = q.unit

/-- The dimensions that two sets of variables share. -/
theorem SameUnits.exists_dimensions {env₁ env₂ : Environment}
    (h : SameUnits env₁ env₂) :
    ∃ dims, HasDimensions dims env₁ ∧ HasDimensions dims env₂ := by
  have hname : ∀ name, ∃ o : Option Dimension,
      ((env₁.get? name = none ∧ o = none) ∨
        ∃ q, env₁.get? name = some (.number q) ∧ o = some q.unit) ∧
      ((env₂.get? name = none ∧ o = none) ∨
        ∃ q, env₂.get? name = some (.number q) ∧ o = some q.unit) := by
    intro name
    rcases h name with ⟨h₁, h₂⟩ | ⟨p, q, h₁, h₂, hunit⟩
    · exact ⟨none, .inl ⟨h₁, rfl⟩, .inl ⟨h₂, rfl⟩⟩
    · exact ⟨some p.unit, .inr ⟨p, h₁, rfl⟩, .inr ⟨q, h₂, by rw [hunit]⟩⟩
  -- one dimension for each name, so all of them at once
  choose dims hdims using hname
  exact ⟨dims, fun name => (hdims name).1, fun name => (hdims name).2⟩

/-- Units do not depend on numbers. Of two runs of a calculation whose
variables have the same dimensions, results have the same dimension, and
where one ends in a unit error the other has no result. -/
theorem evaluate_unit_eq_of_sameUnits (lim : Limits) {t : Tree}
    (ht : Calculation t) {s₁ s₂ : State} (hs : SameUnits s₁.env s₂.env) :
    (∀ v₁ v₂ s₁' s₂', evaluate lim t s₁ = .ok v₁ s₁' →
      evaluate lim t s₂ = .ok v₂ s₂' →
      ∃ q₁ q₂, v₁ = .number q₁ ∧ v₂ = .number q₂ ∧ q₁.unit = q₂.unit) ∧
    (∀ e s₁' v₂ s₂', evaluate lim t s₁ = .error (.failed (.unit e)) s₁' →
      evaluate lim t s₂ ≠ .ok v₂ s₂') ∧
    (∀ e s₂' v₁ s₁', evaluate lim t s₂ = .error (.failed (.unit e)) s₂' →
      evaluate lim t s₁ ≠ .ok v₁ s₁') ∧
    ∀ a b q : Quantity, a.div b = .ok q → q.unit = a.unit / b.unit := by
  obtain ⟨dims, h₁, h₂⟩ := hs.exists_dimensions
  -- the outcome is computed from the dimensions alone, so it is that of
  -- both runs
  obtain ⟨o, ho⟩ : ∃ o, Gives.Number dims (fun _ => True) o
      (evaluate lim t) := ht.exists_number
  have hends₁ := ho.ends s₁ h₁
  have hends₂ := ho.ends s₂ h₂
  refine ⟨?_, ?_, ?_, fun a b q => unit_div⟩
  · intro v₁ v₂ s₁' s₂' heq₁ heq₂
    rw [heq₁] at hends₁
    rw [heq₂] at hends₂
    obtain ⟨⟨q₁, hv₁, hq₁, -⟩, -⟩ := hends₁
    obtain ⟨⟨q₂, hv₂, hq₂, -⟩, -⟩ := hends₂
    exact ⟨q₁, q₂, hv₁, hv₂, Option.some.inj (hq₁.symm.trans hq₂)⟩
  · intro e s₁' v₂ s₂' heq₁ heq₂
    rw [heq₁] at hends₁
    rw [heq₂] at hends₂
    obtain ⟨⟨q₂, -, hq₂, -⟩, -⟩ := hends₂
    exact absurd (hq₂.symm.trans (hends₁ trivial)) (by simp)
  · intro e s₂' v₁ s₁' heq₂ heq₁
    rw [heq₁] at hends₁
    rw [heq₂] at hends₂
    obtain ⟨⟨q₁, -, hq₁, -⟩, -⟩ := hends₁
    exact absurd (hq₁.symm.trans (hends₂ trivial)) (by simp)

/-- A length over a time. -/
def speed : Tree :=
  .mk (.operator .divide) [.leaf (.variable "x"), .leaf (.variable "t")]

/-- Variables for it. -/
def journey (x t : Float) : State where
  env := ⟨[("x", .number (.ofReal x { length := 1 })),
    ("t", .number (.ofReal t { time := 1 }))]⟩

/-- Whatever the length and the time. -/
theorem sameUnits_journey (x x' t t' : Float) :
    SameUnits (journey x t).env (journey x' t').env := by
  intro name
  simp only [journey, Environment.get?, List.lookup_cons, List.lookup_nil]
  split
  · exact .inr ⟨_, _, rfl, rfl, rfl⟩
  · split
    · exact .inr ⟨_, _, rfl, rfl, rfl⟩
    · exact .inl ⟨rfl, rfl⟩

/-- Two seconds and no time at all: both speeds exist, and are speeds. -/
theorem evaluate_unit_eq_of_sameUnits_speed :
    SameUnits (journey 6.0 2.0).env (journey 5.0 0.0).env ∧
    ∃ q₁ q₂ s₁ s₂,
      evaluate ⟨none, 0⟩ speed (journey 6.0 2.0) = .ok (.number q₁) s₁ ∧
      evaluate ⟨none, 0⟩ speed (journey 5.0 0.0) = .ok (.number q₂) s₂ ∧
      q₁.unit = q₂.unit := by
  have hspeed : Calculation speed := .binary (by decide) nofun .name .name
  have hsame := sameUnits_journey 6.0 5.0 2.0 0.0
  refine ⟨hsame, _, _, _, _, rfl, rfl, ?_⟩
  obtain ⟨q₁, q₂, h₁, h₂, hunit⟩ :=
    (evaluate_unit_eq_of_sameUnits ⟨none, 0⟩ hspeed hsame).1 _ _ _ _ rfl rfl
  cases h₁
  cases h₂
  exact hunit

end Metrology.Program
