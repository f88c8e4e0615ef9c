/-
Programs never make a variance negative. That no variance is below zero is
an invariant of quantities, so it is one of programs: where it holds of the
variables to begin with, it holds of every quantity that is computed,
returned or left in a variable, also inside matrices, and whether the
program succeeds or fails.

So the roots that standard deviations are can always be taken. A program
that leaves the domain of a function calls one of the three that have no
value for an infinite phase (`phaseFunctions`).
-/
import Metrology.Proofs.Program.Invariants
import Metrology.Proofs.Quantity.Variances

namespace Metrology

-- ============================================================== values

/-- Values are written down one by one. -/
theorem Value.raisesIn_renderAll : ∀ {vs : List Value},
    (∀ v ∈ vs, RaisesIn [.overflow, .zeroDivision] v.render) →
    RaisesIn [.overflow, .zeroDivision] (renderAll vs) := by
  intro vs
  induction vs with
  | nil => intro _; exact .ok
  | cons v vs ih =>
      intro h
      obtain ⟨hv, hvs⟩ := List.forall_mem_cons.mp h
      rw [renderAll]
      exact .bind hv fun _ _ => .bind (ih hvs) fun _ _ => .ok

/-- Writing a value down takes the roots of its variances, and no more
than these could leave a domain. -/
theorem Value.raisesIn_render {v : Value}
    (h : v.All Quantity.NonNegative) :
    RaisesIn [.overflow, .zeroDivision] v.render := by
  induction h with
  | void => exact .ok
  | text => exact .ok
  | number hq => exact Quantity.raisesIn_text hq
  | @matrix m _ ih =>
      rw [render]
      refine .bind (raisesIn_renderAll ih) fun texts _ => ?_
      split
      · exact .ok
      · exact .error fun f hf => by cases hf

namespace Program

open Quantity

-- ========================================================= the invariant

/-- The functions that have no value where the phase is infinite. -/
def phaseFunctions : List String := ["sin", "cos", "exp"]

/-- The error is another one, or the node calls a function that has no
value everywhere. -/
def StaysInDomain (n : Node) (e : Error) : Prop :=
  e = .arithmetic .domain → ∃ name ∈ phaseFunctions, n = .call name

/-- An operation whose faults are not of this kind stays in its domain. -/
theorem staysInDomain_of_raisesIn {α : Type} {fs : List ArithmeticFault}
    {x : Except Error α} (h : RaisesIn fs x) (hfs : .domain ∉ fs)
    (n : Node) : FailsOnly (StaysInDomain n) x :=
  fun e he hdomain => absurd (h e he .domain hdomain) hfs

/-- The three functions are those that may leave it. -/
theorem staysInDomain_call {α : Type} {name : String}
    (h : name ∈ phaseFunctions) (x : Except Error α) :
    FailsOnly (StaysInDomain (.call name)) x :=
  fun _ _ _ => ⟨name, h, rfl⟩

/-- An operation that never fails. -/
theorem computes_ok {r : Quantity} (hr : r.NonNegative) (n : Node) :
    Computes NonNegative (StaysInDomain n) (.ok r) :=
  ⟨.ok hr, .ok⟩

/-- Truth values have no variance. -/
theorem computes_truth (b : Bool) (n : Node) :
    Computes NonNegative (StaysInDomain n) (.ok (ofBool b)) :=
  computes_ok (nonNegative_certain ..) n

/-- A deviation exists, and has no variance itself. -/
theorem computes_sigma {q : Quantity} (hq : q.NonNegative) (n : Node) :
    Computes NonNegative (StaysInDomain n)
      (q.sigma.mapError Error.arithmetic) := by
  rw [sigma_eq hq]
  exact computes_ok (nonNegative_certain ..) n

/-- The operators on one operand, down the table. -/
theorem computes_unary {op : Operator}
    {f : Quantity → Except Error Quantity} (h : unary? op = some f)
    {q : Quantity} (hq : q.NonNegative) :
    Computes NonNegative (StaysInDomain (.operator op)) (f q) := by
  unfold unary? at h
  split at h <;> cases h
  · exact computes_ok hq _
  · exact computes_ok (nonNegative_neg hq) _
  · exact computes_truth _ _
  · exact computes_truth _ _
  · exact computes_ok (nonNegative_certain ..) _
  · exact computes_sigma hq _

/-- The operators between operands, down the table. -/
theorem yieldsOnly_binary {op : Operator}
    {f : Quantity → Quantity → Except Error Quantity}
    (h : binary? op = some f) {a b : Quantity} (ha : a.NonNegative)
    (hb : b.NonNegative) : YieldsOnly NonNegative (f a b) := by
  have htruth : ∀ t : Bool, (ofBool t).NonNegative :=
    fun _ => nonNegative_certain ..
  unfold binary? at h
  split at h <;> cases h
  · exact (yieldsOnly_add ha hb).mapError
  · exact (yieldsOnly_sub ha hb).mapError
  · exact .ok (nonNegative_mul ha hb)
  · exact (yieldsOnly_div ha hb).mapError
  · exact yieldsOnly_pow ha hb
  · exact (yieldsOnly_plusMinus a b).mapError
  -- the comparisons, and then the logical operators
  iterate 6 exact yieldsOnly_compare a b _
  iterate 4 exact .ok (htruth _)

/-- The table of faults has no operator with two operands that leaves a
domain. -/
theorem computes_binary {op : Operator}
    {f : Quantity → Quantity → Except Error Quantity}
    (h : binary? op = some f) {a b : Quantity} (ha : a.NonNegative)
    (hb : b.NonNegative) :
    Computes NonNegative (StaysInDomain (.operator op)) (f a b) := by
  refine ⟨yieldsOnly_binary h ha hb, ?_⟩
  refine staysInDomain_of_raisesIn (raisesIn_binary h a b) ?_ _
  intro hdomain
  unfold operatorFaults at hdomain
  split at hdomain
  · exact absurd hdomain (by decide)
  · exact absurd hdomain (by decide)
  · -- the deviation may leave its domain, but it has a single operand
    cases h
  · exact absurd hdomain (by decide)

/-- A function of quantities without negative variances computes one. -/
def NumberFunction.Computes (E : Error → Prop) : NumberFunction → Prop
  | .one f => ∀ q, q.NonNegative → Program.Computes NonNegative E (f q)
  | .two f => ∀ a b, a.NonNegative → b.NonNegative →
      Program.Computes NonNegative E (f a b)

/-- The functions of numbers, down their table. -/
theorem computes_numberFunctions : ∀ entry ∈ numberFunctions,
    entry.2.Computes (StaysInDomain (.call entry.1)) := by
  simp only [numberFunctions, List.forall_mem_cons, List.not_mem_nil,
    false_imp_iff, implies_true, and_true]
  refine ⟨fun q hq => ⟨yieldsOnly_sin hq, staysInDomain_call (by decide) _⟩,
    fun q hq => ⟨yieldsOnly_cos hq, staysInDomain_call (by decide) _⟩,
    fun q hq => ⟨yieldsOnly_exp hq, staysInDomain_call (by decide) _⟩,
    fun q hq => computes_ok (nonNegative_timesI hq) _,
    fun q hq => computes_ok (nonNegative_real hq) _,
    fun q hq => computes_ok (nonNegative_real hq) _,
    fun q hq => computes_ok (nonNegative_imag hq) _,
    fun q hq => computes_ok (nonNegative_imag hq) _,
    fun q hq => computes_sigma hq _,
    fun q _ => computes_ok (nonNegative_certain ..) _,
    fun q _ => computes_ok (nonNegative_certain ..) _,
    fun q hq => ⟨(yieldsOnly_abs hq).mapError, ?_⟩,
    fun q hq => ⟨(yieldsOnly_arg hq).mapError, ?_⟩,
    fun a b ha hb => ⟨yieldsOnly_max ha hb, ?_⟩,
    fun a b ha hb => ⟨yieldsOnly_min ha hb, ?_⟩⟩
  · exact staysInDomain_of_raisesIn (raisesIn_arithmetic (faultsIn_abs q))
      (by decide) _
  · exact staysInDomain_of_raisesIn (raisesIn_arithmetic (faultsIn_arg q))
      (by decide) _
  · exact staysInDomain_of_raisesIn (raisesIn_max a b) (by decide) _
  · exact staysInDomain_of_raisesIn (raisesIn_min a b) (by decide) _

/-- No operation makes a variance negative, and none takes the root of a
negative number. -/
theorem invariant_nonNegative : Invariant NonNegative StaysInDomain where
  literal value decorator :=
    ⟨yieldsOnly_literal value decorator,
      staysInDomain_of_raisesIn (raisesIn_literal value decorator)
        (by decide) _⟩
  unary h hq := computes_unary h hq
  binary h ha hb := computes_binary h ha hb
  scale text scale hq :=
    ⟨(yieldsOnly_onScale hq scale).mapError,
      staysInDomain_of_raisesIn raisesIn_unit List.not_mem_nil _⟩
  one hmem hq := computes_numberFunctions _ hmem _ hq
  two hmem ha hb := computes_numberFunctions _ hmem _ _ ha hb
  render n hv :=
    staysInDomain_of_raisesIn (Value.raisesIn_render hv) (by decide) n
  renderIn n unit hq :=
    staysInDomain_of_raisesIn (raisesIn_textIn hq unit) (by decide) n
  object _ _ h := by cases h
  malformed _ _ h := by cases h

-- =================================================== runs of programs

/-- What keeps a text from being a program leaves no domain: the scale of
a unit is computed by powers and quotients. -/
theorem raisesIn_parse (source : String) :
    RaisesIn [.overflow, .zeroDivision] (parse source) := by
  refine .bind (x := Token.scan source) ?_ fun _ _ => .mapError fun _ => nofun
  refine (Token.explained_of_scanFrom _ _).mono fun e he => ?_
  -- an error of scanning is one of a lexeme or one of a unit
  rcases he with ⟨l, rfl⟩ | ⟨_, inside, _, _, hread⟩
  · nofun
  · exact Scale.raisesIn_readBlock _ e hread

/-- The error is another one, or the program calls a function that has no
value everywhere. -/
def RunStaysInDomain (source : String) (e : Error) : Prop :=
  e = .arithmetic .domain → ∃ t, parse source = .ok t
    ∧ ∃ name ∈ phaseFunctions, Occurs (.call name) t

/-- The watched run is the plain one. -/
theorem shadows_run_nonNegative (alarm : Action Value) (lim : Limits)
    (source : String) :
    Shadows NonNegative (RunStaysInDomain source) (Value.All NonNegative)
      (runWatched NonNegative alarm lim source) (run lim source) := by
  apply shadows_run invariant_nonNegative
  · intro e he hdomain
    exact absurd (raisesIn_parse source e he .domain hdomain) (by decide)
  · intro t ht n e hn he hdomain
    obtain ⟨name, hname, rfl⟩ := he hdomain
    exact ⟨t, ht, name, hname, hn⟩

/-- How a run ends does not depend on who watches. -/
theorem upholds_run_nonNegative (lim : Limits) (source : String) {s : State}
    (hs : s.env.All NonNegative) :
    Upholds NonNegative (RunStaysInDomain source) (Value.All NonNegative)
      (run lim source s) :=
  ((shadows_run_nonNegative (throw .exhausted) lim source).ends s hs).2

/-- A list of faults without this one. -/
theorem ne_domain_of_raisesIn {α : Type} {x : Except Error α}
    (h : RaisesIn [.overflow, .zeroDivision] x) :
    x ≠ .error (.arithmetic .domain) :=
  fun he => absurd (h _ he .domain rfl) (by decide)

/-- Variances never become negative. Started with variables in which no
quantity has a variance below zero, cells of matrices included, a program
computes none that has: the run in which every value of every node is
watched, and the variables with it, is the run itself, whatever an alarm
would do. What it returns and what it leaves in variables is such, whether
it succeeds or fails.

So the roots that are taken of variances exist, in `sigma` and where a
quantity is written as text; a program that leaves a domain calls `sin`,
`cos` or `exp`. Nothing is used of these, nor of logarithms and powers:
with any value and any slope a function gives a quantity of this kind. -/
theorem run_keeps_nonNegative (lim : Limits) (source : String) (s : State)
    (hs : s.env.All NonNegative) :
    (∀ alarm, runWatched NonNegative alarm lim source s = run lim source s)
    ∧ (∀ v s', run lim source s = .ok v s' →
        v.All NonNegative ∧ s'.env.All NonNegative
        ∧ v.render ≠ .error (.arithmetic .domain))
    ∧ (∀ stop s', run lim source s = .error stop s' →
        s'.env.All NonNegative
        ∧ (stop = .failed (.arithmetic .domain) → ∃ t, parse source = .ok t
          ∧ ∃ name ∈ phaseFunctions, Occurs (.call name) t))
    ∧ ∀ q : Quantity, q.NonNegative →
        (∃ r, q.sigma = .ok r) ∧ q.text ≠ .error (.arithmetic .domain)
        ∧ (∀ unit, q.textIn unit ≠ .error (.arithmetic .domain))
        ∧ ∀ f f' unit, (q.through f f' unit).NonNegative := by
  refine ⟨fun alarm => ?_, fun v s' hrun => ?_, fun stop s' hrun => ?_,
    fun q hq => ?_⟩
  · exact ((shadows_run_nonNegative alarm lim source).ends s hs).1
  · have hends := upholds_run_nonNegative lim source hs
    rw [hrun] at hends
    exact ⟨hends.1, hends.2,
      ne_domain_of_raisesIn (Value.raisesIn_render hends.1)⟩
  · have hends := upholds_run_nonNegative lim source hs
    rw [hrun] at hends
    exact ⟨hends.2, fun hstop => hends.1 _ hstop rfl⟩
  · exact ⟨⟨_, sigma_eq hq⟩, ne_domain_of_raisesIn (raisesIn_text hq),
      fun unit => ne_domain_of_raisesIn (raisesIn_textIn hq unit),
      fun f f' unit => nonNegative_through hq f f' unit⟩

/-- A matrix with a matrix in it that holds 3 ± 0.5. -/
def nestedSpread : State :=
  let spread : Quantity := ⟨⟨3.0, 0.0, 0.25, 0.0⟩, .unitless⟩
  let inner : Matrix Value := ⟨1, 1, [.number spread]⟩
  { env := ⟨[("x", .matrix ⟨1, 1, [.matrix inner]⟩)]⟩ }

/-- The cells of the inner matrix count as well. -/
theorem nestedSpread_nonNegative : nestedSpread.env.All NonNegative := by
  have hspread : NonNegative ⟨⟨3.0, 0.0, 0.25, 0.0⟩, .unitless⟩ := by
    decide +kernel
  intro name v hv
  simp only [nestedSpread, Environment.get?, List.lookup_cons,
    List.lookup_nil] at hv
  split at hv
  · cases hv
    exact .matrix (List.forall_mem_singleton.mpr (.matrix
      (List.forall_mem_singleton.mpr (.number hspread))))
  · cases hv

/-- The run ended with a value. -/
def succeeds : EStateM.Result Stop State Value → Bool
  | .ok _ _ => true
  | .error _ _ => false

/-- The deviation of the square of what lies in a matrix of matrices. -/
theorem run_keeps_nonNegative_nested :
    let source := "for r in x {& (r[1] * r[1])}"
    nestedSpread.env.All NonNegative
      ∧ (∀ alarm, runWatched NonNegative alarm ⟨none, 1⟩ source nestedSpread
        = run ⟨none, 1⟩ source nestedSpread)
      ∧ ∃ v s', run ⟨none, 1⟩ source nestedSpread = .ok v s'
        ∧ v.All NonNegative ∧ s'.env.All NonNegative := by
  intro source
  have hok : succeeds (run ⟨none, 1⟩ source nestedSpread) = true := by
    decide +kernel
  obtain ⟨hwatched, hvalue, -⟩ := run_keeps_nonNegative ⟨none, 1⟩ source
    nestedSpread nestedSpread_nonNegative
  refine ⟨nestedSpread_nonNegative, hwatched, ?_⟩
  cases hrun : run ⟨none, 1⟩ source nestedSpread with
  | ok v s' =>
      obtain ⟨hv, hs', -⟩ := hvalue v s' hrun
      exact ⟨v, s', rfl, hv, hs'⟩
  | error stop s' => rw [hrun] at hok; cases hok

end Program

end Metrology
