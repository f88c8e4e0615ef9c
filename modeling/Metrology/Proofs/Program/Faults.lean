/-
Where unworded failures come from. A program that fails is told why, with
one exception: arithmetic faults that nothing on the way has turned into
an error. `faults` says which nodes can let one out, and which; every
other operator and function either cannot fail for arithmetic reasons or
guards against it.

An unworded failure of a program has a culprit in its text: a unit block
whose scale does not exist, or such a node. The one induction over trees
that this needs is that of `Lockstep`, for the relation that asks of a
run only where its errors come from.

Limits of the machine are set aside: how deep a tree may nest, and how many
digits a whole number may have when it is written. Exponents are written
however long they are (`Numeral.writeWhole`); only reading them has a limit
(`Numeral.wholeDigitLimit`).
-/
import Metrology.Proofs.Program.Effects
import Metrology.Proofs.Program.Safety
import Metrology.Proofs.Quantity.Faults
import Metrology.Proofs.Token.Blocks

namespace Metrology.Program

-- ============================================== errors come from nodes

/-- Every error of the action is one of `P`. -/
def ErrsOnly (P : Error → Prop) : Relation := fun _ x _ =>
  ∀ s e s', x s = .error (.failed e) s' → P e

/-- An error of a sequence is one of its parts. -/
theorem ErrsOnly.bind {P : Error → Prop} {α β : Type} {x y : Action α}
    {f g : α → Action β} (hx : ErrsOnly P α x y)
    (hf : ∀ a, ErrsOnly P β (f a) (g a)) :
    ErrsOnly P β (x >>= f) (y >>= g) := by
  intro s e s' h
  replace h : EStateM.bind x f s = .error (.failed e) s' := h
  unfold EStateM.bind at h
  split at h
  · next a t _ => exact hf a t e s' h
  · next stop t heq =>
    cases h
    exact hx s e s' heq

/-- The only error of a basic action beside those raised is a name that is
not there. -/
theorem stepwise_errsOnly {P : Error → Prop} (hP : ∀ e, P (.eval e)) :
    Stepwise (fun effect => ∀ e, effect = .raise e → P e) (ErrsOnly P) where
  pure _ s e s' h := by cases h
  bind := ErrsOnly.bind
  fail hallowed s e s' h := by
    cases h
    exact hallowed _ rfl
  lookup {name} _ := by
    have hget : ErrsOnly P State get get := fun s e s' h => by cases h
    refine hget.bind fun s => ?_
    split
    · exact fun s e s' h => by cases h
    · exact fun s e s' h => by cases h; exact hP _
  assign _ _ s e s' h := by cases h
  write _ s e s' h := by cases h

/-- The error of an evaluation is one that a node of the tree may
raise. -/
theorem does_of_evaluate_eq_error {lim : Limits} {t : Tree} {s s' : State}
    {e : Error} (h : evaluate lim t s = .error (.failed e) s') :
    Does t (.raise e) := by
  have hlock : Lockstep lim lim _ (ErrsOnly fun e => Does t (.raise e)) :=
    (stepwise_errsOnly fun _ => .object).lockstep
      (fun e e' he => by cases he; exact .object)
      (fun s e s' h => by cases h)
  refine hlock.evaluate t (fun effect hdoes e he => ?_) s e s' h
  rw [← he]
  exact hdoes

-- ============================================================= the table

/-- The functions of numbers that let faults out. -/
def functionFaults : List (String × List ArithmeticFault) :=
  [ ("sin", [.overflow, .domain]),
    ("cos", [.overflow, .domain]),
    ("exp", [.domain]),
    ("sigma", [.domain]),
    ("abs", [.zeroDivision]),
    ("arg", [.zeroDivision]) ]

/-- The operators that do. -/
def operatorFaults : Operator → List ArithmeticFault
  | .divide => [.zeroDivision]
  | .power => [.overflow, .zeroDivision]
  | .uncertaintyOf => [.domain]
  | _ => []

/-- The part shows a variable. -/
def Part.isPlace : Part → Bool
  | .place _ => true
  | _ => false

/-- All faults there are, as for a value that is written as text. -/
def anyFault : List ArithmeticFault := [.overflow, .zeroDivision, .domain]

/-- The faults that a node may let out. -/
def faults : Node → List ArithmeticFault
  | .number value decorator =>
      match Quantity.literal value decorator with
      | .error (.arithmetic f) => [f]
      | _ => []
  | .operator op => operatorFaults op
  | .call name =>
      if name ∈ showFunctions then anyFault
      else (functionFaults.lookup name).getD []
  | .index _ => anyFault
  | .template text => if (parts text).any Part.isPlace then anyFault else []
  | _ => []

/-- The node stands in the tree. -/
inductive Occurs (n : Node) : Tree → Prop
  | root {cs : List Tree} : Occurs n (.mk n cs)
  | inside {m : Node} {cs : List Tree} {c : Tree} :
      c ∈ cs → Occurs n c → Occurs n (.mk m cs)

-- ================================================ the table is complete

open Quantity

/-- There are no others. -/
@[simp] theorem mem_anyFault (f : ArithmeticFault) : f ∈ anyFault := by
  cases f with
  | overflow | zeroDivision | domain => decide

/-- The operators on one operand. -/
theorem raisesIn_unary {op : Operator}
    {f : Quantity → Except Error Quantity} (h : unary? op = some f)
    (q : Quantity) : RaisesIn (operatorFaults op) (f q) := by
  unfold unary? at h
  split at h <;> cases h
  iterate 5 exact .ok
  exact raisesIn_arithmetic (faultsIn_sigma q)

/-- The operators between operands. -/
theorem raisesIn_binary {op : Operator}
    {f : Quantity → Quantity → Except Error Quantity}
    (h : binary? op = some f) (a b : Quantity) :
    RaisesIn (operatorFaults op) (f a b) := by
  unfold binary? at h
  split at h <;> cases h
  · exact raisesIn_unit
  · exact raisesIn_unit
  · exact .ok
  · exact raisesIn_arithmetic (faultsIn_div a b)
  · exact raisesIn_pow a b
  · exact raisesIn_unit
  iterate 6 exact raisesIn_compare a b _
  iterate 4 exact .ok

/-- The function lets out the faults of the list only. -/
def NumberFunction.RaisesIn (fs : List ArithmeticFault) :
    NumberFunction → Prop
  | .one f => ∀ q, Metrology.RaisesIn fs (f q)
  | .two f => ∀ a b, Metrology.RaisesIn fs (f a b)

/-- The functions of numbers, none of which writes text. -/
theorem raisesIn_numberFunctions :
    ∀ entry ∈ numberFunctions,
      entry.1 ∉ showFunctions ∧
        entry.2.RaisesIn ((functionFaults.lookup entry.1).getD []) := by
  simp only [numberFunctions, List.forall_mem_cons, List.not_mem_nil,
    false_imp_iff, implies_true, and_true]
  refine ⟨⟨by decide, raisesIn_sin⟩, ⟨by decide, raisesIn_cos⟩,
    ⟨by decide, raisesIn_exp⟩, ⟨by decide, fun _ => .ok⟩,
    ⟨by decide, fun _ => .ok⟩, ⟨by decide, fun _ => .ok⟩,
    ⟨by decide, fun _ => .ok⟩, ⟨by decide, fun _ => .ok⟩,
    ⟨by decide, fun q => raisesIn_arithmetic (faultsIn_sigma q)⟩,
    ⟨by decide, fun _ => .ok⟩, ⟨by decide, fun _ => .ok⟩,
    ⟨by decide, fun q => raisesIn_arithmetic (faultsIn_abs q)⟩,
    ⟨by decide, fun q => raisesIn_arithmetic (faultsIn_arg q)⟩,
    ⟨by decide, raisesIn_max⟩, ⟨by decide, raisesIn_min⟩⟩

/-- A call lets out what its function does. -/
theorem faults_call {name : String} {f : NumberFunction}
    (h : (name, f) ∈ numberFunctions) : f.RaisesIn (faults (.call name)) := by
  obtain ⟨hshow, hraises⟩ := raisesIn_numberFunctions _ h
  simp only at hshow hraises
  simp only [faults, if_neg hshow]
  exact hraises

/-- What writes values as text may let any fault out. -/
theorem mem_faults_of_shows {n : Node} (h : Shows n) (f : ArithmeticFault) :
    f ∈ faults n := by
  unfold Shows at h
  split at h
  · simp only [faults, if_pos h]
    exact mem_anyFault f
  · exact mem_anyFault f
  · obtain ⟨content, hplace⟩ := h
    have hany : (parts _).any Part.isPlace = true :=
      List.any_eq_true.mpr ⟨_, hplace, rfl⟩
    simp only [faults, if_pos hany]
    exact mem_anyFault f
  · cases h

/-- A fault comes from a node that lets it out. -/
theorem Does.exists_occurs {t : Tree} {effect : Effect}
    (h : Does t effect) : ∀ {f : ArithmeticFault},
      effect = .raise (.arithmetic f) →
      ∃ n, Occurs n t ∧ f ∈ faults n := by
  induction h with
  -- these raise nothing, or an error that is no fault
  | name | indexed | place | target | counter | object | malformed =>
      intro f heq
      cases heq
  | scale => intro f heq; cases heq
  | @literal value decorator cs e hliteral =>
      intro f heq
      cases heq
      refine ⟨_, .root, ?_⟩
      simp only [faults, hliteral]
      exact List.mem_singleton.mpr rfl
  | unary hop hf =>
      intro f heq
      cases heq
      exact ⟨_, .root, raisesIn_unary hop _ _ hf f rfl⟩
  | binary hop hf =>
      intro f heq
      cases heq
      exact ⟨_, .root, raisesIn_binary hop _ _ _ hf f rfl⟩
  | one hmem hf =>
      intro f heq
      cases heq
      exact ⟨_, .root, faults_call hmem _ _ hf f rfl⟩
  | two hmem hf =>
      intro f heq
      cases heq
      exact ⟨_, .root, faults_call hmem _ _ _ hf f rfl⟩
  | render hshows _ =>
      intro f _
      exact ⟨_, .root, mem_faults_of_shows hshows f⟩
  | @renderIn text content _ _ _ _ hplace _ =>
      intro f _
      have hshows : Shows (.template text) := ⟨content, hplace⟩
      exact ⟨_, .root, mem_faults_of_shows hshows f⟩
  -- a fault of a child occurs in the child, and so in the tree
  | inside hc _ ih =>
      intro f heq
      obtain ⟨n, hn, hf⟩ := ih heq
      exact ⟨n, .inside hc hn, hf⟩

-- ============================================================ programs

/-- What may let a fault out when a source is run: a unit block between
two bars, or a node of the program. -/
inductive Culprit (source : String) (f : ArithmeticFault) : Prop
  | block {text : String} :
      Token.Barred source text →
      Scale.readBlock text = .error (.arithmetic f) → Culprit source f
  | node {t : Tree} {n : Node} :
      parse source = .ok t → Occurs n t → f ∈ faults n → Culprit source f

/-- A failure that is the program's own has a wording or is a fault. -/
theorem exists_fault_of_unworded {e : Error} (hown : ¬ e.IsInternal)
    (h : e.message? = none) : ∃ f, e = .arithmetic f := by
  cases e with
  | lex _ | parse _ | unit _ | eval _ => cases h
  | arithmetic f => exact ⟨f, rfl⟩
  | malformed m => exact absurd trivial hown

/-- A text fails over a fault before it is a tree only in a unit block. -/
theorem culprit_of_parse {source : String} {f : ArithmeticFault}
    (h : parse source = .error (.arithmetic f)) : Culprit source f := by
  rw [parse_eq_bind] at h
  cases hscan : Token.scan source with
  | error e =>
      rw [hscan] at h
      cases h
      rcases Token.lex_or_barred_of_scan hscan with
        ⟨l, hl⟩ | ⟨block, hbarred, hread⟩
      · cases hl
      · exact .block hbarred hread
  | ok tokens =>
      rw [hscan, ok_bind] at h
      cases htree : Tree.parse tokens with
      | error e => rw [htree] at h; cases h
      | ok t => rw [htree] at h; cases h

theorem culprit_of_run {lim : Limits} {source : String} {s s' : State}
    {f : ArithmeticFault}
    (h : run lim source s = .error (.failed (.arithmetic f)) s') :
    Culprit source f := by
  rw [run_eq_bind] at h
  cases hparse : parse source with
  | error e =>
      rw [hparse] at h
      cases h
      exact culprit_of_parse hparse
  | ok t =>
      rw [hparse] at h
      -- the text is a program, so the fault is one of its nodes'
      obtain ⟨n, hn, hf⟩ := (does_of_evaluate_eq_error h).exists_occurs rfl
      exact .node hparse hn hf

/-- A run that fails without a wording has a culprit. -/
theorem exists_culprit {lim : Limits} {source : String} {s s' : State}
    {e : Error} (hs : Sound s.env)
    (h : run lim source s = .error (.failed e) s') (he : e.message? = none) :
    ∃ f, e = .arithmetic f ∧ Culprit source f := by
  have hends := (safe_run lim source).ends s hs
  rw [h] at hends
  obtain ⟨f, rfl⟩ := exists_fault_of_unworded hends.1 he
  exact ⟨f, rfl, culprit_of_run h⟩

end Metrology.Program
