/-
Programs never go wrong internally. An action is safe if, started with
variables that hold no broken matrix, it leaves such variables, however
it ends, and does not stop with an internal failure. Safety passes
through sequences and loops, so what is left is one lemma per kind of
node, each from the safety of the node's operands.

Where the shape of the tree matters is in the nodes that count their
operands: operators, units, loops and matrices. `Formed` is the shape
that parsed trees have, and evaluating a tree of that shape is safe. From
there runs of programs against the same variables stay safe one after
another, whether they succeed or fail.
-/
import Metrology.Proofs.Program.Mild
import Metrology.Proofs.Tree.Shape

namespace Metrology.Program

-- ============================================================ variables

/-- Every variable holds a value without broken matrices. -/
def Sound (env : Environment) : Prop :=
  ∀ name v, env.get? name = some v → v.Full

/-- No variables at all are sound. -/
theorem sound_empty : Sound {} := by
  intro name v h
  cases h

/-- They stay sound with another one that is full. -/
theorem Sound.set {env : Environment} (h : Sound env) {v : Value}
    (hv : v.Full) (name : String) : Sound (env.set name v) := by
  intro other w hw
  rw [Environment.get?_set] at hw
  split at hw
  · cases hw; exact hv
  · exact h other w hw

-- ========================================================= safe actions

/-- The action ended in an internal failure. Turns that are used up are
none. -/
def Stop.IsInternal : Stop → Prop
  | .failed e => e.IsInternal
  | .exhausted => False

/-- The end of an action: a result as wanted or a failure that is the
program's own, and sound variables either way. -/
def Ends {α : Type} (P : α → Prop) : EStateM.Result Stop State α → Prop
  | .ok a s => P a ∧ Sound s.env
  | .error stop s => ¬ stop.IsInternal ∧ Sound s.env

/-- From sound variables, the action ends well. -/
structure Safe {α : Type} (P : α → Prop) (x : Action α) : Prop where
  ends : ∀ s : State, Sound s.env → Ends P (x s)

namespace Safe

variable {α β : Type} {P : α → Prop} {Q : β → Prop}

/-- A result as wanted is a safe end. -/
theorem pure {a : α} (h : P a) : Safe P (Pure.pure a : Action α) :=
  ⟨fun _ hs => ⟨h, hs⟩⟩

/-- A step starts from sound variables, with what the one before it has
given. -/
theorem bind {x : Action α} {f : α → Action β} (hx : Safe P x)
    (hf : ∀ a, P a → Safe Q (f a)) : Safe Q (x >>= f) := by
  refine ⟨fun s hs => ?_⟩
  have h := hx.ends s hs
  show Ends Q (EStateM.bind x f s)
  unfold EStateM.bind
  split
  · next a s' heq =>
    rw [heq] at h
    exact (hf a h.1).ends s' h.2
  · next stop s' heq =>
    rw [heq] at h
    exact h

theorem ite {c : Prop} [Decidable c] {x y : Action α} (hx : Safe P x)
    (hy : Safe P y) : Safe P (if c then x else y) := by
  split
  · exact hx
  · exact hy

/-- A failure that is not internal is a safe end. -/
theorem fail {e : Error} (h : ¬ e.IsInternal) :
    Safe P (Program.fail e : Action α) :=
  ⟨fun _ hs => ⟨h, hs⟩⟩

/-- A mild computation. -/
theorem lift {x : Except Error α} (hx : Mild x) :
    Safe (fun _ => True) (Program.lift x) := by
  cases x with
  | error e => exact .fail (hx e rfl)
  | ok a => exact .pure trivial

/-- What is there can be required. -/
theorem require {m : Malformation} {o : Option α}
    (h : ∃ a, o = some a ∧ P a) : Safe P (Program.require m o) := by
  obtain ⟨a, rfl, ha⟩ := h
  exact .pure ha

/-- The variables that are met are sound. -/
theorem get : Safe (fun s => Sound s.env) (MonadState.get : Action State) :=
  ⟨fun _ hs => ⟨hs, hs⟩⟩

/-- What is looked up has no broken matrix in it. -/
theorem lookup (name : String) : Safe Value.Full (Program.lookup name) := by
  refine .bind .get fun s hs => ?_
  split
  · next v h => exact .pure (hs name v h)
  · exact .fail id

/-- A full value may be assigned. -/
theorem assign {v : Value} (hv : v.Full) (name : String) :
    Safe (fun _ => True) (Program.assign name v) :=
  ⟨fun _ hs => ⟨trivial, hs.set hv name⟩⟩

/-- Writing touches no variables. -/
theorem write (text : String) :
    Safe (fun _ => True) (Program.write text) :=
  ⟨fun _ hs => ⟨trivial, hs⟩⟩

/-- A traversal by safe steps gives as many results as wanted. -/
theorem mapM {f : β → Action α} : ∀ {xs : List β},
    (∀ x ∈ xs, Safe P (f x)) →
    Safe (fun ys => ys.length = xs.length ∧ ∀ y ∈ ys, P y) (xs.mapM f) := by
  intro xs
  induction xs with
  | nil => intro _; exact .pure ⟨rfl, by simp⟩
  | cons x xs ih =>
      intro h
      rw [List.mapM_cons]
      refine .bind (h x (List.mem_cons_self ..)) fun y hy => ?_
      refine .bind (ih fun x hx => h x (List.mem_cons_of_mem _ hx)) ?_
      rintro ys ⟨hlen, hys⟩
      refine .pure ⟨by rw [List.length_cons, List.length_cons, hlen], ?_⟩
      intro z hz
      rcases List.mem_cons.mp hz with rfl | hz
      · exact hy
      · exact hys z hz

end Safe

-- ================================================================ loops

variable {lim : Limits}

/-- A loop that takes too many turns says so. -/
theorem safe_checkIterations (loop : String) (count : Nat) :
    Safe (fun _ => True) (checkIterations lim loop count) := by
  unfold checkIterations
  split
  · exact .pure trivial
  · exact .ite (.fail id) (.pure trivial)

/-- All values of the list are full. -/
def AllFull (vs : List Value) : Prop := ∀ v ∈ vs, v.Full

/-- A full value before full values. -/
theorem AllFull.cons {v : Value} {vs : List Value} (hv : v.Full)
    (hvs : AllFull vs) : AllFull (v :: vs) := by
  intro w hw
  rcases List.mem_cons.mp hw with rfl | hw
  · exact hv
  · exact hvs w hw

theorem AllFull.reverse {vs : List Value} (h : AllFull vs) :
    AllFull vs.reverse :=
  fun v hv => h v (List.mem_reverse.mp hv)

/-- A loop on a condition collects full values. -/
theorem safe_repeatWhile {condition : Action Bool} {body : Action Value}
    (hcondition : Safe (fun _ => True) condition)
    (hbody : Safe Value.Full body) :
    ∀ (turns count : Nat) (results : List Value), AllFull results →
      Safe AllFull (repeatWhile lim condition body turns count results) := by
  intro turns
  induction turns with
  | zero => intro _ _ _; exact ⟨fun _ hs => ⟨id, hs⟩⟩
  | succ turns ih =>
      intro count results hresults
      rw [repeatWhile]
      refine .bind hcondition fun _ _ => .ite ?_ (.pure hresults.reverse)
      refine .bind (safe_checkIterations _ _) fun _ _ => ?_
      exact .bind hbody fun v hv => ih _ _ (hresults.cons hv)

/-- A loop over values has one result for each. -/
theorem safe_repeatFor {bind : Value → Action Unit} {body : Action Value}
    (hbind : ∀ v, v.Full → Safe (fun _ => True) (bind v))
    (hbody : Safe Value.Full body) :
    ∀ (cells : List Value) (count : Nat) (results : List Value),
      AllFull cells → AllFull results →
      Safe (fun vs => vs.length = results.length + cells.length ∧ AllFull vs)
        (repeatFor lim bind body count cells results) := by
  intro cells
  induction cells with
  | nil =>
      intro count results _ hresults
      exact .pure ⟨List.length_reverse, hresults.reverse⟩
  | cons c cells ih =>
      intro count results hcells hresults
      rw [repeatFor]
      refine .bind (safe_checkIterations _ _) fun _ _ => ?_
      refine .bind (hbind c (hcells c (List.mem_cons_self ..))) fun _ _ => ?_
      refine .bind hbody fun v hv => ?_
      have hrest := ih (count + 1) (v :: results)
        (fun w hw => hcells w (List.mem_cons_of_mem _ hw)) (hresults.cons hv)
      rw [List.length_cons, Nat.add_right_comm, Nat.add_assoc] at hrest
      exact hrest

-- ============================================================ operands

/-- Each operand can be evaluated safely. -/
def SafeKids (kids : List Operand) : Prop :=
  ∀ k ∈ kids, Safe Value.Full k.run

variable {k : Operand} {kids : List Operand}

/-- An operand that is no number is the program's failure. -/
theorem safe_number (hk : Safe Value.Full k.run) (operator : String)
    (side : Option String) :
    Safe (fun _ => True) (k.number operator side) := by
  refine .bind hk fun v _ => ?_
  split
  · exact .pure trivial
  · exact .fail id

theorem safe_argument (hk : Safe Value.Full k.run) (function : String)
    (position : Nat) :
    Safe (fun _ => True) (k.argument function position) := by
  refine .bind hk fun v _ => ?_
  split
  · exact .pure trivial
  · exact .fail id

/-- A full value can be written down. -/
theorem safe_text (hk : Safe Value.Full k.run) :
    Safe (fun _ => True) k.text :=
  .bind hk fun _ hv => .lift hv.mild_render

-- =========================================================== operators

/-- Every operator on one operand computes something. -/
theorem unary?_mild : ∀ op ∈ Tree.unaryOperators,
    ∃ f, unary? op = some f ∧ ∀ q, Mild (f q) := by
  intro op hop
  simp only [Tree.unaryOperators, Tree.signOperators, List.mem_cons,
    List.not_mem_nil, or_false] at hop
  rcases hop with rfl | rfl | rfl | rfl | rfl | rfl
  all_goals refine ⟨_, rfl, fun q => ?_⟩
  all_goals first | exact .ok | exact .arithmetic

/-- Every operator between operands computes something. -/
theorem binary?_mild : ∀ op ∈ Tree.precedence.flatten,
    ∃ f, binary? op = some f ∧ ∀ a b, Mild (f a b) := by
  intro op hop
  simp only [Tree.precedence, List.flatten_cons, List.flatten_nil,
    List.append_nil, List.cons_append, List.nil_append, List.mem_cons,
    List.not_mem_nil, or_false] at hop
  rcases hop with rfl | rfl | rfl | rfl | rfl | rfl | rfl | rfl | rfl | rfl
    | rfl | rfl | rfl | rfl | rfl | rfl
  all_goals refine ⟨_, rfl, fun a b => ?_⟩
  all_goals first
    | exact .ok
    | exact .unit
    | exact .arithmetic
    | exact Quantity.mild_pow a b
    | exact Quantity.mild_compare a b _ (by decide)

/-- The operators that decide what is evaluated or assign to a
variable. -/
def statementOperators : List Operator :=
  [.assign, .ifThen, .whileLoop, .forLoop]

/-- All other operators compute. -/
theorem runOperator_eq_runCompute {op : Operator}
    (h : op ∉ statementOperators) :
    runOperator lim op kids = runCompute op kids := by
  unfold runOperator
  split
  all_goals first | rfl | exact absurd (by decide) h

/-- An operator on one operand. -/
theorem safe_unary {op : Operator} (hop : op ∈ Tree.unaryOperators)
    (hk : Safe Value.Full k.run) :
    Safe Value.Full (runOperator lim op [k]) := by
  have hne : ∀ op ∈ Tree.unaryOperators, op ∉ statementOperators := by decide
  obtain ⟨f, hf, hmild⟩ := unary?_mild op hop
  rw [runOperator_eq_runCompute (hne op hop)]
  simp only [runCompute, hf]
  refine .bind (safe_number hk _ _) fun q _ => ?_
  exact .bind (.lift (hmild q)) fun _ _ => .pure .number

/-- An operator between operands. -/
theorem safe_binary {op : Operator} (hop : op ∈ Tree.precedence.flatten)
    {a b : Operand} (ha : Safe Value.Full a.run)
    (hb : Safe Value.Full b.run) :
    Safe Value.Full (runOperator lim op [a, b]) := by
  have hne : ∀ op ∈ Tree.precedence.flatten, op ∉ statementOperators := by
    decide
  obtain ⟨f, hf, hmild⟩ := binary?_mild op hop
  rw [runOperator_eq_runCompute (hne op hop)]
  simp only [runCompute, hf]
  refine .bind (safe_number ha _ _) fun q _ => ?_
  refine .bind (safe_number hb _ _) fun r _ => ?_
  exact .bind (.lift (hmild q r)) fun _ _ => .pure .number

/-- An assignment to a name. -/
theorem safe_assignment (name : String) (x : Action Value)
    (hk : Safe Value.Full k.run) :
    Safe Value.Full (runAssign [⟨Tree.leaf (.variable name), x⟩, k]) :=
  .bind hk fun _ hv => .bind (.assign hv name) fun _ _ => .pure .void

/-- A conditional with one branch. -/
theorem safe_oneBranch {a b : Operand} (ha : Safe Value.Full a.run)
    (hb : Safe Value.Full b.run) : Safe Value.Full (runIf [a, b]) := by
  exact .bind (safe_number ha _ _) fun _ _ => .ite hb (.pure .void)

/-- A conditional with two. -/
theorem safe_twoBranches {a b c : Operand} (ha : Safe Value.Full a.run)
    (hb : Safe Value.Full b.run) (hc : Safe Value.Full c.run) :
    Safe Value.Full (runIf [a, b, c]) := by
  exact .bind (safe_number ha _ _) fun _ _ => .ite hb hc

/-- The results of a loop make a column. -/
theorem safe_while {a b : Operand} (ha : Safe Value.Full a.run)
    (hb : Safe Value.Full b.run) : Safe Value.Full (runWhile lim [a, b]) := by
  have hholds : Safe (fun _ => True)
      (do return (← a.number "while" "condition").isTrue : Action Bool) :=
    .bind (safe_number ha _ _) fun _ _ => .pure trivial
  refine .bind (safe_repeatWhile hholds hb _ _ [] (by simp [AllFull])) ?_
  exact fun vs hvs => .pure (.matrix (Matrix.isFull_column vs) hvs)

/-- A loop over a matrix finds all cells, and its results fill a matrix
again. -/
theorem safe_for (name : String) (x : Action Value) {a b : Operand}
    (ha : Safe Value.Full a.run) (hb : Safe Value.Full b.run) :
    Safe Value.Full
      (runFor lim [⟨Tree.leaf (.variable name), x⟩, a, b]) := by
  refine .bind ha fun v hv => ?_
  split
  · next m =>
    obtain ⟨hfull, hcells⟩ : m.IsFull ∧ AllFull m.cells := by
      cases hv with
      | matrix hfull hcells => exact ⟨hfull, hcells⟩
    obtain ⟨cs, hcs, hlen, hmem⟩ := hfull.columns?
    have hvisited : Safe (fun cs => cs.length = m.width * m.height
        ∧ AllFull cs) (require .cellCount m.columns?) :=
      .require ⟨cs, hcs, hlen, fun c hc => hcells c (hmem c hc)⟩
    -- one result for each cell visited, so the results fill the matrix
    refine .bind hvisited fun cs ⟨hlen, hfull⟩ => ?_
    refine .bind (safe_repeatFor (fun v hv => .assign hv name) hb cs 0 []
      hfull (by simp [AllFull])) fun vs ⟨hvs, hresults⟩ => ?_
    rw [List.length_nil, Nat.zero_add, hlen] at hvs
    obtain ⟨m', hm', hfull', hmem'⟩ := Matrix.exists_ofColumns? hvs
    have hmatrix : (Value.matrix m').Full :=
      .matrix hfull' fun c hc => hresults c (hmem' c hc)
    exact .bind (.require ⟨m', hm', hmatrix⟩) fun _ h => .pure h
  · exact .fail id

-- =========================================================== functions

/-- A function of numbers fails only for reasons of its own. -/
def NumberFunction.IsMild : NumberFunction → Prop
  | .one f => ∀ q, Mild (f q)
  | .two f => ∀ a b, Mild (f a b)

/-- All functions of numbers are of this kind. -/
theorem isMild_of_mem : ∀ x ∈ numberFunctions, x.2.IsMild := by
  intro x hx
  simp only [numberFunctions, List.mem_cons, List.not_mem_nil, or_false]
    at hx
  rcases hx with rfl | rfl | rfl | rfl | rfl | rfl | rfl | rfl | rfl | rfl
    | rfl | rfl | rfl | rfl | rfl
  all_goals first
    | exact Quantity.mild_sin
    | exact Quantity.mild_cos
    | exact Quantity.mild_exp
    | exact Quantity.mild_max
    | exact Quantity.mild_min
    | exact fun _ => .ok
    | exact fun _ => .arithmetic

/-- With any number of arguments. -/
theorem safe_numberFunction (name : String) {f : NumberFunction}
    (hf : f.IsMild) (hkids : SafeKids kids) :
    Safe Value.Full (runNumberFunction name f kids) := by
  unfold runNumberFunction
  split
  · next f a =>
    refine .bind (safe_argument (hkids a (by simp)) _ _) fun q _ => ?_
    exact .bind (.lift (hf q)) fun _ _ => .pure .number
  · exact .fail id
  · next f a b =>
    refine .bind (safe_argument (hkids a (by simp)) _ _) fun q _ => ?_
    refine .bind (safe_argument (hkids b (by simp)) _ _) fun r _ => ?_
    exact .bind (.lift (hf q r)) fun _ _ => .pure .number
  · exact .fail id

/-- The functions that write their arguments down. -/
theorem safe_write (gap stop : String) (hkids : SafeKids kids) :
    Safe Value.Full (runWrite gap stop kids) := by
  refine .bind (.mapM fun k hk => safe_text (hkids k hk)) fun _ _ => ?_
  exact .bind (.write _) fun _ _ => .pure .void

/-- The text of a failed assertion. -/
theorem safe_failureText (heading : String) {v : Value} (hv : v.Full)
    (hkids : SafeKids kids) :
    Safe (fun _ => True) (failureText heading v kids) := by
  unfold failureText
  split
  · exact .bind (.lift hv.mild_render) fun _ _ => .pure trivial
  · exact safe_text (hkids _ (List.mem_cons_self ..))

/-- The functions that may stop the program. -/
theorem safe_assert (name heading : String) (asserts : Bool)
    (hkids : SafeKids kids) :
    Safe Value.Full (runAssert name heading asserts kids) := by
  unfold runAssert
  split
  · exact .fail id
  · next k rest =>
    refine .ite (.fail id) ?_
    refine .bind (hkids k (List.mem_cons_self ..)) fun v hv => ?_
    have htext := safe_failureText heading hv fun k hk =>
      hkids k (List.mem_cons_of_mem _ hk)
    exact .ite (.pure .void) (.bind htext fun _ _ => .fail id)

/-- A call, whether or not there is such a function. -/
theorem safe_call (name : String) (hkids : SafeKids kids) :
    Safe Value.Full (runCall name kids) := by
  unfold runCall
  split
  · next f hf =>
    obtain ⟨before, behind, heq, -⟩ := List.lookup_eq_some_iff.mp hf
    exact safe_numberFunction name
      (isMild_of_mem (name, f) (by simp [heq])) hkids
  · refine .ite (.ite (.fail id) (safe_write _ _ hkids)) ?_
    refine .ite (safe_write _ _ hkids) ?_
    exact .ite (safe_assert _ _ _ hkids)
      (.ite (safe_assert _ _ _ hkids) (.fail id))

-- ============================================================ matrices

/-- An index names a place that is there. -/
theorem lt_of_indexPlace {size : Nat} {n : Int} {place : Nat}
    (h : indexPlace size n = some place) : place < size := by
  unfold indexPlace at h
  simp only [Bool.and_eq_true, decide_eq_true_eq, Option.ite_none_right_eq_some,
    Option.some.injEq] at h
  obtain ⟨⟨hlow, hhigh⟩, rfl⟩ := h
  omega

/-- An index is a place in the matrix, or is complained about. -/
theorem safe_index (hk : Safe Value.Full k.run) (size : Nat)
    (label : String) :
    Safe (fun place => place < size) (k.index size label) := by
  refine .bind hk fun v hv => ?_
  split
  · exact .bind (.lift hv.mild_render) fun _ _ => .fail id
  · split
    · next hplace => exact .pure (lt_of_indexPlace hplace)
    · exact .fail id

/-- A matrix without gaps has a cell at every place in it. -/
theorem safe_indices (label : String) {target : Value}
    (htarget : target.Full) (hkids : SafeKids kids) :
    Safe Value.Full (runIndices label target kids) := by
  unfold runIndices
  split
  · next m =>
    obtain ⟨hfull, hcells⟩ : m.IsFull ∧ AllFull m.cells := by
      cases htarget with
      | matrix hfull hcells => exact ⟨hfull, hcells⟩
    have hcell : ∀ row col, row < m.height → col < m.width →
        Safe Value.Full (require .cellCount (m.cell? row col)) := by
      intro row col hrow hcol
      obtain ⟨c, hc, heq⟩ := hfull.cell? hrow hcol
      exact .require ⟨c, heq, hcells c hc⟩
    split
    · next k =>
      -- a single index is a row, and only a column has one cell in it
      by_cases hwidth : m.width = 1
      · rw [if_neg (fun hne => hne hwidth)]
        refine .bind (safe_index (hkids k (by simp)) _ _) fun row hrow => ?_
        exact hcell row 0 hrow (by omega)
      · rw [if_pos hwidth]
        exact .fail id
    · next j k =>
      refine .bind (safe_index (hkids j (by simp)) _ _) fun row hrow => ?_
      refine .bind (safe_index (hkids k (by simp)) _ _) fun col hcol => ?_
      exact hcell row col hrow hcol
    · exact .fail id
  · exact .fail id

/-- As many cells as the shape asks for make a matrix without gaps. -/
theorem safe_matrix {width height : Nat} (hkids : SafeKids kids)
    (hlen : kids.length = width * height) :
    Safe Value.Full (runMatrix width height kids) := by
  refine .bind (.mapM hkids) fun vs ⟨hvs, hfull⟩ => ?_
  rw [hlen] at hvs
  have hmatrix : (Value.matrix ⟨width, height, vs⟩).Full := .matrix hvs hfull
  exact .bind (.require ⟨_, if_pos hvs, hmatrix⟩) fun _ h => .pure h

-- ==================================================== blocks and strings

/-- The statements of a block, in their order. -/
theorem safe_block : ∀ {kids : List Operand} {last : Value}, last.Full →
    SafeKids kids → Safe Value.Full (runBlock last kids) := by
  intro kids
  induction kids with
  | nil => intro last hlast _; exact .pure hlast
  | cons k kids ih =>
      intro last _ hkids
      refine .bind (hkids k (List.mem_cons_self ..)) fun v hv => ?_
      exact ih hv fun k hk => hkids k (List.mem_cons_of_mem _ hk)

/-- A unit behind an operand. -/
theorem safe_unitBlock (text : String) (scale : Scale)
    (hk : Safe Value.Full k.run) :
    Safe Value.Full (runUnitBlock text scale [k]) :=
  .bind (safe_number hk _ _) fun _ _ =>
    .bind (.lift .unit) fun _ _ => .pure .number

/-- A place of a template, whatever it says. -/
theorem safe_fillPlace (template content : String) :
    Safe (fun _ => True) (fillPlace template content) := by
  unfold fillPlace
  extract_lets cs name
  split
  · exact .fail id
  refine .bind (.lookup name) fun v hv => ?_
  split
  · exact .lift hv.mild_render
  · split
    · exact .fail id
    · exact .lift (Quantity.mild_textIn _ _)
    · exact .fail id

/-- A broken template is the program's own failure. -/
def Part.IsOwn : Part → Prop
  | .broken e => ¬ (Error.eval e).IsInternal
  | _ => True

/-- Templates break only in ways that are told to the program. -/
theorem isOwn_of_mem_partsFrom (template : String) (position : Nat)
    (place? : Option OpenPlace) (cs : List Text.Cluster) :
    ∀ p ∈ partsFrom template position place? cs, p.IsOwn := by
  fun_induction partsFrom template position place? cs
  all_goals simp_all [Part.IsOwn, Error.IsInternal]

theorem safe_fillPart (template : String) {p : Part} (hp : p.IsOwn) :
    Safe (fun _ => True) (fillPart template p) := by
  unfold fillPart
  split
  · exact .pure trivial
  · exact safe_fillPlace template _
  · exact .fail hp

/-- A whole template. -/
theorem safe_fill (template : String) :
    Safe (fun _ => True) (fill template) := by
  unfold fill parts
  have hparts := isOwn_of_mem_partsFrom template 0 none
    (Text.clusters template)
  refine .bind (.mapM fun p hp => safe_fillPart template (hparts p hp)) ?_
  exact fun _ _ => .pure trivial

-- =============================================================== trees

/-- Gaps in a list evaluate to nothing. -/
theorem safeKids_operands {ts : List Tree}
    (h : ∀ t ∈ ts, t ≠ .empty → Safe Value.Full (evaluate lim t)) :
    SafeKids (operands lim ts) := by
  rw [operands_eq_map]
  intro k hk
  obtain ⟨t, ht, rfl⟩ := List.mem_map.mp hk
  by_cases hempty : t = .empty
  · subst hempty
    exact .pure .void
  · exact h t ht hempty

/-- Trees of the shape that the parser gives evaluate safely. -/
theorem safe_evaluate {t : Tree} (h : t.Formed) :
    Safe Value.Full (evaluate lim t) := by
  induction h with
  | number _ =>
      exact .bind (.lift (Quantity.mild_literal _ _)) fun _ _ =>
        .pure .number
  | name => exact .lookup _
  | template => exact .bind (safe_fill _) fun _ _ => .pure .text
  -- calls, blocks and indices; the gaps in their lists are safe to
  -- evaluate
  | @list n ts hn _ _ ih =>
      rw [evaluate]
      have hkids := safeKids_operands ih
      cases n with
      | call name => exact safe_call name hkids
      | block => exact safe_block .void hkids
      | index target =>
          cases target with
          | some name =>
              exact .bind (.lookup name) fun _ hv => safe_indices name hv hkids
          | none => cases hn
      | _ => cases hn
  | hollow => exact safe_matrix (fun k hk => nomatch hk) rfl
  | @matrix width height cells _ _ hlen _ _ ih =>
      rw [evaluate]
      refine safe_matrix (safeKids_operands ih) ?_
      rw [length_operands, hlen]
  | indexed _ _ _ ih ihIndices =>
      rw [evaluate]
      exact .bind ih fun _ hv =>
        safe_indices _ hv (safeKids_operands ihIndices)
  | unit _ ih => exact safe_unitBlock _ _ ih
  | unary hop _ ih => exact safe_unary hop ih
  | binary hop _ _ ihl ihr => exact safe_binary hop ihl ihr
  | @assign name _ _ ih =>
      exact safe_assignment name (evaluate lim (.leaf (.variable name))) ih
  | oneBranch _ _ ihc ihb => exact safe_oneBranch ihc ihb
  | twoBranches _ _ _ _ ihc ihb iho => exact safe_twoBranches ihc ihb iho
  | whileLoop _ _ ihc ihb => exact safe_while ihc ihb
  | @forLoop name _ _ _ _ ihm ihb =>
      exact safe_for name (evaluate lim (.leaf (.variable name))) ihm ihb

-- ================================================================ runs

/-- A text that is a program evaluates safely, and any other says why it
is none. -/
theorem safe_run (lim : Limits) (source : String) :
    Safe Value.Full (run lim source) := by
  rw [run_eq_bind]
  cases h : parse source with
  | error e => exact .fail (mild_parse source e h)
  | ok t =>
      show Safe Value.Full (evaluate lim t)
      obtain ⟨tokens, -, htree⟩ := bind_eq_ok.mp h
      cases hparse : Tree.parse tokens with
      | error e => rw [hparse] at htree; cases htree
      | ok u =>
          rw [hparse] at htree
          cases htree
          -- an empty program is the one tree that is not formed
          rcases Tree.eq_empty_or_formed hparse with rfl | hformed
          · exact .pure .void
          · exact safe_evaluate hformed

/-- The variables as a program leaves them, however it ends. -/
def leftBy (lim : Limits) (env : Environment) (source : String) :
    Environment :=
  match run lim source { env := env } with
  | .ok _ s => s.env
  | .error _ s => s.env

/-- The variables after programs that were run one after another, each
under its own limits. -/
def leftByAll (programs : List (Limits × String)) : Environment :=
  programs.foldl (fun env p => leftBy p.1 env p.2) {}

/-- A program leaves no broken matrix behind. -/
theorem Sound.leftBy {env : Environment} (h : Sound env) (source : String) :
    Sound (leftBy lim env source) := by
  have hends := (safe_run lim source).ends { env := env } h
  unfold Program.leftBy
  split
  · next heq => rw [heq] at hends; exact hends.2
  · next heq => rw [heq] at hends; exact hends.2

theorem sound_leftByAll (programs : List (Limits × String)) :
    Sound (leftByAll programs) := by
  suffices ∀ env, Sound env →
      Sound (programs.foldl (fun env p => Program.leftBy p.1 env p.2) env) from
    this {} sound_empty
  induction programs with
  | nil => intro env h; exact h
  | cons p programs ih => intro env h; exact ih _ (h.leftBy p.2)

/-- Whatever programs ran before on the same variables, and however they
ended, the next one meets no internal failure, nor does writing down its
value. -/
theorem run_not_internal (lim : Limits) (earlier : List (Limits × String))
    (source : String) :
    match run lim source { env := leftByAll earlier } with
    | .ok v _ => Mild v.render
    | .error stop _ => ¬ stop.IsInternal := by
  have hends := (safe_run lim source).ends { env := leftByAll earlier }
    (sound_leftByAll earlier)
  split
  · next heq => rw [heq] at hends; exact hends.1.mild_render
  · next heq => rw [heq] at hends; exact hends.1

end Metrology.Program
