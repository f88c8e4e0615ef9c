/-
A cap makes every program halt. Loops with a condition are not bounded by
anything in the language, and what bounds them here, the turns that come
with a run, must not be what ends them. So a loop's execution is first
told without turns, as a finite derivation with one step per iteration
(`WhileRun`, `ForRun`), which also counts how often condition and body
are evaluated.

Under a cap three things hold. The counts of every execution are bounded
by the cap, because an iteration passes the check only while fewer
results than the cap are there. Every execution comes to an end: the
turns given to a loop are one more than the cap allows, so the derivation
is complete before they run out, and what the loop gives is what the
derivation says. And since no loop uses its turns up, neither does any
program, by the induction over trees that `Lockstep` packs.
-/
import Metrology.Proofs.Program.Effects
import Metrology.Proofs.Program.Full

namespace Metrology.Program

variable {α β : Type} {lim : Limits} {n : Int}

-- ================================================== executions of loops

section Executions

variable (lim : Limits) (condition : Action Bool)
  (binding : Value → Action Unit) (body : Action Value)

/-- One execution of a loop with a condition, from the results so far
(last first) and a state on: how often it evaluates its condition and its
body, and how it ends. -/
inductive WhileRun : (results : List Value) → State →
    (conditions bodies : Nat) →
    EStateM.Result Stop State (List Value) → Prop
  /-- The condition gives no answer. -/
  | undecided {results : List Value} {s s' : State} {stop : Stop} :
      condition s = .error stop s' →
      WhileRun results s 1 0 (.error stop s')
  | done {results : List Value} {s s' : State} :
      condition s = .ok false s' →
      WhileRun results s 1 0 (.ok results.reverse s')
  | capped {results : List Value} {s s' : State} {stop : Stop} :
      condition s = .ok true s' →
      checkIterations lim "while" results.length s' = .error stop s' →
      WhileRun results s 1 0 (.error stop s')
  /-- The body stops the loop. -/
  | broken {results : List Value} {s s' s'' : State} {stop : Stop} :
      condition s = .ok true s' →
      checkIterations lim "while" results.length s' = .ok () s' →
      body s' = .error stop s'' →
      WhileRun results s 1 1 (.error stop s'')
  | turn {results : List Value} {s s' s'' : State} {v : Value}
      {conditions bodies : Nat}
      {r : EStateM.Result Stop State (List Value)} :
      condition s = .ok true s' →
      checkIterations lim "while" results.length s' = .ok () s' →
      body s' = .ok v s'' →
      WhileRun (v :: results) s'' conditions bodies r →
      WhileRun results s (conditions + 1) (bodies + 1) r

/-- One execution of a loop over cells, from the cells still to visit,
the results so far (last first) and a state on: how often it evaluates
its body, and how it ends. -/
inductive ForRun : (cells results : List Value) → State →
    (bodies : Nat) → EStateM.Result Stop State (List Value) → Prop
  | done {results : List Value} {s : State} :
      ForRun [] results s 0 (.ok results.reverse s)
  | capped {c : Value} {cells results : List Value} {s : State}
      {stop : Stop} :
      checkIterations lim "for" results.length s = .error stop s →
      ForRun (c :: cells) results s 0 (.error stop s)
  /-- The index cannot be bound. -/
  | unbound {c : Value} {cells results : List Value} {s s' : State}
      {stop : Stop} :
      checkIterations lim "for" results.length s = .ok () s →
      binding c s = .error stop s' →
      ForRun (c :: cells) results s 0 (.error stop s')
  /-- The body stops the loop. -/
  | broken {c : Value} {cells results : List Value} {s s' s'' : State}
      {stop : Stop} :
      checkIterations lim "for" results.length s = .ok () s →
      binding c s = .ok () s' → body s' = .error stop s'' →
      ForRun (c :: cells) results s 1 (.error stop s'')
  | turn {c : Value} {cells results : List Value} {s s' s'' : State}
      {v : Value} {bodies : Nat}
      {r : EStateM.Result Stop State (List Value)} :
      checkIterations lim "for" results.length s = .ok () s →
      binding c s = .ok () s' → body s' = .ok v s'' →
      ForRun cells (v :: results) s'' bodies r →
      ForRun (c :: cells) results s (bodies + 1) r

end Executions

-- =============================================================== checks

/-- A check stops a loop or lets it pass, and changes nothing. -/
theorem checkIterations_cases (lim : Limits) (loop : String) (count : Nat)
    (s : State) :
    (∃ e, checkIterations lim loop count s = .error (.failed e) s)
      ∨ checkIterations lim loop count s = .ok () s := by
  unfold checkIterations
  cases lim.iterations with
  | none => exact .inr rfl
  | some m =>
      by_cases hcount : m ≤ (count : Int)
      · simp only [if_pos hcount]
        exact .inl ⟨_, rfl⟩
      · simp only [if_neg hcount]
        exact .inr rfl

/-- What a cap lets pass has done fewer iterations. -/
theorem lt_of_checkIterations (hcap : lim.iterations = some n)
    {loop : String} {count : Nat} {s s' : State}
    (h : checkIterations lim loop count s = .ok () s') : count < n.toNat := by
  unfold checkIterations at h
  rw [hcap] at h
  by_cases hcount : n ≤ (count : Int)
  · simp only [if_pos hcount] at h
    cases h
  · omega

-- =============================================================== counts

variable {condition : Action Bool} {binding : Value → Action Unit}
  {body : Action Value} {results cells : List Value} {s : State}
  {conditions bodies : Nat} {r : EStateM.Result Stop State (List Value)}

/-- The body adds a result each time but the last, and the condition is
asked once more than the body is evaluated. -/
theorem WhileRun.bounded (h : WhileRun lim condition body results s
      conditions bodies r) (hcap : lim.iterations = some n) :
    (bodies = 0 ∨ results.length + bodies ≤ n.toNat)
      ∧ conditions ≤ bodies + 1 := by
  induction h with
  | undecided _ => exact ⟨.inl rfl, Nat.le_refl _⟩
  | done _ => exact ⟨.inl rfl, Nat.le_refl _⟩
  | capped _ _ => exact ⟨.inl rfl, Nat.le_refl _⟩
  | broken _ hcheck _ =>
      have hlt := lt_of_checkIterations hcap hcheck
      exact ⟨.inr hlt, by omega⟩
  | turn _ hcheck _ _ ih =>
      have hlt := lt_of_checkIterations hcap hcheck
      obtain ⟨hbodies, hconditions⟩ := ih
      rw [List.length_cons] at hbodies
      constructor
      · right
        omega
      · omega

/-- The body of a loop over cells is evaluated once per cell at most. -/
theorem ForRun.bounded (h : ForRun lim binding body cells results s bodies r)
    (hcap : lim.iterations = some n) :
    (bodies = 0 ∨ results.length + bodies ≤ n.toNat)
      ∧ bodies ≤ cells.length := by
  induction h with
  | done => exact ⟨.inl rfl, Nat.zero_le _⟩
  | capped _ => exact ⟨.inl rfl, Nat.zero_le _⟩
  | unbound _ _ => exact ⟨.inl rfl, Nat.zero_le _⟩
  | broken hcheck _ _ =>
      have hlt := lt_of_checkIterations hcap hcheck
      exact ⟨.inr hlt, by simp⟩
  | turn hcheck _ _ _ ih =>
      have hlt := lt_of_checkIterations hcap hcheck
      obtain ⟨hbodies, hcells⟩ := ih
      rw [List.length_cons] at hbodies ⊢
      constructor
      · right
        omega
      · omega

-- ======================================================= runs to the end

/-- What a loop does in one turn, whatever comes after it. -/
theorem exists_whileRun_of_turn {turns : Nat}
    (hnext : ∀ (v : Value) (s' s'' : State),
      checkIterations lim "while" results.length s' = .ok () s' →
      ∃ conditions bodies, WhileRun lim condition body (v :: results) s''
        conditions bodies (repeatWhile lim condition body turns
          (results.length + 1) (v :: results) s'')) :
    ∃ conditions bodies, WhileRun lim condition body results s conditions
      bodies (repeatWhile lim condition body (turns + 1) results.length
        results s) := by
  rw [repeatWhile]
  -- a turn may end at its condition, at the cap or in its body
  cases hcondition : condition s with
  | error stop s' =>
      rw [bind_of_error hcondition]
      exact ⟨1, 0, .undecided hcondition⟩
  | ok holds s' =>
      rw [bind_of_ok hcondition]
      cases holds with
      | false => exact ⟨1, 0, .done hcondition⟩
      | true =>
          rw [if_pos rfl]
          rcases checkIterations_cases lim "while" results.length s' with
            ⟨e, hcheck⟩ | hcheck
          · rw [bind_of_error hcheck]
            exact ⟨1, 0, .capped hcondition hcheck⟩
          · rw [bind_of_ok hcheck]
            cases hbody : body s' with
            | error stop s'' =>
                rw [bind_of_error hbody]
                exact ⟨1, 1, .broken hcondition hcheck hbody⟩
            | ok v s'' =>
                rw [bind_of_ok hbody]
                obtain ⟨conditions, bodies, hrun⟩ := hnext v s' s'' hcheck
                exact ⟨conditions + 1, bodies + 1,
                  .turn hcondition hcheck hbody hrun⟩

/-- With a turn for every iteration that the cap still allows, and one
for the condition that ends the loop, an execution is complete. -/
theorem exists_whileRun (hcap : lim.iterations = some n)
    (condition : Action Bool) (body : Action Value) :
    ∀ (turns : Nat) (results : List Value) (s : State),
      turns + results.length = n.toNat →
      ∃ conditions bodies, WhileRun lim condition body results s conditions
        bodies (repeatWhile lim condition body (turns + 1) results.length
          results s) := by
  intro turns
  induction turns with
  | zero =>
      intro results s hsum
      refine exists_whileRun_of_turn fun v s' s'' hcheck => ?_
      -- as many results as the cap allows, so the check does not pass
      have hlt := lt_of_checkIterations hcap hcheck
      omega
  | succ turns ih =>
      intro results s hsum
      refine exists_whileRun_of_turn fun v s' s'' _ => ?_
      refine ih (v :: results) s'' ?_
      rw [List.length_cons]
      omega

/-- A loop over cells goes as its execution tells. -/
theorem exists_forRun (lim : Limits) (binding : Value → Action Unit)
    (body : Action Value) :
    ∀ (cells results : List Value) (s : State),
      ∃ bodies, ForRun lim binding body cells results s bodies
        (repeatFor lim binding body results.length cells results s) := by
  intro cells
  induction cells with
  | nil => intro results s; exact ⟨0, .done⟩
  | cons c cells ih =>
      intro results s
      rw [repeatFor]
      -- a turn may end at the cap, at the index or in its body
      rcases checkIterations_cases lim "for" results.length s with
        ⟨e, hcheck⟩ | hcheck
      · rw [bind_of_error hcheck]
        exact ⟨0, .capped hcheck⟩
      · rw [bind_of_ok hcheck]
        cases hbinding : binding c s with
        | error stop s' =>
            rw [bind_of_error hbinding]
            exact ⟨0, .unbound hcheck hbinding⟩
        | ok _ s' =>
            rw [bind_of_ok hbinding]
            cases hbody : body s' with
            | error stop s'' =>
                rw [bind_of_error hbody]
                exact ⟨1, .broken hcheck hbinding hbody⟩
            | ok v s'' =>
                rw [bind_of_ok hbody]
                obtain ⟨bodies, hrun⟩ := ih (v :: results) s''
                exact ⟨bodies + 1, .turn hcheck hbinding hbody hrun⟩

-- ================================================= nothing is exhausted

/-- The action never ends because turns ran out. -/
def Finishes : Relation := fun _ x _ =>
  ∀ s s', x s ≠ .error .exhausted s'

/-- A sequence uses turns up only in its parts. -/
theorem Finishes.bind {x y : Action α} {f g : α → Action β}
    (hx : Finishes α x y) (hf : ∀ a, Finishes β (f a) (g a)) :
    Finishes β (x >>= f) (y >>= g) := by
  intro s s' h
  cases hxs : x s with
  | ok a t =>
      rw [bind_of_ok hxs] at h
      exact hf a t s' h
  | error stop t =>
      rw [bind_of_error hxs] at h
      cases h
      exact hx s s' hxs

/-- No basic action uses turns. -/
theorem stepwise_finishes : Stepwise (fun _ => True) Finishes where
  pure _ _ _ h := by cases h
  bind := Finishes.bind
  fail _ _ _ h := by cases h
  lookup {name} _ := by
    have hget : Finishes State get get := fun _ _ h => by cases h
    refine hget.bind fun s => ?_
    split
    · exact fun _ _ h => by cases h
    · exact fun _ _ h => by cases h
  assign _ _ _ _ h := by cases h
  write _ _ _ h := by cases h

/-- An execution ends for a reason of its own, if its parts do. -/
theorem WhileRun.ne_exhausted (h : WhileRun lim condition body results s
      conditions bodies r) (hcondition : Finishes Bool condition condition)
    (hbody : Finishes Value body body) (s' : State) :
    r ≠ .error .exhausted s' := by
  induction h with
  | undecided hstop => rintro ⟨⟩; exact hcondition _ _ hstop
  | done _ => rintro ⟨⟩
  | @capped results t t' stop _ hcheck =>
      rintro ⟨⟩
      rcases checkIterations_cases lim "while" results.length s' with
        ⟨e, he⟩ | hok
      · rw [he] at hcheck
        cases hcheck
      · rw [hok] at hcheck
        cases hcheck
  | broken _ _ hstop => rintro ⟨⟩; exact hbody _ _ hstop
  | turn _ _ _ _ ih => exact ih

/-- Under a cap no loop, and so no program, uses its turns up. -/
theorem lockstep_finishes (hcap : lim.iterations = some n) :
    Lockstep lim lim (fun _ => True) Finishes where
  toStepwise := stepwise_finishes
  whileLoop {condition _ body _} hcondition hbody := by
    intro s s'
    obtain ⟨_, _, hrun⟩ := exists_whileRun hcap condition body n.toNat [] s rfl
    rw [turns_of_cap hcap]
    exact hrun.ne_exhausted hcondition hbody s'
  forLoop hbinding hbody cells :=
    stepwise_finishes.repeatFor (fun _ => trivial) hbinding hbody cells 0 []

-- ========================================================== loops of trees

/-- What comes of an end that is handed on to another action. -/
def handOn (r : EStateM.Result Stop State α) (f : α → Action β) :
    EStateM.Result Stop State β :=
  match r with
  | .ok a s => f a s
  | .error stop s => .error stop s

/-- Handing on is what a sequence does. -/
theorem handOn_eq_bind (x : Action α) (f : α → Action β) (s : State) :
    handOn (x s) f = (x >>= f) s := by
  cases h : x s with
  | ok a s' => rw [bind_of_ok h]; rfl
  | error stop s' => rw [bind_of_error h]; rfl

/-- The condition of a loop, evaluated once. -/
def holds (lim : Limits) (condition : Tree) : Action Bool := do
  let k : Operand := ⟨condition, evaluate lim condition⟩
  return (← k.number "while" "condition").isTrue

/-- An execution of the loop `while condition body` from a state on that
evaluates its condition and its body so often; the value is the column of
the results. -/
def WhileExecution (lim : Limits) (condition body : Tree) (s : State)
    (conditions bodies : Nat) : Prop :=
  ∃ r, WhileRun lim (holds lim condition) (evaluate lim body) [] s
      conditions bodies r
    ∧ evaluate lim (.mk (.operator .whileLoop) [condition, body]) s
      = handOn r fun results => pure (.matrix (.column results))

/-- An execution of the loop `for index in cells body` from a state on,
where the cells are those of a matrix, that evaluates its body so often;
the value has the shape of the matrix. -/
def ForExecution (lim : Limits) (index cells body : Tree) (s : State)
    (m : Matrix Value) (bodies : Nat) : Prop :=
  ∃ s' visited r, evaluate lim cells s = .ok (.matrix m) s'
    ∧ m.columns? = some visited
    ∧ ForRun lim (bindIndex index) (evaluate lim body) visited [] s'
        bodies r
    ∧ evaluate lim (.mk (.operator .forLoop) [index, cells, body]) s
      = handOn r fun results => do
          return .matrix (← require .cellCount
            (Matrix.ofColumns? m.width m.height results))

/-- Every loop with a condition has an execution. -/
theorem exists_whileExecution (hcap : lim.iterations = some n)
    (condition body : Tree) (s : State) :
    ∃ conditions bodies,
      WhileExecution lim condition body s conditions bodies := by
  obtain ⟨conditions, bodies, hrun⟩ := exists_whileRun hcap
    (holds lim condition) (evaluate lim body) n.toNat [] s rfl
  refine ⟨conditions, bodies, _, hrun, ?_⟩
  rw [handOn_eq_bind, ← turns_of_cap hcap, evaluate]
  rfl

theorem exists_forExecution (index cells body : Tree) {s s' : State}
    {m : Matrix Value} (hcells : evaluate lim cells s = .ok (.matrix m) s')
    (hfull : m.IsFull) : ∃ bodies,
      ForExecution lim index cells body s m bodies := by
  obtain ⟨visited, hvisited, -, -⟩ := hfull.columns?
  obtain ⟨bodies, hrun⟩ := exists_forRun lim (bindIndex index)
    (evaluate lim body) visited [] s'
  refine ⟨bodies, s', visited, _, hcells, hvisited, hrun, ?_⟩
  rw [handOn_eq_bind, evaluate]
  refine (bind_of_ok hcells).trans ?_
  show (require .cellCount m.columns? >>= _) s' = _
  rw [hvisited]
  rfl

/-- It visits no more cells than the cap allows, and no more than there
are. -/
theorem ForExecution.bounded {index cells body : Tree} {m : Matrix Value}
    (h : ForExecution lim index cells body s m bodies)
    (hcap : lim.iterations = some n) :
    bodies ≤ min n.toNat (m.width * m.height) := by
  obtain ⟨s', visited, r, -, hvisited, hrun, -⟩ := h
  obtain ⟨hcount, hcells⟩ := hrun.bounded hcap
  rw [List.length_nil] at hcount
  rw [Matrix.length_of_columns? hvisited] at hcells
  refine Nat.le_min.mpr ⟨?_, hcells⟩
  omega

/-- A loop with a condition goes on no longer than the cap allows. -/
theorem WhileExecution.bounded {condition body : Tree}
    (h : WhileExecution lim condition body s conditions bodies)
    (hcap : lim.iterations = some n) :
    bodies ≤ n.toNat ∧ conditions ≤ n.toNat + 1 := by
  obtain ⟨r, hrun, -⟩ := h
  obtain ⟨hcount, hconditions⟩ := hrun.bounded hcap
  rw [List.length_nil] at hcount
  omega

/-- Under a cap on iterations, the evaluation of every tree from every
state comes to an end. Each execution of a loop with a condition ends,
too, having evaluated its body at most as often as the cap says, and its
condition at most once more; each execution of a loop over a matrix
evaluates its body at most as often, and at most once per cell. A cap
below zero counts as zero. -/
theorem evaluate_halts_under_cap (n : Int) (patience : Nat) :
    (∀ t s s',
      evaluate ⟨some n, patience⟩ t s ≠ .error .exhausted s')
    ∧ (∀ condition body s,
      (∃ conditions bodies,
        WhileExecution ⟨some n, patience⟩ condition body s conditions bodies)
      ∧ ∀ conditions bodies,
        WhileExecution ⟨some n, patience⟩ condition body s conditions bodies →
        bodies ≤ n.toNat ∧ conditions ≤ n.toNat + 1)
    ∧ ∀ index cells body s s' m,
      evaluate ⟨some n, patience⟩ cells s = .ok (.matrix m) s' →
      (m.IsFull → ∃ bodies,
        ForExecution ⟨some n, patience⟩ index cells body s m bodies)
      ∧ ∀ bodies,
        ForExecution ⟨some n, patience⟩ index cells body s m bodies →
        bodies ≤ min n.toNat (m.width * m.height) := by
  refine ⟨?_, ?_, ?_⟩
  · intro t
    exact (lockstep_finishes rfl).evaluate t fun _ _ => trivial
  · intro condition body s
    refine ⟨exists_whileExecution rfl condition body s, ?_⟩
    exact fun conditions bodies h => h.bounded rfl
  · intro index cells body s s' m hcells
    refine ⟨exists_forExecution index cells body hcells, ?_⟩
    exact fun bodies h => h.bounded rfl

/-- Variables with a row of two cells. -/
def pairState : State :=
  { env := ⟨[("m", .matrix ⟨2, 1, [.void, .void]⟩)]⟩ }

/-- `for i in m {}` visits one of the two cells before the cap of
one is reached. -/
theorem evaluate_halts_under_cap_pair :
    evaluate ⟨some 1, 0⟩ (.leaf (.variable "m")) pairState
      = .ok (.matrix ⟨2, 1, [.void, .void]⟩) pairState
    ∧ ∃ bodies, ForExecution ⟨some 1, 0⟩ (.leaf (.variable "i"))
        (.leaf (.variable "m")) (.leaf .block) pairState
        ⟨2, 1, [.void, .void]⟩ bodies ∧ bodies ≤ 1 := by
  have hcells : evaluate ⟨some 1, 0⟩ (.leaf (.variable "m")) pairState
      = .ok (.matrix ⟨2, 1, [.void, .void]⟩) pairState := rfl
  obtain ⟨-, -, hfor⟩ := evaluate_halts_under_cap 1 0
  obtain ⟨hexists, hbound⟩ := hfor (.leaf (.variable "i"))
    (.leaf (.variable "m")) (.leaf .block) pairState pairState
    ⟨2, 1, [.void, .void]⟩ hcells
  obtain ⟨bodies, hrun⟩ := hexists rfl
  exact ⟨hcells, bodies, hrun, hbound bodies hrun⟩

end Metrology.Program
