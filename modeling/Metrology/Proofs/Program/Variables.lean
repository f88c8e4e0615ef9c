/-
Which variables a program has to do with. `names` lists the variables
that a tree mentions: those it reads, by name, by index or in a place of
a template, and those it assigns to. `targets` lists the latter alone:
what stands before `=`, and the index of a loop over a matrix. Both are
read off the nodes, and everything that an evaluation does to variables
is among them (`Does.mem_names_of_read`, `Does.mem_targets`).

Two facts follow, each by its relation between runs. An evaluation
depends on no variable but those mentioned: started with variables that
agree on them, it does the same and leaves variables that agree. And it
changes no variable but its targets, nor does it unbind one, however it
ends. Failures are no special case, since a relation speaks of both ways
in which an action may end.
-/
import Metrology.Proofs.Program.Effects

namespace Metrology.Program

variable {α β : Type}

-- ====================================================== names of a tree

/-- The variables that a node assigns to. -/
def targetsAt : Node → List Tree → List String
  | .operator .assign, [target, _] =>
      match target.node with
      | .variable name => [name]
      | _ => []
  | .operator .forLoop, [index, _, _] => index.node.name?.toList
  | _, _ => []

/-- The name in a place of a template, if there is one. -/
def Part.name? : Part → Option String
  | .place content =>
      if Text.isName (placeName content) then some (placeName content)
      else none
  | _ => none

/-- The variables that a node looks up. -/
def readsAt : Node → List String
  | .variable name => [name]
  | .index (some name) => [name]
  | .template text => (parts text).filterMap Part.name?
  | _ => []

/-- The variables that a node mentions. -/
def namesAt (n : Node) (cs : List Tree) : List String :=
  readsAt n ++ targetsAt n cs

mutual

/-- What is found at the nodes of a tree. -/
def gather (f : Node → List Tree → List String) : Tree → List String
  | .mk n cs => f n cs ++ gatherAll f cs

/-- What is found at the nodes of some trees. -/
def gatherAll (f : Node → List Tree → List String) :
    List Tree → List String
  | [] => []
  | t :: ts => gather f t ++ gatherAll f ts

end

/-- The variables that a tree mentions. -/
def names (t : Tree) : List String := gather namesAt t

/-- The variables that a tree assigns to. -/
def targets (t : Tree) : List String := gather targetsAt t

section Gathering

variable {f : Node → List Tree → List String} {n : Node} {cs : List Tree}
  {c t : Tree} {name : String}

/-- What is found at the root is found in the tree. -/
theorem mem_gather_of_mem (h : name ∈ f n cs) :
    name ∈ gather f (.mk n cs) := by
  rw [gather]
  exact List.mem_append_left _ h

/-- What is found in one of the trees is found in all of them. -/
theorem mem_gatherAll (hc : c ∈ cs) (h : name ∈ gather f c) :
    name ∈ gatherAll f cs := by
  induction cs with
  | nil => cases hc
  | cons t ts ih =>
      rw [gatherAll]
      rcases List.mem_cons.mp hc with rfl | hc
      · exact List.mem_append_left _ h
      · exact List.mem_append_right _ (ih hc)

/-- What is found in a child is found in the tree. -/
theorem mem_gather_of_child (hc : c ∈ cs) (h : name ∈ gather f c) :
    name ∈ gather f (.mk n cs) := by
  rw [gather]
  exact List.mem_append_right _ (mem_gatherAll hc h)

/-- A place with a name in it looks that name up. -/
theorem mem_readsAt_of_place {text content : String}
    (hplace : .place content ∈ parts text)
    (hname : Text.isName (placeName content) = true) :
    placeName content ∈ readsAt (.template text) := by
  refine List.mem_filterMap.mpr ⟨_, hplace, ?_⟩
  simp only [Part.name?, if_pos hname]

/-- A variable that is looked up is mentioned. -/
theorem mem_names_of_mem_readsAt (h : name ∈ readsAt n) :
    name ∈ names (.mk n cs) :=
  mem_gather_of_mem (List.mem_append_left _ h)

/-- A variable that an evaluation looks up is mentioned in the tree. -/
theorem Does.mem_names_of_read {effect : Effect} (h : Does t effect) :
    ∀ {name : String}, effect = .read name → name ∈ names t := by
  induction h with
  | name =>
      rintro _ ⟨⟩
      exact mem_names_of_mem_readsAt (List.mem_singleton_self _)
  | indexed =>
      rintro _ ⟨⟩
      exact mem_names_of_mem_readsAt (List.mem_singleton_self _)
  | place hplace hname =>
      intro name heq
      rw [← Effect.read.inj heq]
      exact mem_names_of_mem_readsAt (mem_readsAt_of_place hplace hname)
  | inside hc _ ih =>
      intro name heq
      exact mem_gather_of_child hc (ih heq)
  | _ => rintro _ ⟨⟩

/-- A variable that an evaluation assigns to is a target of the tree. -/
theorem Does.mem_targets {effect : Effect} (h : Does t effect) :
    ∀ {name : String}, effect = .assign name → name ∈ targets t := by
  induction h with
  | target htarget =>
      rintro _ ⟨⟩
      refine mem_gather_of_mem ?_
      simp only [targetsAt, htarget]
      exact List.mem_singleton_self _
  | counter hindex =>
      rintro _ ⟨⟩
      refine mem_gather_of_mem ?_
      simp only [targetsAt, hindex]
      exact List.mem_singleton_self _
  | inside hc _ ih =>
      intro name heq
      exact mem_gather_of_child hc (ih heq)
  | _ => rintro _ ⟨⟩

end Gathering

-- ================================================== variables that agree

section Agreement

variable {known : String → Prop} {s s' : State}

/-- The states have the same output, and variables that agree on the
names. -/
structure Agree (known : String → Prop) (s s' : State) : Prop where
  output : s.output = s'.output
  get? : ∀ name, known name → s.env.get? name = s'.env.get? name

/-- The runs end alike: with the same result or for the same reason, with
the same output and with variables that agree on the names. -/
inductive EndAlike (known : String → Prop) :
    EStateM.Result Stop State α → EStateM.Result Stop State α → Prop
  | ok {a : α} {s s' : State} :
      Agree known s s' → EndAlike known (.ok a s) (.ok a s')
  | error {stop : Stop} {s s' : State} :
      Agree known s s' → EndAlike known (.error stop s) (.error stop s')

/-- From states that agree the actions end alike. -/
def Alike (known : String → Prop) : Relation := fun _ x y =>
  ∀ s s', Agree known s s' → EndAlike known (x s) (y s')

/-- They still agree after the same assignment. -/
theorem Agree.set (h : Agree known s s') (name : String) (v : Value) :
    Agree known { s with env := s.env.set name v }
      { s' with env := s'.env.set name v } := by
  refine ⟨h.output, fun other hother => ?_⟩
  rw [Environment.get?_set, Environment.get?_set, h.get? other hother]

theorem Agree.write (h : Agree known s s') (text : String) :
    Agree known { s with output := s.output ++ text }
      { s' with output := s'.output ++ text } := by
  refine ⟨?_, h.get?⟩
  show s.output ++ text = s'.output ++ text
  rw [h.output]

/-- An action that ends alike leaves states that agree for the next one. -/
theorem Alike.bind {x y : Action α} {f g : α → Action β}
    (hx : Alike known α x y) (hf : ∀ a, Alike known β (f a) (g a)) :
    Alike known β (x >>= f) (y >>= g) := by
  intro s s' h
  have hends := hx s s' h
  cases hxs : x s with
  | ok a t =>
      rw [hxs] at hends
      rw [bind_of_ok hxs]
      -- alike, so neither ends without the other
      cases hys : y s' with
      | ok b t' =>
          rw [hys] at hends
          rw [bind_of_ok hys]
          cases hends with
          | ok hagree => exact hf a t t' hagree
      | error stop t' => rw [hys] at hends; cases hends
  | error stop t =>
      rw [hxs] at hends
      rw [bind_of_error hxs]
      cases hys : y s' with
      | ok b t' => rw [hys] at hends; cases hends
      | error stop' t' =>
          rw [hys] at hends
          rw [bind_of_error hys]
          cases hends with
          | error hagree => exact .error hagree

/-- A variable is looked up in the same way wherever it has the same
value. -/
theorem alike_lookup {name : String} (hname : known name) :
    Alike known Value (lookup name) (lookup name) := by
  intro s s' h
  have hget : ∀ u : State, (get : Action State) u = .ok u u := fun _ => rfl
  unfold lookup
  rw [bind_of_ok (hget s), bind_of_ok (hget s'), h.get? name hname]
  cases s'.env.get? name with
  | some v => exact .ok h
  | none => exact .error h

/-- Only looking up shows a variable, so the names looked up are those that
have to agree. -/
theorem stepwise_alike : Stepwise
    (fun effect => ∀ name, effect = .read name → known name)
    (Alike known) where
  pure _ _ _ h := .ok h
  bind := Alike.bind
  fail _ _ _ h := .error h
  lookup hread := alike_lookup (hread _ rfl)
  assign {name} v _ _ _ h := .ok (h.set name v)
  write text _ _ h := .ok (h.write text)

end Agreement

/-- Evaluation depends only on the variables that a tree mentions. Take
any names that include these. From variables that agree on the names,
bound or not, and with the same output so far, an evaluation gives the
same value or the same error, writes the same, and leaves variables that
agree on the names again. -/
theorem evaluate_alike_of_agree (lim : Limits) (t : Tree)
    (known : String → Prop) (hknown : ∀ name ∈ names t, known name)
    (s s' : State) (h : Agree known s s') :
    EndAlike known (evaluate lim t s) (evaluate lim t s') := by
  have hlock : Lockstep lim lim _ (Alike known) :=
    stepwise_alike.lockstep nofun fun _ _ h => .error h
  refine hlock.evaluate t (fun effect hdoes name heq => ?_) s s' h
  exact hknown name (hdoes.mem_names_of_read heq)

/-- `{x = y; "{x}"}` -/
def copyAndShow : Tree :=
  .mk .block
    [ .mk (.operator .assign)
        [.leaf (.variable "x"), .leaf (.variable "y")],
      .leaf (.template "\x7bx\x7d") ]

/-- Whether `z` is bound makes no difference to a program without it, which
runs to its end and copies the value of `y`. -/
theorem evaluate_alike_of_agree_copyAndShow :
    names copyAndShow = ["x", "x", "y", "x"]
    ∧ (∃ s s', evaluate ⟨none, 0⟩ copyAndShow
          { env := ⟨[("y", .text "a"), ("z", .void)]⟩ } = .ok (.text "a") s
        ∧ evaluate ⟨none, 0⟩ copyAndShow { env := ⟨[("y", .text "a")]⟩ }
          = .ok (.text "a") s'
        ∧ s.env.get? "x" = some (.text "a")
        ∧ Agree (fun name => name ≠ "z") s s') := by
  have hnames : names copyAndShow = ["x", "x", "y", "x"] := by
    decide +kernel
  have hagree : Agree (fun name => name ≠ "z")
      { env := ⟨[("y", .text "a"), ("z", .void)]⟩ }
      { env := ⟨[("y", .text "a")]⟩ } := by
    refine ⟨rfl, fun name hname => ?_⟩
    show [("y", Value.text "a"), ("z", .void)].lookup name
      = [("y", Value.text "a")].lookup name
    -- only the entry of `z` tells the variables apart
    rw [List.lookup_cons, List.lookup_cons, List.lookup_cons,
      beq_false_of_ne hname]
  have halike := evaluate_alike_of_agree ⟨none, 0⟩ copyAndShow _
    (by rw [hnames]; decide) _ _ hagree
  refine ⟨hnames, _, _, rfl, rfl, rfl, ?_⟩
  cases halike with
  | ok h => exact h

-- ============================================ variables that are changed

/-- The state in which an action ends, however it ends. -/
def stateAfter : EStateM.Result Stop State α → State
  | .ok _ s => s
  | .error _ s => s

/-- From one state to the other only these variables have changed, and
none has lost its value. -/
structure Keeps (changed : String → Prop) (s s' : State) : Prop where
  same : ∀ name, ¬ changed name → s'.env.get? name = s.env.get? name
  bound : ∀ name, s.env.get? name ≠ none → s'.env.get? name ≠ none

section Frame

variable {changed : String → Prop} {s s' s'' : State}

/-- Nothing has changed. -/
theorem Keeps.refl (s : State) : Keeps changed s s :=
  ⟨fun _ _ => rfl, fun _ h => h⟩

/-- What neither step changes, both do not. -/
theorem Keeps.trans (h : Keeps changed s s') (h' : Keeps changed s' s'') :
    Keeps changed s s'' where
  same name hname := (h'.same name hname).trans (h.same name hname)
  bound name hname := h'.bound name (h.bound name hname)

/-- An assignment changes its own variable. -/
theorem Keeps.set {name : String} (hname : changed name) (s : State)
    (v : Value) : Keeps changed s { s with env := s.env.set name v } where
  same other hother := by
    have hne : other ≠ name := fun heq => hother (heq ▸ hname)
    rw [Environment.get?_set, if_neg hne]
  bound other hother := by
    rw [Environment.get?_set]
    by_cases heq : other = name
    · rw [if_pos heq]
      exact Option.some_ne_none v
    · rw [if_neg heq]
      exact hother

/-- However it ends, the action changes only these variables. -/
def ChangesOnly (changed : String → Prop) : Relation := fun _ x _ =>
  ∀ s, Keeps changed s (stateAfter (x s))

/-- A sequence changes what its parts do. -/
theorem ChangesOnly.bind {x y : Action α} {f g : α → Action β}
    (hx : ChangesOnly changed α x y)
    (hf : ∀ a, ChangesOnly changed β (f a) (g a)) :
    ChangesOnly changed β (x >>= f) (y >>= g) := by
  intro s
  have hkeeps := hx s
  cases hxs : x s with
  | ok a t =>
      rw [hxs] at hkeeps
      rw [bind_of_ok hxs]
      exact hkeeps.trans (hf a t)
  | error stop t =>
      rw [hxs] at hkeeps
      rw [bind_of_error hxs]
      exact hkeeps

/-- Only an assignment changes anything. -/
theorem stepwise_changesOnly : Stepwise
    (fun effect => ∀ name, effect = .assign name → changed name)
    (ChangesOnly changed) where
  pure _ s := .refl s
  bind := ChangesOnly.bind
  fail _ s := .refl s
  lookup {name} _ := by
    have hget : ChangesOnly changed State get get := .refl
    refine hget.bind fun s => ?_
    split
    · exact .refl
    · exact .refl
  assign v hassign s := .set (hassign _ rfl) s v
  write _ s := ⟨fun _ _ => rfl, fun _ h => h⟩

end Frame

/-- Only assignment and loops over a matrix write variables. However the
evaluation of a tree ends, a name that is no target of the tree is bound
as before, or as unbound as before; and no name has lost its binding. -/
theorem evaluate_changes_only_targets (lim : Limits) (t : Tree) (s : State)
    (name : String) :
    (name ∉ targets t →
      (stateAfter (evaluate lim t s)).env.get? name = s.env.get? name)
    ∧ (s.env.get? name ≠ none →
      (stateAfter (evaluate lim t s)).env.get? name ≠ none) := by
  have hlock : Lockstep lim lim _ (ChangesOnly (· ∈ targets t)) :=
    stepwise_changesOnly.lockstep nofun .refl
  have hkeeps := hlock.evaluate t
    (fun _ hdoes _ heq => hdoes.mem_targets heq) s
  exact ⟨hkeeps.same name, hkeeps.bound name⟩

/-- The program `copyAndShow` changes `x`, which stays bound, but neither
`y` nor `z`. -/
theorem evaluate_changes_only_targets_copyAndShow :
    let before : State := { env := ⟨[("x", .void), ("y", .text "a")]⟩ }
    let after := stateAfter (evaluate ⟨none, 0⟩ copyAndShow before)
    targets copyAndShow = ["x"] ∧ after.env.get? "x" = some (.text "a")
      ∧ after.env.get? "x" ≠ none ∧ after.env.get? "y" = some (.text "a")
      ∧ after.env.get? "z" = none := by
  have htargets : targets copyAndShow = ["x"] := by decide +kernel
  have honly := evaluate_changes_only_targets ⟨none, 0⟩ copyAndShow
    { env := ⟨[("x", .void), ("y", .text "a")]⟩ }
  have hnot : ∀ name, name ≠ "x" → name ∉ targets copyAndShow := by
    intro name hname
    rw [htargets]
    exact fun hmem => hname (List.mem_singleton.mp hmem)
  exact ⟨htargets, rfl, (honly "x").2 nofun,
    (honly "y").1 (hnot "y" (by decide)), (honly "z").1 (hnot "z" (by decide))⟩

end Metrology.Program
