/-
Programs in a session. However much a session shows of the stages of a
program, its tokens, its tree or its timings, running the program in the
session is running it on the session's variables: the result is the same,
and so are the variables afterwards. `runSource_eq` says so exactly, with
all that is shown on the way; what is shown is the only part in which the
settings, the limits apart, have a say.
-/
import Metrology.CommandLine.Shell
import Metrology.Proofs.Sequence
import Metrology.Proofs.Program.Variables

namespace Metrology.CommandLine

open Program (Limits Stop State stateAfter bind_of_ok bind_of_error)

/-- How a run of a program ends. -/
abbrev Outcome := EStateM.Result Stop State Value

-- ============================================================== showing

/-- A line of markup as it is shown. -/
def lineOf (markup : String) : String := Console.shown markup ++ "\n"

/-- The session after it has shown a text. -/
def Session.showing (s : Session) (text : String) : Session :=
  { s with shown := s.shown ++ text }

/-- Texts shown one after the other are one text. -/
@[simp] theorem Session.showing_append (s : Session) (a b : String) :
    (s.showing a).showing b = s.showing (a ++ b) := by
  simp [Session.showing, String.append_assoc]

/-- Showing nothing changes nothing. -/
@[simp] theorem Session.showing_empty (s : Session) : s.showing "" = s := by
  simp [Session.showing]

/-- Behind a text the session goes on with the text shown. -/
theorem put_bind {α : Type} (text : String) (f : Unit → Shell α)
    (s : Session) : (put text >>= f) s = f () (s.showing text) := rfl

/-- Behind a line of markup the session goes on with the line shown. -/
theorem say_bind {α : Type} (markup : String) (f : Unit → Shell α)
    (s : Session) :
    (say markup >>= f) s = f () (s.showing (lineOf markup)) := rfl

-- ============================================================= programs

/-- The session after a program that ended so, with the text it and its
stages have shown. -/
def Session.past (s : Session) (r : Outcome) (text : String) : Session :=
  { s with env := (stateAfter r).env, shown := s.shown ++ text }

/-- The end of a run as a session has it. -/
def conveyed (s : Session) (text : String) (r : Outcome) :
    EStateM.Result Fatal Session (Except Error Value) :=
  match r with
  | .ok v _ => .ok (.ok v) (s.past r text)
  | .error (.failed e) _ => .ok (.error e) (s.past r text)
  | .error .exhausted _ => .error .exhausted (s.past r text)

/-- What is shown of the tokens, if the program has any. -/
def tokensShown (s : Session) (source : String) : String :=
  match Token.scan source with
  | .ok tokens =>
      if s.settings.showTokens then lineOf (tokensLine tokens) else ""
  | .error _ => ""

/-- What is shown of the tree, if the program has one. -/
def treeShown (s : Session) (source : String) : String :=
  match Program.parse source with
  | .ok t => if s.settings.showTree then Console.drawing t else ""
  | .error _ => ""

/-- What is shown of the timings of a run that succeeds. -/
def timingsShown (s : Session) : Outcome → String
  | .ok _ _ =>
      if s.settings.showTime then lineOf (timingsLine s.timings) else ""
  | .error _ _ => ""

/-- All that is shown while a program runs, its own output included. -/
def stages (s : Session) (source : String) (r : Outcome) : String :=
  tokensShown s source ++ treeShown s source ++ (stateAfter r).output
    ++ timingsShown s r

/-- Asking for the session leaves it as it is. -/
@[simp] theorem get_bind {α : Type} (f : Session → Shell α) (s : Session) :
    (MonadState.get >>= f) s = f s s := rfl

/-- What is shown behind a run belongs to what the run has shown. -/
@[simp] theorem Session.past_showing (s : Session) (r : Outcome)
    (a b : String) :
    (s.past r a).showing b = s.past r (a ++ b) := by
  simp [Session.past, Session.showing, String.append_assoc]

/-- What is shown before a run belongs to what the run shows. -/
theorem conveyed_showing (s : Session) (a b : String) (r : Outcome) :
    conveyed (s.showing a) b r = conveyed s (a ++ b) r := by
  have hpast : (s.showing a).past r b = s.past r (a ++ b) := by
    simp [Session.past, Session.showing, String.append_assoc]
  unfold conveyed
  rw [hpast]

/-- A text that is no program shows what was found before it failed. -/
theorem conveyed_fail (s : Session) (text : String) {e : Error} {r : Outcome}
    (hr : Program.fail e { env := s.env } = r) :
    conveyed s (text ++ (stateAfter r).output ++ timingsShown s r) r
      = .ok (.error e) (s.showing text) := by
  subst hr
  have hshown : text ++ "" ++ "" = text := by simp
  show conveyed s (text ++ "" ++ "") _ = _
  rw [hshown]
  rfl

/-- What the stages of a program come to, whatever the clock says. -/
theorem attempt_eq (clock : Id Nat) (lim : Limits) (env : Environment)
    (source : String) :
    (attempt clock lim env source).1
      = match Token.scan source with
        | .error e => .unscanned e
        | .ok tokens =>
            match Tree.parse tokens with
            | .error e => .unparsed tokens e
            | .ok t =>
                .evaluated tokens t (Program.evaluate lim t { env := env })
    := by
  unfold attempt EStateM.run
  cases Token.scan source with
  | error e => rfl
  | ok tokens =>
      dsimp only
      cases Tree.parse tokens with
      | error e => rfl
      | ok t =>
          dsimp only
          cases Program.evaluate lim t { env := env } <;> rfl

/-- A text that is shown only sometimes. -/
theorem shows_bind {α : Type} (c : Session → Bool)
    (text : Session → String) (f : Unit → Shell α) (s : Session) :
    ((do let s ← get; if c s then put (text s)) >>= f : Shell α) s
      = f () (s.showing (if c s then text s else "")) := by
  cases h : c s with
  | true =>
      rw [bind_assoc, get_bind, if_pos h]
      rfl
  | false =>
      rw [bind_assoc, get_bind, if_neg (by rw [h]; exact Bool.false_ne_true)]
      simp only [Bool.false_eq_true, if_false, Session.showing_empty]
      rfl

/-- The tokens are shown if the settings ask for them. -/
theorem showTokens_bind {α : Type} (tokens : List Token)
    (f : Unit → Shell α) (s : Session) :
    (showTokens tokens >>= f) s
      = f () (s.showing (if s.settings.showTokens then
          lineOf (tokensLine tokens) else "")) :=
  shows_bind (·.settings.showTokens) (fun _ => lineOf (tokensLine tokens)) f s

/-- The tree is shown if the settings ask for it. -/
theorem showTree_bind {α : Type} (t : Tree) (f : Unit → Shell α)
    (s : Session) :
    (showTree t >>= f) s
      = f () (s.showing (if s.settings.showTree then
          Console.drawing t else "")) :=
  shows_bind (·.settings.showTree) (fun _ => Console.drawing t) f s

/-- The timings are shown if the settings ask for them. -/
theorem showTimings_bind {α : Type} (f : Unit → Shell α) (s : Session) :
    (showTimings >>= f) s
      = f () (s.showing (if s.settings.showTime then
          lineOf (timingsLine s.timings) else "")) :=
  shows_bind (·.settings.showTime) (fun s => lineOf (timingsLine s.timings)) f s

/-- What an evaluation did is taken over, and the timings of a value are
shown. -/
theorem conclude_eq (r : Outcome) (s : Session) :
    conclude r s = conveyed s ((stateAfter r).output ++ timingsShown s r) r := by
  cases r with
  | ok v after =>
      show (showTimings >>= fun _ => pure (Except.ok v) : Shell _)
        (s.past (.ok v after) after.output) = _
      rw [showTimings_bind, Session.past_showing]
      rfl
  | error stop after =>
      rw [timingsShown, String.append_empty]
      -- nothing more is shown of a failure, and none of them keeps its
      -- timings
      cases stop <;> rfl

/-- Running a program in a session is running it on the session's
variables. -/
theorem runSource_eq (source : String) (s : Session) {r : Outcome}
    (hr : Program.run s.limits source { env := s.env } = r) :
    runSource source s = conveyed s (stages s source r) r := by
  unfold stages tokensShown treeShown
  rw [runSource, get_bind, attempt_eq]
  -- one case per stage that the program may have failed in
  cases hscan : Token.scan source with
  | error e =>
      have hprogram : Program.parse source = .error e := by
        rw [Program.parse_eq_bind, hscan]
        rfl
      rw [Program.run_eq_fail hprogram] at hr
      simp only [hprogram]
      rw [conveyed_fail s _ hr, String.append_empty, Session.showing_empty]
      rfl
  | ok tokens =>
      cases hparse : Tree.parse tokens with
      | error e =>
          have hprogram : Program.parse source = .error (.parse e) := by
            rw [Program.parse_eq_bind, hscan, ok_bind, hparse]
            rfl
          rw [Program.run_eq_fail hprogram] at hr
          simp only [hparse, hprogram]
          rw [conveyed_fail s _ hr, String.append_empty, present,
            showTokens_bind]
          rfl
      | ok t =>
          have hprogram : Program.parse source = .ok t := by
            rw [Program.parse_eq_bind, hscan, ok_bind, hparse]
            rfl
          rw [Program.run_eq_evaluate hprogram] at hr
          simp only [hparse, hprogram, hr]
          rw [present, showTokens_bind, showTree_bind, conclude_eq,
            conveyed_showing, conveyed_showing, String.append_assoc,
            String.append_assoc]
          rfl

-- ========================================================== typed lines

/-- Files do not matter to typed lines. -/
theorem typedLines_scripted (read : String → Option String)
    (lines : List String) (turns : Nat) :
    ∀ count, (scripted read lines).typedLines turns count
      = (scripted (fun _ => none) lines).typedLines turns count := by
  induction turns with
  | zero => exact fun count => rfl
  | succ turns ih =>
      intro count
      rw [World.typedLines, World.typedLines, ih]
      rfl

/-- One line less to be typed is one line less to be counted. -/
theorem typedLines_succ (read : String → Option String) (line : String)
    (lines : List String) (turns : Nat) :
    ∀ count, (scripted read (line :: lines)).typedLines turns (count + 1)
      = (scripted read lines).typedLines turns count := by
  induction turns with
  | zero => exact fun count => rfl
  | succ turns ih =>
      intro count
      rw [World.typedLines, World.typedLines, ih]
      rfl

/-- Typed lines are taken one by one. -/
theorem typedLines_cons (line : String) (lines : List String) :
    typedLines (line :: lines)
      = (do prompt; if ← typedLine line then typedLines lines) := by
  rw [typedLines, List.length_cons, World.typedLines, typedLines_succ]
  rfl

end Metrology.CommandLine
