/-
What can end a session of typed lines. A line that fails is reported and
the next one is read, unless its failure has no wording. The variables
stay sound from line to line, so by the fate of a single program such a
failure is an arithmetic fault, and there is a line to blame: it holds a
culprit, or its value cannot be written as text.
-/
import Metrology.Proofs.CommandLine.Session
import Metrology.Proofs.Program.Faults

namespace Metrology.CommandLine

open Program (Limits Sound Culprit)

-- ====================================================== sturdy actions

/-- A run of the source gives a value whose text meets the fault. -/
def Unwritable (source : String) (f : ArithmeticFault) : Prop :=
  ∃ lim env v after, Sound env ∧
    Program.run lim source { env := env } = .ok v after ∧
    v.render = .error (.arithmetic f)

/-- The source is to blame for the end of the session, or a loop without
end is. -/
def Blames (source : String) : Fatal → Prop
  | .exhausted => True
  | .fault e => ∃ f, e = .arithmetic f ∧
      (Culprit source f ∨ Unwritable source f)
  | .missingFile _ => False

/-- The end of an action: a result as wanted and sound variables, or an
end of the session that the source is to blame for. -/
def EndsSturdy {α : Type} (source : String) (P : α → Prop) :
    EStateM.Result Fatal Session α → Prop
  | .ok a s => P a ∧ Sound s.env
  | .error fatal _ => Blames source fatal

/-- From sound variables, the action ends so. -/
structure Sturdy {α : Type} (source : String) (P : α → Prop)
    (x : Shell α) : Prop where
  ends : ∀ s : Session, Sound s.env → EndsSturdy source P (x s)

namespace Sturdy

variable {α β : Type} {source : String} {P : α → Prop} {Q : β → Prop}

/-- A result as wanted leaves the variables as they were. -/
theorem pure {a : α} (h : P a) : Sturdy source P (Pure.pure a : Shell α) :=
  ⟨fun _ hs => ⟨h, hs⟩⟩

/-- An end of the session is sturdy if the source is to blame for it. -/
theorem throw {fatal : Fatal} (h : Blames source fatal) :
    Sturdy source P (MonadExcept.throw fatal : Shell α) :=
  ⟨fun _ _ => h⟩

/-- An action behind a sturdy one starts from sound variables again. -/
theorem bind {x : Shell α} {f : α → Shell β} (hx : Sturdy source P x)
    (hf : ∀ a, P a → Sturdy source Q (f a)) :
    Sturdy source Q (x >>= f) := by
  refine ⟨fun s hs => ?_⟩
  have h := hx.ends s hs
  show EndsSturdy source Q (EStateM.bind x f s)
  unfold EStateM.bind
  split
  · next a s' heq =>
    rw [heq] at h
    exact (hf a h.1).ends s' h.2
  · next fatal s' heq =>
    rw [heq] at h
    exact h

/-- Showing a text touches no variables. -/
theorem put (text : String) :
    Sturdy source (fun _ => True) (CommandLine.put text) :=
  ⟨fun _ hs => ⟨trivial, hs⟩⟩

/-- Showing a line of markup touches no variables. -/
theorem say (markup : String) :
    Sturdy source (fun _ => True) (CommandLine.say markup) :=
  .put _

end Sturdy

-- =============================================================== results

/-- The failure has a wording, or is a fault that the source is to blame
for. -/
def Excused (source : String) (e : Error) : Prop :=
  e.message? = none → ∃ f, e = .arithmetic f ∧
    (Culprit source f ∨ Unwritable source f)

/-- The text of a value is an arithmetic matter. -/
theorem excused_reportable {lim : Limits} {env : Environment}
    {source : String} {v : Value} {after : Program.State} (henv : Sound env)
    (hrun : Program.run lim source { env := env } = .ok v after) :
    FailsOnly (Excused source) (reportable v) := by
  intro e he hunworded
  have hends := (Program.safe_run lim source).ends { env := env } henv
  rw [hrun] at hends
  have hrender : v.render = .error e := by
    unfold reportable at he
    split at he
    · cases he
    · cases hv : v.render with
      | ok text => rw [hv] at he; cases he
      | error e' => rw [hv] at he; cases he; rfl
  obtain ⟨f, rfl⟩ := Program.exists_fault_of_unworded
    (hends.1.mild_render e hrender) hunworded
  exact ⟨f, rfl, .inr ⟨lim, env, v, after, henv, hrun, hrender⟩⟩

/-- Running a source leaves sound variables and an outcome that can be
reported, faults apart. -/
theorem sturdy_runSource (source : String) :
    Sturdy source (fun r => FailsOnly (Excused source) (r.bind reportable))
      (runSource source) := by
  refine ⟨fun s hs => ?_⟩
  have hsafe := (Program.safe_run s.limits source).ends { env := s.env } hs
  cases hrun : Program.run s.limits source { env := s.env } with
  | ok v after =>
      rw [hrun] at hsafe
      rw [runSource_eq source s hrun]
      exact ⟨excused_reportable hs hrun, hsafe.2⟩
  | error stop after =>
      rw [hrun] at hsafe
      rw [runSource_eq source s hrun]
      cases stop with
      | failed e =>
          refine ⟨.error fun hunworded => ?_, hsafe.2⟩
          obtain ⟨f, rfl, hf⟩ := Program.exists_culprit hs hrun hunworded
          exact ⟨f, rfl, .inl hf⟩
      | exhausted => trivial

/-- An error that is excused can be worded, or ends the session with
somebody to blame. -/
theorem sturdy_wording {source : String} {e : Error}
    (h : Excused source e) : Sturdy source (fun _ => True) (wording e) := by
  unfold wording
  split
  · exact .pure trivial
  · next hunworded => exact .throw (h hunworded)

/-- A result that fails only with what is excused can be reported. -/
theorem sturdy_reportTyped {source : String} {result : Except Error Value}
    (h : FailsOnly (Excused source) (result.bind reportable)) :
    Sturdy source (fun _ => True) (reportTyped result) := by
  unfold reportTyped
  split
  · exact .pure trivial
  · exact .say _
  · next e he => exact .bind (sturdy_wording (h e he)) fun _ _ => .say _

-- ================================================================ lines

/-- The line asks for the end of the session. -/
def IsFarewell (line : String) : Prop :=
  farewells.contains ((Text.trim line).map Char.toLower) = true

/-- One line: unless it is a farewell, the next one is read, or it is to
blame. -/
theorem sturdy_typedLine (line : String) :
    Sturdy (Text.trim line) (fun more => more = false → IsFarewell line)
      (typedLine line) := by
  unfold typedLine World.typedLine
  extract_lets source
  split
  · next hfarewell => exact .bind (.say _) fun _ _ => .pure fun _ => hfarewell
  split
  · exact .pure nofun
  refine .bind (sturdy_runSource source) fun result hresult => ?_
  exact .bind (sturdy_reportTyped hresult) fun _ _ => .pure nofun

/-- All lines: what ends the session early, one of them is to blame
for. -/
theorem typedLines_blames : ∀ (lines : List String) {s s' : Session}
    {fatal : Fatal}, Sound s.env → typedLines lines s = .error fatal s' →
    ∃ line ∈ lines, Blames (Text.trim line) fatal := by
  intro lines
  induction lines with
  | nil => intro s s' fatal _ h; cases h
  | cons line lines ih =>
      intro s s' fatal hs h
      rw [typedLines_cons] at h
      -- the prompt touches no variables, so the line starts from sound
      -- ones
      replace h : EStateM.bind (typedLine line) _
        { s with shown := s.shown ++ ">>> " } = .error fatal s' := h
      have hline := (sturdy_typedLine line).ends
        { s with shown := s.shown ++ ">>> " } hs
      unfold EStateM.bind at h
      split at h
      · next more s₁ heq =>
        rw [heq] at hline
        cases more with
        | false => cases h
        | true =>
            -- the line has left sound variables for the lines behind it
            obtain ⟨other, hmem, hblames⟩ := ih hline.2 h
            exact ⟨other, List.mem_cons_of_mem _ hmem, hblames⟩
      · next fatal' s₁ heq =>
        cases h
        rw [heq] at hline
        exact ⟨line, List.mem_cons_self .., hline⟩

/-- The failure of a program is worded, unless it is an arithmetic fault
with a culprit in the source. So a typed line ends the session only if it
is a farewell or to blame for a fault, and a session of typed lines ends
early only if one of them is. -/
theorem failure_worded_or_culprit (lim : Limits) (source : String)
    (s : Program.State) (hs : Sound s.env) (lines : List String)
    (session : Session) (hsession : Sound session.env) :
    (∀ e s', Program.run lim source s = .error (.failed e) s' →
      e.message?.isSome ∨ ∃ f, e = .arithmetic f ∧ Culprit source f) ∧
    (∀ line session', typedLine line session = .ok false session' →
      IsFarewell line) ∧
    ∀ fatal session', typedLines lines session = .error fatal session' →
      ∃ line ∈ lines, Blames (Text.trim line) fatal := by
  refine ⟨?_, ?_, ?_⟩
  · intro e s' h
    cases hmessage : e.message? with
    | some m => exact .inl rfl
    | none => exact .inr (Program.exists_culprit hs h hmessage)
  · intro line session' h
    have hline := (sturdy_typedLine line).ends session hsession
    rw [h] at hline
    exact hline.1 rfl
  · intro fatal session' h
    exact typedLines_blames lines hsession h

/-- The error that a run fails with. -/
def failure? : EStateM.Result Program.Stop Program.State Value → Option Error
  | .error (.failed e) _ => some e
  | _ => none

/-- The failure that a session ends with. -/
def fault? : EStateM.Result Fatal Session Unit → Option Error
  | .error (.fault e) _ => some e
  | _ => none

/-- A failure that is read off a run is the end of that run. -/
theorem eq_error_of_failure? {e : Error}
    {r : EStateM.Result Program.Stop Program.State Value}
    (h : failure? r = some e) : ∃ s, r = .error (.failed e) s := by
  unfold failure? at h
  split at h
  · cases h
    exact ⟨_, rfl⟩
  · cases h

/-- A failure that is read off a session is the end of that session. -/
theorem eq_error_of_fault? {e : Error}
    {r : EStateM.Result Fatal Session Unit} (h : fault? r = some e) :
    ∃ s, r = .error (.fault e) s := by
  unfold fault? at h
  split at h
  · cases h
    exact ⟨_, rfl⟩
  · cases h

/-- Whether more lines are read, after a line that did not end the
session. -/
def readsOn? : EStateM.Result Fatal Session Bool → Option Bool
  | .ok more _ => some more
  | .error _ _ => none

/-- An answer that is read off a line is the result of that line. -/
theorem eq_ok_of_readsOn? {more : Bool}
    {r : EStateM.Result Fatal Session Bool} (h : readsOn? r = some more) :
    ∃ s, r = .ok more s := by
  unfold readsOn? at h
  split at h
  · cases h
    exact ⟨_, rfl⟩
  · cases h

/-- The cosine of an infinite number is to blame, typed in or not. -/
theorem failure_worded_or_culprit_cosine :
    Culprit "cos(1/0)" .domain ∧ IsFarewell " Quit" ∧
      ∃ line ∈ ["cos(1/0)", "1"],
        Blames (Text.trim line) (.fault (.arithmetic .domain)) := by
  have hcos : failure? (Program.run ⟨none, 0⟩ "cos(1/0)" {})
      = some (.arithmetic .domain) := by decide +kernel
  have hquit : readsOn? (typedLine " Quit" { patience := 0 })
      = some false := by decide +kernel
  have htyped : fault? (typedLines ["cos(1/0)", "1"] { patience := 0 })
      = some (.arithmetic .domain) := by decide +kernel
  obtain ⟨after, hafter⟩ := eq_error_of_failure? hcos
  obtain ⟨left, hleft⟩ := eq_ok_of_readsOn? hquit
  obtain ⟨ended, hended⟩ := eq_error_of_fault? htyped
  obtain ⟨hrun, hline, hlines⟩ :=
    failure_worded_or_culprit ⟨none, 0⟩ "cos(1/0)" {} Program.sound_empty
      ["cos(1/0)", "1"] { patience := 0 } Program.sound_empty
  refine ⟨?_, hline _ _ hleft, hlines _ _ hended⟩
  rcases hrun _ _ hafter with hworded | ⟨f, hf, hculprit⟩
  · cases hworded
  · cases hf
    exact hculprit

/-- An infinite phase, a divisor whose fourth power sinks to zero and a
derivative beyond every double: each fault gets out of some program, and
typed in, such a program ends the session. -/
theorem failures_unworded :
    failure? (Program.run ⟨none, 0⟩ "cos(1/0)" {})
        = some (.arithmetic .domain) ∧
    failure? (Program.run ⟨none, 0⟩
      "1/0.00000000000000000000000000000000000000001" {})
        = some (.arithmetic .zeroDivision) ∧
    failure? (Program.run ⟨none, 0⟩
      "\x7bx=0.00000000000000000001;x=x*x;x=x*x;x=x*x;(1i*x)^-1\x7d" {})
        = some (.arithmetic .overflow) ∧
    fault? (typedLines ["cos(1/0)", "1"] { patience := 0 })
        = some (.arithmetic .domain) := by
  decide +kernel

end Metrology.CommandLine
