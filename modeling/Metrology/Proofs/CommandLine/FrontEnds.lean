/-
The ways into a session. Expressions on the command line and typed lines
are two loops, each with its own way to report. Both come down to running
their programs in a row: one after the other on shared variables, under
the limits of the session, and on after failures (`runAll`). What a
session ends with can be read off these runs: the variables are those the
last one left, expressions succeed if all of them did, and what was shown
is, run by run, the stages that the settings ask for and a report of the
value or the error.

The runs depend on the limits, on the variables at the start and on the
programs, and on nothing else: not on the way in, nor on what is shown.

All this holds as long as every run can be reported. A run that fails
without a wording, or whose value has no text for such a reason, ends the
session (see `TypedLines`), and so does a loop that does not end.
-/
import Metrology.Proofs.CommandLine.TypedLines

namespace Metrology.CommandLine

open Program (Limits stateAfter bind_of_ok)

-- ======================================================= runs in a row

/-- Programs one after the other on shared variables, and how each ends. -/
def runAll (lim : Limits) :
    Environment → List String → List (String × Outcome)
  | _, [] => []
  | env, source :: rest =>
      let r := Program.run lim source { env := env }
      (source, r) :: runAll lim (stateAfter r).env rest

/-- The first program is run, and the others on the variables it leaves. -/
theorem runAll_cons {lim : Limits} {env : Environment} {source : String}
    {r : Outcome} (hr : Program.run lim source { env := env } = r)
    (rest : List String) :
    runAll lim env (source :: rest)
      = (source, r) :: runAll lim (stateAfter r).env rest := by
  rw [runAll, hr]

/-- The variables that runs in a row leave behind. -/
def envAfter (env : Environment) (runs : List (String × Outcome)) :
    Environment :=
  runs.foldl (fun _ x => (stateAfter x.2).env) env

/-- Each program of a row is run on the variables that those before it
left. -/
theorem run_of_getElem?_runAll {lim : Limits} :
    ∀ {programs : List String} {env : Environment} {i : Nat}
      {source : String} {r : Outcome},
      (runAll lim env programs)[i]? = some (source, r) →
      Program.run lim source
        { env := envAfter env ((runAll lim env programs).take i) } = r := by
  intro programs
  induction programs with
  | nil => intro env i source r h; cases h
  | cons p programs ih =>
      intro env i source r h
      cases i with
      | zero => cases h; rfl
      | succ i => exact ih h

-- ============================================================= reports

/-- What can be told of a result: the text of its value, where void has
none, or the wording of its error. -/
def told : Except Error (Option String) →
    Option (Except String (Option String))
  | .ok text => some (.ok text)
  | .error e => e.message?.map .error

/-- What is reported of a run. -/
def report? : Outcome → Option (Except String (Option String))
  | .ok v _ => told (reportable v)
  | .error (.failed e) _ => told (.error e)
  | .error .exhausted _ => none

/-- The run gave a value that could be reported. -/
def succeeded (x : String × Outcome) : Bool :=
  (report? x.2).any Except.isOk

/-- The report of an expression. -/
def expressionReport (source : String) :
    Except String (Option String) → String
  | .ok none => ""
  | .ok (some text) =>
      let quoted := Console.escape source
      lineOf s!"[bold]{quoted}[/] => [yellow]{Console.escape text}[/]"
  | .error m =>
      lineOf s!"[red]Error in expression '{Console.escape source}':[/]"
        ++ lineOf s!"[red]{Console.escape m}[/]"

/-- The report of a typed line. -/
def typedReport : Except String (Option String) → String
  | .ok none => ""
  | .ok (some text) => lineOf s!"[yellow]Result:[/] {Console.escape text}"
  | .error m => lineOf s!"[red]{Console.escape m}[/]"

/-- All that is shown of a run as an expression. -/
def expressionShown (s : Session) (x : String × Outcome) : String :=
  stages s x.1 x.2 ++ (report? x.2).elim "" (expressionReport x.1)

/-- All that is shown of a run as a typed line. -/
def typedShown (s : Session) (x : String × Outcome) : String :=
  stages s x.1 x.2 ++ (report? x.2).elim "" typedReport

/-- A run that can be reported gives the session a result to tell. -/
theorem runSource_of_report {source : String} {s : Session} {r : Outcome}
    {report : Except String (Option String)}
    (hr : Program.run s.limits source { env := s.env } = r)
    (hreport : report? r = some report) :
    ∃ result,
      runSource source s = .ok result (s.past r (stages s source r))
        ∧ told (result.bind reportable) = some report := by
  have hsource := runSource_eq source s hr
  cases r with
  | ok v after => exact ⟨.ok v, hsource, hreport⟩
  | error stop after =>
      cases stop with
      | failed e => exact ⟨.error e, hsource, hreport⟩
      | exhausted => cases hreport

/-- An error that is told has its wording. -/
theorem wording_of_told {e : Error} {report : Except String (Option String)}
    (h : told (.error e) = some report) :
    ∃ m, report = .error m ∧ wording e = pure m := by
  obtain ⟨m, hm, rfl⟩ := Option.map_eq_some_iff.mp h
  refine ⟨m, rfl, ?_⟩
  unfold wording
  rw [hm]

-- ========================================================== expressions

section

variable (read : String → Option String) (lines : List String)

/-- One expression: it is run, reported, and succeeds if its value was. -/
theorem expression_eq {source : String} {s : Session} {r : Outcome}
    (hr : Program.run s.limits source { env := s.env } = r)
    (hreport : (report? r).isSome) :
    (scripted read lines).expression source s
      = .ok (succeeded (source, r))
          (s.past r (expressionShown s (source, r))) := by
  obtain ⟨report, hreport⟩ := Option.isSome_iff_exists.mp hreport
  obtain ⟨result, hsource, htold⟩ := runSource_of_report hr hreport
  unfold succeeded expressionShown
  rw [World.expression, scripted, bind_of_ok hsource, hreport,
    Option.elim_some, ← Session.past_showing]
  show reportExpression source result _ = _
  unfold reportExpression
  cases hresult : result.bind reportable with
  | ok text =>
      rw [hresult] at htold
      cases htold
      cases text with
      | none => rw [expressionReport, Session.showing_empty]; rfl
      | some text => rfl
  | error e =>
      rw [hresult] at htold
      obtain ⟨m, rfl, hm⟩ := wording_of_told htold
      simp only [complain, hm]
      rw [expressionReport, ← Session.showing_append]
      rfl

/-- The session after runs in a row, with the text shown on the way. -/
def Session.beyond (s : Session) (runs : List (String × Outcome))
    (text : String) : Session :=
  { s with env := envAfter s.env runs, shown := s.shown ++ text }

/-- Runs behind a run are runs in a row. -/
theorem Session.past_beyond (s : Session) (source : String) (r : Outcome)
    (runs : List (String × Outcome)) (a b : String) :
    (s.past r a).beyond runs b = s.beyond ((source, r) :: runs) (a ++ b) := by
  simp [Session.past, Session.beyond, envAfter, String.append_assoc]

/-- What is shown before runs in a row belongs to what they show. -/
@[simp] theorem Session.showing_beyond (s : Session)
    (runs : List (String × Outcome)) (a b : String) :
    (s.showing a).beyond runs b = s.beyond runs (a ++ b) := by
  simp [Session.showing, Session.beyond, String.append_assoc]

/-- All expressions: they are run in a row, those behind a failed one
too. -/
theorem expressions_eq {lim : Limits} :
    ∀ (sources : List String) {env : Environment} {s : Session},
      s.limits = lim → s.env = env →
      (∀ x ∈ runAll lim env sources, (report? x.2).isSome) →
      (scripted read lines).expressions sources s
        = .ok ((runAll lim env sources).all succeeded)
            (s.beyond (runAll lim env sources)
              (.join ((runAll lim env sources).map (expressionShown s)))) := by
  intro sources
  induction sources with
  | nil =>
      intro env s _ _ _
      exact congrArg (EStateM.Result.ok true) s.showing_empty.symm
  | cons source rest ih =>
      intro env s hlim henv h
      subst hlim henv
      obtain ⟨r, hr⟩ : ∃ r, Program.run s.limits source { env := s.env } = r :=
        ⟨_, rfl⟩
      rw [runAll_cons hr] at h ⊢
      obtain ⟨hfirst, hrest⟩ := List.forall_mem_cons.mp h
      -- the session behind the first program has its limits, and the
      -- variables that the other runs start from
      have htail := ih (s := s.past r (expressionShown s (source, r))) rfl rfl
        hrest
      rw [World.expressions, bind_of_ok (expression_eq read lines hr hfirst),
        bind_of_ok htail, Session.past_beyond _ source, Bool.and_comm,
        List.all_cons, List.map_cons, String.join_cons]
      rfl

end

-- ========================================================== typed lines

instance (line : String) : Decidable (IsFarewell line) :=
  inferInstanceAs (Decidable (_ = true))

/-- The programs among typed lines: what stands before a farewell, without
the blanks around it, and without lines that are blank. -/
def typedPrograms (lines : List String) : List String :=
  ((lines.takeWhile (¬ IsFarewell ·)).map Text.trim).filter (· ≠ "")

/-- Behind a farewell nothing is a program. -/
theorem typedPrograms_farewell {line : String} (h : IsFarewell line)
    (lines : List String) : typedPrograms (line :: lines) = [] := by
  simp [typedPrograms, h]

/-- A blank line is no program. -/
theorem typedPrograms_blank {line : String} (h : ¬ IsFarewell line)
    (hblank : Text.trim line = "") (lines : List String) :
    typedPrograms (line :: lines) = typedPrograms lines := by
  simp [typedPrograms, h, hblank]

/-- Any other line is one, without the blanks around it. -/
theorem typedPrograms_program {line : String} (h : ¬ IsFarewell line)
    (hblank : Text.trim line ≠ "") (lines : List String) :
    typedPrograms (line :: lines)
      = Text.trim line :: typedPrograms lines := by
  simp [typedPrograms, h, hblank]

/-- What is shown of typed lines: a prompt for each, and for those that
are programs what there is to tell of their runs. -/
def dialogue (tell : String × Outcome → String) :
    List String → List (String × Outcome) → String
  | [], _ => ">>> " ++ lineOf ""
  | line :: lines, runs =>
      if IsFarewell line then ">>> " ++ lineOf "Goodbye!"
      else if Text.trim line = "" then ">>> " ++ dialogue tell lines runs
      else
        ">>> " ++ (runs.head?.elim "" tell ++ dialogue tell lines runs.tail)

/-- One typed line that is a program: it is run and reported, and the next
line is read. -/
theorem typedLine_eq {line : String} {s : Session} {r : Outcome}
    (hfarewell : ¬ IsFarewell line) (hblank : Text.trim line ≠ "")
    (hr : Program.run s.limits (Text.trim line) { env := s.env } = r)
    (hreport : (report? r).isSome) :
    typedLine line s
      = .ok true (s.past r (typedShown s (Text.trim line, r))) := by
  obtain ⟨report, hreport⟩ := Option.isSome_iff_exists.mp hreport
  obtain ⟨result, hsource, htold⟩ := runSource_of_report hr hreport
  unfold IsFarewell at hfarewell
  unfold typedShown
  rw [typedLine, World.typedLine, if_neg hfarewell, if_neg hblank, scripted,
    bind_of_ok hsource, hreport, Option.elim_some, ← Session.past_showing]
  show (reportTyped result >>= fun _ => pure true) _ = _
  unfold reportTyped
  cases hresult : result.bind reportable with
  | ok text =>
      rw [hresult] at htold
      cases htold
      cases text with
      | none => rw [typedReport, Session.showing_empty]; rfl
      | some text => rfl
  | error e =>
      rw [hresult] at htold
      obtain ⟨m, rfl, hm⟩ := wording_of_told htold
      simp only [hm]
      rfl

/-- A farewell is answered and ends the session. -/
theorem typedLine_farewell {line : String} (h : IsFarewell line)
    (s : Session) :
    typedLine line s = .ok false (s.showing (lineOf "Goodbye!")) := by
  unfold IsFarewell at h
  rw [typedLine, World.typedLine, if_pos h]
  rfl

/-- A blank line is passed over. -/
theorem typedLine_blank {line : String} (h : ¬ IsFarewell line)
    (hblank : Text.trim line = "") (s : Session) :
    typedLine line s = .ok true s := by
  unfold IsFarewell at h
  rw [typedLine, World.typedLine, if_neg h, if_pos hblank]
  rfl

/-- All typed lines: the programs among them are run in a row. -/
theorem typedLines_eq {lim : Limits} :
    ∀ (lines : List String) {env : Environment} {s : Session},
      s.limits = lim → s.env = env →
      (∀ x ∈ runAll lim env (typedPrograms lines), (report? x.2).isSome) →
      typedLines lines s
        = .ok () (s.beyond (runAll lim env (typedPrograms lines))
            (dialogue (typedShown s) lines
              (runAll lim env (typedPrograms lines)))) := by
  intro lines
  induction lines with
  | nil =>
      intro env s _ _ _
      show EStateM.Result.ok () ((s.showing ">>> ").showing (lineOf "")) = _
      rw [Session.showing_append]
      rfl
  | cons line lines ih =>
      intro env s hlim henv h
      subst hlim henv
      rw [typedLines_cons, prompt, put_bind]
      -- the cases are those of a typed line: a farewell, a blank, a
      -- program
      by_cases hfarewell : IsFarewell line
      · rw [typedPrograms_farewell hfarewell, runAll, dialogue,
          if_pos hfarewell, bind_of_ok (typedLine_farewell hfarewell _),
          Session.showing_append]
        rfl
      by_cases hblank : Text.trim line = ""
      · rw [typedPrograms_blank hfarewell hblank] at h ⊢
        rw [dialogue, if_neg hfarewell, if_pos hblank,
          bind_of_ok (typedLine_blank hfarewell hblank _)]
        have htail := ih (s := s.showing ">>> ") rfl rfl h
        rw [Session.showing_beyond] at htail
        exact htail
      · rw [typedPrograms_program hfarewell hblank] at h ⊢
        obtain ⟨r, hr⟩ : ∃ r, Program.run s.limits (Text.trim line)
            { env := s.env } = r := ⟨_, rfl⟩
        rw [runAll_cons hr] at h ⊢
        obtain ⟨hfirst, hrest⟩ := List.forall_mem_cons.mp h
        have hline := typedLine_eq (s := s.showing ">>> ") hfarewell hblank hr
          hfirst
        have htail := ih (s := (s.showing ">>> ").past r
          (typedShown s (Text.trim line, r))) rfl rfl hrest
        rw [Session.past_beyond _ (Text.trim line), Session.showing_beyond]
          at htail
        rw [dialogue, if_neg hfarewell, if_neg hblank, bind_of_ok hline]
        exact htail

-- ============================================================= sessions

/-- Lines of markup one after the other. -/
theorem forM_say :
    ∀ (lines : List String) (s : Session),
      lines.forM say s
        = .ok () (s.showing (.join (lines.map lineOf))) := by
  intro lines
  induction lines with
  | nil =>
      intro s
      exact congrArg (EStateM.Result.ok ()) s.showing_empty.symm
  | cons line lines ih =>
      intro s
      show (say line >>= fun _ => lines.forM say) s = _
      rw [say_bind, ih, Session.showing_append, List.map_cons,
        String.join_cons]

/-- Zero is the code of a session that ended well. -/
@[simp] theorem exitCode_eq_zero_iff {ok : Bool} :
    exitCode ok = 0 ↔ ok = true := by
  cases ok <;> decide

/-- All ways into a session run programs alike. Take programs in a row
whose runs can all be reported, and any session with the limits and the
variables they start with, whatever it shows. Given the programs as
expressions, the session ends with the variables they leave, and well
exactly if all of them succeeded; typing them, it ends well, with the same
variables. The process then exits with zero exactly if all of the
expressions succeeded, and with zero after typed lines. What is shown is
made of the same runs. And each program, on the variables that those
before it left, comes to the same result and leaves the same variables
whatever else the session shows. -/
theorem session_runs_programs (lim : Limits) (env : Environment)
    (programs : List String)
    (hreport : ∀ x ∈ runAll lim env programs, (report? x.2).isSome)
    (s : Session) (hlim : s.limits = lim) (henv : s.env = env)
    (a : Arguments) (hfile : a.fileName? = none)
    (read : String → Option String) (lines : List String) :
    (a.expressions = programs → programs ≠ [] →
      session a read lines s
        = .ok ((runAll lim env programs).all succeeded)
            (s.beyond (runAll lim env programs)
              (.join ((runAll lim env programs).map (expressionShown s))))
      ∧ (exitCode ((runAll lim env programs).all succeeded) = 0
          ↔ ∀ x ∈ runAll lim env programs, succeeded x = true))
      ∧ (a.expressions = [] → typedPrograms lines = programs →
        session a read lines s
          = .ok true (s.beyond (runAll lim env programs)
              (.join (greeting.map lineOf)
                ++ dialogue (typedShown s) lines (runAll lim env programs)))
        ∧ exitCode true = 0)
      ∧ ∀ i source r, (runAll lim env programs)[i]? = some (source, r) →
          ∀ s' : Session, s'.limits = lim →
            s'.env = envAfter env ((runAll lim env programs).take i) →
            runSource source s' = conveyed s' (stages s' source r) r := by
  refine ⟨?_, ?_, ?_⟩
  · -- programs that are given one by one
    intro hsources hne
    obtain ⟨p, ps, rfl⟩ := List.exists_cons_of_ne_nil hne
    refine ⟨?_, exitCode_eq_zero_iff.trans List.all_eq_true⟩
    unfold session World.session
    rw [hfile, hsources]
    exact expressions_eq read lines _ hlim henv hreport
  · -- programs that are typed, behind the greeting
    rintro hsources rfl
    refine ⟨?_, rfl⟩
    unfold session World.session
    rw [hfile, hsources]
    have hgreet : greet s = _ := forM_say greeting s
    have htyped := typedLines_eq lines
      (s := s.showing (.join (greeting.map lineOf))) hlim henv hreport
    rw [Session.showing_beyond] at htyped
    show (greet >>= fun _ =>
      (scripted read lines).typedLines lines.length 0 >>= fun _ => pure true) s
        = _
    rw [typedLines_scripted]
    show (greet >>= fun _ => typedLines lines >>= fun _ => pure true) s = _
    rw [bind_of_ok hgreet, bind_of_ok htyped]
    rfl
  · -- a program in the midst of others
    intro i source r h s' hlim' henv'
    refine runSource_eq source s' ?_
    rw [hlim', henv']
    exact run_of_getElem?_runAll h

/-- Three programs of which the second is none. -/
def brokenRow : List String := ["x = 2", "x +", "x * 3"]

/-- The same programs as they may be typed. -/
def brokenLines : List String :=
  ["x = 2", "", "x +", " x * 3 ", "Quit", "y"]

/-- As expressions, with their tokens shown, or typed in: the third still
finds the variable of the first. -/
theorem session_runs_programs_brokenRow :
    ∃ s s',
      session { expressions := brokenRow } (fun _ => none) []
          { settings := { showTokens := true }, patience := 0 }
        = .ok false s
      ∧ session {} (fun _ => none) brokenLines { patience := 0 } = .ok true s'
      ∧ s.env = s'.env
      ∧ s.shown = "Tokens: ID\x7bx\x7d OP\x7b=\x7d NUM\x7b2, \"\"\x7d\n" ++
          "Tokens: ID\x7bx\x7d OP\x7b+\x7d\n" ++
          "Error in expression 'x +':\n" ++
          "The binary operator '+' needs valued expressions to its sides.\n" ++
          "Tokens: ID\x7bx\x7d OP\x7b*\x7d NUM\x7b3, \"\"\x7d\n" ++
          "x * 3 => 6\n"
      ∧ s'.shown = String.join (greeting.map lineOf) ++
          (">>> >>> >>> " ++
            "The binary operator '+' needs valued expressions to its sides.\n" ++
            ">>> Result: 6\n>>> Goodbye!\n") := by
  have hreport : ∀ x ∈ runAll ⟨none, 0⟩ {} brokenRow, (report? x.2).isSome :=
    List.all_eq_true.mp (by decide +kernel)
  have hfailed : (runAll ⟨none, 0⟩ {} brokenRow).all succeeded = false := by
    decide +kernel
  have hexpressions := (session_runs_programs _ _ _ hreport
    { settings := { showTokens := true }, patience := 0 }
    rfl rfl { expressions := brokenRow } rfl (fun _ => none) []).1 rfl
    (List.cons_ne_nil _ _)
  have htyped := (session_runs_programs _ _ _ hreport { patience := 0 } rfl rfl
    {} rfl (fun _ => none) brokenLines).2.1 rfl (by decide +kernel)
  have hdialogue : dialogue (typedShown { patience := 0 }) brokenLines
      (runAll ⟨none, 0⟩ {} brokenRow) = ">>> >>> >>> " ++
        "The binary operator '+' needs valued expressions to its sides.\n" ++
        ">>> Result: 6\n>>> Goodbye!\n" := by
    decide +kernel
  rw [hfailed] at hexpressions
  rw [hdialogue] at htyped
  exact ⟨_, _, hexpressions.1, htyped.1, rfl, by decide +kernel,
    String.empty_append⟩

end Metrology.CommandLine
