/-
Sessions on a console. Programs come from a file, from expressions on the
command line or from lines that are typed in; all share the variables. A
program that fails is reported and the session goes on. A failure without
a wording ends it.

What a session does by itself is a `Shell`: it changes the variables and
adds to the text that was shown. How it gets its programs is written once
for every world that it may run in (`World.session`). In one, the files
and the lines are given from the start (`scripted`); in another, they are
asked for when they are needed and what is shown is printed as it comes.
-/
import Metrology.CommandLine.Settings
import Metrology.Console.Outline
import Metrology.Program.Run

namespace Metrology.CommandLine

open Program (Limits)

/-- How long each stage took, in nanoseconds. -/
structure Timings where
  scan : Nat := 0
  parse : Nat := 0
  evaluate : Nat := 0

/-- A session: its settings, its variables and all that was shown. -/
structure Session where
  settings : Settings := {}
  /-- The turns given to loops without a cap. -/
  patience : Nat
  env : Environment := {}
  shown : String := ""
  /-- The timings to show for the next program. -/
  timings : Timings := {}

/-- What ends a session. -/
inductive Fatal where
  /-- A failure without a wording. -/
  | fault (e : Error)
  | missingFile (name : String)
  /-- A loop used up the turns it was given. -/
  | exhausted

abbrev Shell := EStateM Fatal Session

/-- The limits that programs run under. -/
def Session.limits (s : Session) : Limits :=
  { iterations := s.settings.maxIterations, patience := s.patience }

-- ============================================================= showing

/-- Shows a text as it is. -/
def put (text : String) : Shell Unit :=
  modify fun s => { s with shown := s.shown ++ text }

/-- Shows a line of markup. -/
def say (markup : String) : Shell Unit := put (Console.shown markup ++ "\n")

/-- The tokens of a program, for inspection. -/
def tokensLine (tokens : List Token) : String :=
  "[cyan]Tokens:[/] "
    ++ Console.escape (" ".intercalate (tokens.map (·.lexeme.describe)))

/-- Nanoseconds as milliseconds with three places. -/
def milliseconds (n : Nat) : String :=
  let micro := Numeral.roundDiv n 1000
  let whole := Numeral.digits (micro / 1000)
  String.ofList (whole ++ '.' :: Numeral.padded 3 (micro % 1000))

def timingsLine (t : Timings) : String :=
  s!"[dim]lex {milliseconds t.scan} ms, parse {milliseconds t.parse} ms, " ++
    s!"eval {milliseconds t.evaluate} ms[/]"

-- ============================================================ programs

/-- How far a program came: to its tokens, to its tree, to its end. -/
inductive Attempt where
  | unscanned (e : Error)
  | unparsed (tokens : List Token) (e : ParseError)
  | evaluated (tokens : List Token) (t : Tree)
      (outcome : EStateM.Result Program.Stop Program.State Value)

/-- Takes a program through its stages. The clock is asked before the
first of them and behind each. -/
def attempt {m : Type → Type} [Monad m] (clock : m Nat) (lim : Limits)
    (env : Environment) (source : String) : m (Attempt × Timings) := do
  let start ← clock
  match Token.scan source with
  | .error e => return (.unscanned e, {})
  | .ok tokens =>
      let scanned ← clock
      match Tree.parse tokens with
      | .error e => return (.unparsed tokens e, {})
      | .ok t =>
          let parsed ← clock
          match (Program.evaluate lim t).run { env := env } with
          | .error stop after =>
              return (.evaluated tokens t (.error stop after), {})
          | .ok v after =>
              let finished ← clock
              return (.evaluated tokens t (.ok v after),
                ⟨scanned - start, parsed - scanned, finished - parsed⟩)

def showTokens (tokens : List Token) : Shell Unit := do
  if (← get).settings.showTokens then say (tokensLine tokens)

def showTree (t : Tree) : Shell Unit := do
  if (← get).settings.showTree then put (Console.drawing t)

def showTimings : Shell Unit := do
  let s ← get
  if s.settings.showTime then say (timingsLine s.timings)

/-- Takes over the variables and the output that an evaluation left. -/
def adopt (after : Program.State) : Shell Unit :=
  modify fun s => { s with env := after.env, shown := s.shown ++ after.output }

/-- Takes over what an evaluation did. The timings are shown only of a
value. -/
def conclude : EStateM.Result Program.Stop Program.State Value →
    Shell (Except Error Value)
  | .ok v after => do
      adopt after
      showTimings
      return .ok v
  | .error (.failed e) after => do
      adopt after
      return .error e
  | .error .exhausted after => do
      adopt after
      throw .exhausted

/-- Shows the stages of a program that the settings ask for, and takes over
what its evaluation did. -/
def present : Attempt → Shell (Except Error Value)
  | .unscanned e => return .error e
  | .unparsed tokens e => do
      showTokens tokens
      return .error (.parse e)
  | .evaluated tokens t outcome => do
      showTokens tokens
      showTree t
      conclude outcome

/-- Runs a program on the variables of the session. -/
def runSource (source : String) : Shell (Except Error Value) := do
  let s ← get
  present (attempt (m := Id) 0 s.limits s.env source).1

-- ============================================================= reports

/-- The text to report of a value; void has none. -/
def reportable : Value → Except Error (Option String)
  | .void => .ok none
  | v => v.render.map some

/-- The wording of an error, or the end of the session. -/
def wording (e : Error) : Shell String :=
  match e.message? with
  | some m => pure m
  | none => throw (.fault e)

/-- Reports an error under a heading. -/
def complain (heading : String) (e : Error) : Shell Unit := do
  let m ← wording e
  say heading
  say s!"[red]{Console.escape m}[/]"

/-- Reports an expression of the command line; whether it succeeded. -/
def reportExpression (source : String) (result : Except Error Value) :
    Shell Bool := do
  let quoted := Console.escape source
  match result.bind reportable with
  | .ok none => return true
  | .ok (some text) =>
      say s!"[bold]{quoted}[/] => [yellow]{Console.escape text}[/]"
      return true
  | .error e =>
      complain s!"[red]Error in expression '{quoted}':[/]" e
      return false

/-- Reports a file; whether it succeeded. A value without a text ends the
session. -/
def reportFile (name : String) : Except Error Value → Shell Bool
  | .error e => do
      complain s!"[red]Error in file '{Console.escape name}':[/]" e
      return false
  | .ok v =>
      match reportable v with
      | .ok none => return true
      | .ok (some text) => do
          say s!"[yellow]Result:[/] {Console.escape text}"
          return true
      | .error e => throw (.fault e)

/-- Reports a typed line. -/
def reportTyped (result : Except Error Value) : Shell Unit := do
  match result.bind reportable with
  | .ok none => return
  | .ok (some text) => say s!"[yellow]Result:[/] {Console.escape text}"
  | .error e =>
      let m ← wording e
      say s!"[red]{Console.escape m}[/]"

-- ============================================================== worlds

/-- What a session needs of the world it runs in. -/
structure World (m : Type → Type) where
  /-- Does a part of the session. -/
  perform : {α : Type} → Shell α → m α
  /-- Runs a program. -/
  run : String → m (Except Error Value)
  /-- The content of a file, if there is one. -/
  content : String → m (Option String)
  /-- The line that is typed after this many others, unless the input has
  ended. -/
  line : Nat → m (Option String)
  /-- The lines that are read at most. -/
  turns : Nat

/-- Line ends of all kinds become line feeds. -/
def unifyLines : List Char → List Char
  | '\r' :: '\n' :: cs => '\n' :: unifyLines cs
  | '\r' :: cs => '\n' :: unifyLines cs
  | c :: cs => c :: unifyLines cs
  | [] => []

/-- The words that end a session of typed lines. -/
def farewells : List String := ["q", "quit", "exit"]

def greeting : List String :=
  [ "[bold cyan]This is unitscript v1.0: units, uncertainties and " ++
      "complex numbers[/]",
    "You can define variables, e.g. mass = 2kg pm 0.1kg",
    "Then use them, e.g. print(mass * 9.81|m/s2|)",
    "Type 'q', 'quit', or 'exit' to quit.\n" ]

def greet : Shell Unit := greeting.forM say

def prompt : Shell Unit := put ">>> "

/-- The file that the arguments name. -/
def Arguments.fileName? (a : Arguments) : Option String :=
  a.file.filter (· != "")

namespace World

variable {m : Type → Type} [Monad m] (w : World m)

/-- An expression of the command line; whether it succeeded. -/
def expression (source : String) : m Bool := do
  let result ← w.run source
  w.perform (reportExpression source result)

/-- Expressions in order, failed or not; whether all succeeded. -/
def expressions : List String → m Bool
  | [] => return true
  | source :: rest => do
      let ok ← w.expression source
      return (← expressions rest) && ok

/-- A file as one program; whether it succeeded. -/
def file (name : String) : m Bool := do
  match ← w.content name with
  | none => w.perform (throw (.missingFile name))
  | some content =>
      let result ← w.run (String.ofList (unifyLines content.toList))
      w.perform (reportFile name result)

/-- A typed line; whether more are to be read. -/
def typedLine (line : String) : m Bool := do
  let source := Text.trim line
  if farewells.contains (source.map Char.toLower) then
    w.perform (say "Goodbye!")
    return false
  if source = "" then return true
  let result ← w.run source
  w.perform (reportTyped result)
  return true

/-- Typed lines, from the one after `count` others on, up to a farewell or
the end of the input. -/
def typedLines : (turns count : Nat) → m Unit
  | 0, _ => do
      w.perform prompt
      w.perform (say "")
  | turns + 1, count => do
      w.perform prompt
      match ← w.line count with
      | none => w.perform (say "")
      | some line => if ← w.typedLine line then typedLines turns (count + 1)

/-- A session as the arguments ask: the file, then the expressions, or
typed lines if there are neither. Whether it ended well. -/
def session (a : Arguments) : m Bool := do
  match a.fileName?, a.expressions with
  | none, [] => do
      w.perform greet
      w.typedLines w.turns 0
      return true
  | none, sources => w.expressions sources
  | some name, sources => do
      let ok ← w.file name
      return (← w.expressions sources) && ok

end World

/-- The code that a process exits with after its session. -/
def exitCode (ok : Bool) : UInt32 := if ok then 0 else 1

-- ==================================================== scripted sessions

/-- The world in which these files exist and these lines are typed. -/
def scripted (read : String → Option String) (lines : List String) :
    World Shell where
  perform part := part
  run := runSource
  content name := return read name
  line count := return lines[count]?
  turns := lines.length

/-- A typed line; whether more are to be read. -/
def typedLine (line : String) : Shell Bool :=
  (scripted (fun _ => none) []).typedLine line

/-- Typed lines up to a farewell or the end of the input. -/
def typedLines (lines : List String) : Shell Unit :=
  (scripted (fun _ => none) lines).typedLines lines.length 0

/-- A session as the arguments ask, where `read` gives the content of a
file and `lines` are typed. -/
def session (a : Arguments) (read : String → Option String)
    (lines : List String) : Shell Bool :=
  (scripted read lines).session a

end Metrology.CommandLine
