/-
The command line. What a session does is decided in `Shell`; here it runs
at a terminal: its text is printed as it comes, files and lines are read,
and the clock is asked while a program goes through its stages.
-/
import Metrology.CommandLine.Shell

namespace Metrology.CommandLine

/-- Loops without a cap are given more turns than anyone waits for. -/
def endless : Nat := Nat.pow 10 18

def usage : String :=
  "usage: unitscript [-h] [-f FILE] [--tokens] [--tree] [--time] " ++
    "[--max-iterations N] [-v] [expressions ...]"

/-- A session at a terminal. -/
abbrev Terminal := StateT Session (ExceptT Fatal IO)

namespace Terminal

/-- Prints a text at once. -/
def print (text : String) : Terminal Unit := do
  let stdout ← IO.getStdout
  stdout.putStr text
  stdout.flush

/-- Runs a part of the session and prints what it showed. -/
def perform {α : Type} (part : Shell α) : Terminal α := do
  match part.run { (← get) with shown := "" } with
  | .ok a s =>
      set s
      print s.shown
      return a
  | .error e s =>
      set s
      print s.shown
      throw e

/-- Runs a program and keeps the time of its stages. -/
def runTimed (source : String) : Terminal (Except Error Value) := do
  let s ← get
  let (attempt, timings) ← attempt IO.monoNanosNow s.limits s.env source
  set { s with timings := timings }
  perform (present attempt)

/-- The content of a file, if it can be read. -/
def content (name : String) : Terminal (Option String) := do
  match ← (IO.FS.readFile name).toBaseIO with
  | .ok text => return some text
  | .error _ => return none

/-- The next line, unless the input has ended. -/
def line : Terminal (Option String) := do
  let line ← (← IO.getStdin).getLine
  return if line.isEmpty then none else some line

end Terminal

/-- The world as a terminal has it. -/
def terminal : World Terminal where
  perform := Terminal.perform
  run := Terminal.runTimed
  content := Terminal.content
  line _ := Terminal.line
  turns := endless

/-- Why a session ended early. -/
def fatalText : Fatal → String
  | .fault (.arithmetic .overflow) => "numeric overflow"
  | .fault (.arithmetic .zeroDivision) => "division by zero"
  | .fault (.arithmetic .domain) => "argument outside the domain"
  | .fault e => e.message?.getD "malformed program"
  | .missingFile name => s!"no such file: {name}"
  | .exhausted => "a loop did not end"

/-- Follows the arguments, or says why not. -/
def performArguments (argv : List String) : IO UInt32 := do
  match Arguments.read argv with
  | .error refusal =>
      match refusal with
      | .help => IO.println usage
      | .usage => IO.eprintln usage
      return refusal.exitCode
  | .ok a =>
      match Settings.ofArguments (← IO.getEnv limitVariable) a with
      | .error e =>
          IO.eprintln e.message
          return Refusal.usage.exitCode
      | .ok settings =>
          let start : Session := { settings := settings, patience := endless }
          match ← ((terminal.session a).run start).run with
          | .ok (ok, _) => return exitCode ok
          | .error e =>
              IO.eprintln (fatalText e)
              return exitCode false

end Metrology.CommandLine

/-- The entry point. -/
def main (argv : List String) : IO UInt32 :=
  Metrology.CommandLine.performArguments argv
