/-
Arguments of the command line. Options may stand before or after the
expressions, which form one run; long options may be shortened as far as
they stay unique and take a value after an equals sign, and short ones
may be joined. A double dash ends the options. What looks like a negative
number, or like an option but has a space in it, is an expression.
-/
import Metrology.Numeral.Read

namespace Metrology.CommandLine

open Text

/-- What the arguments ask for. -/
structure Arguments where
  file : Option String := none
  expressions : List String := []
  tokens : Bool := false
  tree : Bool := false
  time : Bool := false
  maxIterations : Option Int := none
  verbose : Nat := 0
deriving DecidableEq, Repr

/-- Why the arguments are not followed. -/
inductive Refusal where
  | usage
  /-- Help was asked for instead. -/
  | help
deriving DecidableEq, Repr

/-- The code that a process exits with instead of running a session. -/
def Refusal.exitCode : Refusal → UInt32
  | .usage => 2
  | .help => 0

/-- The options. -/
inductive Flag where
  | help
  | file
  | tokens
  | tree
  | time
  | maxIterations
  | verbose
deriving DecidableEq, Repr

/-- The spellings of the options. -/
def spellings : List (String × Flag) :=
  [ ("-h", .help), ("--help", .help), ("-f", .file), ("--file", .file),
    ("--tokens", .tokens), ("--tree", .tree), ("--time", .time),
    ("--max-iterations", .maxIterations), ("-v", .verbose),
    ("--verbose", .verbose) ]

def Flag.takesValue : Flag → Bool
  | .file | .maxIterations => true
  | _ => false

-- ===================================================== classification

/-- What is joined to an option, and whether an equals sign joins it. -/
structure Joined where
  equals : Bool
  text : List Char
deriving DecidableEq, Repr

/-- What an argument is taken for. -/
inductive Word where
  | plain (s : String)
  /-- The double dash that ends the options. -/
  | separator
  /-- An option; `short` if spelled with one dash, with the value or the
  further options joined to it. -/
  | option (flag : Flag) (short : Bool) (joined : Option Joined)
  | unknown
deriving DecidableEq, Repr

/-- The text before the first equals sign and the text behind it. -/
def splitEquals (s : String) : String × Option Joined :=
  let cs := s.toList
  match cs.dropWhile (· != '=') with
  | [] => (s, none)
  | _ :: rest =>
      (String.ofList (cs.takeWhile (· != '=')), some ⟨true, rest⟩)

def startsWith (head s : String) : Bool := head.toList.isPrefixOf s.toList

/-- A decimal digit of any script. -/
def isDigit (c : Char) : Bool := (digitValue? c).isSome

/-- Digits, or digits around a point of which the last part is not
empty. -/
def isUnsignedNumber (cs : List Char) : Bool :=
  match cs.dropWhile isDigit with
  | [] => !cs.isEmpty
  | '.' :: rest => !rest.isEmpty && rest.all isDigit
  | _ => false

/-- Looks like a negative number; a line break may end it. -/
def isNegativeNumber (s : String) : Bool :=
  match s.toList with
  | '-' :: cs =>
      isUnsignedNumber cs ||
        (cs.getLast? == some '\n' && isUnsignedNumber cs.dropLast)
  | _ => false

/-- The options a long argument may be short for. -/
def longMatches (s : String) : List Word :=
  let (head, value) := splitEquals s
  (spellings.filter fun (spelling, _) => startsWith head spelling).map
    fun (_, flag) => .option flag false value

/-- The short option an argument starts with. -/
def shortMatches (s : String) : List Word :=
  let cs := s.toList
  match spellings.lookup (String.ofList (cs.take 2)) with
  | some flag => [.option flag true (some ⟨false, cs.drop 2⟩)]
  | none => []

def isShort (s : String) : Bool := s.length == 2

/-- An argument that starts with a dash but is no option by itself. -/
def classifyDashed (s : String) : Except Refusal Word :=
  let (head, value) := splitEquals s
  match value, spellings.lookup head with
  | some v, some flag => .ok (.option flag (isShort head) (some v))
  | _, _ =>
      match if startsWith "--" s then longMatches s else shortMatches s with
      | [w] => .ok w
      | _ :: _ :: _ => .error .usage
      | [] =>
          if isNegativeNumber s || s.toList.contains ' ' then .ok (.plain s)
          else .ok .unknown

/-- What an argument before the double dash is taken for. -/
def classify (s : String) : Except Refusal Word :=
  match s.toList with
  | '-' :: _ :: _ =>
      match spellings.lookup s with
      | some flag => .ok (.option flag (isShort s) none)
      | none => classifyDashed s
  | _ => .ok (.plain s)

/-- All arguments, those behind a double dash plain. -/
def classifyAll : List String → Except Refusal (List Word)
  | [] => .ok []
  | "--" :: rest => .ok (.separator :: rest.map Word.plain)
  | s :: rest => do
      let w ← classify s
      return w :: (← classifyAll rest)

-- ============================================================ reading

/-- Where the run of expressions stands. -/
inductive Run where
  | before
  | during
  | after
deriving DecidableEq, Repr

/-- What was read so far. -/
structure Reading where
  arguments : Arguments := {}
  run : Run := .before
  /-- Something was left that is neither option nor expression. -/
  leftOver : Bool := false

/-- An option without a value takes effect. -/
def applyFlag (a : Arguments) : Flag → Except Refusal Arguments
  | .help => .error .help
  | .tokens => .ok { a with tokens := true }
  | .tree => .ok { a with tree := true }
  | .time => .ok { a with time := true }
  | .verbose => .ok { a with verbose := a.verbose + 1 }
  | .file | .maxIterations => .error .usage

/-- An option with its value takes effect. -/
def applyValue (a : Arguments) (flag : Flag) (value : String) :
    Except Refusal Arguments :=
  match flag with
  | .file => .ok { a with file := some value }
  | .maxIterations =>
      match Numeral.readWhole? value with
      | some n => .ok { a with maxIterations := some n }
      | none => .error .usage
  | _ => .error .usage

/-- The options that one word asks for. -/
structure Request where
  flags : List Flag
  /-- The value joined to the last of them. -/
  value : Option String := none
  /-- Letters were left that are no options. -/
  leftOver : Bool := false

/-- An option and what is joined to it behind one dash: its value if it
takes one, otherwise further options. -/
def splitJoined (flag : Flag) (equals : Bool) (cs : List Char) :
    Except Refusal Request :=
  if flag.takesValue then .ok ⟨[flag], some (String.ofList cs), false⟩
  else
    match cs with
    | [] => .error .usage
    | c :: rest =>
        if equals || c == '-' then .error .usage
        else
          match spellings.lookup (String.ofList ['-', c]), rest with
          | none, _ => .ok { flags := [flag], leftOver := true }
          | some next, [] => .ok { flags := [flag, next] }
          | some next, '=' :: rest => do
              let r ← splitJoined next true rest
              return { r with flags := flag :: r.flags }
          | some next, d :: rest => do
              let r ← splitJoined next false (d :: rest)
              return { r with flags := flag :: r.flags }

/-- The options of a word. -/
def requestOf (flag : Flag) (short : Bool) :
    Option Joined → Except Refusal Request
  | none => .ok { flags := [flag] }
  | some ⟨equals, text⟩ =>
      if short then splitJoined flag equals text
      else if flag.takesValue then
        .ok ⟨[flag], some (String.ofList text), false⟩
      else .error .usage

/-- Options take effect in order; the last one with its value. -/
def applyFlags (a : Arguments) (value : Option String) :
    List Flag → Except Refusal Arguments
  | [] => .ok a
  | [flag] =>
      match value with
      | some v => applyValue a flag v
      | none => applyFlag a flag
  | flag :: rest => do applyFlags (← applyFlag a flag) value rest

/-- The last option of a word still needs a value. -/
def Request.wantsValue (q : Request) : Bool :=
  q.value.isNone && q.flags.getLast?.any Flag.takesValue

/-- One more word that is no option. -/
def Reading.addPlain (r : Reading) (s : Option String) : Reading :=
  match r.run with
  | .after => { r with leftOver := true }
  | _ =>
      { r with
        run := .during
        arguments :=
          { r.arguments with
            expressions := r.arguments.expressions ++ s.toList } }

/-- The run of expressions, if it has begun, is over. -/
def Reading.endRun (r : Reading) : Reading :=
  match r.run with
  | .during => { r with run := .after }
  | _ => r

/-- The options of a word take effect. -/
def Reading.apply (r : Reading) (q : Request) : Except Refusal Reading := do
  let a ← applyFlags r.arguments q.value q.flags
  return { r.endRun with
    arguments := a
    leftOver := r.leftOver || q.leftOver }

/-- Reads the words from the left. -/
def readWords (r : Reading) : List Word → Except Refusal Reading
  | [] => .ok r
  | .plain s :: rest => readWords (r.addPlain (some s)) rest
  | .separator :: rest => readWords (r.addPlain none) rest
  | .unknown :: rest => readWords { r.endRun with leftOver := true } rest
  | .option flag short joined :: rest =>
      match requestOf flag short joined with
      | .error e => .error e
      | .ok q =>
          if q.wantsValue then
            match rest with
            | .plain v :: rest => do
                readWords (← r.apply { q with value := some v }) rest
            | _ => .error .usage
          else do readWords (← r.apply q) rest

/-- The arguments of a command line. -/
def Arguments.read (argv : List String) : Except Refusal Arguments := do
  let r ← readWords {} (← classifyAll argv)
  if r.leftOver then throw .usage
  return r.arguments

end Metrology.CommandLine
