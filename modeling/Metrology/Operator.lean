/-
Operators: the signs and words that act on values or steer a program.
Each has one spelling. A sign that no program can contain still has a
place, `other`, so that trees put together by hand can name it.
-/

namespace Metrology

inductive Operator where
  | assign
  | plus
  | minus
  | times
  | divide
  | power
  /-- Attaches a standard deviation to a value. -/
  | plusMinus
  | lnot
  /-- Asks whether a value is certain. -/
  | certain
  /-- Drops the uncertainty of a value. -/
  | valueOf
  /-- Gives the uncertainty of a value. -/
  | uncertaintyOf
  | equal
  | notEqual
  | greater
  | greaterEqual
  | less
  | lessEqual
  | land
  | lnand
  | lor
  | lxor
  | ifThen
  | otherwise
  | whileLoop
  | forLoop
  | other (symbol : String)
deriving DecidableEq, Repr

namespace Operator

/-- The operators of the language with their spellings. -/
def spellings : List (String × Operator) :=
  [ ("=", assign), ("+", plus), ("-", minus), ("*", times), ("/", divide),
    ("^", power), ("pm", plusMinus), ("!", lnot), ("?", certain),
    ("$", valueOf), ("&", uncertaintyOf), ("==", equal), ("!=", notEqual),
    (">", greater), (">=", greaterEqual), ("<", less), ("<=", lessEqual),
    ("and", land), ("nand", lnand), ("or", lor), ("xor", lxor),
    ("if", ifThen), ("else", otherwise), ("while", whileLoop),
    ("for", forLoop) ]

/-- The spelling of an operator. -/
def symbol : Operator → String
  | assign => "="
  | plus => "+"
  | minus => "-"
  | times => "*"
  | divide => "/"
  | power => "^"
  | plusMinus => "pm"
  | lnot => "!"
  | certain => "?"
  | valueOf => "$"
  | uncertaintyOf => "&"
  | equal => "=="
  | notEqual => "!="
  | greater => ">"
  | greaterEqual => ">="
  | less => "<"
  | lessEqual => "<="
  | land => "and"
  | lnand => "nand"
  | lor => "or"
  | lxor => "xor"
  | ifThen => "if"
  | otherwise => "else"
  | whileLoop => "while"
  | forLoop => "for"
  | other s => s

/-- The operator that is spelled so. -/
def ofSymbol (s : String) : Operator := (spellings.lookup s).getD (other s)

/-- The operator of a single character, and the one that an equals sign
behind it makes of it. -/
def lengthened? : Char → Option (Operator × Operator)
  | '=' => some (assign, equal)
  | '!' => some (lnot, notEqual)
  | '>' => some (greater, greaterEqual)
  | '<' => some (less, lessEqual)
  | _ => none

/-- The operators of a single character that nothing lengthens. -/
def single? : Char → Option Operator
  | '+' => some plus
  | '-' => some minus
  | '*' => some times
  | '/' => some divide
  | '^' => some power
  | '?' => some certain
  | '&' => some uncertaintyOf
  | '$' => some valueOf
  | _ => none

/-- The words that are operators. -/
def words : List (String × Operator) :=
  [ ("or", lor), ("and", land), ("nand", lnand), ("xor", lxor),
    ("if", ifThen), ("else", otherwise), ("pm", plusMinus),
    ("while", whileLoop), ("for", forLoop) ]

end Operator

end Metrology
