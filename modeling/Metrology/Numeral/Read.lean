/-
Reading numbers. A number is digits with at most one point, perhaps with a
sign and an exponent, or a name of an infinity or of NaN; it gives the
nearest double. A whole number is a sign or none and digits. Both may have
white space around them, digits of any script and single underscores
between these.
-/
import Metrology.Text.Blank
import Metrology.Text.Digit

namespace Metrology.Numeral

open Text

/-- The number that decimal digits of ASCII spell. -/
def readDigits (ds : List Char) : Nat :=
  ds.foldl (fun n c => 10 * n + (c.toNat - '0'.toNat)) 0

-- ============================================================ decimals

/-- The digits before and after the point of a plain decimal: at least
one digit in all, and at most one point. -/
def splitDecimal? (cs : List Char) : Option (List Char × List Char) :=
  let whole := cs.takeWhile isAsciiDigit
  match cs.dropWhile isAsciiDigit with
  | [] => if whole.isEmpty then none else some (whole, [])
  | '.' :: fraction =>
      if fraction.all isAsciiDigit && !(whole.isEmpty && fraction.isEmpty) then
        some (whole, fraction)
      else
        none
  | _ => none

/-- The magnitude is so small that its double is zero: as `n` is below
`2 ^ (n.log2 + 1)` and ten is above `2 ^ 3`, it is below `2 ^ (-1200)`. -/
def vanishes (n : Nat) (places : Nat) : Bool := n.log2 + 1201 ≤ 3 * places

/-- The double nearest to `n * 10 ^ e`. Beyond a few hundred places either
way only the infinity and zero are left. -/
def ofDecimal (n : Nat) (e : Int) : Float :=
  if n = 0 then 0.0
  else if e < 0 then
    if vanishes n e.natAbs then 0.0
    else Float.ofScientific n true e.natAbs
  else if 400 < e then 1.0 / 0.0
  else Float.ofScientific n false e.natAbs

/-- Digits with an optional sign in front. -/
def readExponent? (cs : List Char) : Option Int :=
  let (negative, ds) :=
    match cs with
    | '-' :: ds => (true, ds)
    | '+' :: ds => (false, ds)
    | ds => (false, ds)
  if ds.isEmpty || !ds.all isAsciiDigit then none
  else some (if negative then -(readDigits ds : Int) else readDigits ds)

/-- A number without its sign: a decimal, an exponent behind it or not, or
the name of an infinity or of NaN in letters of either case. -/
def readMagnitude? (cs : List Char) : Option Float :=
  let word := String.ofList (cs.map Char.toLower)
  if word = "inf" || word = "infinity" then some (1.0 / 0.0)
  else if word = "nan" then some (0.0 / 0.0)
  else do
    let isMark (c : Char) := c == 'e' || c == 'E'
    let (whole, fraction) ← splitDecimal? (cs.takeWhile (!isMark ·))
    let e ← match cs.dropWhile (!isMark ·) with
      | [] => some 0
      | _ :: rest => readExponent? rest
    return ofDecimal (readDigits (whole ++ fraction)) (e - fraction.length)

/-- A digit of any script as the digit of ASCII with its value, and other
characters as they are. -/
def plainDigit (c : Char) : Char :=
  match digitValue? c with
  | some d => Char.ofNat ('0'.toNat + d)
  | none => c

/-- The characters without their underscores, each of which has to stand
between two digits. `afterDigit` says that a digit stands before. -/
def dropUnderscores? (afterDigit : Bool) : List Char → Option (List Char)
  | [] => some []
  | '_' :: cs =>
      if afterDigit && cs.head?.any isAsciiDigit then
        dropUnderscores? false cs
      else none
  | c :: cs => (dropUnderscores? (isAsciiDigit c) cs).map (c :: ·)

/-- A number: "12", ".5", "2.", " 1_000 ", "-1e-05", "٢", "Infinity". The
numbers of a program are of the first three kinds. -/
def read? (s : String) : Option Float := do
  let cs := (trimChars isWhiteSpace s.toList).map plainDigit
  match ← dropUnderscores? false cs with
  | '-' :: cs => (readMagnitude? cs).map (-·)
  | '+' :: cs => readMagnitude? cs
  | cs => readMagnitude? cs

-- ======================================================= whole numbers

/-- The longest written whole number that is read, in digits. -/
def wholeDigitLimit : Nat := 4300

/-- Digits of any script with single underscores between them. `pending`
says that a digit must follow, as it must at the start and after an
underscore. -/
def readAnyDigits? (value count : Nat) (pending : Bool) :
    List Char → Option (Nat × Nat)
  | [] => if pending then none else some (value, count)
  | '_' :: cs => if pending then none else readAnyDigits? value count true cs
  | c :: cs => do
      let d ← digitValue? c
      readAnyDigits? (10 * value + d) (count + 1) false cs

/-- A whole number: "12", " -3 ", "1_000", "٢". -/
def readWhole? (s : String) : Option Int := do
  let cs := trimChars isWhiteSpace s.toList
  let (negative, ds) :=
    match cs with
    | '-' :: ds => (true, ds)
    | '+' :: ds => (false, ds)
    | ds => (false, ds)
  let (n, count) ← readAnyDigits? 0 0 true ds
  if wholeDigitLimit < count then none
  else some (if negative then -(n : Int) else n)

end Metrology.Numeral
