/-
Numbers as text. A double is written with its shortest digits, in one of
two layouts: positional while the decimal point is near the digits, and
with an exponent elsewhere. `Layout` holds what a format decides; the
digits come from `Shortest`. A second form has a fixed number of places
and is rounded from the exact value.
-/
import Metrology.Numeral.Shortest

namespace Metrology.Numeral

-- ======================================================== exact layout

/-- Where positional writing begins and ends (by the exponent of the
first digit), and the least number of digits of a written exponent. -/
structure Layout where
  positionalFrom : Int
  positionalBelow : Int
  exponentDigits : Nat

/-- Positional from 0.0001 up to sixteen places before the point; an
exponent has a sign and at least two digits. -/
def exactLayout : Layout := ⟨-4, 16, 2⟩

/-- A natural number padded with zeros on the left. -/
def padded (width n : Nat) : List Char :=
  let ds := digits n
  List.replicate (width - ds.length) '0' ++ ds

/-- The digits without trailing zeros. -/
def withoutTrailingZeros (ds : List Char) : List Char :=
  (ds.reverse.dropWhile (· == '0')).reverse

/-- Digits with the decimal point after `point` of them, and at least one
digit on each side. -/
def positional (ds : List Char) (point : Int) : List Char :=
  if point ≤ 0 then
    '0' :: '.' :: (List.replicate (-point).toNat '0' ++ ds)
  else
    let n := point.toNat
    if ds.length ≤ n then
      ds ++ List.replicate (n - ds.length) '0' ++ ['.', '0']
    else
      ds.take n ++ '.' :: ds.drop n

/-- Digits with the point after the first and an exponent. -/
def scientific (l : Layout) (ds : List Char) (exponent : Int) : List Char :=
  let mantissa :=
    match ds with
    | d :: e :: rest => d :: '.' :: e :: rest
    | _ => ds
  let sign := if exponent < 0 then '-' else '+'
  mantissa ++ 'e' :: sign :: padded l.exponentDigits exponent.natAbs

/-- A positive decimal in a layout. -/
def Decimal.write (l : Layout) (d : Decimal) : List Char :=
  let all := digits d.coefficient
  let point := (all.length : Int) + d.exponent
  let ds := withoutTrailingZeros all
  if l.positionalFrom ≤ point - 1 && point - 1 < l.positionalBelow then
    positional ds point
  else
    scientific l ds (point - 1)

/-- The text of a double that reads back as the same double: always with
a point or an exponent. -/
def write (x : Float) : String :=
  match Exact.ofFloat? x with
  | none => if x.isNaN then "nan" else if x < 0 then "-inf" else "inf"
  | some e =>
      let body :=
        if e.significand = 0 then ['0', '.', '0']
        else (shortest e).write exactLayout
      String.ofList (if e.negative then '-' :: body else body)

-- ======================================================== fixed places

/-- The value rounded to that many places after the point, half to even,
with the sign kept even where all digits are zero. -/
def Exact.writeFixed (x : Exact) (places : Nat) : String :=
  let n := roundDiv (x.num * Nat.pow 10 places) x.den
  let ds := padded (places + 1) n
  let whole := ds.take (ds.length - places)
  let body := if places = 0 then whole else whole ++ '.' :: ds.drop whole.length
  String.ofList (if x.negative then '-' :: body else body)

/-- A double with a fixed number of places. -/
def writeFixed (x : Float) (places : Nat) : String :=
  match Exact.ofFloat? x with
  | some e => e.writeFixed places
  | none => write x

-- ========================================================= superscript

/-- The raised form of a digit or minus sign. -/
def raised : Char → Char
  | '0' => '⁰'
  | '1' => '¹'
  | '2' => '²'
  | '3' => '³'
  | '4' => '⁴'
  | '5' => '⁵'
  | '6' => '⁶'
  | '7' => '⁷'
  | '8' => '⁸'
  | '9' => '⁹'
  | '-' => '⁻'
  | c => c

/-- The characters of a whole number. -/
def wholeChars (n : Int) : List Char :=
  if n < 0 then '-' :: digits n.natAbs else digits n.natAbs

/-- A whole number as text, however many digits it has. -/
def writeWhole (n : Int) : String := String.ofList (wholeChars n)

/-- A whole number as a superscript. -/
def superscript (n : Int) : String :=
  String.ofList ((wholeChars n).map raised)

end Metrology.Numeral
