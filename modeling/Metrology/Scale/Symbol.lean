/-
Unit symbols. A unit is a scale: a dimension, the factor to base units,
and a shift for scales whose zero is elsewhere. A value `v` on the scale
is `(v - shift) * factor` in base units.

A symbol is looked up whole first, so "pi" is not pico-i and "m" is not
milli-nothing; only then is it split into a decimal multiple and a symbol
of the base or derived units.
-/
import Metrology.Error

namespace Metrology

/-- How values on a unit's scale relate to base units. -/
structure Scale where
  dimension : Dimension
  factor : Float := 1.0
  shift : Float := 0.0

namespace Scale

/-- A named unit: its dimension and its factor to base units. -/
abbrev Entry := String × Dimension × Float

/-- The base units; of mass the gram, which takes the multiples. -/
def baseUnits : List Entry :=
  [ ("m", { length := 1 }, 1.0),
    ("g", { mass := 1 }, 1e-3),
    ("s", { time := 1 }, 1.0),
    ("A", { current := 1 }, 1.0),
    ("K", { temperature := 1 }, 1.0),
    ("mol", { amount := 1 }, 1.0),
    ("cd", { luminosity := 1 }, 1.0) ]

/-- Units with names of their own. Tesla is spelled out, since T alone
is the multiple tera. -/
def derivedUnits : List Entry :=
  [ ("Hz", { time := -1 }, 1.0),
    ("N", { length := 1, mass := 1, time := -2 }, 1.0),
    ("Pa", { length := -1, mass := 1, time := -2 }, 1.0),
    ("J", { length := 2, mass := 1, time := -2 }, 1.0),
    ("W", { length := 2, mass := 1, time := -3 }, 1.0),
    ("C", { time := 1, current := 1 }, 1.0),
    ("V", { length := 2, mass := 1, time := -3, current := -1 }, 1.0),
    ("F", { length := -2, mass := -1, time := 4, current := 2 }, 1.0),
    ("Ω", { length := 2, mass := 1, time := -3, current := -2 }, 1.0),
    ("ohm", { length := 2, mass := 1, time := -3, current := -2 }, 1.0),
    ("S", { length := -2, mass := -1, time := 3, current := 2 }, 1.0),
    ("Wb", { length := 2, mass := 1, time := -2, current := -1 }, 1.0),
    ("Tesla", { mass := 1, time := -2, current := -1 }, 1.0),
    ("H", { length := 2, mass := 1, time := -2, current := -2 }, 1.0),
    ("lm", { luminosity := 1 }, 1.0),
    ("lx", { length := -2, luminosity := 1 }, 1.0),
    ("L", { length := 3 }, 1e-3),
    ("eV", { length := 2, mass := 1, time := -2 }, 1.602176634e-19),
    ("Bq", { time := -1 }, 1.0),
    ("Gy", { length := 2, time := -2 }, 1.0),
    ("Sv", { length := 2, time := -2 }, 1.0),
    ("kat", { time := -1, amount := 1 }, 1.0) ]

/-- The units that take decimal multiples. -/
def namedUnits : List Entry := baseUnits ++ derivedUnits

/-- The ratio of a circle's circumference to its diameter. -/
def pi : Float := 3.141592653589793

/-- Plain numbers with a name. -/
def ratios : List (String × Float) :=
  [ ("rad", 1.0),
    ("sr", 1.0),
    ("%", 1e-2),
    ("pi", pi),
    ("π", pi),
    ("°", pi / 180.0),
    ("deg", pi / 180.0) ]

/-- The one shifted scale, and where its zero lies. -/
def celsius : String := "°C"

def celsiusShift : Float := -273.15

/-- Decimal multiples. Those of two letters come first, so that "da" wins
over "d" and "mu" over "m". -/
def multiples : List (String × Float) :=
  [ ("da", 1e1), ("mu", 1e-6), ("mi", 1e-6),
    ("Q", 1e30), ("R", 1e27), ("Y", 1e24), ("Z", 1e21), ("E", 1e18),
    ("P", 1e15), ("T", 1e12), ("G", 1e9), ("M", 1e6), ("k", 1e3),
    ("h", 1e2), ("d", 1e-1), ("c", 1e-2), ("m", 1e-3),
    ("µ", 1e-6), ("μ", 1e-6), ("n", 1e-9), ("p", 1e-12), ("f", 1e-15),
    ("a", 1e-18), ("z", 1e-21), ("y", 1e-24), ("r", 1e-27), ("q", 1e-30) ]

-- ============================================================= look-up

/-- What follows `head` in `s`, if `s` starts with it. -/
def after? : List Char → List Char → Option (List Char)
  | [], s => some s
  | _ :: _, [] => none
  | c :: head, d :: s => if c = d then after? head s else none

/-- The symbol read as a decimal multiple of a named unit, by the first
multiple that fits. The shifted scale takes none. -/
def lookupMultiple (term symbol : String) :
    List (String × Float) → Except UnitError Scale
  | [] => .error (.unknownUnit term symbol)
  | (multiple, factor) :: rest =>
      match after? multiple.toList symbol.toList with
      | none => lookupMultiple term symbol rest
      | some tail =>
          match namedUnits.lookup (String.ofList tail) with
          | some (d, unit) => .ok { dimension := d, factor := factor * unit }
          | none =>
              if String.ofList tail = celsius then .error (.shiftedScaled term)
              else lookupMultiple term symbol rest

/-- The scale of a symbol without exponent; `term` is quoted in errors. -/
def lookup (term symbol : String) : Except UnitError Scale :=
  if symbol = celsius then
    .ok { dimension := { temperature := 1 }, shift := celsiusShift }
  else
    match ratios.lookup symbol with
    | some factor => .ok { dimension := .unitless, factor := factor }
    | none =>
        match namedUnits.lookup symbol with
        | some (d, factor) => .ok { dimension := d, factor := factor }
        | none => lookupMultiple term symbol multiples

end Scale

end Metrology
