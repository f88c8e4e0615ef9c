/-
Strings with places to fill in. A template is cut into parts: literal
text, with backslashes before braces and backslashes resolved, and places
between braces. Where the braces do not match the cut ends in a broken
part that carries the error, so places before it are filled in first.

A place holds the name of a variable and, between bars, the unit to show
it in.
-/
import Metrology.Program.Action
import Metrology.Text.Identifier

namespace Metrology.Program

open Text

/-- A part of a template. -/
inductive Part where
  | literal (text : String)
  | place (content : String)
  | broken (e : EvalError)

/-- A backslash before the cluster is dropped. -/
def isEscapable (c : Cluster) : Bool :=
  c.isChar '\x7b' || c.isChar '\x7d' || c.isChar '\\'

/-- A place that is still open: where its brace stands, and its clusters
so far, last first. -/
structure OpenPlace where
  position : Nat
  content : List Cluster := []

/-- The parts from a position onwards, inside the open place if there is
one. -/
def partsFrom (template : String) (position : Nat)
    (place? : Option OpenPlace) : List Cluster → List Part
  | [] =>
      match place? with
      | none => []
      | some place => [.broken (.unmatchedOpen place.position template)]
  | c :: cs =>
      match place? with
      | some place =>
          if c.isChar '\x7d' then
            .place (textOf place.content.reverse)
              :: partsFrom template (position + 1) none cs
          else if c.isChar '\x7b' then
            [.broken (.nestedOpen position template)]
          else
            partsFrom template (position + 1)
              (some { place with content := c :: place.content }) cs
      | none =>
          match cs with
          | d :: ds =>
              if c.isChar '\\' && isEscapable d then
                .literal d.text :: partsFrom template (position + 2) none ds
              else if c.isChar '\x7d' then
                [.broken (.unmatchedClose position template)]
              else if c.isChar '\x7b' then
                partsFrom template (position + 1)
                  (some { position := position }) (d :: ds)
              else
                .literal c.text
                  :: partsFrom template (position + 1) none (d :: ds)
          | [] =>
              if c.isChar '\x7d' then
                [.broken (.unmatchedClose position template)]
              else if c.isChar '\x7b' then
                [.broken (.unmatchedOpen position template)]
              else [.literal c.text]

/-- The parts of a template. -/
def parts (template : String) : List Part :=
  partsFrom template 0 none (clusters template)

-- ============================================================== places

/-- The unit text between the bars of a place, given what follows the
first bar: it ends in a bar, holds no other and is not blank. -/
def placeUnit? (suffix : List Char) : Option String :=
  match suffix.reverse with
  | '|' :: inside =>
      let text := trim (String.ofList inside.reverse)
      if inside.contains '|' || text = "" then none else some text
  | _ => none

/-- The text of a place. -/
def fillPlace (template content : String) : Action String := do
  let cs := content.toList
  let name := trim (String.ofList (cs.takeWhile (· != '|')))
  if !isName name then
    fail (.eval (.malformedInterpolation content template))
  let v ← lookup name
  match cs.dropWhile (· != '|') with
  | [] => lift v.render
  | _ :: suffix =>
      match placeUnit? suffix, v with
      | none, _ => fail (.eval (.malformedUnitSuffix content))
      | some unit, .number q => lift (q.textIn unit)
      | some _, v => fail (.eval (.unitOfNonNumber name v.kind))

/-- The text of a part. -/
def fillPart (template : String) : Part → Action String
  | .literal text => pure text
  | .place content => fillPlace template content
  | .broken e => fail (.eval e)

/-- A template with its places filled in, from the left. -/
def fill (template : String) : Action String := do
  return String.join (← (parts template).mapM (fillPart template))

end Metrology.Program
