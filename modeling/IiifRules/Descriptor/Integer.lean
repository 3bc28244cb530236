import IiifRules.Json.Basic
import IiifRules.Numeric.Numeral
import IiifRules.Text.Blank
import IiifRules.Text.Fields

/-! # Integers of a document

Which JSON values an integer field takes. Integers and truth values are taken, numbers without a
fraction within 64 bits, and texts that spell an integer: blanks around it, a plus sign, redundant
zeros with or without a sign in front, single underscores between digits and a fraction of zeros are
passed over. -/

namespace IiifRules.Descriptor

open Numeric Text

/-- The integer of an optional minus sign and digits without a redundant zero. A run that is too
long is told from one that is no integer. -/
def plainInteger (cs : List Char) : Except FieldFault Int :=
  let neg := cs.head? = some '-'
  let body := if neg then cs.drop 1 else cs
  let run := body.takeWhile Char.isDigit
  if run = ['0'] ∧ body.length = 1 then .ok 0
  else if run.isEmpty ∨ run.head? = some '0' then .error .badInteger
  else if Numeral.digitLimit < run.length then .error .oversizedInteger
  else if run.length = body.length then
    .ok (if neg then -(Numeral.value run : Int) else Numeral.value run)
  else .error .badInteger

/-- Passes over zeros and underscores after a first zero, `last` being the character before. A digit
or a minus sign ends them, a point keeps the character before it, and nothing else may follow. -/
def dropZerosAfter (last : Char) : List Char → Option (List Char)
  | [] => some [last]
  | c :: cs =>
    if c = '0' ∨ c = '_' then dropZerosAfter c cs
    else if c = '.' then some (last :: c :: cs)
    else if c.isDigit ∨ c = '-' then some (c :: cs)
    else none

/-- Passes over redundant zeros; only a digit may come first. -/
def dropZeros (cs : List Char) : Option (List Char) :=
  match cs with
  | [] => none
  | c :: rest =>
    if c = '0' then dropZerosAfter c rest
    else if c.isDigit then some cs
    else none

/-- Leaves out a point with zeros after it, at least one and nothing else. -/
def dropFraction (cs : List Char) : List Char :=
  match cut '.' cs with
  | (whole, some fraction) => if !fraction.isEmpty && fraction.all (· = '0') then whole else cs
  | (_, none) => cs

def hasDoubleUnderscore : List Char → Bool
  | '_' :: '_' :: _ => true
  | _ :: cs => hasDoubleUnderscore cs
  | [] => false

/-- Leaves out underscores if each of them stands alone between other characters. -/
def dropUnderscores (cs : List Char) : List Char :=
  if cs.head? = some '_' ∨ cs.getLast? = some '_' ∨ hasDoubleUnderscore cs then cs
  else cs.filter (· ≠ '_')

/-- The spelling of an integer without what is passed over. A sign in front is set aside while
zeros, fraction and underscores are left out, and a minus sign then put back. -/
def cleanInteger (cs : List Char) : Option (List Char) :=
  match trim isWhiteSpace cs with
  | '+' :: '-' :: _ => none
  | '+' :: body => magnitude body
  | '-' :: body => (magnitude body).map ('-' :: ·)
  | body => magnitude body
where
  /-- The spelling behind the sign. -/
  magnitude (body : List Char) : Option (List Char) :=
    (dropZeros body).map fun cs => dropUnderscores (dropFraction cs)

/-- The integer that a text spells. Only a text that is taken as it stands can be too long; one that
has to be cleaned first and is too long then is no integer. -/
def integerOfText (s : String) : Except FieldFault Int :=
  match plainInteger s.toList with
  | .error .badInteger =>
    match (cleanInteger s.toList).map plainInteger with
    | some (.ok n) => .ok n
    | _ => .error .badInteger
  | answer => answer

/-- **The integer that a value gives a field.** -/
def integerOf : Json → Except FieldFault Int
  | .int n => .ok n
  | .bool b => .ok (if b then 1 else 0)
  | .float x =>
    match x with
    | .finite .. =>
      match x.toInt? with
      | some n => if n.natAbs < Nat.pow 2 63 then .ok n else .error .oversizedInteger
      | none => .error .fractional
    | _ => .error .notFinite
  | .text s => integerOfText s
  | _ => .error .notInteger

end IiifRules.Descriptor
