import IiifRules.Json.Display
import IiifRules.Numeric.Places

/-! # Message templates

A template is a text with directives. A directive begins with a percent sign and may give a name in
parentheses, flags, a least width, a precision and a length mark before the letter that says how its
argument is written; `%%` is a percent sign. Arguments are taken in order, or by name from one
object.

* `Template.expand`: the text of a template with its arguments, or what is wrong with them. -/

namespace IiifRules.Log.Template

open Numeric Text

/-- The arguments that are left, and the object of those that are taken by name. -/
structure Supply where
  next : List Json
  named? : Option Json.Members

/-- Several arguments, or one object of named ones. -/
def Supply.ofArguments : List Json → Supply
  | [.object ms] => ⟨[.object ms], if ms.isEmpty then none else some ms⟩
  | vs => ⟨vs, none⟩

def fail {α : Type} (fault : TemplateFault) : Except Failure α := .error (.template fault)

/-- The next argument. -/
def Supply.take (s : Supply) : Except Failure (Json × Supply) :=
  match s.next with
  | [] => fail .tooFewArguments
  | v :: vs => .ok (v, ⟨vs, s.named?⟩)

/-- How an argument is written. -/
structure Directive where
  left : Bool
  plus : Bool
  blank : Bool
  alternate : Bool
  zeros : Bool
  width : Nat
  precision : Option Nat
  letter : Char

/-- The characters up to the parenthesis that closes `depth` others, and those after it. -/
def splitName : Nat → List Char → Option (List Char × List Char)
  | _, [] => none
  | depth, c :: cs =>
    if c = ')' then
      match depth with
      | 0 => some ([], cs)
      | d + 1 => (splitName d cs).map fun (name, rest) => (c :: name, rest)
    else
      let depth := if c = '(' then depth + 1 else depth
      (splitName depth cs).map fun (name, rest) => (c :: name, rest)

/-- Takes an argument by name if the directive begins with one. -/
def selectNamed (cs : List Char) (s : Supply) : Except Failure (List Char × Supply) :=
  match cs with
  | '(' :: cs =>
    match s.named?, splitName 0 cs with
    | none, _ => fail .needsMapping
    | some _, none => fail .unclosedKey
    | some ms, some (name, rest) =>
      match Json.get? ms (String.ofList name) with
      | some v => .ok (rest, ⟨[v], s.named?⟩)
      | none => fail (.missingKey (Quoted.ofString (String.ofList name)))
  | cs => .ok (cs, s)

def widthLimit : Nat := Nat.pow 2 63 - 1

def precisionLimit : Nat := Nat.pow 2 31 - 1

/-- A number of a directive, within a limit: digits, or a star for the next argument. Without digits
it is zero. -/
def readCount (limit : Nat) (excess : TemplateFault) (cs : List Char) (s : Supply) :
    Except Failure (Int × List Char × Supply) :=
  match cs with
  | '*' :: rest => do
    let (v, s) ← s.take
    match v with
    | .int n => if -(limit : Int) - 1 ≤ n ∧ n ≤ limit then return (n, rest, s) else fail excess
    | .bool b => return (if b then 1 else 0, rest, s)
    | _ => fail .starNeedsInteger
  | _ =>
    let ds := cs.takeWhile Char.isDigit
    let n := Numeral.value ds
    if n ≤ limit then .ok (n, cs.drop ds.length, s) else fail excess

/-- Reads the directive after a percent sign. -/
def readDirective (cs : List Char) (s : Supply) :
    Except Failure (Directive × List Char × Supply) := do
  let (cs, s) ← selectNamed cs s
  let flags := cs.takeWhile fun c => ['-', '+', ' ', '#', '0'].contains c
  let (width, cs, s) ← readCount widthLimit .widthTooBig (cs.drop flags.length) s
  let (precision, cs, s) ←
    match cs with
    | '.' :: rest => do
      let (n, rest, s) ← readCount precisionLimit .precisionTooBig rest s
      pure (some n.toNat, rest, s)
    | _ => pure (none, cs, s)
  let cs := if cs.head?.any (['h', 'l', 'L'].contains ·) then cs.drop 1 else cs
  match cs with
  | [] => fail .incomplete
  | letter :: rest =>
    return (
      { left := flags.contains '-' || width < 0
        plus := flags.contains '+'
        blank := flags.contains ' '
        alternate := flags.contains '#'
        zeros := flags.contains '0'
        width := width.natAbs
        precision, letter }, rest, s)

namespace Directive

/-- Fills a text up to the width, with zeros between its beginning and its body if they are asked
for. -/
def pad (d : Directive) (zeros : Bool) (beginning body : List Char) : List Char :=
  let missing := d.width - (beginning.length + body.length)
  if d.left then beginning ++ body ++ List.replicate missing ' '
  else if zeros then beginning ++ List.replicate missing '0' ++ body
  else List.replicate missing ' ' ++ beginning ++ body

def sign (d : Directive) (neg : Bool) : List Char :=
  if neg then ['-'] else if d.plus then ['+'] else if d.blank then [' '] else []

/-- A text, cut to the precision. -/
def writeText (d : Directive) (cs : List Char) : List Char :=
  d.pad false [] (match d.precision with | some n => cs.take n | none => cs)

/-- The digits of a number in a base, most significant first. -/
def baseDigits (base : Nat) : Nat → Nat → List Char → List Char
  | 0, _, acc => acc
  | fuel + 1, n, acc =>
    let acc := Hex.lower (n % base) :: acc
    if n < base then acc else baseDigits base fuel (n / base) acc

/-- An integer, filled up with zeros to the precision. -/
def writeInteger (d : Directive) (mark : List Char) (n : Int) (digits : List Char) : List Char :=
  let body := List.replicate (d.precision.getD 0 - digits.length) '0' ++ digits
  d.pad d.zeros (d.sign (n < 0) ++ mark) body

/-- An integer in base eight or sixteen, with a mark of the base in the alternate form. -/
def writeBase (d : Directive) (n : Int) (base : Nat) (upper : Bool) : List Char :=
  let ds := baseDigits base (n.natAbs.log2 + 1) n.natAbs []
  d.writeInteger (if d.alternate then ['0', d.letter] else []) n
    (if upper then ds.map Char.toUpper else ds)

/-- A number in the form that the letter asks for. -/
def writeFloat (d : Directive) (x : Binary64) : List Char :=
  let precision := d.precision.getD 6
  let lower := d.letter.toLower
  let body :=
    match x with
    | .nan => Binary64.nanChars
    | .infinite _ => Binary64.infinityChars false
    | .finite _ units _ =>
      if lower = 'e' then Binary64.exponentialChars d.alternate precision units
      else if lower = 'f' then Binary64.fixedChars d.alternate precision units
      else Binary64.generalChars d.alternate (max 1 precision) units
  d.pad d.zeros (d.sign x.isNegative) (if d.letter.isUpper then body.map Char.toUpper else body)

/-- The integer part of an argument. -/
def wholeOf (d : Directive) : Json → Except Failure Int
  | .int n => .ok n
  | .bool b => .ok (if b then 1 else 0)
  | .float x =>
    if x.isNegative then do return -(← (Binary64.mul (.ofInt (-1)) x).floor) else x.floor
  | v => fail (.needsNumber d.letter v.kindWord)

def integerOf (d : Directive) : Json → Except Failure Int
  | .int n => .ok n
  | .bool b => .ok (if b then 1 else 0)
  | v => fail (.needsInteger d.letter v.kindWord)

def floatOf : Json → Except Failure Binary64
  | .int n => floatOfInt n
  | .bool b => .ok (.ofInt (if b then 1 else 0))
  | .float x => .ok x
  | v => fail (.needsFloat v.kindWord)

def characterOf : Json → Except Failure Char
  | .int n => if 0 ≤ n ∧ n < 0x110000 then .ok (Char.ofNat n.toNat) else fail .characterRange
  | .bool b => .ok (Char.ofNat (if b then 1 else 0))
  | .text s =>
    match s.toList with
    | [c] => .ok c
    | _ => fail .needsCharacter
  | _ => fail .needsCharacter

/-- An argument as the directive at `index` writes it. -/
def write (d : Directive) (index : Nat) (v : Json) : Except Failure (List Char) :=
  match d.letter with
  | 's' => .ok (d.writeText v.shown)
  | 'r' => .ok (d.writeText v.quoted)
  | 'a' => .ok (d.writeText (v.quotedBy Quoted.quoteAscii))
  | 'd' | 'i' | 'u' => do
    let n ← d.wholeOf v
    return d.writeInteger [] n (← Numeral.writeChars n.natAbs)
  | 'o' => do return d.writeBase (← d.integerOf v) 8 false
  | 'x' => do return d.writeBase (← d.integerOf v) 16 false
  | 'X' => do return d.writeBase (← d.integerOf v) 16 true
  | 'e' | 'E' | 'f' | 'F' | 'g' | 'G' => do return d.writeFloat (← floatOf v)
  | 'c' => do return d.pad false [] [← characterOf v]
  | letter => fail (.badConversion letter index)

end Directive

/-- Expands what is left of a template of `length` characters. -/
def expandFrom (length : Nat) : Nat → List Char → Supply → Except Failure (List Char)
  | 0, _, _ => .ok []
  | _, [], s => if s.next.isEmpty || s.named?.isSome then .ok [] else fail .argumentsLeft
  | fuel + 1, '%' :: '%' :: cs, s => (expandFrom length fuel cs s).map ('%' :: ·)
  | fuel + 1, '%' :: cs, s => do
    let (d, cs, s) ← readDirective cs s
    let (v, s) ← s.take
    let out ← d.write (length - cs.length - 1) v
    return out ++ (← expandFrom length fuel cs s)
  | fuel + 1, c :: cs, s => (expandFrom length fuel cs s).map (c :: ·)

/-- **The text of a template** with its arguments. -/
def expand (template : List Char) (s : Supply) : Except Failure (List Char) :=
  expandFrom template.length (template.length + 1) template s

end IiifRules.Log.Template
