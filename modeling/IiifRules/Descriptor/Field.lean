import IiifRules.Descriptor.Integer
import IiifRules.Json.Term

/-! # Fields of a document

Reading a document collects the faults of all its fields. A `Checked` value is there only if no part
of it is at fault; a field is looked up under its name in the document or, failing that, under a
second name, and a fault is reported under the name that was found. -/

namespace IiifRules

/-- A value, or the faults of all its parts in order. -/
abbrev Checked (α : Type) := Except (List FieldError) α

namespace Checked

variable {α β : Type}

/-- Supplies a value to a function; the faults of both are kept, those of the function first. -/
def supply (x : Checked α) (f : Checked (α → β)) : Checked β :=
  match f, x with
  | .ok f, .ok x => .ok (f x)
  | .ok _, .error es => .error es
  | .error es, .ok _ => .error es
  | .error es, .error fs => .error (es ++ fs)

/-- Reports the faults below a name. -/
def under (name : String) (x : Checked α) : Checked α :=
  x.mapError fun es => es.map fun e => ⟨name :: e.path, e.fault⟩

/-- A single fault at the value itself. -/
def fault (f : FieldFault) : Checked α := .error [⟨[], f⟩]

/-- All values of a list, each below its index. -/
def all (read : Json → Checked α) : Nat → List Json → Checked (List α)
  | _, [] => .ok []
  | i, v :: vs =>
    supply (all read (i + 1) vs) ((under (Numeric.Numeral.text i) (read v)).map List.cons)

end Checked

/-- The two names under which a field may be given; the first is the one of the document. -/
structure FieldName where
  own : String
  second : String

namespace FieldName

/-- A field with one name. -/
def single (name : String) : FieldName := ⟨name, name⟩

/-- The name under which a field is given. -/
def used? (f : FieldName) (members : Json.Members) : Option String :=
  if Json.has members f.own then some f.own
  else if Json.has members f.second then some f.second
  else none

/-- The value of a field with the name under which it is given. -/
def find? (f : FieldName) (members : Json.Members) : Option (String × Json) := do
  let name ← f.used? members
  let v ← Json.get? members name
  return (name, v)

variable {α : Type}

/-- A field that has to be given; `read` sees the name too. -/
def required (f : FieldName) (members : Json.Members) (read : Json → Checked α) : Checked α :=
  match f.find? members with
  | some (name, v) => Checked.under name (read v)
  | none => .error [⟨[f.own], .missing⟩]

/-- A field that has a value when it is not given. -/
def withDefault (f : FieldName) (members : Json.Members) (value : α) (read : Json → Checked α) :
    Checked α :=
  match f.find? members with
  | some (name, v) => Checked.under name (read v)
  | none => .ok value

end FieldName

namespace Checked

variable {α : Type}

def text : Json → Checked String
  | .text s => .ok s
  | _ => fault .notText

def integer (v : Json) : Checked Int := (Descriptor.integerOf v).mapError fun f => [⟨[], f⟩]

/-- A value that may also be null. -/
def nullable (read : Json → Checked α) : Json → Checked (Option α)
  | .null => .ok none
  | v => (read v).map some

/-- The one text that a field may hold. -/
def literal (s : String) (v : Json) : Checked Unit :=
  if v.isText s then .ok () else fault .badLiteral

/-- The name of a term. -/
def term (α : Type) [Vocabulary α] (v : Json) : Checked α :=
  match v.term? α with
  | some t => .ok t
  | none => fault .badName

/-- An array, each item read below its index. -/
def array (read : Json → Checked α) : Json → Checked (List α)
  | .array vs => all read 0 vs
  | _ => fault .notArray

/-- An array of names, of which those of no term are passed over. -/
def knownTerms (α : Type) [Vocabulary α] : Json → Checked (List α)
  | .array vs => .ok (vs.filterMap (Json.term? α))
  | _ => fault .notArray

end Checked

end IiifRules
