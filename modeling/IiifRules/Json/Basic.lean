import IiifRules.Numeric.Binary64

/-! # JSON values

A JSON document as data. Integers are apart from other numbers, and the members of an object keep
their order.

* `Json.get?`: the value of a member.
* `Json.standard`: the value as standard JSON can spell it.
* `Json.levels`: how deep the value is nested.
* `Json.put`: the members of an object after one more is read: a name that is there already keeps
  its place and takes the new value; `get?_put_self` says that the new value is found. -/

namespace IiifRules

open Numeric

/-- A JSON value. -/
inductive Json
  | null
  | bool (value : Bool)
  | int (value : Int)
  | float (value : Binary64)
  | text (value : String)
  | array (items : List Json)
  | object (members : List (String × Json))

namespace Json

instance : Inhabited Json := ⟨.null⟩

/-- The members of an object. -/
abbrev Members := List (String × Json)

/-- The value of the first member of a name. -/
def get? (members : Members) (name : String) : Option Json := members.lookup name

/-- Whether there is a member of a name. -/
def has (members : Members) (name : String) : Bool := (get? members name).isSome

/-- Adds a member at the end, or gives a new value to the one of that name. -/
def put (members : Members) (name : String) (value : Json) : Members :=
  match members with
  | [] => [(name, value)]
  | (n, v) :: rest => if n = name then (n, value) :: rest else (n, v) :: put rest name value

theorem get?_put_self (members : Members) (name : String) (value : Json) :
    get? (put members name value) name = some value := by
  induction members with
  | nil => simp [put, get?]
  | cons m rest ih =>
    obtain ⟨n, v⟩ := m
    simp only [get?] at ih
    by_cases h : n = name
    · simp [put, get?, h]
    · have h' : (name == n) = false := by simpa using fun e => h e.symm
      simp [put, h, get?, List.lookup_cons, h', ih]

/-- Whether a value counts as given: not null, false, zero or empty. -/
def isTruthy : Json → Bool
  | null => false
  | bool b => b
  | int n => n != 0
  | float (.finite _ units _) => units != 0
  | float _ => true
  | text s => s != ""
  | array items => !items.isEmpty
  | object members => !members.isEmpty

mutual

/-- The value with null in place of numbers that are not finite: standard JSON has no spelling for
them. -/
def standard : Json → Json
  | float .nan => null
  | float (.infinite _) => null
  | array items => array (standardItems items)
  | object members => object (standardMembers members)
  | v => v

def standardItems : List Json → List Json
  | [] => []
  | v :: rest => standard v :: standardItems rest

def standardMembers : List (String × Json) → List (String × Json)
  | [] => []
  | (n, v) :: rest => (n, standard v) :: standardMembers rest

end

mutual

/-- How many levels a value has: one, and those of the deepest value in it. -/
def levels : Json → Nat
  | array items => levelsOfItems items + 1
  | object members => levelsOfMembers members + 1
  | _ => 1

def levelsOfItems : List Json → Nat
  | [] => 0
  | v :: rest => max (levels v) (levelsOfItems rest)

def levelsOfMembers : List (String × Json) → Nat
  | [] => 0
  | (_, v) :: rest => max (levels v) (levelsOfMembers rest)

end

/-- Whether the value is the given text. -/
def isText (value : Json) (s : String) : Bool :=
  match value with
  | text t => t == s
  | _ => false

end Json

end IiifRules
