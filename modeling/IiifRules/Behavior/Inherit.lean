import IiifRules.Behavior.Rules

/-! # Inheriting behaviors

The effective behaviors of a resource are its own followed by those it inherits. Its own choice from
a disjoint set keeps out all inherited members of that set.

* `inherited`: what a resource may inherit.
* `effective`: its effective behaviors.
* `effectiveAlong`: the same along a chain of resources each of which contains the next. -/

namespace IiifRules

/-- Whether a behavior passes from a parent to a child of the type of a name. -/
def InheritanceRule.passes (r : InheritanceRule) (child : String) (b : Behavior) : Bool :=
  b.isFor child || (DisjointSet.ofToken? b.name).any fun s => r.carries.contains s.category

/-- **What a resource may inherit**, in the order of the parent; unknown tokens are never
inherited. -/
def inherited (child parent : String) (tokens : List String) : List Behavior :=
  match InheritanceRule.find? child parent with
  | some r =>
    if r.inherits then distinct ((tokens.filterMap Behavior.ofToken?).filter (r.passes child))
    else []
  | none => []

/-- Adds an inherited behavior unless it is there or another member of its disjoint set is. -/
def adopt (own : List String) (b : Behavior) : List String :=
  match DisjointSet.ofToken? b.name with
  | none => if own.contains b.name then own else own ++ [b.name]
  | some s => if own.any s.holds then own else own ++ [b.name]

/-- **The effective behaviors** of a resource within a parent, given by its type and its effective
behaviors. -/
def effective (child : String) (own : List String) (parent? : Option (String × List String)) :
    List String :=
  match parent? with
  | some (parent, tokens) => (inherited child parent tokens).foldl adopt own
  | none => own

/-- A resource of a chain: its type and its own tokens. -/
structure ChainStep where
  type : String
  own : List String
deriving DecidableEq, Repr

/-- The effective behaviors of each resource of a chain, the first of which lies within
`parent?`. -/
def effectiveAlong (parent? : Option (String × List String)) : List ChainStep → List (List String)
  | [] => []
  | s :: rest =>
    let e := effective s.type s.own parent?
    e :: effectiveAlong (some (s.type, e)) rest

end IiifRules
