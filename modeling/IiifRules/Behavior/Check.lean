import IiifRules.Behavior.Rules
import IiifRules.Report

/-! # Judging behaviors

Errors are tokens that are no behavior, behaviors that are not for the type of the resource, and
conflicts, that is several members of one disjoint set. Warnings say where a resource overrides its
parent, what a behavior requires, and where a behavior about paging has no paged manifest.

* `conflicts`: one for each disjoint set with several distinct members.
* `checkBehaviors`: the report. -/

namespace IiifRules

/-- Several members of a disjoint set, in the order of their first occurrence. -/
structure Conflict where
  category : BehaviorCategory
  members : List String
deriving DecidableEq, Repr

def Conflict.message (c : Conflict) : String :=
  "Conflicting behaviors from " ++ c.category.name ++ " set: " ++ ", ".intercalate c.members

/-- The conflict of a set among distinct tokens. -/
def DisjointSet.conflict? (s : DisjointSet) (tokens : List String) : Option Conflict :=
  let members := tokens.filter s.holds
  if 1 < members.length then some ⟨s.category, members⟩ else none

/-- **The conflicts among tokens**, in the order of the sets. -/
def conflicts (tokens : List String) : List Conflict :=
  DisjointSet.table.filterMap fun s => s.conflict? (distinct tokens)

inductive BehaviorError
  | unknown (token : String)
  | notFor (token type : String)
  | conflict (c : Conflict)
deriving DecidableEq, Repr

inductive BehaviorWarning
  | overrides (token : String) (parents : List String)
  | requires (token requirement : String)
  | needsPaged (token : String)
deriving DecidableEq, Repr

def BehaviorError.message : BehaviorError → String
  | unknown token => "Behavior \"" ++ token ++ "\" is not a recognized IIIF behavior"
  | notFor token type => "Behavior \"" ++ token ++ "\" is not valid for " ++ type
  | conflict c => c.message

def BehaviorWarning.message : BehaviorWarning → String
  | overrides token parents =>
    "Behavior \"" ++ token ++ "\" conflicts with inherited parent behavior: " ++
      ", ".intercalate parents ++ ". Child overrides parent."
  | requires token requirement => "Behavior \"" ++ token ++ "\" requires " ++ requirement
  | needsPaged token =>
    "Behavior \"" ++ token ++ "\" is only meaningful when the Manifest has \"paged\" behavior"

abbrev BehaviorReport := Report BehaviorError BehaviorWarning

/-- The error of one token on a resource of a type. -/
def tokenError? (type token : String) : Option BehaviorError :=
  match Behavior.ofToken? token with
  | none => some (.unknown token)
  | some b => if b.isFor type then none else some (.notFor token type)

/-- The errors of the tokens of a resource. -/
def behaviorErrors (type : String) (tokens : List String) : List BehaviorError :=
  tokens.filterMap (tokenError? type) ++ (conflicts tokens).map .conflict

/-- Where a token disagrees with other members of its set on the parent. -/
def overrideWarning? (parents : List String) (token : String) : Option BehaviorWarning :=
  match DisjointSet.ofToken? token with
  | none => none
  | some s =>
    let others := (distinct parents).filter fun p => s.holds p && p ≠ token
    if others.isEmpty then none else some (.overrides token others)

/-- What a token requires. -/
def requirementWarning? (token : String) : Option BehaviorWarning :=
  match Behavior.ofToken? token with
  | some b => b.requirement?.map (.requires token)
  | none => none

/-- A token about the paging of canvases. -/
def pagingWarning? (token : String) : Option BehaviorWarning :=
  if token = Behavior.facingPages.name ∨ token = Behavior.nonPaged.name then
    some (.needsPaged token)
  else none

/-- The warnings about distinct tokens and the parent's. -/
def parentWarnings (type : String) (tokens : List String) (parentType? : Option String)
    (parents? : Option (List String)) : List BehaviorWarning :=
  match parentType?, parents? with
  | some parentType, some parents =>
    if InheritanceRule.inheritsFrom type parentType then
      tokens.filterMap (overrideWarning? parents)
    else []
  | _, _ => []

/-- The warnings about paging within a manifest that is not paged. -/
def pagingWarnings (type : String) (tokens : List String) (parentType? : Option String)
    (parents? : Option (List String)) : List BehaviorWarning :=
  match parents? with
  | some parents =>
    if type = ResourceType.canvas.name ∧ parentType? = some ResourceType.manifest.name ∧
        ¬ parents.contains Behavior.paged.name then
      tokens.filterMap pagingWarning?
    else []
  | none => []

/-- **Judges the tokens of a resource** of a type, within a parent of which type and effective
behaviors may be known. -/
def checkBehaviors (type : String) (tokens : List String) (parentType? : Option String)
    (parents? : Option (List String)) : BehaviorReport where
  errors := behaviorErrors type tokens
  warnings :=
    parentWarnings type (distinct tokens) parentType? parents? ++
      (distinct tokens).filterMap requirementWarning? ++
      pagingWarnings type (distinct tokens) parentType? parents?

end IiifRules
