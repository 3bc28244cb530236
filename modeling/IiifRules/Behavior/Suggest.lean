import IiifRules.Behavior.Rules

/-! # Suggesting behaviors

Which behaviors fit the content of a resource. Only such are suggested as may be used on its
type. -/

namespace IiifRules

/-- What is known about the content of a resource. -/
structure ContentTraits where
  hasDuration : Bool
  hasPageSequence : Bool
  isUnordered : Bool
  isMultiVolume : Bool
  hasWidth : Bool
  hasHeight : Bool
deriving DecidableEq, Repr

/-- Whether the content asks for a behavior. -/
def ContentTraits.asksFor (c : ContentTraits) : Behavior → Bool
  | .autoAdvance => c.hasDuration
  | .paged => c.hasPageSequence
  | .unordered => c.isUnordered
  | .multiPart => c.isMultiVolume
  | .continuous => c.hasWidth && c.hasHeight && !c.hasPageSequence
  | _ => false

/-- **The behaviors that fit**, in a fixed order. -/
def suggestBehaviors (type : String) (c : ContentTraits) : List Behavior :=
  [.autoAdvance, .paged, .unordered, .multiPart, .continuous].filter fun b : Behavior =>
    c.asksFor b && b.isFor type

end IiifRules
