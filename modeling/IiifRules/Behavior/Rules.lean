import IiifRules.Behavior.Basic

/-! # The rules about behaviors

Tables: on which types of resources a behavior may be used, which behaviors exclude each other, what
each behavior means, and which resources inherit from which.

* `Behavior.isFor`: the types a behavior is for.
* `DisjointSet.table`: the sets of behaviors of which a resource carries at most one.
* `InheritanceRule.table`: from whom a resource inherits; a pair without a rule does not. -/

namespace IiifRules

/-- The types that contain other resources in an order. -/
def ResourceType.containers : List ResourceType := [.collection, .manifest, .range]

/-- Annotations and what stands in for resources in them. -/
def ResourceType.ofAnnotations : List ResourceType :=
  [.annotationCollection, .annotationPage, .annotationItem, .specificResource, .choice]

namespace Behavior

def types : Behavior → List ResourceType
  | autoAdvance => ResourceType.containers ++ [.canvas]
  | noAutoAdvance => ResourceType.containers ++ [.canvas]
  | .repeat => [.collection, .manifest]
  | noRepeat => [.collection, .manifest]
  | unordered => ResourceType.containers
  | individuals => ResourceType.containers
  | continuous => ResourceType.containers
  | paged => ResourceType.containers
  | facingPages => [.canvas]
  | nonPaged => [.canvas]
  | multiPart => [.collection]
  | together => [.collection]
  | sequence => [.range]
  | thumbnailNav => [.range]
  | noNav => [.range]
  | hidden => ResourceType.ofAnnotations

/-- Whether a behavior may be used on the type of a name. -/
def isFor (b : Behavior) (type : String) : Bool := b.types.any fun t => t.name == type

def category : Behavior → BehaviorCategory
  | autoAdvance => .temporalAdvance
  | noAutoAdvance => .temporalAdvance
  | .repeat => .temporalRepeat
  | noRepeat => .temporalRepeat
  | unordered => .layout
  | individuals => .layout
  | continuous => .layout
  | paged => .layout
  | facingPages => .canvasPaging
  | nonPaged => .canvasPaging
  | multiPart => .collectionPresentation
  | together => .collectionPresentation
  | sequence => .rangeNavigation
  | thumbnailNav => .rangeNavigation
  | noNav => .rangeNavigation
  | hidden => .visibility

def description : Behavior → String
  | autoAdvance => "Proceed to next Canvas/segment when current one ends"
  | noAutoAdvance => "Do not proceed automatically when Canvas/segment ends"
  | .repeat => "Loop back to first Canvas when reaching end (if auto-advance active)"
  | noRepeat => "Do not loop back to beginning"
  | unordered => "Canvases have no inherent order, UI should not imply order"
  | individuals => "Each Canvas is a distinct view, not for page-turning interface"
  | continuous => "Canvases are partial views, display stitched together (e.g., scroll)"
  | paged => "Display in page-turning interface, first canvas is recto"
  | facingPages => "Canvas depicts both parts of opening, display alone"
  | nonPaged => "Skip this Canvas in page-turning interface"
  | multiPart => "Child Manifests/Collections form logical whole (e.g., multi-volume)"
  | together => "Present all child Manifests simultaneously in separate viewing area"
  | sequence => "Range represents alternative ordering of Manifest's Canvases"
  | thumbnailNav => "Use for thumbnail-based navigation (keyframes, scroll sections)"
  | noNav => "Do not display in navigation hierarchy (blank pages, dead air)"
  | hidden => "Do not render by default, allow user to toggle"

/-- What a resource needs for a behavior to make sense. -/
def requirement? : Behavior → Option String
  | autoAdvance => some "duration dimension"
  | .repeat => some "duration dimension"
  | continuous => some "height and width dimensions"
  | paged => some "height and width dimensions"
  | _ => none

/-- Where a behavior makes sense. -/
def setting? : Behavior → Option String
  | facingPages => some "Only meaningful when Manifest has paged behavior"
  | nonPaged => some "Only meaningful when Manifest has paged behavior"
  | sequence => some "Must be in Manifest's structures property"
  | _ => none

/-- Whether a resource without a behavior of the category is presented so. -/
def isDefault : Behavior → Bool
  | noAutoAdvance => true
  | noRepeat => true
  | individuals => true
  | _ => false

/-- The behaviors that may be used on the type of a name, in vocabulary order. -/
def allFor (type : String) : List Behavior := Vocabulary.terms.filter fun b => b.isFor type

def ofCategory (category : String) : List Behavior :=
  Vocabulary.terms.filter fun b : Behavior => b.category.name == category

end Behavior

/-- Whether a token names a behavior that may be used on the type of a name. -/
def isTokenFor (token type : String) : Bool := (Behavior.ofToken? token).any (·.isFor type)

/-- Behaviors of which a resource carries at most one. -/
structure DisjointSet where
  category : BehaviorCategory
  members : List Behavior
  default : Option Behavior
  note : Option String
deriving DecidableEq, Repr

namespace DisjointSet

/-- All disjoint sets; no behavior is in two of them, and `hidden` is in none. -/
def table : List DisjointSet :=
  [⟨.temporalAdvance, [.autoAdvance, .noAutoAdvance], some .noAutoAdvance, none⟩,
   ⟨.temporalRepeat, [.repeat, .noRepeat], some .noRepeat, none⟩,
   ⟨.layout, [.unordered, .individuals, .continuous, .paged], some .individuals, none⟩,
   ⟨.canvasPaging, [.facingPages, .nonPaged], none,
     some "Only meaningful when Manifest has paged behavior"⟩,
   ⟨.collectionPresentation, [.multiPart, .together], none, none⟩,
   ⟨.rangeNavigation, [.sequence, .thumbnailNav, .noNav], none, none⟩]

/-- Whether a token names a member of the set. -/
def holds (s : DisjointSet) (token : String) : Bool := s.members.any fun b => b.name == token

/-- The set that a token names a member of. -/
def ofToken? (token : String) : Option DisjointSet := table.find? (·.holds token)

def defaultOf? (category : String) : Option Behavior :=
  match table.find? fun s => s.category.name == category with
  | some s => s.default
  | none => none

end DisjointSet

/-- Whether a resource inherits from one that contains it. The categories that are carried are
passed on although their behaviors may not be used on the resource itself. -/
structure InheritanceRule where
  child : ResourceType
  parent : ResourceType
  inherits : Bool
  carries : List BehaviorCategory
  note : String
deriving DecidableEq, Repr

namespace InheritanceRule

def table : List InheritanceRule :=
  [⟨.collection, .collection, true, [], "Nested Collections inherit from parent Collection"⟩,
   ⟨.manifest, .collection, false, [], "Manifests do not inherit from a referencing Collection"⟩,
   ⟨.canvas, .manifest, true, [.layout],
     "Canvases inherit from their Manifest; its layout decides canvas paging"⟩,
   ⟨.canvas, .range, false, [], "Canvases do not inherit from a referencing Range"⟩,
   ⟨.range, .range, true, [], "Nested Ranges inherit from parent Range"⟩,
   ⟨.range, .manifest, true, [], "Ranges inherit from their Manifest"⟩]

/-- The rule for two types given by name. -/
def find? (child parent : String) : Option InheritanceRule :=
  table.find? fun r => r.child.name == child && r.parent.name == parent

/-- Whether a resource of one type inherits from one of the other. -/
def inheritsFrom (child parent : String) : Bool := (find? child parent).any (·.inherits)

end InheritanceRule

end IiifRules
