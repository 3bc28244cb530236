import IiifRules.Vocabulary

/-! # Behaviors

How a viewer is to present a resource. A resource lists tokens; a token may be the name of a
behavior or any other text. Resource types are given by name in the same way. -/

namespace IiifRules

/-- A way to present a resource. -/
inductive Behavior
  | autoAdvance
  | noAutoAdvance
  | repeat
  | noRepeat
  | unordered
  | individuals
  | continuous
  | paged
  | facingPages
  | nonPaged
  | multiPart
  | together
  | sequence
  | thumbnailNav
  | noNav
  | hidden
deriving DecidableEq, Repr

/-- What a behavior is about. -/
inductive BehaviorCategory
  | temporalAdvance
  | temporalRepeat
  | layout
  | canvasPaging
  | collectionPresentation
  | rangeNavigation
  | visibility
deriving DecidableEq, Repr

/-- The types of resources that behaviors are for. -/
inductive ResourceType
  | collection
  | manifest
  | canvas
  | range
  | annotationCollection
  | annotationPage
  | annotationItem
  | specificResource
  | choice
deriving DecidableEq, Repr

instance : Vocabulary Behavior where
  title := "Behavior"
  terms :=
    [.autoAdvance, .noAutoAdvance, .repeat, .noRepeat, .unordered, .individuals, .continuous,
     .paged, .facingPages, .nonPaged, .multiPart, .together, .sequence, .thumbnailNav, .noNav,
     .hidden]
  name
    | .autoAdvance => "auto-advance"
    | .noAutoAdvance => "no-auto-advance"
    | .repeat => "repeat"
    | .noRepeat => "no-repeat"
    | .unordered => "unordered"
    | .individuals => "individuals"
    | .continuous => "continuous"
    | .paged => "paged"
    | .facingPages => "facing-pages"
    | .nonPaged => "non-paged"
    | .multiPart => "multi-part"
    | .together => "together"
    | .sequence => "sequence"
    | .thumbnailNav => "thumbnail-nav"
    | .noNav => "no-nav"
    | .hidden => "hidden"

instance : Vocabulary BehaviorCategory where
  title := "BehaviorCategory"
  terms :=
    [.temporalAdvance, .temporalRepeat, .layout, .canvasPaging, .collectionPresentation,
     .rangeNavigation, .visibility]
  name
    | .temporalAdvance => "temporal_advance"
    | .temporalRepeat => "temporal_repeat"
    | .layout => "layout"
    | .canvasPaging => "canvas_paging"
    | .collectionPresentation => "collection_presentation"
    | .rangeNavigation => "range_navigation"
    | .visibility => "visibility"

instance : Vocabulary ResourceType where
  title := "ResourceType"
  terms :=
    [.collection, .manifest, .canvas, .range, .annotationCollection, .annotationPage,
     .annotationItem, .specificResource, .choice]
  name
    | .collection => "Collection"
    | .manifest => "Manifest"
    | .canvas => "Canvas"
    | .range => "Range"
    | .annotationCollection => "AnnotationCollection"
    | .annotationPage => "AnnotationPage"
    | .annotationItem => "Annotation"
    | .specificResource => "SpecificResource"
    | .choice => "Choice"

def Behavior.name (b : Behavior) : String := Vocabulary.name b
def BehaviorCategory.name (c : BehaviorCategory) : String := Vocabulary.name c
def ResourceType.name (t : ResourceType) : String := Vocabulary.name t

/-- The behavior that a token names. -/
def Behavior.ofToken? (token : String) : Option Behavior := Vocabulary.ofName? token

/-- The entries of a list at their first occurrence. -/
def distinct {α : Type} [DecidableEq α] : List α → List α
  | [] => []
  | x :: xs => x :: (distinct xs).filter (· ≠ x)

theorem mem_distinct {α : Type} [DecidableEq α] {x : α} {xs : List α} :
    x ∈ distinct xs ↔ x ∈ xs := by
  induction xs with
  | nil => simp [distinct]
  | cons y ys ih =>
    by_cases h : x = y
    · simp [distinct, h]
    · simp [distinct, h, ih]

end IiifRules
