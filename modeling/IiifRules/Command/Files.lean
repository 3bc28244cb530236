import IiifRules.Failure
import IiifRules.Text.Fields

/-! # Files

What a command can read: files of a directory by path, and its input.

* `FileTree.read`: the content of a file in a directory held in memory. A path is walked component
  by component; empty components and points stay where they are, and two points go back. A tilde in
  front stands for the home of a user. Nothing outside of the directory is read. -/

namespace IiifRules.Command

open Text

/-- The files of a directory, by their paths within it. -/
abbrev FileTree := List (String × String)

/-- The components of a path that lead somewhere else. -/
def pathComponents (path : String) : List (List Char) :=
  (fields '/' path.toList).filter fun c => !c.isEmpty && c ≠ ['.']

namespace FileTree

def content? (t : FileTree) (place : List (List Char)) : Option String :=
  (t.find? fun f => pathComponents f.1 = place).map Prod.snd

def isPlace (t : FileTree) (place : List (List Char)) : Bool :=
  place.isEmpty || t.any fun f => place.isPrefixOf (pathComponents f.1)

/-- Why nothing is read by walking along components from outside of the directory: going back leads
to another directory, and no name leads anywhere. -/
def outside (cs : List (List Char)) : Failure :=
  if cs.all (· = ['.', '.']) then .directoryRead else .missingFile

/-- The place that is reached from a place, given innermost first, by walking along components.
Nothing lies below a file. -/
def walk (t : FileTree) (place : List (List Char)) :
    List (List Char) → Except Failure (List (List Char))
  | [] => .ok place
  | c :: cs =>
    if (t.content? place.reverse).isSome then .error .fileOnPath
    else if c = ['.', '.'] then
      match place with
      | [] => .error (outside cs)
      | _ :: outer => walk t outer cs
    else if t.isPlace (c :: place).reverse then walk t (c :: place) cs
    else .error .missingFile

/-- **The content of a file.** -/
def read (t : FileTree) (path : String) : Except Failure String := do
  if path.toList.contains (Char.ofNat 0) then throw .zeroInPath
  let components := pathComponents path
  if path.toList.head? = some '/' then throw (outside components)
  match components with
  | ('~' :: user) :: rest => throw (if user.isEmpty then outside rest else .unknownHome)
  | _ =>
    let place ← t.walk [] components
    match t.content? place.reverse with
    | some content => return content
    | none => throw .directoryRead

end FileTree

structure Sources where
  read : String → Except Failure String
  input : String

/-- The text at a path; a hyphen stands for the input. -/
def Sources.text (s : Sources) (path : String) : Except Failure String :=
  if path = "-" then .ok s.input else s.read path

end IiifRules.Command
