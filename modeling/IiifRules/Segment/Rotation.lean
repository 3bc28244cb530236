import IiifRules.Numeric.Places
import IiifRules.Segment.GrammarError
import IiifRules.Segment.Token

/-! # Rotations

The rotation segment of an image request: degrees clockwise, after mirroring if an exclamation mark
stands in front.

* `Rotation.parse`: reads a segment; degrees have at most one decimal place.
* `Rotation.format`: writes it, with one decimal place unless the degrees are whole. -/

namespace IiifRules

open Numeric Text

structure Rotation where
  degrees : Binary64
  mirror : Bool
deriving DecidableEq

namespace Rotation

open Segment.Token

/-- The image as it is. -/
def none : Rotation := ⟨.zero, false⟩

/-- **Reads a rotation segment.** The digits are read a second time without a limit on decimal
places only to tell the reason of a refusal. -/
def parse (text : String) : Except Failure (Parsed Rotation) := do
  let (mirror, body) :=
    match after? ['!'] text.toList with
    | some rest => (true, rest)
    | Option.none => (false, text.toList)
  match ← readDecimal (some 1) body with
  | some degrees =>
    if Binary64.lt (.ofInt 360) degrees then return .error ⟨.rotation, text, some .degreesRange⟩
    else return .ok ⟨degrees, mirror⟩
  | Option.none =>
    match ← readDecimal Option.none body with
    | some _ => return .error ⟨.rotation, text, some .oneDecimalPlace⟩
    | Option.none => return .error ⟨.rotation, text, Option.none⟩

/-- The characters of a rotation segment. -/
def formatChars (r : Rotation) : List Char :=
  (if r.mirror then ['!'] else []) ++
    match r.degrees.toInt? with
    | some n => Numeral.chars n
    | Option.none => r.degrees.fixed 1

/-- **Writes a rotation segment.** -/
def format (r : Rotation) : String := String.ofList (formatChars r)

end Rotation

end IiifRules
