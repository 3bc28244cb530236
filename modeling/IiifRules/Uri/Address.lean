import IiifRules.Numeric.Numeral
import IiifRules.Text.Fields
import IiifRules.Text.Hex

/-! # Addresses in place of a host's name

How the numeric addresses of hosts are spelled. A short address is four decimal octets with points
between them. A long one is eight groups of hexadecimal digits with colons between them, of which
one run may be left out between two colons, and of which the last two may be spelled as a short
address; a zone may follow it after a percent sign. An address of a later kind is marked by a `v`
and a version.

* `isShort`, `isLong`: the two kinds of numeric addresses.
* `isLater`: an address of a later kind. -/

namespace IiifRules.Uri.Address

open Numeric Text

/-- An octet: a number up to 255 without a redundant zero in front. -/
def isOctet (cs : List Char) : Bool :=
  !cs.isEmpty && cs.all Char.isDigit && (cs.length = 1 || cs.head? ≠ some '0') &&
    cs.length ≤ 3 && Numeral.value cs ≤ 255

/-- **A short address.** -/
def isShort (cs : List Char) : Bool :=
  let octets := fields '.' cs
  octets.length = 4 && octets.all isOctet

def isGroup (cs : List Char) : Bool :=
  !cs.isEmpty && cs.length ≤ 4 && cs.all fun c => (Hex.value? c).isSome

/-- The number of groups that are spelled, if all of them are well spelled; with `shortEnd` the last
may be a short address, which stands for two. -/
def groupCount? (shortEnd : Bool) : List (List Char) → Option Nat
  | [] => some 0
  | [g] => if isGroup g then some 1 else if shortEnd && isShort g then some 2 else none
  | g :: gs => if isGroup g then (groupCount? shortEnd gs).map (· + 1) else none

/-- The groups with colons between them; none in an empty text. -/
def groups (cs : List Char) : List (List Char) := if cs.isEmpty then [] else fields ':' cs

/-- The texts before and after the first two colons that stand side by side. -/
def cutGap : List Char → List Char × Option (List Char)
  | [] => ([], none)
  | ':' :: ':' :: cs => ([], some cs)
  | c :: cs => ((c :: (cutGap cs).1), (cutGap cs).2)

/-- A long address without a zone. Two colons side by side stand for at least one group. -/
def isUnzoned (cs : List Char) : Bool :=
  match cutGap cs with
  | (whole, none) => groupCount? true (groups whole) = some 8
  | (before, some after) =>
    match groupCount? false (groups before), groupCount? true (groups after) with
    | some m, some n => m + n ≤ 7
    | _, _ => false

/-- **A long address**, perhaps with a zone, which is not empty and holds no second percent sign. -/
def isLong (cs : List Char) : Bool :=
  match cut '%' cs with
  | (address, none) => isUnzoned address
  | (address, some zone) => isUnzoned address && !zone.isEmpty && !zone.contains '%'

/-- **An address of a later kind**, given without its mark: a hexadecimal version, a point and at
least one character. -/
def isLater (cs : List Char) : Bool :=
  match cut '.' cs with
  | (version, some rest) =>
    !version.isEmpty && (version.all fun c => (Hex.value? c).isSome) && !rest.isEmpty
  | (_, none) => false

end IiifRules.Uri.Address
