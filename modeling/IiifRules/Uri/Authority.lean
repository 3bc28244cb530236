import IiifRules.Failure
import IiifRules.Uri.Address

/-! # Scheme and authority of a URI

How the beginning of a URI is taken apart: leading controls and blanks and all tabs and line ends
are left out, a scheme is read up to a colon, and an authority after two slashes up to the next
slash, question mark or number sign. Brackets in an authority are for a long address in place of a
host's name: an authority with brackets in another place, or around something else, is a failure,
and so is one with a character that compatibility normalization turns into a delimiter.

* `splitAuthority`: scheme and authority.
* `hasHttpAuthority`: whether there is an authority under `http` or `https`. -/

namespace IiifRules.Uri

open Text

def isLetter (c : Char) : Bool := ('a' ≤ c && c ≤ 'z') || ('A' ≤ c && c ≤ 'Z')

def isSchemeChar (c : Char) : Bool := isLetter c || c.isDigit || c = '+' || c = '-' || c = '.'

/-- The lower case of a letter of ASCII. -/
def lowerAscii (c : Char) : Char := if 'A' ≤ c && c ≤ 'Z' then Char.ofNat (c.toNat + 32) else c

/-- The text without what is passed over: controls and blanks in front, tabs and line ends
anywhere. -/
def cleaned (cs : List Char) : List Char :=
  (cs.dropWhile fun c => c.toNat ≤ 0x20).filter fun c => c ≠ '\t' && c ≠ '\n' && c ≠ '\r'

/-- The scheme in lower case, empty if there is none, and what follows it. -/
def splitScheme (cs : List Char) : List Char × List Char :=
  match cut ':' cs with
  | (scheme, some rest) =>
    if scheme.head?.any isLetter && scheme.all isSchemeChar then (scheme.map lowerAscii, rest)
    else ([], cs)
  | (_, none) => ([], cs)

/-- The characters that compatibility normalization turns into a text with one of `/`, `?`, `#`, `@`
and `:` in it. -/
def delimiterLookalikes : List Nat :=
  [0x2047, 0x2048, 0x2049, 0x2100, 0x2101, 0x2105, 0x2106, 0x2A74, 0xFE13, 0xFE16, 0xFE55, 0xFE56,
   0xFE5F, 0xFE6B, 0xFF03, 0xFF0F, 0xFF1A, 0xFF1F, 0xFF20]

/-- The host of an authority with brackets in it. After the last at sign it stands between the
brackets, before which there is nothing and after which nothing or a colon; without brackets there
it ends at the colon. -/
def bracketedHost (authority : List Char) : Except Failure (List Char) :=
  let place := afterLast '@' authority
  match cut '[' place with
  | (before, some rest) =>
    let (host, after?) := cut ']' rest
    let after := after?.getD []
    if before.isEmpty && (after.isEmpty || after.head? = some ':') then .ok host
    else .error .misplacedBrackets
  | (_, none) => .ok (cut ':' place).1

/-- Refuses a host that is neither a long address nor one of a later kind. -/
def checkBracketedHost (host : List Char) : Except Failure Unit :=
  match host with
  | 'v' :: rest => if Address.isLater rest then .ok () else .error .badLaterAddress
  | _ =>
    if Address.isShort host then .error .shortAddressInBrackets
    else if Address.isLong host then .ok ()
    else .error (.notAddress (String.ofList host))

/-- Refuses an authority with brackets that are not in order. -/
def checkBrackets (authority : List Char) : Except Failure Unit :=
  match authority.contains '[', authority.contains ']' with
  | false, false => .ok ()
  | true, true => do checkBracketedHost (← bracketedHost authority)
  | _, _ => .error .misplacedBrackets

def checkLookalikes (authority : List Char) : Except Failure Unit :=
  if authority.any fun c => delimiterLookalikes.contains c.toNat then
    .error (.ambiguousAuthority (String.ofList authority))
  else .ok ()

/-- Refuses the authorities that cannot be told apart from others. -/
def checkAuthority (authority : List Char) : Except Failure Unit := do
  checkBrackets authority
  checkLookalikes authority

/-- **The scheme and the authority** of a URI; each is empty if it is not there. -/
def splitAuthority (cs : List Char) : Except Failure (List Char × List Char) := do
  let (scheme, rest) := splitScheme (cleaned cs)
  match after? ['/', '/'] rest with
  | some rest =>
    let authority := rest.takeWhile fun c => c ≠ '/' && c ≠ '?' && c ≠ '#'
    checkAuthority authority
    return (scheme, authority)
  | none => return (scheme, [])

/-- Whether the text is a URI under `http` or `https` with an authority. -/
def hasHttpAuthority (s : String) : Except Failure Bool := do
  let (scheme, authority) ← splitAuthority s.toList
  return (scheme = "http".toList || scheme = "https".toList) && !authority.isEmpty

end IiifRules.Uri
