import Mathlib
import IiifRules.Proofs.Outcome
import IiifRules.Proofs.Text.Fields
import IiifRules.Uri.Authority

/-! # Authorities that can be read

Which authorities let a URI be taken apart. What stands in brackets has to be a long address or one
of a later kind; neither is a short one, so that the order in which the kinds are tried does not
matter.

* `Address.colon_mem_of_isLong`, `Address.isLong_marked`: a long address has a colon in it and does
  not begin with the mark of a later kind.
* `Legible`: an authority without lookalikes in which brackets, if any, stand around an address.
* `exists_hasHttpAuthority_iff`: a text is taken apart exactly if its authority is legible. -/

namespace IiifRules.Uri

open Numeric Text

/-! ### Kinds of addresses -/

namespace Address

variable {cs f : List Char} {gs : List (List Char)} {shortEnd : Bool}

/-- **A text has no gap**, or it is the two parts around the first one. -/
theorem cutGap_cases (cs : List Char) :
    cutGap cs = (cs, none) ∨ ∃ a b, cs = a ++ ':' :: ':' :: b ∧ cutGap cs = (a, some b) := by
  fun_induction cutGap cs with
  | case1 => left; rfl
  | case2 b => right; exact ⟨[], b, rfl, rfl⟩
  | case3 c cs _ ih =>
    rcases ih with h | ⟨a, b, rfl, h⟩
    · left; rw [h]
    · right; exact ⟨c :: a, b, rfl, by rw [h]⟩

/-- A short address is made of digits and points. -/
theorem isDigit_of_isShort (h : isShort cs = true) : ∀ c ∈ cs, c = '.' ∨ c.isDigit = true := by
  intro c hc
  rw [← join_fields '.' cs] at hc
  rcases mem_join hc with rfl | ⟨f, hf, hc⟩
  · left; rfl
  · right
    have hoctet : isOctet f = true := by
      simp only [isShort, Bool.and_eq_true, List.all_eq_true] at h
      exact h.2 f hf
    simp only [isOctet, Bool.and_eq_true, List.all_eq_true] at hoctet
    exact hoctet.1.1.1.2 c hc

theorem groupCount?_marked : groupCount? shortEnd (('v' :: f) :: gs) = none := by
  have hgroup : isGroup ('v' :: f) = false := by
    have hv : (Hex.value? 'v').isSome = false := by decide
    simp [isGroup, hv]
  have hshort : isShort ('v' :: f) = false := by
    by_contra h
    rcases isDigit_of_isShort (by simpa using h) 'v' (by simp) with hv | hv
    · cases hv
    · exact absurd hv (by decide)
  cases gs <;> simp [groupCount?, hgroup, hshort]

theorem groups_marked (cs : List Char) : ∃ f gs, groups ('v' :: cs) = ('v' :: f) :: gs := by
  obtain ⟨f, gs, hf⟩ := List.exists_cons_of_ne_nil (fields_ne_nil ':' cs)
  refine ⟨f, gs, ?_⟩
  rw [groups, if_neg (by simp), fields, if_neg (by decide), hf]

theorem isUnzoned_marked (cs : List Char) : isUnzoned ('v' :: cs) = false := by
  unfold isUnzoned
  rcases cutGap_cases ('v' :: cs) with h | ⟨a, b, heq, h⟩
  · obtain ⟨f, gs, hgroups⟩ := groups_marked cs
    rw [h]
    dsimp only
    rw [hgroups, groupCount?_marked]
    rfl
  · cases a with
    | nil => cases heq
    | cons c a =>
      injection heq with hc _
      subst hc
      obtain ⟨f, gs, hgroups⟩ := groups_marked a
      rw [h]
      dsimp only
      rw [hgroups, groupCount?_marked]

theorem colon_mem_of_isUnzoned (h : isUnzoned cs = true) : ':' ∈ cs := by
  by_contra hno
  have hgroups : groups cs = [] ∨ groups cs = [cs] := by
    unfold groups
    split_ifs
    · left; rfl
    · right; exact fields_of_notMem hno
  unfold isUnzoned at h
  rcases cutGap_cases cs with hcut | ⟨a, b, rfl, -⟩
  · rw [hcut] at h
    rcases hgroups with hg | hg
    · simp [hg, groupCount?] at h
    · simp only [hg, groupCount?] at h
      split_ifs at h <;> simp at h
  · simp at hno

theorem isLong_marked (cs : List Char) : isLong ('v' :: cs) = false := by
  unfold isLong
  rcases cut_cases '%' ('v' :: cs) with ⟨-, h⟩ | ⟨a, b, -, heq, h⟩
  · rw [h]
    exact isUnzoned_marked cs
  · cases a with
    | nil => cases heq
    | cons c a =>
      injection heq with hc _
      subst hc
      rw [h]
      dsimp only
      rw [isUnzoned_marked]
      rfl

/-- **A long address** has a colon in it. -/
theorem colon_mem_of_isLong (h : isLong cs = true) : ':' ∈ cs := by
  unfold isLong at h
  rcases cut_cases '%' cs with ⟨-, hcut⟩ | ⟨a, b, -, rfl, hcut⟩
  · rw [hcut] at h
    exact colon_mem_of_isUnzoned h
  · rw [hcut] at h
    simp only [Bool.and_eq_true] at h
    exact List.mem_append_left _ (colon_mem_of_isUnzoned h.1.1)

theorem isShort_of_isLong (h : isLong cs = true) : isShort cs = false := by
  by_contra hshort
  rcases isDigit_of_isShort (by simpa using hshort) ':' (colon_mem_of_isLong h) with hc | hc
  · cases hc
  · exact absurd hc (by decide)

end Address

/-! ### Brackets -/

variable {authority host place : List Char} {s : String}

/-- What may stand in brackets: a long address, or a marked one of a later kind. -/
def IsAddress (host : List Char) : Prop :=
  Address.isLong host = true ∨ ∃ rest, host = 'v' :: rest ∧ Address.isLater rest = true

theorem checkBracketedHost_eq_ok : checkBracketedHost host = .ok () ↔ IsAddress host := by
  unfold checkBracketedHost IsAddress
  split
  · rename_i rest
    rw [Address.isLong_marked]
    by_cases h : Address.isLater rest = true
    · simp [h]
    · simp [h]
  · rename_i hmark
    have hnot : ¬∃ rest, host = 'v' :: rest ∧ Address.isLater rest = true := by
      rintro ⟨rest, rfl, -⟩
      exact hmark rest rfl
    by_cases hlong : Address.isLong host = true
    · simp [hlong, Address.isShort_of_isLong hlong]
    · simp only [hlong, hnot, or_self, iff_false, if_false, Bool.false_eq_true]
      split_ifs <;> simp

/-- **The host of a place** with a bracket in the authority that it ends: between brackets and
before nothing or a colon; after an opening bracket of which the other one stands before the place;
or, without an opening one, up to the colon. -/
inductive HostOf : List Char → List Char → Prop
  | enclosed {host after : List Char} (hhost : ']' ∉ host)
      (hafter : after = [] ∨ after.head? = some ':') : HostOf ('[' :: (host ++ ']' :: after)) host
  | opened {host : List Char} (hhost : ']' ∉ host) : HostOf ('[' :: host) host
  | bare {place : List Char} (hplace : '[' ∉ place) : HostOf place (cut ':' place).1

theorem hostOf_of_bracketedHost (h : bracketedHost authority = .ok host) :
    HostOf (afterLast '@' authority) host := by
  unfold bracketedHost at h
  generalize afterLast '@' authority = place at h ⊢
  dsimp only at h
  rcases cut_cases '[' place with ⟨hno, hcut⟩ | ⟨before, rest, -, rfl, hcut⟩
  · rw [hcut] at h
    cases h
    exact .bare hno
  · rw [hcut] at h
    dsimp only at h
    split_ifs at h with hsides
    cases h
    obtain ⟨hbefore, hafter⟩ : before = [] ∧
        ((cut ']' rest).2.getD [] = [] ∨ ((cut ']' rest).2.getD []).head? = some ':') := by
      simpa using hsides
    rw [hbefore, List.nil_append]
    rcases cut_cases ']' rest with ⟨hno, hcut⟩ | ⟨inside, after, hinside, rfl, hcut⟩
    · rw [hcut]
      exact .opened hno
    · rw [hcut] at hafter ⊢
      exact .enclosed hinside hafter

theorem bracketedHost_of_hostOf (h : HostOf (afterLast '@' authority) host) :
    bracketedHost authority = .ok host := by
  unfold bracketedHost
  generalize afterLast '@' authority = place at h
  dsimp only
  have hcut : ∀ rest, cut '[' ('[' :: rest) = ([], some rest) :=
    cut_append List.not_mem_nil
  cases h with
  | @enclosed _ after hhost hafter =>
    rw [hcut]
    dsimp only
    rw [cut_append hhost]
    exact if_pos (by simpa using hafter)
  | opened hhost =>
    rw [hcut]
    dsimp only
    rw [cut_of_notMem hhost]
    rfl
  | bare hplace =>
    rw [cut_of_notMem hplace]

/-! ### Authorities -/

/-- **An authority that can be read**: none of its characters looks like a delimiter, and if there
is a bracket in it, there are both kinds and an address for a host. -/
structure Legible (authority : List Char) : Prop where
  lookalikes : ∀ c ∈ authority, c.toNat ∉ delimiterLookalikes
  brackets : '[' ∈ authority ∨ ']' ∈ authority → '[' ∈ authority ∧ ']' ∈ authority ∧
    ∃ host, HostOf (afterLast '@' authority) host ∧ IsAddress host

theorem checkBrackets_eq_ok : checkBrackets authority = .ok () ↔
    ('[' ∈ authority ∨ ']' ∈ authority → '[' ∈ authority ∧ ']' ∈ authority ∧
      ∃ host, HostOf (afterLast '@' authority) host ∧ IsAddress host) := by
  unfold checkBrackets
  by_cases hopen : '[' ∈ authority
  · by_cases hclose : ']' ∈ authority
    · have hopen' : authority.contains '[' = true := List.contains_iff_mem.mpr hopen
      have hclose' : authority.contains ']' = true := List.contains_iff_mem.mpr hclose
      rw [hopen', hclose', Outcome.bind_eq_ok]
      simp only [hopen, hclose, true_and, true_or, true_imp_iff]
      exact exists_congr fun host => and_congr
        ⟨hostOf_of_bracketedHost, bracketedHost_of_hostOf⟩ checkBracketedHost_eq_ok
    · simp [hopen, hclose]
  · by_cases hclose : ']' ∈ authority
    · simp [hopen, hclose]
    · simp [hopen, hclose]

theorem checkAuthority_eq_ok : checkAuthority authority = .ok () ↔ Legible authority := by
  have hlookalikes : checkLookalikes authority = .ok () ↔
      ∀ c ∈ authority, c.toNat ∉ delimiterLookalikes := by
    unfold checkLookalikes
    by_cases h : authority.any (fun c => delimiterLookalikes.contains c.toNat) = true
    · rw [if_pos h]
      simpa using h
    · rw [if_neg h]
      simpa using h
  unfold checkAuthority
  rw [Outcome.bind_eq_ok]
  constructor
  · rintro ⟨⟨⟩, hbrackets, h⟩
    exact ⟨hlookalikes.mp h, checkBrackets_eq_ok.mp hbrackets⟩
  · intro h
    exact ⟨(), checkBrackets_eq_ok.mpr h.brackets, hlookalikes.mpr h.lookalikes⟩

/-- The authority of a text: what stands behind two slashes up to the next delimiter. -/
def authority? (cs : List Char) : Option (List Char) :=
  (after? ['/', '/'] (splitScheme (cleaned cs)).2).map fun rest =>
    rest.takeWhile fun c => c ≠ '/' && c ≠ '?' && c ≠ '#'

/-- **A text of which scheme and authority can be told**: its authority, if it has one, is
legible. -/
def Readable (s : String) : Prop := ∀ a ∈ authority? s.toList, Legible a

/-- **A text is taken apart** exactly if it is readable. -/
theorem exists_hasHttpAuthority_iff : (∃ b, hasHttpAuthority s = .ok b) ↔ Readable s := by
  have hsplit : (∃ p, splitAuthority s.toList = .ok p) ↔ Readable s := by
    unfold splitAuthority Readable authority?
    generalize splitScheme (cleaned s.toList) = parts
    dsimp only
    cases after? ['/', '/'] parts.2 with
    | none => exact ⟨fun _ => nofun, fun _ => ⟨_, rfl⟩⟩
    | some rest =>
      simp only [Option.map_some, Option.mem_some_iff, forall_eq', ← checkAuthority_eq_ok]
      constructor
      · rintro ⟨p, hp⟩
        obtain ⟨⟨⟩, h, -⟩ := Outcome.bind_eq_ok.mp hp
        exact h
      · intro h
        exact ⟨_, Outcome.bind_eq_ok.mpr ⟨(), h, rfl⟩⟩
  rw [← hsplit]
  unfold hasHttpAuthority
  constructor
  · rintro ⟨b, hb⟩
    obtain ⟨p, hp, -⟩ := Outcome.bind_eq_ok.mp hb
    exact ⟨p, hp⟩
  · rintro ⟨p, hp⟩
    exact ⟨_, Outcome.bind_eq_ok.mpr ⟨p, hp, rfl⟩⟩

end IiifRules.Uri
