import Mathlib
import IiifRules.Command.Run
import IiifRules.Proofs.Json.Tokens

/-! # JSON texts that are read back

How a value is spelled, whatever the layout: tokens with blanks after the separators. A text that
spells a value is read as that value; both layouts of the writer spell theirs.

* `Spells`: the texts that spell a value in which arrays and objects are nested so deep at most.
* `readWhole_of_spells`: such a text is read as the value.
* `loadJson_pretty`: what is written over several lines is read back. -/

namespace IiifRules.Json

open Numeric Text

/-- Blanks as they are written between tokens. -/
def AreBlanks (ws : List Char) : Prop := ∀ c ∈ ws, c = ' ' ∨ c = '\n'

mutual

/-- **The texts that spell a value** in which arrays and objects are nested at most `depth` deep. -/
inductive Spells : ℕ → Json → List Char → Prop
  | null {depth} : Spells depth .null ['n', 'u', 'l', 'l']
  | true {depth} : Spells depth (.bool true) ['t', 'r', 'u', 'e']
  | false {depth} : Spells depth (.bool false) ['f', 'a', 'l', 's', 'e']
  | int {depth i} (hi : Numeral.writable i = true) : Spells depth (.int i) (Numeral.chars i)
  | text {depth} (ascii s) : Spells depth (.text s) (writeText ascii s)
  | emptyArray {depth} : Spells (depth + 1) (.array []) ['[', ']']
  | emptyObject {depth} : Spells (depth + 1) (.object []) ['{', '}']
  | array {depth vs ws cs} (hws : AreBlanks ws) (h : SpellsItems depth vs cs) :
      Spells (depth + 1) (.array vs) ('[' :: (ws ++ cs))
  | object {depth ms ws cs} (hws : AreBlanks ws) (hnames : (ms.map Prod.fst).Nodup)
      (h : SpellsMembers depth ms cs) : Spells (depth + 1) (.object ms) ('{' :: (ws ++ cs))

/-- The texts that spell the items of an array up to its end. -/
inductive SpellsItems : ℕ → List Json → List Char → Prop
  | last {depth v cs ws} (h : Spells depth v cs) (hws : AreBlanks ws) :
      SpellsItems depth [v] (cs ++ (ws ++ [']']))
  | cons {depth v vs cs ws ds} (h : Spells depth v cs) (hws : AreBlanks ws)
      (hrest : SpellsItems depth vs ds) : SpellsItems depth (v :: vs) (cs ++ ',' :: (ws ++ ds))

/-- The texts that spell the members of an object up to its end. -/
inductive SpellsMembers : ℕ → Members → List Char → Prop
  | last {depth v cs ws ws'} (ascii name) (hws : AreBlanks ws) (h : Spells depth v cs)
      (hws' : AreBlanks ws') :
      SpellsMembers depth [(name, v)]
        (writeText ascii name ++ ':' :: (ws ++ (cs ++ (ws' ++ ['}']))))
  | cons {depth v ms cs ws ws' ds} (ascii name) (hws : AreBlanks ws) (h : Spells depth v cs)
      (hws' : AreBlanks ws') (hrest : SpellsMembers depth ms ds) :
      SpellsMembers depth ((name, v) :: ms)
        (writeText ascii name ++ ':' :: (ws ++ (cs ++ ',' :: (ws' ++ ds))))

end

variable {depth fuel offset : ℕ} {v : Json} {cs ws rest : List Char} {c : Char}

/-! ### Blanks -/

theorem areBlanks_nil : AreBlanks [] := nofun

/-- No blank comes first. -/
def StartsToken (cs : List Char) : Prop := ∀ c ∈ cs.head?, isBlank c = false

theorem skipBlanks_append (hws : AreBlanks ws) (h : StartsToken rest) :
    Cursor.skipBlanks ⟨ws ++ rest, offset⟩ = ⟨rest, offset + ws.length⟩ := by
  have hblank : ∀ c ∈ ws, isBlank c = true := by
    intro c hc
    rcases hws c hc with rfl | rfl <;> decide
  have htake : (ws ++ rest).takeWhile isBlank = ws := by
    rw [List.takeWhile_append_of_pos hblank]
    cases rest with
    | nil => simp
    | cons c rest => rw [List.takeWhile_cons_of_neg (by simp [h c rfl]), List.append_nil]
  rw [Cursor.skipBlanks, htake, Cursor.advance, List.drop_left]

theorem skipBlanks_of_startsToken (h : StartsToken rest) :
    Cursor.skipBlanks ⟨rest, offset⟩ = ⟨rest, offset⟩ :=
  skipBlanks_append areBlanks_nil h

/-- What follows a value inside an array or object does not go on with a number. -/
theorem stops_append (hws : AreBlanks ws) (hc : c = ',' ∨ c = ']' ∨ c = '}') :
    Stops (ws ++ c :: rest) := by
  intro b hb
  have : b = ' ' ∨ b = '\n' ∨ b = ',' ∨ b = ']' ∨ b = '}' := by
    cases ws with
    | nil =>
      obtain rfl : c = b := by simpa using hb
      exact .inr (.inr hc)
    | cons w ws =>
      obtain rfl : w = b := by simpa using hb
      rcases hws w (by simp) with h | h
      · exact .inl h
      · exact .inr (.inl h)
  rcases this with rfl | rfl | rfl | rfl | rfl <;> decide

/-! ### Steps of the reader -/

theorem exists_digit (n : ℕ) : ∃ d ds, Numeral.digits n = d :: ds ∧ d.isDigit = true := by
  obtain ⟨d, ds, h⟩ := List.exists_cons_of_length_pos (Numeral.length_digits_pos n)
  exact ⟨d, ds, h, Numeral.isDigit_of_mem_digits (h ▸ List.mem_cons_self)⟩

theorem exists_cons_chars (i : ℤ) :
    ∃ c cs, Numeral.chars i = c :: cs ∧ (c.isDigit = true ∨ c = '-') := by
  obtain ⟨d, ds, hd, hdigit⟩ := exists_digit i.natAbs
  unfold Numeral.chars
  split_ifs
  · exact ⟨_, _, rfl, .inr rfl⟩
  · exact ⟨d, ds, hd, .inl hdigit⟩

/-- No word begins like a number, and the one with a minus sign goes on with no digit. -/
theorem find?_words (rest : List Char) (i : ℤ) :
    (words.find? fun word => word.1.isPrefixOf (Numeral.chars i ++ rest)) = none := by
  obtain ⟨d, ds, hd, hdigit⟩ := exists_digit i.natAbs
  have hne : ∀ c : Char, c.isDigit = false → c ≠ d := by
    rintro c hc rfl
    rw [hc] at hdigit
    cases hdigit
  unfold Numeral.chars
  rw [hd]
  split_ifs
  · simp [words, List.isPrefixOf, hne 'I' rfl]
  · simp [words, List.isPrefixOf, hne 'n' rfl, hne 't' rfl, hne 'f' rfl, hne 'N' rfl, hne 'I' rfl,
      hne '-' rfl]

theorem readValue_chars {i : ℤ} (hi : Numeral.writable i = true) (h : Stops rest) :
    readValue depth (fuel + 1) ⟨Numeral.chars i ++ rest, offset⟩ =
      .ok (.int i, ⟨rest, offset + (Numeral.chars i).length⟩) := by
  obtain ⟨c, ds, hc, hfirst⟩ := exists_cons_chars i
  have hne : c ≠ '"' ∧ c ≠ '[' ∧ c ≠ '{' := by
    refine ⟨?_, ?_, ?_⟩ <;> (rintro rfl; revert hfirst; decide)
  have hwords := find?_words rest i
  rw [← readNumber_chars hi h]
  rw [hc, List.cons_append] at hwords ⊢
  simp [readValue, hne, hwords]

theorem readValue_writeText (ascii : Bool) (s : String) :
    readValue depth (fuel + 1) ⟨writeText ascii s ++ rest, offset⟩ =
      .ok (.text s, ⟨rest, offset + (writeText ascii s).length⟩) := by
  have h := readText_writeText offset offset rest ascii s
  have hcons : writeText ascii s ++ rest =
      '"' :: (s.toList.flatMap (escapeChar ascii) ++ ['"'] ++ rest) := rfl
  rw [hcons] at h ⊢
  rw [readValue]
  dsimp only
  rw [h]
  rfl

theorem readValue_null : readValue depth (fuel + 1) ⟨['n', 'u', 'l', 'l'] ++ rest, offset⟩ =
    .ok (.null, ⟨rest, offset + 4⟩) := rfl

theorem readValue_true : readValue depth (fuel + 1) ⟨['t', 'r', 'u', 'e'] ++ rest, offset⟩ =
    .ok (.bool true, ⟨rest, offset + 4⟩) := rfl

theorem readValue_false :
    readValue depth (fuel + 1) ⟨['f', 'a', 'l', 's', 'e'] ++ rest, offset⟩ =
      .ok (.bool false, ⟨rest, offset + 5⟩) := rfl

/-- **An array is read** by reading its items. -/
theorem readValue_array (hws : AreBlanks ws) (hstart : StartsToken rest)
    (hne : rest.head? ≠ some ']') :
    readValue (depth + 1) (fuel + 1) ⟨'[' :: (ws ++ rest), offset⟩ =
      readItems depth fuel ⟨rest, offset + 1 + ws.length⟩ [] := by
  have hskip : (Cursor.advance ⟨'[' :: (ws ++ rest), offset⟩ 1).skipBlanks =
      ⟨rest, offset + 1 + ws.length⟩ := skipBlanks_append hws hstart
  simp [readValue, hskip, hne]

theorem readValue_object (hws : AreBlanks ws) (hstart : StartsToken rest)
    (hne : rest.head? ≠ some '}') :
    readValue (depth + 1) (fuel + 1) ⟨'{' :: (ws ++ rest), offset⟩ =
      readMembers depth fuel ⟨rest, offset + 1 + ws.length⟩ [] := by
  have hskip : (Cursor.advance ⟨'{' :: (ws ++ rest), offset⟩ 1).skipBlanks =
      ⟨rest, offset + 1 + ws.length⟩ := skipBlanks_append hws hstart
  simp [readValue, hskip, hne]

theorem readValue_emptyArray : readValue (depth + 1) (fuel + 1) ⟨'[' :: ']' :: rest, offset⟩ =
    .ok (.array [], ⟨rest, offset + 2⟩) := by
  have hskip : Cursor.skipBlanks ⟨']' :: rest, offset + 1⟩ = ⟨']' :: rest, offset + 1⟩ :=
    skipBlanks_of_startsToken (by simp [StartsToken, isBlank])
  simp [readValue, hskip, Cursor.advance]

theorem readValue_emptyObject : readValue (depth + 1) (fuel + 1) ⟨'{' :: '}' :: rest, offset⟩ =
    .ok (.object [], ⟨rest, offset + 2⟩) := by
  have hskip : Cursor.skipBlanks ⟨'}' :: rest, offset + 1⟩ = ⟨'}' :: rest, offset + 1⟩ :=
    skipBlanks_of_startsToken (by simp [StartsToken, isBlank])
  simp [readValue, hskip, Cursor.advance]

section Entries

variable {cursor : Cursor} {seen : List Json} {members : Members} {ws' : List Char} {offset' : ℕ}

/-- **The last item** of an array ends it. -/
theorem readItems_last (hws : AreBlanks ws)
    (h : readValue depth fuel cursor = .ok (v, ⟨ws ++ ']' :: rest, offset⟩)) :
    readItems depth (fuel + 1) cursor seen =
      .ok (.array (v :: seen).reverse, ⟨rest, offset + ws.length + 1⟩) := by
  have hskip : Cursor.skipBlanks ⟨ws ++ ']' :: rest, offset⟩ = ⟨']' :: rest, offset + ws.length⟩ :=
    skipBlanks_append hws (by simp [StartsToken, isBlank])
  simp [readItems, h, hskip, Cursor.advance]

/-- **Another item** is read after it. -/
theorem readItems_cons (hws : AreBlanks ws) (hstart : StartsToken rest)
    (h : readValue depth fuel cursor = .ok (v, ⟨',' :: (ws ++ rest), offset⟩)) :
    readItems depth (fuel + 1) cursor seen =
      readItems depth fuel ⟨rest, offset + 1 + ws.length⟩ (v :: seen) := by
  have hskip : Cursor.skipBlanks ⟨',' :: (ws ++ rest), offset⟩ = ⟨',' :: (ws ++ rest), offset⟩ :=
    skipBlanks_of_startsToken (by simp [StartsToken, isBlank])
  have hskip' : (Cursor.advance ⟨',' :: (ws ++ rest), offset⟩ 1).skipBlanks =
      ⟨rest, offset + 1 + ws.length⟩ := skipBlanks_append hws hstart
  simp [readItems, h, hskip, hskip']

variable {r : List Char}

/-- A name and its value, up to what follows the value. -/
theorem readMembers_name (ascii : Bool) (name : String) (hws : AreBlanks ws)
    (hstart : StartsToken r) (h : readValue depth fuel
      ⟨r, offset + (writeText ascii name).length + 1 + ws.length⟩ = .ok (v, cursor)) :
    readMembers depth (fuel + 1) ⟨writeText ascii name ++ ':' :: (ws ++ r), offset⟩ members =
      match cursor.skipBlanks.rest with
      | '}' :: _ => .ok (.object (put members name v), cursor.skipBlanks.advance 1)
      | ',' :: _ =>
        readMembers depth fuel (cursor.skipBlanks.advance 1).skipBlanks (put members name v)
      | _ => .error (.fault .expectingComma cursor.skipBlanks.offset) := by
  have hread := readText_writeText offset offset (':' :: (ws ++ r)) ascii name
  have hcons : writeText ascii name ++ ':' :: (ws ++ r) =
      '"' :: (name.toList.flatMap (escapeChar ascii) ++ ['"'] ++ ':' :: (ws ++ r)) := rfl
  have hcolon : Cursor.skipBlanks ⟨':' :: (ws ++ r), offset + (writeText ascii name).length⟩ =
      ⟨':' :: (ws ++ r), offset + (writeText ascii name).length⟩ :=
    skipBlanks_of_startsToken (by simp [StartsToken, isBlank])
  have hskip : (Cursor.advance
      ⟨':' :: (ws ++ r), offset + (writeText ascii name).length⟩ 1).skipBlanks =
      ⟨r, offset + (writeText ascii name).length + 1 + ws.length⟩ := skipBlanks_append hws hstart
  rw [hcons] at hread ⊢
  rw [readMembers]
  dsimp only
  rw [hread]
  dsimp only
  rw [hcolon]
  dsimp only
  rw [hskip, h]
  rfl

/-- **The last member** of an object ends it. -/
theorem readMembers_last (ascii : Bool) (name : String) (hws : AreBlanks ws)
    (hws' : AreBlanks ws') (hstart : StartsToken r) (h : readValue depth fuel
      ⟨r, offset + (writeText ascii name).length + 1 + ws.length⟩ =
        .ok (v, ⟨ws' ++ '}' :: rest, offset'⟩)) :
    readMembers depth (fuel + 1) ⟨writeText ascii name ++ ':' :: (ws ++ r), offset⟩ members =
      .ok (.object (put members name v), ⟨rest, offset' + ws'.length + 1⟩) := by
  have hskip : Cursor.skipBlanks ⟨ws' ++ '}' :: rest, offset'⟩ =
      ⟨'}' :: rest, offset' + ws'.length⟩ := skipBlanks_append hws' (by simp [StartsToken, isBlank])
  rw [readMembers_name ascii name hws hstart h, hskip]
  rfl

/-- **Another member** is read after it. -/
theorem readMembers_cons (ascii : Bool) (name : String) (hws : AreBlanks ws)
    (hws' : AreBlanks ws') (hstart : StartsToken r) (hstart' : StartsToken rest)
    (h : readValue depth fuel ⟨r, offset + (writeText ascii name).length + 1 + ws.length⟩ =
      .ok (v, ⟨',' :: (ws' ++ rest), offset'⟩)) :
    readMembers depth (fuel + 1) ⟨writeText ascii name ++ ':' :: (ws ++ r), offset⟩ members =
      readMembers depth fuel ⟨rest, offset' + 1 + ws'.length⟩ (put members name v) := by
  have hskip : Cursor.skipBlanks ⟨',' :: (ws' ++ rest), offset'⟩ =
      ⟨',' :: (ws' ++ rest), offset'⟩ := skipBlanks_of_startsToken (by simp [StartsToken, isBlank])
  have hskip' : (Cursor.advance ⟨',' :: (ws' ++ rest), offset'⟩ 1).skipBlanks =
      ⟨rest, offset' + 1 + ws'.length⟩ := skipBlanks_append hws' hstart'
  rw [readMembers_name ascii name hws hstart h, hskip]
  dsimp only
  rw [hskip']
  rfl

end Entries

/-! ### Reading what is spelled -/

/-- What comes first in a text that spells a value ends nothing. -/
theorem exists_cons_of_spells (h : Spells depth v cs) :
    ∃ c ds, cs = c :: ds ∧ c ∉ [' ', '\t', '\n', '\r', ']', Char.ofNat 0xFEFF] := by
  cases h with
  | int hi =>
    obtain ⟨c, ds, hc, hfirst⟩ := exists_cons_chars _
    refine ⟨c, ds, hc, fun hmem => ?_⟩
    have hother : ∀ b ∈ [' ', '\t', '\n', '\r', ']', Char.ofNat 0xFEFF],
        b.isDigit = false ∧ b ≠ '-' := by
      simp [Char.isDigit]
    obtain ⟨hdigit, hminus⟩ := hother c hmem
    rcases hfirst with h | h
    · rw [hdigit] at h
      cases h
    · exact hminus h
  | _ => exact ⟨_, _, rfl, by simp⟩

theorem startsToken_of_spells (h : Spells depth v cs) : StartsToken (cs ++ rest) := by
  obtain ⟨c, ds, rfl, hc⟩ := exists_cons_of_spells h
  rintro b hb
  obtain rfl : c = b := by simpa using hb
  simp only [List.mem_cons, not_or] at hc
  simp [isBlank, hc]

theorem startsToken_of_spellsItems {vs : List Json} (h : SpellsItems depth vs cs)
    (rest : List Char) :
    StartsToken (cs ++ rest) ∧ (cs ++ rest).head? ≠ some ']' := by
  have hvalue : ∀ {v cs rest}, Spells depth v cs →
      StartsToken (cs ++ rest) ∧ (cs ++ rest).head? ≠ some ']' := by
    intro v cs rest h
    obtain ⟨c, ds, hc, hne⟩ := exists_cons_of_spells h
    refine ⟨startsToken_of_spells h, ?_⟩
    rw [hc, List.cons_append, List.head?_cons]
    rintro ⟨⟩
    simp at hne
  cases h with
  | last h hws => rw [List.append_assoc]; exact hvalue h
  | cons h hws hrest => rw [List.append_assoc]; exact hvalue h

theorem startsToken_of_spellsMembers {ms : Members} (h : SpellsMembers depth ms cs)
    (rest : List Char) :
    StartsToken (cs ++ rest) ∧ (cs ++ rest).head? ≠ some '}' := by
  cases h <;> simp [StartsToken, writeText, isBlank]

theorem put_of_not_mem {ms : Members} {name : String} (h : name ∉ ms.map Prod.fst) :
    put ms name v = ms ++ [(name, v)] := by
  induction ms with
  | nil => rfl
  | cons m ms ih =>
    rw [List.map_cons, List.mem_cons, not_or] at h
    rw [put, if_neg (fun heq => h.1 heq.symm), ih h.2, List.cons_append]

/-- With this fuel every text that is short enough for it is read as the value that it spells. -/
def ReadsValue (fuel : ℕ) : Prop := ∀ ⦃depth v cs⦄ (offset rest), Spells depth v cs →
  2 * cs.length ≤ fuel → Stops rest →
    readValue depth fuel ⟨cs ++ rest, offset⟩ = .ok (v, ⟨rest, offset + cs.length⟩)

/-- The same of the items of an array. -/
def ReadsItems (fuel : ℕ) : Prop := ∀ ⦃depth offset vs cs rest⦄ (seen), SpellsItems depth vs cs →
  2 * cs.length ≤ fuel →
    readItems depth fuel ⟨cs ++ rest, offset⟩ seen =
      .ok (.array (seen.reverse ++ vs), ⟨rest, offset + cs.length⟩)

/-- The same of the members of an object. -/
def ReadsMembers (fuel : ℕ) : Prop := ∀ ⦃depth offset ms cs rest⦄ (seen),
  SpellsMembers depth ms cs → 2 * cs.length ≤ fuel → ((seen ++ ms).map Prod.fst).Nodup →
    readMembers depth fuel ⟨cs ++ rest, offset⟩ seen =
      .ok (.object (seen ++ ms), ⟨rest, offset + cs.length⟩)

theorem readsValue_succ (hitems : ReadsItems fuel) (hmembers : ReadsMembers fuel) :
    ReadsValue (fuel + 1) := by
  intro depth v cs offset rest h hfuel hrest
  cases h with
  | null => exact readValue_null
  | true => exact readValue_true
  | false => exact readValue_false
  | int hi => exact readValue_chars hi hrest
  | text ascii s => exact readValue_writeText ascii s
  | emptyArray => exact readValue_emptyArray
  | emptyObject => exact readValue_emptyObject
  | @array depth vs ws cs hws h =>
    obtain ⟨hstart, hne⟩ := startsToken_of_spellsItems h rest
    rw [List.cons_append, List.append_assoc, readValue_array hws hstart hne,
      hitems [] h (by simp at hfuel; omega)]
    simp
    omega
  | @object depth ms ws cs hws hnames h =>
    obtain ⟨hstart, hne⟩ := startsToken_of_spellsMembers h rest
    rw [List.cons_append, List.append_assoc, readValue_object hws hstart hne,
      hmembers [] h (by simp at hfuel; omega) hnames]
    simp
    omega

theorem readsItems_succ (hvalue : ReadsValue fuel) (hitems : ReadsItems fuel) :
    ReadsItems (fuel + 1) := by
  intro depth offset vs cs rest seen h hfuel
  cases h with
  | @last depth v cs ws h hws =>
    have hread := hvalue offset (ws ++ ']' :: rest) h
      (by simp at hfuel; omega) (stops_append hws (by simp))
    rw [List.append_assoc, List.append_assoc, List.singleton_append, readItems_last hws hread]
    simp
    omega
  | @cons depth v vs cs ws ds h hws hrest =>
    obtain ⟨hstart, -⟩ := startsToken_of_spellsItems hrest rest
    have hread := hvalue offset (',' :: (ws ++ (ds ++ rest))) h
      (by simp at hfuel; omega) (stops_append areBlanks_nil (by simp))
    rw [List.append_assoc, List.cons_append, List.append_assoc, readItems_cons hws hstart hread,
      hitems (v :: seen) hrest (by simp at hfuel; omega)]
    simp
    omega

theorem not_mem_of_nodup {seen ms : Members} {name : String}
    (h : ((seen ++ (name, v) :: ms).map Prod.fst).Nodup) : name ∉ seen.map Prod.fst := by
  rw [List.map_append, List.map_cons] at h
  exact fun hmem => (List.nodup_append.mp h).2.2 _ hmem _ List.mem_cons_self rfl

theorem readsMembers_succ (hvalue : ReadsValue fuel) (hmembers : ReadsMembers fuel) :
    ReadsMembers (fuel + 1) := by
  intro depth offset ms cs rest seen h hfuel hnames
  cases h with
  | @last depth v cs ws ws' ascii name hws h hws' =>
    have hread := hvalue (offset + (writeText ascii name).length + 1 + ws.length)
      (ws' ++ '}' :: rest) h (by simp at hfuel; omega) (stops_append hws' (by simp))
    simp only [List.append_assoc, List.cons_append, List.nil_append]
    rw [readMembers_last ascii name hws hws' (startsToken_of_spells h) hread,
      put_of_not_mem (not_mem_of_nodup hnames)]
    simp
    omega
  | @cons depth v ms cs ws ws' ds ascii name hws h hws' hrest =>
    obtain ⟨hstart, -⟩ := startsToken_of_spellsMembers hrest rest
    have hread := hvalue (offset + (writeText ascii name).length + 1 + ws.length)
      (',' :: (ws' ++ (ds ++ rest))) h (by simp at hfuel; omega)
      (stops_append areBlanks_nil (by simp))
    simp only [List.append_assoc, List.cons_append]
    rw [readMembers_cons ascii name hws hws' (startsToken_of_spells h) hstart hread,
      put_of_not_mem (not_mem_of_nodup hnames),
      hmembers (seen ++ [(name, v)]) hrest (by simp at hfuel; omega) (by simpa using hnames)]
    simp
    omega

/-- **Enough fuel** for a text is twice its length, as each of its characters is passed over once
and at most two steps come before the next. -/
theorem reads_of_spells (fuel : ℕ) : ReadsValue fuel ∧ ReadsItems fuel ∧ ReadsMembers fuel := by
  induction fuel with
  | zero =>
    refine ⟨?_, ?_, ?_⟩
    · intro depth v cs offset rest h hfuel
      obtain ⟨c, ds, rfl, -⟩ := exists_cons_of_spells h
      simp at hfuel
    · intro depth offset vs cs rest seen h hfuel
      cases h <;> simp at hfuel
    · intro depth offset ms cs rest seen h hfuel
      cases h <;> simp at hfuel
  | succ fuel ih =>
    obtain ⟨hvalue, hitems, hmembers⟩ := ih
    exact ⟨readsValue_succ hitems hmembers, readsItems_succ hvalue hitems,
      readsMembers_succ hvalue hmembers⟩

/-- **A text that spells a value**, with blanks after it, is read as the value. -/
theorem readWhole_of_spells (h : Spells depthLimit v cs) (hws : AreBlanks ws) :
    readWhole (cs ++ ws) = .ok v := by
  obtain ⟨c, ds, hc, hmark⟩ := exists_cons_of_spells h
  have hstops : Stops ws := by
    intro b hb
    rcases hws b (List.mem_of_head? hb) with rfl | rfl <;> decide
  have hread := (reads_of_spells (2 * (cs ++ ws).length + 2)).1 0 ws h
    (by rw [List.length_append]; omega) hstops
  have hskip : Cursor.skipBlanks ⟨ws, 0 + cs.length⟩ = ⟨[], 0 + cs.length + ws.length⟩ := by
    have hnil : StartsToken [] := nofun
    rw [← skipBlanks_append hws hnil, List.append_nil]
  have hbom : (cs ++ ws).head? ≠ some (Char.ofNat 0xFEFF) := by
    rw [hc, List.cons_append, List.head?_cons]
    intro heq
    rw [Option.some.inj heq] at hmark
    exact hmark (by simp)
  rw [readWhole, if_neg hbom, skipBlanks_of_startsToken (startsToken_of_spells h), hread]
  dsimp only
  rw [hskip]
  rfl

theorem read_of_spells (h : Spells depthLimit v cs) (hws : AreBlanks ws) :
    Json.read (String.ofList (cs ++ ws)) = .ok v := by
  rw [Json.read, String.toList_ofList, readWhole_of_spells h hws]

/-! ### Characters of what is spelled -/

theorem not_mem_digits (n : ℕ) : '\r' ∉ Hex.digits 4 n := by
  have hlower : ∀ d < 16, '\r' ≠ Hex.lower d := by decide
  have hmod : ∀ k : ℕ, '\r' ≠ Hex.lower (k % 16) := fun k => hlower _ (Nat.mod_lt _ (by decide))
  simp [Hex.digits, hmod]

theorem not_mem_escapeChar (ascii : Bool) (c : Char) : '\r' ∉ escapeChar ascii c := by
  unfold escapeChar codeEscape unitEscape
  split_ifs with _ _ _ hreturn
  all_goals simp [not_mem_digits]
  exact fun h => hreturn h.symm

theorem not_mem_writeText (ascii : Bool) (s : String) : '\r' ∉ writeText ascii s := by
  simp [writeText, not_mem_escapeChar]

theorem not_mem_chars (i : ℤ) : '\r' ∉ Numeral.chars i := by
  have hdigits : '\r' ∉ Numeral.digits i.natAbs := fun h =>
    absurd (Numeral.isDigit_of_mem_digits h) (by decide)
  unfold Numeral.chars
  split_ifs
  · simpa using hdigits
  · exact hdigits

theorem AreBlanks.not_mem (h : AreBlanks ws) : '\r' ∉ ws := by
  intro hmem
  rcases h _ hmem with h | h <;> revert h <;> decide

mutual

/-- No carriage return stands in a text that spells a value: inside texts it is escaped. -/
theorem not_mem_of_spells : ∀ {depth v cs}, Spells depth v cs → '\r' ∉ cs
  | _, _, _, .null => by simp
  | _, _, _, .true => by simp
  | _, _, _, .false => by simp
  | _, _, _, .int _ => not_mem_chars _
  | _, _, _, .text ascii s => not_mem_writeText ascii s
  | _, _, _, .emptyArray => by simp
  | _, _, _, .emptyObject => by simp
  | _, _, _, .array hws h => by simp [hws.not_mem, not_mem_of_spellsItems h]
  | _, _, _, .object hws _ h => by simp [hws.not_mem, not_mem_of_spellsMembers h]

theorem not_mem_of_spellsItems : ∀ {depth vs cs}, SpellsItems depth vs cs → '\r' ∉ cs
  | _, _, _, .last h hws => by simp [hws.not_mem, not_mem_of_spells h]
  | _, _, _, .cons h hws hrest => by
    simp [hws.not_mem, not_mem_of_spells h, not_mem_of_spellsItems hrest]

theorem not_mem_of_spellsMembers : ∀ {depth ms cs}, SpellsMembers depth ms cs → '\r' ∉ cs
  | _, _, _, .last ascii name hws h hws' => by
    simp [not_mem_writeText, hws.not_mem, hws'.not_mem, not_mem_of_spells h]
  | _, _, _, .cons ascii name hws h hws' hrest => by
    simp [not_mem_writeText, hws.not_mem, hws'.not_mem, not_mem_of_spells h,
      not_mem_of_spellsMembers hrest]

end

theorem unifyLineEnds_eq_self (h : '\r' ∉ cs) : unifyLineEnds cs = cs := by
  induction cs with
  | nil => rfl
  | cons c cs ih =>
    obtain ⟨hc, hcs⟩ := not_or.mp (mt List.mem_cons.mpr h)
    rw [unifyLineEnds, ih hcs]
    · rintro _ rfl
      exact absurd rfl hc
    · rintro rfl
      exact absurd rfl hc

/-! ### What is written over several lines -/

/-- **Values that are read back**: no number in them has a point or too many digits, no object gives
a name twice, and arrays and objects are nested at most `depth` deep. -/
inductive IsPlain : ℕ → Json → Prop
  | null {n} : IsPlain n .null
  | bool {n} (b) : IsPlain n (.bool b)
  | int {n i} (hi : Numeral.writable i = true) : IsPlain n (.int i)
  | text {n} (s) : IsPlain n (.text s)
  | array {n vs} (h : ∀ v ∈ vs, IsPlain n v) : IsPlain (n + 1) (.array vs)
  | object {n ms} (hnames : (ms.map Prod.fst).Nodup) (h : ∀ m ∈ ms, IsPlain n m.2) :
      IsPlain (n + 1) (.object ms)

theorem areBlanks_newline (level : ℕ) : AreBlanks (newline level) := by
  intro c hc
  rcases List.mem_cons.mp hc with rfl | hc
  · exact .inr rfl
  · exact .inl (List.eq_of_mem_replicate hc)

theorem spellsItems_indented {level : ℕ} {vs : List Json} (hws : AreBlanks ws)
    (h : Spells depth v cs) (hvs : ∀ w ∈ vs, Spells depth w (indented level w)) :
    SpellsItems depth (v :: vs) (cs ++ (indentedItems level vs ++ (ws ++ [']']))) := by
  induction vs generalizing v cs with
  | nil => exact .last h hws
  | cons w vs ih =>
    have hrest := ih (hvs w (by simp)) fun x hx => hvs x (by simp [hx])
    have := SpellsItems.cons h (areBlanks_newline level) hrest
    simpa [indentedItems] using this

theorem spellsMembers_indented {level : ℕ} {name : String} {ms : Members} (hws : AreBlanks ws)
    (h : Spells depth v cs) (hms : ∀ m ∈ ms, Spells depth m.2 (indented level m.2)) :
    SpellsMembers depth ((name, v) :: ms) (writeText true name ++
      ':' :: ' ' :: (cs ++ (indentedMembers level ms ++ (ws ++ ['}'])))) := by
  have hblank : AreBlanks [' '] := by simp [AreBlanks]
  induction ms generalizing name v cs with
  | nil => exact .last true name hblank h hws
  | cons m ms ih =>
    obtain ⟨name', w⟩ := m
    have hrest : SpellsMembers depth ((name', w) :: ms) _ :=
      ih (hms (name', w) (by simp)) fun x hx => hms x (by simp [hx])
    have := SpellsMembers.cons true name hblank h (areBlanks_newline level) hrest
    simpa [indentedMembers] using this

/-- **What is written over several lines** spells the value. -/
theorem spells_indented (h : IsPlain depth v) : ∀ level, Spells depth v (indented level v) := by
  induction h with
  | null => intro level; exact .null
  | bool b => intro level; cases b <;> constructor
  | int hi => intro level; exact .int hi
  | text s => intro level; exact .text true s
  | @array depth vs h ih =>
    intro level
    cases vs with
    | nil => exact .emptyArray
    | cons v vs =>
      have hvs : ∀ w ∈ vs, Spells depth w (indented (level + 1) w) :=
        fun w hw => ih w (List.mem_cons_of_mem v hw) (level + 1)
      have := Spells.array (areBlanks_newline (level + 1)) (spellsItems_indented
        (areBlanks_newline level) (ih v (by simp) (level + 1)) hvs)
      simpa [indented] using this
  | @object depth ms hnames h ih =>
    intro level
    cases ms with
    | nil => exact .emptyObject
    | cons m ms =>
      obtain ⟨name, v⟩ := m
      have hms : ∀ m ∈ ms, Spells depth m.2 (indented (level + 1) m.2) :=
        fun m hm => ih m (List.mem_cons_of_mem _ hm) (level + 1)
      have := Spells.object (areBlanks_newline (level + 1)) hnames (spellsMembers_indented
        (areBlanks_newline level) (ih (name, v) (by simp) (level + 1)) hms)
      simpa [indented] using this

/-- **What is written over several lines** is read back from a file that it was saved to. -/
theorem loadJson_pretty (h : IsPlain depthLimit v) :
    loadJson (some (Outcome.lines [v.pretty])) = .ok v := by
  have hspells := spells_indented h 0
  have hlines : (Outcome.lines [v.pretty]).toList = indented 0 v ++ ['\n'] := by
    simp [Outcome.lines, pretty]
  have hreturn : '\r' ∉ indented 0 v ++ ['\n'] := by
    simp [not_mem_of_spells hspells]
  unfold loadJson
  dsimp only
  rw [hlines, unifyLineEnds_eq_self hreturn, read_of_spells hspells (by simp [AreBlanks])]

end IiifRules.Json
