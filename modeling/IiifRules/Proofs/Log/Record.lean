import Mathlib
import IiifRules.Log.Record
import IiifRules.Proofs.Json.Members
import IiifRules.Proofs.Outcome

/-! # What a log record shows

A record is written from its own properties and from the values that were given with it. Its message
is never replaced by one of these; its time, level and logger are, by a value of the name that they
have in the object. All values that are shown stand under their names.

* `Record.WellGiven.messageText_bare`: the message does not depend on what was given.
* `Record.WellGiven.get?_shown`, `Record.WellGiven.get?_replaceable_iff`: what stands under the name
  of a value, and of a member that a value may replace.
* `Record.WellGiven.exists_object_iff`: when there is an object, and what it shows. -/

namespace IiifRules.Log

open Json

namespace Record

variable {r : Record} {time message name : String} {e : String × Extra} {ms : Json.Members}

/-- The properties that a record is written from. -/
def sources : List String := ["levelname", "name", "msg", "args"]

/-- **What may be given with a record**: no name twice, and none of a property that the record is
written from. (Logging refuses the names of its other properties too.) -/
structure WellGiven (r : Record) : Prop where
  distinct : (r.extras.map Prod.fst).Nodup
  apart : ∀ e ∈ r.extras, e.1 ∉ sources

/-- A record without the values that were given with it. -/
def bare (r : Record) : Record := { r with extras := [] }

/-- The members of its own that a value may replace, as they are without one. -/
def replaceable (r : Record) (time : String) : List (String × String) :=
  [("ts", time), ("level", levelWord r.level), ("logger", r.logger)]

theorem mem_shown : e ∈ r.shown ↔ e ∈ r.extras ∧ isShown e.1 = true := List.mem_filter

/-! ### Properties of the record -/

theorem WellGiven.lookup_eq_none (h : r.WellGiven) (hname : name ∈ sources) :
    r.extras.lookup name = none := by
  rw [List.lookup_eq_none_iff]
  intro e he
  rw [bne_iff_ne]
  rintro rfl
  exact h.apart e he hname

theorem WellGiven.property_eq (h : r.WellGiven) (hname : name ∈ sources) (own : Json) :
    r.property name own = own := by
  unfold property
  rw [h.lookup_eq_none hname]

/-- **The message** does not depend on what was given. -/
theorem WellGiven.messageText_bare (h : r.WellGiven) : r.bare.messageText = r.messageText := by
  unfold messageText supply
  rw [h.property_eq (by decide), h.lookup_eq_none (by decide)]
  rfl

theorem WellGiven.ownMembers_eq (h : r.WellGiven) (time message : String) :
    r.ownMembers time message = [("ts", .text time), ("level", .text (levelWord r.level)),
      ("msg", .text message), ("logger", .text r.logger)] := by
  unfold ownMembers
  rw [h.property_eq (by decide), h.property_eq (by decide)]

theorem WellGiven.nodup_shown (h : r.WellGiven) : (r.shown.map Prod.fst).Nodup :=
  h.distinct.sublist (List.filter_sublist.map _)

/-! ### Members -/

/-- The error stands under a name of its own. -/
theorem get?_allMembers (hname : name ≠ "exc_info") :
    get? (r.allMembers time message) name = get? (r.shownMembers time message) name := by
  unfold allMembers
  cases r.error? with
  | none => rfl
  | some e => exact get?_put.trans (if_neg hname)

theorem ne_of_mem_shown {hidden : String} (hhidden : isShown hidden = false) (he : e ∈ r.shown) :
    e.1 ≠ hidden := by
  rintro rfl
  rw [(mem_shown.mp he).2] at hhidden
  cases hhidden

/-- **A value that is shown** stands under its name. -/
theorem WellGiven.get?_shown (h : r.WellGiven) (he : e ∈ r.shown) :
    get? (r.allMembers time message) e.1 = some e.2.toJson := by
  rw [get?_allMembers (ne_of_mem_shown (by decide) he)]
  exact get?_foldl_put_of_mem h.nodup_shown he

/-- **A member of the record's own** stands under its name unless a shown value replaces it. -/
theorem get?_own (hname : name ≠ "exc_info") (hnot : ∀ e ∈ r.shown, e.1 ≠ name) :
    get? (r.allMembers time message) name = get? (r.ownMembers time message) name := by
  rw [get?_allMembers hname]
  exact get?_foldl_put_of_forall_ne hnot

theorem WellGiven.nodup_allMembers (h : r.WellGiven) :
    ((r.allMembers time message).map Prod.fst).Nodup := by
  have hown : ((r.ownMembers time message).map Prod.fst).Nodup := by
    rw [h.ownMembers_eq]
    exact (by decide : ["ts", "level", "msg", "logger"].Nodup)
  unfold allMembers
  cases r.error? with
  | none => exact nodup_foldl_put hown
  | some e => exact nodup_put (nodup_foldl_put hown)

/-- A member is a text of the record, or a value that is shown. -/
theorem WellGiven.mem_allMembers (h : r.WellGiven) {m : String × Json}
    (hm : m ∈ r.allMembers time message) :
    (∃ t, m.2 = .text t) ∨ ∃ e ∈ r.shown, m = (e.1, e.2.toJson) := by
  have hshown : m ∈ r.shownMembers time message →
      (∃ t, m.2 = .text t) ∨ ∃ e ∈ r.shown, m = (e.1, e.2.toJson) := by
    intro hm
    refine (mem_foldl_put hm).imp_left fun hm => ?_
    rw [h.ownMembers_eq] at hm
    simp only [List.mem_cons, List.not_mem_nil, or_false] at hm
    rcases hm with rfl | rfl | rfl | rfl <;> exact ⟨_, rfl⟩
  unfold allMembers at hm
  cases herror : r.error? with
  | none =>
    rw [herror] at hm
    exact hshown hm
  | some e =>
    rw [herror] at hm
    rcases mem_put hm with hm | rfl
    · exact hshown hm
    · exact Or.inl ⟨_, rfl⟩

/-- **All members can be written** if the values that are shown can. -/
theorem WellGiven.writable_iff (h : r.WellGiven) :
    (Json.object (r.allMembers time message)).writable = true ↔
      ∀ e ∈ r.shown, e.2.toJson.writable = true := by
  rw [writable_object_iff]
  constructor
  · intro hall e he
    exact hall _ (mem_of_get? (h.get?_shown he))
  · intro hshown m hm
    rcases h.mem_allMembers hm with ⟨t, ht⟩ | ⟨e, he, rfl⟩
    · simp [ht, writable]
    · exact hshown e he

/-! ### The object -/

theorem object_eq_ok : r.object time = .ok ms ↔ ∃ text, r.messageText = .ok text ∧
    (Json.object (r.allMembers time text)).writable = true ∧ ms = r.allMembers time text := by
  unfold Record.object
  rw [Outcome.bind_eq_ok]
  refine exists_congr fun text => and_congr_right fun _ => ?_
  dsimp only
  split_ifs with hwritable
  · simp [hwritable, pure, Except.pure, eq_comm]
  · simp [hwritable]

/-- The members that a value may replace have names that are shown. -/
theorem WellGiven.own_of_mem_replaceable (h : r.WellGiven) (message : String)
    {own : String × String} (hmem : own ∈ r.replaceable time) :
    isShown own.1 = true ∧ own.1 ≠ "exc_info" ∧
      get? (r.ownMembers time message) own.1 = some (.text own.2) := by
  have hnames : ∀ name ∈ ["ts", "level", "logger"], isShown name = true ∧ name ≠ "exc_info" := by
    decide
  rw [← and_assoc, h.ownMembers_eq]
  refine ⟨hnames _ (List.mem_map_of_mem hmem), ?_⟩
  unfold replaceable at hmem
  simp only [List.mem_cons, List.not_mem_nil, or_false] at hmem
  rcases hmem with rfl | rfl | rfl <;> rfl

/-- **A member that a value may replace** is the record's own exactly if no value of its name is
given but one that agrees with it. -/
theorem WellGiven.get?_replaceable_iff (h : r.WellGiven) {own : String × String}
    (hmem : own ∈ r.replaceable time) :
    get? (r.allMembers time message) own.1 = some (.text own.2) ↔
      ∀ e ∈ r.extras, e.1 = own.1 → e.2.toJson = .text own.2 := by
  obtain ⟨hshown, hname, hown⟩ := h.own_of_mem_replaceable message hmem
  constructor
  · intro hget e he heq
    rw [← heq, h.get?_shown (mem_shown.mpr ⟨he, by rw [heq, hshown]⟩)] at hget
    exact Option.some.inj hget
  · intro hagree
    by_cases hgiven : ∃ e ∈ r.shown, e.1 = own.1
    · obtain ⟨e, he, heq⟩ := hgiven
      rw [← heq, h.get?_shown he, hagree e (mem_shown.mp he).1 heq]
    · push Not at hgiven
      rw [get?_own hname hgiven, hown]

/-- **A record is written** if it has a message and no value that is shown holds an integer of too
many digits. The object has each name once and shows the message, and each of these values under its
name. It shows the time, level and logger of the record exactly if no value of that name is given
but one that agrees with it. -/
theorem WellGiven.exists_object_iff (h : r.WellGiven) (time : String) :
    ((∃ ms, r.object time = .ok ms) ↔ (∃ text, r.bare.messageText = .ok text) ∧
        ∀ e ∈ r.extras, isShown e.1 = true → e.2.toJson.writable = true) ∧
      ∀ ms, r.object time = .ok ms → ∃ text, r.bare.messageText = .ok text ∧
        (ms.map Prod.fst).Nodup ∧ get? ms "msg" = some (.text text) ∧
        (∀ e ∈ r.extras, isShown e.1 = true → get? ms e.1 = some e.2.toJson) ∧
        ∀ own ∈ r.replaceable time, get? ms own.1 = some (.text own.2) ↔
          ∀ e ∈ r.extras, e.1 = own.1 → e.2.toJson = .text own.2 := by
  have hshown : ∀ {p : String × Extra → Prop},
      (∀ e ∈ r.shown, p e) ↔ ∀ e ∈ r.extras, isShown e.1 = true → p e := by
    simp only [mem_shown, and_imp, implies_true]
  simp only [object_eq_ok, h.messageText_bare, h.writable_iff]
  constructor
  · constructor
    · rintro ⟨ms, text, htext, hwritable, rfl⟩
      exact ⟨⟨text, htext⟩, hshown.mp hwritable⟩
    · rintro ⟨⟨text, htext⟩, hwritable⟩
      exact ⟨_, text, htext, hshown.mpr hwritable, rfl⟩
  · rintro ms ⟨text, htext, -, rfl⟩
    have hmsg : get? (r.allMembers time text) "msg" = some (.text text) := by
      rw [get?_own (by decide) fun e he => ne_of_mem_shown (by decide) he, h.ownMembers_eq]
      rfl
    exact ⟨text, htext, h.nodup_allMembers, hmsg, hshown.mp fun e he => h.get?_shown he,
      fun own hmem => h.get?_replaceable_iff hmem⟩

/-- A record of a level without a word, with an argument, and with values two of which are hidden
and one has the name of a member in another case. -/
theorem WellGiven.exists_object_iff_of_unnamed :
    let r : Record := ⟨15, "limpet.iiif", "tile %d", [.int 7],
      [("_trace", .json (.int 1)), ("Level", .json (.text "deep")), ("taskName", .json .null),
        ("scales", .json (.array [.int 1, .int 2]))], some ⟨"ValueError", ""⟩⟩
    r.WellGiven ∧ ∃ ms, r.object "2026-11-19T05:31:00+00:00" = .ok ms ∧
      get? ms "level" = some (.text "Level 15") ∧ get? ms "msg" = some (.text "tile 7") ∧
      get? ms "Level" = some (.text "deep") ∧
      get? ms "scales" = some (.array [.int 1, .int 2]) := by
  intro r
  have h : r.WellGiven := ⟨by decide, by decide⟩
  have hmessage : r.bare.messageText = .ok "tile 7" := by decide +kernel
  have hlevel : ("level", "Level 15") ∈ r.replaceable "2026-11-19T05:31:00+00:00" := by
    decide +kernel
  obtain ⟨hiff, hshows⟩ := h.exists_object_iff "2026-11-19T05:31:00+00:00"
  obtain ⟨ms, hms⟩ := hiff.mpr ⟨⟨_, hmessage⟩, by decide⟩
  obtain ⟨text, htext, -, hmsg, hgiven, hown⟩ := hshows ms hms
  obtain rfl : text = "tile 7" := Except.ok.inj (htext.symm.trans hmessage)
  have hmem : ∀ n v, (n, Extra.json v) ∈ r.extras → isShown n = true → get? ms n = some v :=
    fun n v he => hgiven (n, .json v) he
  refine ⟨h, ms, hms, (hown _ hlevel).mpr ?_, hmsg,
    hmem "Level" _ (by simp [r]) (by decide), hmem "scales" _ (by simp [r]) (by decide)⟩
  intro e he heq
  exact absurd (List.mem_map.mpr ⟨e, he, heq⟩) (by decide)

/-- A value that is given as the level hides the level of the record. -/
theorem not_level_kept : ¬∀ (r : Record) (time : String) (ms : Json.Members), r.WellGiven →
    r.object time = .ok ms → get? ms "level" = some (.text (levelWord r.level)) := by
  intro h
  have hgiven : (⟨40, "limpet", "m", [], [("level", .json (.text "override"))], none⟩ :
      Record).WellGiven := ⟨by decide, by decide⟩
  have hlevel := h _ "" _ hgiven rfl
  exact absurd (Json.text.inj (Option.some.inj hlevel)) (by decide)

end Record

end IiifRules.Log
