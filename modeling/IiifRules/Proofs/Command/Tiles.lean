import Mathlib
import IiifRules.Command.Run
import IiifRules.Proofs.Request.Written
import IiifRules.Proofs.Tile.Uri

/-! # The command for tiles

`tiles` prints the URIs of the tiles of a grid, one a line. The grid is put together from the numbers
that are given, and a tile height of zero counts as none: then tiles are square.

* `Command.integer?_text`: an integer is read from its text.
* `Command.exists_parse_tiles`: whatever may be given is read from some arguments.
* `Command.exists_runTiles`, `Command.runTiles_of_not_positive`: how the command ends for a grid of
  moderate size, and for one with a length that is not positive.
* `Command.tiles_printed`: how it ends by the numbers that are given. -/

namespace IiifRules

open Numeric Segment.Token

namespace TilesOptions

variable {o : TilesOptions}

/-- **Every number that is given** is at most `2^53` in magnitude. -/
structure Moderate (o : TilesOptions) : Prop where
  width : |o.width| ≤ 2 ^ 53
  height : |o.height| ≤ 2 ^ 53
  tileWidth : |o.tileWidth| ≤ 2 ^ 53
  tileHeight : ∀ n ∈ o.tileHeight, |n| ≤ 2 ^ 53
  scaleFactor : |o.scaleFactor| ≤ 2 ^ 53

/-- **Every number that is given is positive.** -/
structure Positive (o : TilesOptions) : Prop where
  width : 0 < o.width
  height : 0 < o.height
  tileWidth : 0 < o.tileWidth
  tileHeight : ∀ n ∈ o.tileHeight, 0 < n
  scaleFactor : 0 < o.scaleFactor

/-- The grid that is asked for: tiles are square if no height is given. -/
def askedGrid (o : TilesOptions) : Grid where
  fullWidth := o.width
  fullHeight := o.height
  tileWidth := o.tileWidth
  tileHeight := o.tileHeight.getD o.tileWidth
  scaleFactor := o.scaleFactor

/-- What is given, without a tile height. -/
def squared (o : TilesOptions) : TilesOptions := { o with tileHeight := none }

/-- **A tile height of zero is given**, and every other number is positive. -/
def OnlyHeightZero (o : TilesOptions) : Prop := o.tileHeight = some 0 ∧ o.squared.Positive

theorem Moderate.squared (h : o.Moderate) : o.squared.Moderate :=
  ⟨h.width, h.height, h.tileWidth, by simp [TilesOptions.squared], h.scaleFactor⟩

/-- A tile height other than zero is taken as it is given. -/
theorem grid_eq_askedGrid (h : o.tileHeight ≠ some 0) :
    Command.TilesOptions.grid o = o.askedGrid := by
  unfold Command.TilesOptions.grid askedGrid
  cases hheight : o.tileHeight with
  | none => rfl
  | some n =>
    have hn : n ≠ 0 := by
      rintro rfl
      exact h hheight
    simp [hn]

/-- A tile height of zero is as good as none. -/
theorem grid_eq_squared (h : o.tileHeight = some 0) :
    Command.TilesOptions.grid o = o.squared.askedGrid := by
  unfold Command.TilesOptions.grid askedGrid TilesOptions.squared
  rw [h]
  rfl

theorem Positive.askedGrid (h : o.Positive) (ho : o.Moderate) : o.askedGrid.Moderate := by
  have hle : ∀ {n : ℤ}, |n| ≤ 2 ^ 53 → n ≤ 2 ^ 53 := fun hn => (le_abs_self _).trans hn
  refine ⟨⟨h.width, hle ho.width⟩, ⟨h.height, hle ho.height⟩, ⟨h.tileWidth, hle ho.tileWidth⟩, ?_,
    ⟨h.scaleFactor, hle ho.scaleFactor⟩⟩
  unfold TilesOptions.askedGrid
  cases hheight : o.tileHeight with
  | none => exact ⟨h.tileWidth, hle ho.tileWidth⟩
  | some n => exact ⟨h.tileHeight n hheight, hle (ho.tileHeight n hheight)⟩

theorem positive_of_askedGrid (h : o.askedGrid.Positive) : o.Positive := by
  refine ⟨h.fullWidth, h.fullHeight, h.tileWidth, fun n hn => ?_, h.scaleFactor⟩
  have hheight := h.tileHeight
  unfold askedGrid at hheight
  rw [Option.mem_def.mp hn] at hheight
  exact hheight

end TilesOptions

namespace Command

variable {o : TilesOptions}

/-! ### Numbers as arguments -/

theorem isWhiteSpace_of_isDigit {c : Char} (h : c.isDigit = true) :
    Text.isWhiteSpace c = false := by
  have hbounds := Numeral.bounds_of_isDigit h
  simp only [Text.isWhiteSpace, Bool.or_eq_false_iff, Bool.and_eq_false_iff, decide_eq_false_iff_not]
  omega

theorem decimalValue?_of_isDigit {c : Char} (h : c.isDigit = true) :
    Text.decimalValue? c = some (Numeral.digitValue c) := by
  obtain ⟨hle, hge⟩ := Numeral.bounds_of_isDigit h
  have hfirst : (decide (48 ≤ c.toNat) && decide (c.toNat < 48 + 10)) = true := by
    simp only [Bool.and_eq_true, decide_eq_true_eq]
    omega
  have hcons : Text.zeros = 48 :: Text.zeros.tail := rfl
  rw [Text.decimalValue?, hcons, List.find?_cons, hfirst]
  rfl

theorem mapM_decimalValue? {cs : List Char} (h : ∀ c ∈ cs, c.isDigit = true) :
    cs.mapM Text.decimalValue? = some (cs.map Numeral.digitValue) := by
  induction cs with
  | nil => rfl
  | cons c cs ih =>
    rw [List.mapM_cons, decimalValue?_of_isDigit (h c (by simp)),
      ih fun c hc => h c (List.mem_cons_of_mem _ hc)]
    rfl

/-- Digits are the number that they stand for. -/
theorem natural?_digits {m : ℕ} (h : (Numeral.digits m).length ≤ Numeral.digitLimit) :
    natural? (Numeral.digits m) = some m := by
  have hd : ∀ c ∈ Numeral.digits m, c.isDigit = true := fun _ => Numeral.isDigit_of_mem_digits
  have hnot : ∀ {c : Char}, c.isDigit = false → c ∉ Numeral.digits m := fun hc hmem =>
    Bool.false_ne_true (hc.symm.trans (hd _ hmem))
  have hfraction : Descriptor.dropFraction (Numeral.digits m) = Numeral.digits m := by
    rw [Descriptor.dropFraction, Text.cut_of_notMem (hnot rfl)]
  have hne : Numeral.digits m ≠ [] := List.ne_nil_of_length_pos (Numeral.length_digits_pos m)
  have hlong : ¬Numeral.digitLimit < ((Numeral.digits m).map Numeral.digitValue).length := by
    rw [List.length_map]
    exact Nat.not_lt.mpr h
  have hvalue : ((Numeral.digits m).map Numeral.digitValue).foldl (fun n d => 10 * n + d) 0 = m := by
    rw [List.foldl_map]
    exact Numeral.value_digits m
  unfold natural?
  rw [hfraction, Text.fields_of_notMem (hnot rfl)]
  simp only [List.any_cons, List.any_nil, List.isEmpty_eq_false_iff.mpr hne, List.flatten_cons,
    List.flatten_nil, List.append_nil, Bool.or_self, Bool.false_eq_true, if_false]
  rw [mapM_decimalValue? hd]
  exact (if_neg hlong).trans (congrArg some hvalue)

theorem trim_of_forall {blank : Char → Bool} {cs : List Char} (h : ∀ c ∈ cs, blank c = false) :
    Text.trim blank cs = cs := by
  have hdrop : ∀ {ds : List Char}, (∀ c ∈ ds, blank c = false) → ds.dropWhile blank = ds :=
    fun hds => List.dropWhile_eq_self_iff.mpr fun hl => by simp [hds _ (List.getElem_mem hl)]
  rw [Text.trim, hdrop h, hdrop fun c hc => h c (List.mem_reverse.mp hc), List.reverse_reverse]

/-- **An integer is read from its text.** -/
theorem integer?_text {n : ℤ} (h : Numeral.writable n = true) :
    integer? (Numeral.text n) = some n := by
  have hlength : (Numeral.digits n.natAbs).length ≤ Numeral.digitLimit := of_decide_eq_true h
  have hblank : ∀ c ∈ Numeral.digits n.natAbs, Text.isWhiteSpace c = false := fun c hc =>
    isWhiteSpace_of_isDigit (Numeral.isDigit_of_mem_digits hc)
  unfold integer? Numeral.text Numeral.chars
  rw [String.toList_ofList]
  split_ifs with hn
  · rw [trim_of_forall (List.forall_mem_cons.mpr ⟨rfl, hblank⟩)]
    change (natural? (Numeral.digits n.natAbs)).map (fun m : ℕ => -(m : ℤ)) = some n
    have hvalue : -(n.natAbs : ℤ) = n := by omega
    rw [natural?_digits hlength]
    exact congrArg some hvalue
  · rw [trim_of_forall hblank]
    have hsign : ∀ {c cs}, Numeral.digits n.natAbs = c :: cs → c.isDigit = true := fun hcons =>
      Numeral.isDigit_of_mem_digits (hcons ▸ List.mem_cons_self)
    split
    · rename_i hcons
      exact absurd (hsign hcons) (by decide)
    · rename_i hcons
      exact absurd (hsign hcons) (by decide)
    · rw [natural?_digits hlength]
      exact congrArg some (by omega)

theorem writable_of_abs_le {n : ℤ} (h : |n| ≤ 2 ^ 53) : Numeral.writable n = true := by
  have hcast : (n.natAbs : ℤ) ≤ 2 ^ 53 := by rwa [Int.natCast_natAbs]
  have hle : n.natAbs ≤ 2 ^ 53 := by exact_mod_cast hcast
  have := writable_of_le (k := 53) hle (by decide)
  unfold Numeral.writable at this ⊢
  rwa [Int.natAbs_natCast] at this

section

variable {a : Arguments} {name : String}

theorem integerOr_text {n : ℤ} (value : ℤ) (ha : a.last? name = some (Numeral.text n))
    (hn : Numeral.writable n = true) : integerOr a name value = .ok n := by
  rw [integerOr, ha]
  exact congrArg demand (integer?_text hn)

theorem optionalInteger_text {n? : Option ℤ} (ha : a.last? name = n?.map Numeral.text)
    (hn : ∀ n ∈ n?, Numeral.writable n = true) : optionalInteger a name = .ok n? := by
  rw [optionalInteger, ha]
  cases n? with
  | none => rfl
  | some n =>
    dsimp only [Option.map]
    rw [integer?_text (hn n rfl)]
    rfl

end

/-! ### Arguments -/

/-- The name of an option that stands apart from its value. -/
def StandsApart (name : String) : Prop :=
  name ≠ "--" ∧ Arguments.isOption name = true ∧ Arguments.splitOption name = (name, none)

instance (name : String) : Decidable (StandsApart name) :=
  inferInstanceAs (Decidable (_ ∧ _ ∧ _))

/-- Options each followed by its value, and positional arguments after two hyphens. -/
def spelled (options : List (String × String)) (positional : List String) : List String :=
  options.flatMap (fun o => [o.1, o.2]) ++ "--" :: positional

/-- **Arguments are taken apart** into the options and positional arguments that they spell. -/
theorem collect_spelled {names : List String} {options : List (String × String)}
    (positional : List String) (h : ∀ o ∈ options, StandsApart o.1 ∧ o.1 ∈ names) :
    Arguments.collect names (spelled options positional) = .ok ⟨options, positional⟩ := by
  induction options with
  | nil =>
    change Arguments.collect names ("--" :: positional) = _
    rw [Arguments.collect, if_pos rfl]
  | cons option options ih =>
    obtain ⟨⟨hend, hoption, hsplit⟩, hmem⟩ := h option (by simp)
    change Arguments.collect names (option.1 :: option.2 :: spelled options positional) = _
    rw [Arguments.collect, if_neg hend, if_pos hoption, hsplit]
    dsimp only
    rw [if_pos (List.contains_iff_mem.mpr hmem), ih fun o ho => h o (by simp [ho])]
    rfl

/-- The options that give what is given beside the base and the full width and height. -/
def tilesOptions (o : TilesOptions) : List (String × String) :=
  [("--tile-width", Numeral.text o.tileWidth), ("--scale-factor", Numeral.text o.scaleFactor),
    ("--fmt", o.format), ("--quality", o.quality)] ++
    (o.tileHeight.map fun n => ("--tile-height", Numeral.text n)).toList

theorem tilesOptions_names (o : TilesOptions) :
    ∀ option ∈ tilesOptions o, StandsApart option.1 ∧
      option.1 ∈ ["--tile-width", "--tile-height", "--scale-factor", "--fmt", "--quality"] := by
  unfold tilesOptions
  cases o.tileHeight <;>
    simp only [Option.map, Option.toList, List.cons_append, List.nil_append,
      List.forall_mem_cons] <;>
    decide +kernel

theorem last?_tilesOptions (o : TilesOptions) (positional : List String) :
    let a : Arguments := ⟨tilesOptions o, positional⟩
    a.last? "--tile-width" = some (Numeral.text o.tileWidth) ∧
      a.last? "--tile-height" = o.tileHeight.map Numeral.text ∧
      a.last? "--scale-factor" = some (Numeral.text o.scaleFactor) ∧
      a.last? "--fmt" = some o.format ∧ a.last? "--quality" = some o.quality := by
  unfold Arguments.last? tilesOptions
  cases o.tileHeight <;> exact ⟨rfl, rfl, rfl, rfl, rfl⟩

/-- **Whatever may be given is read from arguments.** -/
theorem exists_parse_tiles (ho : o.Moderate) : ∃ args, parse args = .ok (.tiles o) := by
  have hwidth := integer?_text (writable_of_abs_le ho.width)
  have hheight := integer?_text (writable_of_abs_le ho.height)
  have hcollect := collect_spelled [o.base, Numeral.text o.width, Numeral.text o.height]
    (tilesOptions_names o)
  obtain ⟨hlastWidth, hlastHeight, hlastFactor, hformat, hquality⟩ :=
    last?_tilesOptions o [o.base, Numeral.text o.width, Numeral.text o.height]
  have htileWidth :=
    integerOr_text customaryTileWidth hlastWidth (writable_of_abs_le ho.tileWidth)
  have htileHeight :=
    optionalInteger_text hlastHeight fun n hn => writable_of_abs_le (ho.tileHeight n hn)
  have hfactor := integerOr_text 1 hlastFactor (writable_of_abs_le ho.scaleFactor)
  refine ⟨"tiles" :: spelled (tilesOptions o) _, Outcome.bind_eq_ok.mpr ⟨_, hcollect,
    Outcome.bind_eq_ok.mpr ⟨_, congrArg demand hwidth,
      Outcome.bind_eq_ok.mpr ⟨_, congrArg demand hheight,
        Outcome.bind_eq_ok.mpr ⟨_, htileWidth,
          Outcome.bind_eq_ok.mpr ⟨_, htileHeight,
            Outcome.bind_eq_ok.mpr ⟨_, hfactor, ?_⟩⟩⟩⟩⟩⟩⟩
  rw [hformat, hquality]
  rfl

/-! ### Running the command -/

section

variable {q : Quality} {f : ImageFormat}

/-- A request for the whole image in some quality and format is in order. -/
theorem passes_whole (q : Quality) (f : ImageFormat) :
    Request.Passes { Request.whole with quality := .text q.name, format := .text f.name } none :=
  Request.passes_none_iff_axes.mpr ⟨⟨_, rfl⟩, ⟨_, rfl, rfl⟩, ⟨_, rfl, by decide +kernel⟩,
    ⟨q, Request.term?_quality q⟩, ⟨f, Request.term?_format f⟩⟩

/-- **The command prints what the grid gives**, or ends by its failure. -/
theorem runTiles_eq (hq : o.quality = q.name) (hf : o.format = f.name) : runTiles o =
      match (TilesOptions.grid o).uris o.base o.quality o.format with
      | .ok uris => .success uris
      | .error failure => ofFailure failure := by
  obtain ⟨report, hreport, hvalid⟩ := passes_whole q f
  rw [← hq, ← hf] at hreport
  unfold Request.check at hreport
  unfold runTiles
  dsimp only at hreport ⊢
  rw [hreport]
  exact if_pos hvalid

/-- **A grid of moderate size** is printed. -/
theorem exists_runTiles (hq : o.quality = q.name) (hf : o.format = f.name)
    (hg : (TilesOptions.grid o).Moderate) :
    ∃ uris, (TilesOptions.grid o).uris o.base o.quality o.format = .ok uris ∧
      runTiles o = .success uris := by
  obtain ⟨uris, huris⟩ := Grid.exists_uris hg o.base o.quality o.format
  refine ⟨uris, huris, ?_⟩
  rw [runTiles_eq hq hf, huris]

/-- **A grid with a length that is not positive** is wrong usage. -/
theorem runTiles_of_not_positive (hq : o.quality = q.name) (hf : o.format = f.name)
    (hg : ¬(TilesOptions.grid o).Positive) : runTiles o = .wrongUsage := by
  obtain ⟨name, n, -, hfailure⟩ := Grid.exists_uris_eq_error hg o.base o.quality o.format
  rw [runTiles_eq hq hf, hfailure]
  rfl

end

/-- **What is printed** by the numbers that are given. If all of them are positive, it is the URIs of
the tiles that are asked for. Otherwise it is wrong usage, unless there is a tile height of zero only:
then square tiles are printed. -/
theorem tiles_printed (ho : o.Moderate) {q : Quality} {f : ImageFormat} (hq : o.quality = q.name)
    (hf : o.format = f.name) :
    (∃ args, parse args = .ok (.tiles o)) ∧
      ∀ s args, parse args = .ok (.tiles o) →
        (o.Positive → ∃ uris, o.askedGrid.uris o.base o.quality o.format = .ok uris ∧
          runArguments s args = .success uris) ∧
        (¬o.Positive → (runArguments s args = .wrongUsage ↔ ¬o.OnlyHeightZero)) ∧
        (o.OnlyHeightZero → ∃ uris,
          o.squared.askedGrid.uris o.base o.quality o.format = .ok uris ∧
            runArguments s args = .success uris) := by
  refine ⟨exists_parse_tiles ho, fun s args hargs => ?_⟩
  have hrun : runArguments s args = runTiles o := by
    unfold runArguments
    rw [hargs]
    rfl
  have hsquared : o.OnlyHeightZero → ∃ uris,
      o.squared.askedGrid.uris o.base o.quality o.format = .ok uris ∧
        runTiles o = .success uris := by
    rintro ⟨hzero, hpositive⟩
    have hgrid := TilesOptions.grid_eq_squared hzero
    have := exists_runTiles hq hf (by rw [hgrid]; exact hpositive.askedGrid ho.squared)
    rwa [hgrid] at this
  rw [hrun]
  refine ⟨fun hpositive => ?_, fun hnot => ⟨fun hwrong hzero => ?_, fun hzero => ?_⟩, hsquared⟩
  · have hgrid : TilesOptions.grid o = o.askedGrid := TilesOptions.grid_eq_askedGrid fun hzero =>
      absurd (hpositive.tileHeight 0 hzero) (lt_irrefl 0)
    have := exists_runTiles hq hf (by rw [hgrid]; exact hpositive.askedGrid ho)
    rwa [hgrid] at this
  · obtain ⟨uris, -, hsuccess⟩ := hsquared hzero
    have hcode : (0 : ℕ) = 2 := congrArg Outcome.exitCode (hsuccess.symm.trans hwrong)
    omega
  · -- zero is the only tile height that the grid does not take as it is
    refine runTiles_of_not_positive hq hf fun hgrid => ?_
    by_cases hheight : o.tileHeight = some 0
    · rw [TilesOptions.grid_eq_squared hheight] at hgrid
      exact hzero ⟨hheight, TilesOptions.positive_of_askedGrid hgrid⟩
    · rw [TilesOptions.grid_eq_askedGrid hheight] at hgrid
      exact hnot (TilesOptions.positive_of_askedGrid hgrid)

/-- Tiles of 256 by 512 pixels at half size, in gray; a tile height below zero; and a tile height of
zero, with which tiles are square. -/
theorem tiles_printed_of_gray :
    let s : Sources := ⟨fun _ => .error .missingFile, ""⟩
    let args height := ["tiles", "--tile-height", height, "https://example.org/iiif/1/", "1000",
      "800", "--tile-width=256", "--scale-factor", "2", "--fmt=png", "--quality", "gray"]
    runArguments s (args "512") = .success
        ["https://example.org/iiif/1/0,0,512,800/256,400/0/gray.png",
          "https://example.org/iiif/1/512,0,488,800/244,400/0/gray.png"] ∧
      runArguments s (args "-512") = .wrongUsage ∧
      ∃ uris, (⟨1000, 800, 256, 256, 2⟩ : Grid).uris "https://example.org/iiif/1/" "gray" "png" =
          .ok uris ∧ runArguments s (args "0") = .success uris := by
  intro s args
  let o (height : ℤ) : TilesOptions :=
    ⟨"https://example.org/iiif/1/", 1000, 800, 256, some height, 2, "png", "gray"⟩
  have hmoderate : ∀ height, |height| ≤ 2 ^ 53 → (o height).Moderate := fun height h =>
    ⟨show |(1000 : ℤ)| ≤ 2 ^ 53 by decide, show |(800 : ℤ)| ≤ 2 ^ 53 by decide,
      show |(256 : ℤ)| ≤ 2 ^ 53 by decide, by rintro n ⟨⟩; exact h,
      show |(2 : ℤ)| ≤ 2 ^ 53 by decide⟩
  refine ⟨?_, ?_, ?_⟩
  · have hpositive : (o 512).Positive :=
      ⟨by decide, by decide, by decide, by rintro n ⟨⟩; decide, by decide⟩
    have huris : (o 512).askedGrid.uris (o 512).base (o 512).quality (o 512).format =
        .ok ["https://example.org/iiif/1/0,0,512,800/256,400/0/gray.png",
          "https://example.org/iiif/1/512,0,488,800/244,400/0/gray.png"] := by decide +kernel
    obtain ⟨uris, hprinted, hrun⟩ :=
      ((tiles_printed (q := .gray) (f := .png) (hmoderate 512 (by decide)) rfl rfl).2 s
        (args "512") (by rfl)).1 hpositive
    rwa [Except.ok.inj (hprinted.symm.trans huris)] at hrun
  · have hnot : ¬(o (-512)).Positive := fun h => absurd (h.tileHeight _ rfl) (by decide)
    exact (((tiles_printed (q := .gray) (f := .png) (hmoderate (-512) (by decide)) rfl rfl).2 s
      (args "-512") (by rfl)).2.1 hnot).mpr fun h => absurd h.1 (by decide)
  · exact ((tiles_printed (q := .gray) (f := .png) (hmoderate 0 (by decide)) rfl rfl).2 s
      (args "0") (by rfl)).2.2 ⟨rfl, by decide, by decide, by decide, by rintro n ⟨⟩, by decide⟩

/-- A tile height of zero is not refused. -/
theorem not_wrongUsage_of_zero_height : ¬∀ (s : Sources) (args : List String) (o : TilesOptions)
    (q : Quality) (f : ImageFormat), o.Moderate → o.quality = q.name → o.format = f.name →
    parse args = .ok (.tiles o) → ¬o.Positive →
    (runArguments s args).exitCode = 2 ∧ (runArguments s args).output = "" := by
  intro h
  have hmoderate : (⟨"https://example.org/iiif/1", 100, 100, 512, some 0, 1, "jpg", "default"⟩ :
      TilesOptions).Moderate :=
    ⟨by decide, by decide, by decide, by rintro n ⟨⟩; decide, by decide⟩
  obtain ⟨hcode, -⟩ := h ⟨fun _ => .error .missingFile, ""⟩
    ["tiles", "https://example.org/iiif/1", "100", "100", "--tile-height", "0"] _ .default .jpg
    hmoderate rfl rfl (by rfl) fun hpositive => absurd (hpositive.tileHeight 0 rfl) (by decide)
  exact absurd hcode (by decide +kernel)

end Command

end IiifRules
