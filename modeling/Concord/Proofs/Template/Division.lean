import Concord.Proofs.Template.Extent

/-!
# Where a part of a body is divided

A part of a body is meant to be divided at its first plain `:`, into a specifier and wording, and to
be free text if it has none. This is what happens as long as no shielded unit stands before that `:`
(`isFree_iff_of_isExposed`). A specifier has no shielded unit in it, though, so that a part with one
there is free text all the same, with the `:` in its wording (`isFree_iff`).

How the parts are divided decides what is read: each result of reading them is characterized by how
they write it (`gatherSegments_eq_ok_iff`, `gatherSegments_eq_error_iff`). The main statement is
`Template.step?_divides_parts`, and `Template.not_malformed_shieldedEntry` has a body that a
specifier at fault ought to make malformed, but does not.
-/

set_option autoImplicit false
set_option relaxedAutoImplicit false

namespace Concord

/-! ### The first plain colon -/

/-- The first plain `:` of the part stands between these units. -/
structure DividesAt (part before after : List Glyph) : Prop where
  colon_notMem : .plain ':' ∉ before
  eq_append : part = before ++ .plain ':' :: after

/-- No shielded unit stands before the first plain `:` of the part. -/
def IsExposed (part : List Glyph) : Prop :=
  ∀ before after, DividesAt part before after → ∀ unit ∈ before, unit.shielded = false

section Parts

variable {part before after wording : List Glyph}

/-- A part is divided if it has a plain `:`. -/
theorem exists_dividesAt_iff :
    (∃ before after, DividesAt part before after) ↔ .plain ':' ∈ part := by
  constructor
  · rintro ⟨before, after, hdivides⟩
    simp [hdivides.eq_append]
  · intro hcolon
    obtain ⟨before, after, heq, hfirst⟩ := List.eq_append_cons_of_mem hcolon
    exact ⟨before, after, hfirst, heq⟩

/-- The specifier of a part is what stands before its first plain `:`, if none of that is
shielded. -/
theorem hasSpecifier_iff {specifier : List Char} :
    HasSpecifier part specifier wording ↔
      ∃ before, DividesAt part before wording ∧ (∀ unit ∈ before, unit.shielded = false) ∧
        specifier = before.map (·.char) := by
  constructor
  · rintro ⟨hcolon, heq⟩
    refine ⟨specifier.map Glyph.plain, ⟨fun hmem ↦ hcolon ?_, heq⟩, ?_, ?_⟩
    · obtain ⟨c, hc, hplain⟩ := List.mem_map.mp hmem
      exact (Glyph.mk.inj hplain).1 ▸ hc
    · intro unit hunit
      obtain ⟨c, -, rfl⟩ := List.mem_map.mp hunit
      rfl
    · rw [List.map_map]
      exact (List.map_id _).symm
  · rintro ⟨before, ⟨hcolon, heq⟩, hplain, rfl⟩
    have hunits (unit : Glyph) (hunit : unit ∈ before) : Glyph.plain unit.char = unit := by
      rw [Glyph.plain, ← hplain unit hunit]
    constructor
    · intro hmem
      obtain ⟨unit, hunit, hchar⟩ := List.mem_map.mp hmem
      rw [← hchar, hunits unit hunit] at hcolon
      exact hcolon hunit
    · rw [heq, List.map_map]
      exact congrArg (· ++ _) ((List.map_congr_left hunits).trans (List.map_id _)).symm

/-- A part is free text just if a shielded unit stands before its first plain `:`, or if it has
no such `:`. -/
theorem isFree_iff :
    IsFree part ↔
      ∀ before after, DividesAt part before after → ∃ unit ∈ before, unit.shielded = true := by
  constructor
  · intro hfree before after hdivides
    by_contra! hshielded
    exact hfree _ _ (hasSpecifier_iff.mpr
      ⟨before, hdivides, fun unit hunit ↦ Bool.eq_false_iff.mpr (hshielded unit hunit), rfl⟩)
  · intro hshielded specifier wording hspecifier
    obtain ⟨before, hdivides, hplain, -⟩ := hasSpecifier_iff.mp hspecifier
    obtain ⟨unit, hunit, hshields⟩ := hshielded before wording hdivides
    rw [hplain unit hunit] at hshields
    cases hshields

/-- An exposed part is free text just if it has no plain `:`. -/
theorem isFree_iff_of_isExposed (hexposed : IsExposed part) : IsFree part ↔ .plain ':' ∉ part := by
  rw [isFree_iff, ← exists_dividesAt_iff]
  constructor
  · rintro hshielded ⟨before, after, hdivides⟩
    obtain ⟨unit, hunit, hshields⟩ := hshielded before after hdivides
    rw [hexposed before after hdivides unit hunit] at hshields
    cases hshields
  · intro hnone before after hdivides
    exact absurd ⟨before, after, hdivides⟩ hnone

/-- An exposed part is divided at its first plain `:`. -/
theorem DividesAt.hasSpecifier (h : DividesAt part before after) (hexposed : IsExposed part) :
    HasSpecifier part (before.map (·.char)) after :=
  hasSpecifier_iff.mpr ⟨before, h, hexposed before after h, rfl⟩

end Parts

/-! ### What the parts of a body are read as -/

/-- Units write one wording, the one that they are read as. -/
theorem Wording.isWrittenBy_iff {wording : Wording} {units : List Glyph} :
    wording.IsWrittenBy units ↔ ofGlyphs units = wording := by
  constructor
  · intro hwritten
    cases hwritten with
    | loud => rfl
    | literal hunits => exact if_neg hunits
  · rintro rfl
    exact isWrittenBy_ofGlyphs units

/-- The parts between plain `|` are the stretches. -/
theorem separatesInto_iff {units : List Glyph} {parts : List (List Glyph)} :
    SeparatesInto units parts ↔ stretches units = parts := by
  constructor
  · rintro ⟨hparts, hbar, rfl⟩
    exact List.splitOn_intercalate _ hbar hparts
  · rintro rfl
    exact separatesInto_stretches units

section Reading

variable {header : Header} {parts : List (List Glyph)}

/-- A part without a specifier is made a segment that is all wording. -/
theorem RawSegment.ofGlyphs_of_isFree {part : List Glyph} {wording : Wording} (hfree : IsFree part)
    (hwording : wording.IsWrittenBy part) : ofGlyphs part = ⟨none, wording⟩ := by
  rw [ofGlyphs, specifier?_eq_none_iff.mpr hfree, ← Wording.isWrittenBy_iff.mp hwording]

/-- A part with a specifier is made a segment with it. -/
theorem RawSegment.ofGlyphs_of_hasSpecifier {part wording : List Glyph} {specifier : List Char}
    (hspecifier : HasSpecifier part specifier wording) :
    ofGlyphs part = ⟨some specifier, .ofGlyphs wording⟩ := by
  rw [ofGlyphs, specifier?_eq_some_iff.mpr hspecifier]

/-- Parts are read as the segments and the free text that they write. -/
theorem gatherSegments_eq_ok_iff {segments : List Segment} {freeText? : Option Wording} :
    gatherSegments header (parts.map .ofGlyphs) = .ok (segments, freeText?) ↔
      WriteSegments header parts segments freeText? := by
  constructor
  · intro h
    rcases gatherSegments_cases header parts with ⟨_, _, hread, hwrite⟩ | ⟨fault, hread, -⟩
    · obtain ⟨rfl, rfl⟩ := Prod.mk.inj (Except.ok.inj (h.symm.trans hread))
      exact hwrite
    · cases h.symm.trans hread
  · intro hwrite
    induction hwrite with
    | nil => rfl
    | freeText hfree hwording =>
      rw [List.map_singleton, RawSegment.ofGlyphs_of_isFree hfree hwording]
      rfl
    | cons hfirst _ ih =>
      obtain ⟨hspecifier, hgroup, hwording⟩ := hfirst
      rw [List.map_cons, RawSegment.ofGlyphs_of_hasSpecifier hspecifier, gatherSegments]
      dsimp only
      rw [hgroup, ih, Wording.isWrittenBy_iff.mp hwording]

/-- Reading parts fails with the first fault among them. -/
theorem gatherSegments_eq_error_iff {fault : PatternFault} :
    gatherSegments header (parts.map .ofGlyphs) = .error fault ↔
      HasFirstFault header parts fault := by
  constructor
  · intro h
    rcases gatherSegments_cases header parts with ⟨_, _, hread, -⟩ | ⟨_, hread, hfault⟩
    · cases h.symm.trans hread
    · obtain rfl := Except.error.inj (h.symm.trans hread)
      exact hfault
  · intro hfault
    induction hfault with
    | group hspecifier hgroup =>
      rw [List.map_cons, RawSegment.ofGlyphs_of_hasSpecifier hspecifier, gatherSegments]
      dsimp only
      rw [hgroup]
    | @freeTextNotLast part _ hfree hparts =>
      rw [List.map_cons,
        RawSegment.ofGlyphs_of_isFree hfree (Wording.isWrittenBy_ofGlyphs part), gatherSegments]
      exact if_neg fun hnil ↦ hparts (List.map_eq_nil_iff.mp hnil)
    | cons hfirst _ ih =>
      obtain ⟨hspecifier, hgroup, -⟩ := hfirst
      rw [List.map_cons, RawSegment.ofGlyphs_of_hasSpecifier hspecifier, gatherSegments]
      dsimp only
      rw [hgroup, ih]

namespace Pattern

variable {source : String}

/-- The parts of a body make the pattern that they write. -/
theorem ofRawSegments_eq_ok_iff (hparts : parts ≠ []) {pattern : Pattern} :
    ofRawSegments header (parts.map .ofGlyphs) source = .ok pattern ↔
      pattern.header = header ∧ pattern.source = source ∧ pattern.IsWrittenBy parts := by
  constructor
  · intro h
    rcases ofRawSegments_cases header hparts source with
      ⟨_, hok, hheader, hsource, hwritten⟩ | ⟨fault, hfails, -⟩
    · obtain rfl := Except.ok.inj (h.symm.trans hok)
      exact ⟨hheader, hsource, hwritten⟩
    · cases h.symm.trans hfails
  · rintro ⟨rfl, rfl, hsegments, hwrite⟩
    rw [ofRawSegments, gatherSegments_eq_ok_iff.mpr hwrite]
    exact if_neg hsegments

/-- The parts of a body fail with their fault. -/
theorem ofRawSegments_eq_error_iff (hparts : parts ≠ []) (source : String)
    {fault : PatternFault} :
    ofRawSegments header (parts.map .ofGlyphs) source = .error fault ↔
      IsFaultOf fault header parts := by
  constructor
  · intro h
    rcases ofRawSegments_cases header hparts source with ⟨_, hok, -⟩ | ⟨_, hfails, hfault⟩
    · cases h.symm.trans hok
    · obtain rfl := Except.error.inj (h.symm.trans hfails)
      exact hfault
  · rintro (hfault | ⟨rfl, part, rfl, hfree⟩)
    · rw [ofRawSegments, gatherSegments_eq_error_iff.mpr hfault]
    · have hwrite : WriteSegments header [part] [] (some (.ofGlyphs part)) :=
        .freeText hfree (Wording.isWrittenBy_ofGlyphs part)
      rw [ofRawSegments, gatherSegments_eq_ok_iff.mpr hwrite]
      rfl

end Pattern

end Reading

/-! ### A step on a closed body -/

namespace Template

/-- A pattern as it is written: `@`, kinds joined by `+`, and a body of units between braces. -/
def closedText (kinds : List String) (units : List Glyph) : String :=
  "@" ++ "+".intercalate kinds ++ r"{" ++ String.ofList (units.flatMap Glyph.text) ++ r"}"

section Closed

variable {kinds : List String} {units : List Glyph}

/-- A step on a closed body makes a pattern of its units, with all of the text as its source, or
fails with their fault and leaves nothing. -/
theorem step?_closedText (hkinds : ∀ kind ∈ kinds, Text.isName kind)
    (hunits : ∀ unit ∈ units, unit.WellFormed) (rest : List Char) :
    step? ((closedText kinds units).toList ++ rest) =
      match Pattern.ofRawSegments (.ofKinds kinds) ((stretches units).map .ofGlyphs)
          (closedText kinds units) with
      | .ok pattern => some (.ok (.pattern pattern), rest)
      | .error fault => some (.error ⟨closedText kinds units, fault⟩, []) := by
  have hwalk : Body.WalksTo (units.flatMap Glyph.text ++ '}' :: rest) units ('}' :: rest) :=
    ⟨rfl, hunits, .inr (.inr ⟨rest, .inr rfl⟩)⟩
  have htext : (Header.ofKinds kinds).text = "+".intercalate kinds := by
    rw [Header.text, Header.kinds_ofKinds]
  have hstart : (closedText kinds units).toList ++ rest =
      '@' :: ((Header.ofKinds kinds).text.toList ++
        '{' :: (units.flatMap Glyph.text ++ '}' :: rest)) := by
    simp [closedText, htext]
  have hsource : Pattern.opening (.ofKinds kinds) units ++ r"}" = closedText kinds units := by
    rw [Pattern.opening, htext]
    rfl
  rw [hstart, step?_of_header (Header.wellFormed_ofKinds hkinds), hwalk.pattern_eq_closed, hsource]
  cases Pattern.ofRawSegments (.ofKinds kinds) ((stretches units).map .ofGlyphs)
    (closedText kinds units) <;> rfl

/-- Take any closed body after `@`, kinds joined by `+`, and `{`, whatever follows it, and the parts
between its plain `|`. A part is free text just if a shielded unit stands before its first plain
`:`, or if it has no such `:`; every other part is divided there, into its specifier and its
wording. So an exposed part is free text just if it has no plain `:`, and is divided at the first
one otherwise. The step gives the pattern that the parts write, and if one of them is at fault, the
pattern is malformed with this fault. -/
theorem step?_divides_parts (hkinds : ∀ kind ∈ kinds, Text.isName kind)
    (hunits : ∀ unit ∈ units, unit.WellFormed) (rest : List Char) :
    let source := closedText kinds units
    (∃ parts, SeparatesInto units parts) ∧ ∀ parts, SeparatesInto units parts →
      (∀ part ∈ parts,
        (IsFree part ↔
          ∀ before after, DividesAt part before after → ∃ unit ∈ before, unit.shielded = true) ∧
        (∀ specifier wording, HasSpecifier part specifier wording ↔
          ∃ before, DividesAt part before wording ∧ (∀ unit ∈ before, unit.shielded = false) ∧
            specifier = before.map (·.char)) ∧
        (IsExposed part →
          (IsFree part ↔ .plain ':' ∉ part) ∧
            ∀ before after, DividesAt part before after →
              HasSpecifier part (before.map (·.char)) after)) ∧
      (∀ pattern, step? (source.toList ++ rest) = some (.ok (.pattern pattern), rest) ↔
        pattern.header = .ofKinds kinds ∧ pattern.source = source ∧ pattern.IsWrittenBy parts) ∧
      ∀ fault, step? (source.toList ++ rest) = some (.error ⟨source, fault⟩, []) ↔
        Pattern.IsFaultOf fault (.ofKinds kinds) parts := by
  intro source
  refine ⟨⟨_, separatesInto_stretches units⟩, fun parts hparts ↦ ?_⟩
  obtain rfl := separatesInto_iff.mp hparts
  refine ⟨fun part _ ↦ ⟨isFree_iff, fun _ _ ↦ hasSpecifier_iff, fun hexposed ↦
    ⟨isFree_iff_of_isExposed hexposed, fun _ _ hdivides ↦ hdivides.hasSpecifier hexposed⟩⟩, ?_⟩
  rw [step?_closedText hkinds hunits]
  constructor
  · intro pattern
    rw [← Pattern.ofRawSegments_eq_ok_iff (stretches_ne_nil units)]
    cases Pattern.ofRawSegments (.ofKinds kinds) ((stretches units).map .ofGlyphs) source <;> simp
  · intro fault
    rw [← Pattern.ofRawSegments_eq_error_iff (stretches_ne_nil units) source]
    cases Pattern.ofRawSegments (.ofKinds kinds) ((stretches units).map .ofGlyphs) source <;>
      simp [source]

end Closed

/-- A part with a second `:` in its wording, one with a shielded `|`, and one whose only `:` is
shielded. -/
def timeParts : List (List Glyph) :=
  ["f:at 10:30".toList.map .plain, "m:a".toList.map .plain ++ [⟨'|', true⟩, .plain 'b'],
    [.plain 'c', ⟨':', true⟩, .plain 'd']]

theorem step?_divides_parts_times :
    let units := [.plain '|'].intercalate timeParts
    let pattern : Pattern :=
      ⟨.named "gender", [⟨[[.name "f"]], false, .literal "at 10:30"⟩,
        ⟨[[.name "m"]], false, .literal "a|b"⟩], some (.literal "c:d"),
        r"@gender{f:at 10:30|m:a\|b|c\:d}"⟩
    (∀ kind ∈ ["gender"], Text.isName kind) ∧ (∀ unit ∈ units, unit.WellFormed) ∧
      SeparatesInto units timeParts ∧
      HasSpecifier timeParts[0] ['f'] ("at 10:30".toList.map .plain) ∧
      IsExposed timeParts[2] ∧ IsFree timeParts[2] ∧
      step? (pattern.source.toList ++ ['!']) = some (.ok (.pattern pattern), ['!']) ∧
      pattern.IsWrittenBy timeParts := by
  intro units pattern
  have hkinds : ∀ kind ∈ ["gender"], Text.isName kind := by decide
  have hunits : ∀ unit ∈ units, unit.WellFormed := by decide +kernel
  have hparts : SeparatesInto units timeParts := ⟨by decide, by decide, rfl⟩
  have hexposed : IsExposed timeParts[2] := fun before after hdivides ↦
    absurd (exists_dividesAt_iff.mp ⟨before, after, hdivides⟩) (by decide)
  have hstep : step? (pattern.source.toList ++ ['!']) = some (.ok (.pattern pattern), ['!']) := by
    decide +kernel
  have hsource : closedText ["gender"] units = pattern.source := by decide +kernel
  obtain ⟨hdivided, hpattern, -⟩ := (step?_divides_parts hkinds hunits ['!']).2 _ hparts
  rw [hsource] at hpattern
  obtain ⟨-, hspecifier, -⟩ := hdivided timeParts[0] (by decide)
  obtain ⟨-, -, hdocumented⟩ := hdivided timeParts[2] (by decide)
  exact ⟨hkinds, hunits, hparts,
    (hspecifier _ _).mpr ⟨[.plain 'f'], ⟨by decide, by decide⟩, by decide, rfl⟩, hexposed,
    (hdocumented hexposed).1.mpr (by decide), hstep, ((hpattern pattern).mp hstep).2.2⟩

/-- A part whose first entry is empty, and whose second is shielded. -/
def shieldedEntry : List Glyph :=
  [.plain ',', ⟨'m', true⟩] ++ .plain ':' :: "his".toList.map .plain

/-- What stands before the first plain `:` of this part is no group, whether or not its backslash is
read as an escape. Still the part does not make the pattern malformed, but is its free text. -/
theorem not_malformed_shieldedEntry :
    let parts := ["f:her".toList.map .plain, shieldedEntry]
    let source := r"@{f:her|,\m:his}"
    DividesAt shieldedEntry [.plain ',', ⟨'m', true⟩] ("his".toList.map .plain) ∧
      readGroup .inferred ",\\m".toList = .error .emptyToken ∧
      readGroup .inferred ",m".toList = .error .emptyToken ∧
      SeparatesInto (Body.read r"f:her|,\m:his}".toList).glyphs parts ∧
      IsFree shieldedEntry ∧
      parse source = .ok ⟨[.pattern ⟨.inferred, [⟨[[.name "f"]], false, .literal "her"⟩],
        some (.literal ",m:his"), source⟩]⟩ :=
  ⟨⟨by decide, rfl⟩, by decide, by decide, ⟨by decide, by decide, by decide +kernel⟩,
    specifier?_eq_none_iff.mp (by decide), by decide +kernel⟩

end Template

end Concord
