import Concord.Proofs.Template.Partition

/-!
# How far a pattern extends

The body of a pattern runs to its first brace that no backslash shields, whatever its segments look
like. The walk through a body (`Body.WalksTo`) finds that brace without reading segments, and the
segment reader stops at the same one (`Body.WalksTo.rawBody_eq_closed`). The segments are told apart
in the units walked through: plain `|` separates them (`SeparatesInto`), and each part writes one,
with its specifier and its wording (`RawSegment.IsWrittenBy`). What their specifiers are read as
makes the segments of the pattern (`Segment.IsWrittenBy`), unless one of them is at fault
(`Pattern.IsFaultOf`).

The main statement is `step?_extends_to_first_brace`, which says what a step gives for any text that
begins with `@`, kinds and `{`.
-/

set_option autoImplicit false
set_option relaxedAutoImplicit false

namespace Concord

/-! ### The parts of a body -/

/-- The parts are what plain `|` separates in the units. -/
structure SeparatesInto (units : List Glyph) (parts : List (List Glyph)) : Prop where
  parts_ne_nil : parts ≠ []
  bar_notMem (part : List Glyph) (hpart : part ∈ parts) : .plain '|' ∉ part
  intercalate_eq : [.plain '|'].intercalate parts = units

/-- Units are separated into their stretches. -/
theorem separatesInto_stretches (units : List Glyph) : SeparatesInto units (stretches units) where
  parts_ne_nil := stretches_ne_nil units
  bar_notMem _ hpart hbar := (mem_of_mem_splitOn hpart hbar).2 rfl
  intercalate_eq := List.intercalate_splitOn _

/-- The part has no specifier, so that all of it is wording. -/
def IsFree (part : List Glyph) : Prop :=
  ∀ specifier wording, ¬HasSpecifier part specifier wording

theorem specifier?_eq_none_iff {part : List Glyph} : specifier? part = none ↔ IsFree part := by
  simp [Option.eq_none_iff_forall_ne_some, specifier?_eq_some_iff, IsFree]

/-- The units write the wording: a lone plain `~` is loud, and other units write the characters that
they stand for, a backslash and the character after it just the latter. -/
inductive Wording.IsWrittenBy : Wording → List Glyph → Prop
  | loud : IsWrittenBy .loud [.plain '~']
  | literal {units : List Glyph} (hunits : units ≠ [.plain '~']) :
      IsWrittenBy (.literal (String.ofList (units.map (·.char)))) units

theorem Wording.isWrittenBy_ofGlyphs (units : List Glyph) :
    (Wording.ofGlyphs units).IsWrittenBy units := by
  unfold ofGlyphs
  split
  · next hloud =>
    rw [hloud]
    exact .loud
  · next hliteral => exact .literal hliteral

/-- The part writes the segment as it is before its specifier is read as a group. -/
inductive RawSegment.IsWrittenBy : RawSegment → List Glyph → Prop
  | specified {part units : List Glyph} {specifier : List Char} {wording : Wording}
      (hspecifier : HasSpecifier part specifier units) (hwording : wording.IsWrittenBy units) :
      IsWrittenBy ⟨some specifier, wording⟩ part
  | free {part : List Glyph} {wording : Wording} (hfree : IsFree part)
      (hwording : wording.IsWrittenBy part) : IsWrittenBy ⟨none, wording⟩ part

theorem RawSegment.isWrittenBy_ofGlyphs (part : List Glyph) :
    (ofGlyphs part).IsWrittenBy part := by
  rw [ofGlyphs]
  cases hspecifier : Concord.specifier? part with
  | none =>
    exact .free (specifier?_eq_none_iff.mp hspecifier) (Wording.isWrittenBy_ofGlyphs part)
  | some found =>
    exact .specified (specifier?_eq_some_iff.mp hspecifier) (Wording.isWrittenBy_ofGlyphs found.2)

/-- The parts of a body write the segments that are made of them, one by one. -/
theorem RawSegment.forall₂_isWrittenBy (parts : List (List Glyph)) :
    List.Forall₂ IsWrittenBy (parts.map ofGlyphs) parts := by
  rw [List.forall₂_map_left_iff, List.forall₂_same]
  exact fun part _ ↦ isWrittenBy_ofGlyphs part

/-- The part writes the segment: its specifier is read as the group, and what stands after that
writes the wording. -/
inductive Segment.IsWrittenBy (header : Header) : Segment → List Glyph → Prop
  | intro {part wording : List Glyph} {specifier : List Char} {segment : Segment}
      (hspecifier : HasSpecifier part specifier wording)
      (hgroup : readGroup header specifier = .ok (segment.group, segment.negated))
      (hwording : segment.wording.IsWrittenBy wording) : IsWrittenBy header segment part

/-- The parts write the segments one by one, and the last may write free text. -/
inductive WriteSegments (header : Header) :
    List (List Glyph) → List Segment → Option Wording → Prop
  | nil : WriteSegments header [] [] none
  | freeText {part : List Glyph} {wording : Wording} (hfree : IsFree part)
      (hwording : wording.IsWrittenBy part) : WriteSegments header [part] [] (some wording)
  | cons {part : List Glyph} {parts : List (List Glyph)} {segment : Segment}
      {segments : List Segment} {freeText? : Option Wording}
      (hfirst : segment.IsWrittenBy header part)
      (hrest : WriteSegments header parts segments freeText?) :
      WriteSegments header (part :: parts) (segment :: segments) freeText?

/-- The first part that is at fault has this fault: its specifier cannot be read, or it has none
though other parts follow. -/
inductive HasFirstFault (header : Header) : List (List Glyph) → PatternFault → Prop
  | group {part wording : List Glyph} {parts : List (List Glyph)} {specifier : List Char}
      {fault : PatternFault} (hspecifier : HasSpecifier part specifier wording)
      (hgroup : readGroup header specifier = .error fault) :
      HasFirstFault header (part :: parts) fault
  | freeTextNotLast {part : List Glyph} {parts : List (List Glyph)} (hfree : IsFree part)
      (hparts : parts ≠ []) : HasFirstFault header (part :: parts) .freeTextNotLast
  | cons {part : List Glyph} {parts : List (List Glyph)} {segment : Segment}
      {fault : PatternFault} (hfirst : segment.IsWrittenBy header part)
      (hrest : HasFirstFault header parts fault) : HasFirstFault header (part :: parts) fault

/-- Parts are read as the segments and the free text that they write, or fail with their first
fault. -/
theorem gatherSegments_cases (header : Header) (parts : List (List Glyph)) :
    (∃ segments freeText?,
        gatherSegments header (parts.map .ofGlyphs) = .ok (segments, freeText?) ∧
          WriteSegments header parts segments freeText?) ∨
      ∃ fault, gatherSegments header (parts.map .ofGlyphs) = .error fault ∧
        HasFirstFault header parts fault := by
  induction parts with
  | nil => exact .inl ⟨[], none, rfl, .nil⟩
  | cons part parts ih =>
    rw [List.map_cons, gatherSegments]
    have hpart := RawSegment.isWrittenBy_ofGlyphs part
    generalize RawSegment.ofGlyphs part = raw at hpart
    cases hpart with
    | free hfree hwording =>
      dsimp only
      split
      · next hlast =>
        rw [List.map_eq_nil_iff.mp hlast]
        exact .inl ⟨[], _, rfl, .freeText hfree hwording⟩
      · next hparts =>
        exact .inr ⟨_, rfl, .freeTextNotLast hfree fun hnil ↦ hparts (hnil ▸ rfl)⟩
    | @specified _ _ specifier _ hspecifier hwording =>
      dsimp only
      cases hgroup : readGroup header specifier with
      | error fault => exact .inr ⟨fault, rfl, .group hspecifier hgroup⟩
      | ok read =>
        have hfirst : Segment.IsWrittenBy header ⟨read.1, read.2, _⟩ part :=
          .intro hspecifier hgroup hwording
        rcases ih with ⟨segments, freeText?, hrest, hwrite⟩ | ⟨fault, hrest, hfault⟩
        · rw [hrest]
          exact .inl ⟨_, _, rfl, .cons hfirst hwrite⟩
        · rw [hrest]
          exact .inr ⟨fault, rfl, .cons hfirst hfault⟩

namespace Pattern

/-- The parts write the segments of the pattern, of which there is at least one, and its free
text. -/
structure IsWrittenBy (pattern : Pattern) (parts : List (List Glyph)) : Prop where
  segments_ne_nil : pattern.segments ≠ []
  parts_write : WriteSegments pattern.header parts pattern.segments pattern.freeText?

/-- The fault keeps the parts from writing a pattern: it is the first among them, or all there is
is free text. -/
def IsFaultOf (fault : PatternFault) (header : Header) (parts : List (List Glyph)) : Prop :=
  HasFirstFault header parts fault ∨ fault = .noSegments ∧ ∃ part, parts = [part] ∧ IsFree part

/-- The parts of a closed body make the pattern that they write, or fail with their fault. -/
theorem ofRawSegments_cases (header : Header) {parts : List (List Glyph)} (hparts : parts ≠ [])
    (source : String) :
    (∃ pattern, ofRawSegments header (parts.map .ofGlyphs) source = .ok pattern ∧
        pattern.header = header ∧ pattern.source = source ∧ pattern.IsWrittenBy parts) ∨
      ∃ fault, ofRawSegments header (parts.map .ofGlyphs) source = .error fault ∧
        IsFaultOf fault header parts := by
  rw [ofRawSegments]
  rcases gatherSegments_cases header parts with
    ⟨segments, freeText?, hread, hwrite⟩ | ⟨fault, hread, hfault⟩
  · rw [hread]
    dsimp only
    split
    · next hnone =>
      refine .inr ⟨_, rfl, .inr ⟨rfl, ?_⟩⟩
      rw [hnone] at hwrite
      cases hwrite with
      | nil => exact absurd rfl hparts
      | freeText hfree => exact ⟨_, rfl, hfree⟩
    · next hsome => exact .inl ⟨_, rfl, rfl, rfl, hsome, hwrite⟩
  · rw [hread]
    exact .inr ⟨fault, rfl, .inl hfault⟩

end Pattern

/-! ### A step on a pattern -/

namespace Template

variable {header : Header}

/-- No escape stands where an `@` and a header do. -/
theorem afterEscape?_of_header (hheader : header.WellFormed) (s : List Char) :
    afterEscape? ('@' :: (header.text.toList ++ '{' :: s)) = none := by
  rw [Option.eq_none_iff_forall_ne_some]
  intro rest h
  obtain ⟨c, -, -, heq⟩ := afterEscape?_eq_some_iff.mp h
  have hread := Header.read?_text hheader s
  have hat := Header.isSome_read?_at rest
  rw [(List.cons.inj heq).2] at hread
  rw [hread] at hat
  cases hat

/-- Where an `@` and a header stand, the step reads a pattern. -/
theorem step?_of_header (hheader : header.WellFormed) (s : List Char) :
    step? ('@' :: (header.text.toList ++ '{' :: s)) =
      some ((Pattern.read header s).1.map .pattern, (Pattern.read header s).2) :=
  (StepsTo.pattern (afterEscape?_of_header hheader s)
    (opening?_eq_some_iff.mpr ⟨_, rfl, Header.read?_text hheader s⟩)).step?_eq

/-- Take any text that begins with `@`, kinds joined by `+`, and `{`, and walk through what
follows. If the walk meets no brace, the pattern is unclosed, and the error quotes the whole text.
If it stops at a `{`, that is a nested brace, and the error quotes the text up to and with it. If it
stops at a `}`, the text up to and with that is the source of the pattern. The reader of the body
then finds one segment for each of the parts between plain `|`, which writes it, and stops at this
`}`. The parts write the segments of the pattern and its free text, unless they are at fault, and
then the error quotes the same source. -/
theorem step?_extends_to_first_brace {kinds : List String}
    (hkinds : ∀ kind ∈ kinds, Text.isName kind) (s : List Char) :
    let opening := "@" ++ "+".intercalate kinds ++ r"{"
    (∃ units tail, Body.WalksTo s units tail) ∧
      ∀ units tail, Body.WalksTo s units tail →
        let taken := opening ++ String.ofList (units.flatMap Glyph.text)
        ((tail = [] ∨ tail = ['\\']) →
          step? (opening.toList ++ s) =
            some (.error ⟨opening ++ String.ofList s, .unclosed⟩, [])) ∧
        (∀ rest, tail = '{' :: rest →
          step? (opening.toList ++ s) = some (.error ⟨taken ++ r"{", .nestedBrace⟩, [])) ∧
        ∀ rest, tail = '}' :: rest →
          ∃ parts, SeparatesInto units parts ∧
            (∃ segments, RawBody.read s = ⟨segments, .closed, rest⟩ ∧
              List.Forall₂ RawSegment.IsWrittenBy segments parts) ∧
            ((∃ pattern, step? (opening.toList ++ s) = some (.ok (.pattern pattern), rest) ∧
                pattern.header = .ofKinds kinds ∧ pattern.source = taken ++ r"}" ∧
                  pattern.IsWrittenBy parts) ∨
              ∃ fault, step? (opening.toList ++ s) = some (.error ⟨taken ++ r"}", fault⟩, []) ∧
                Pattern.IsFaultOf fault (.ofKinds kinds) parts) := by
  refine ⟨Body.exists_walksTo s, fun units tail hwalk ↦ ?_⟩
  have htext : (Header.ofKinds kinds).text = "+".intercalate kinds := by
    rw [Header.text, Header.kinds_ofKinds]
  have hstart : ("@" ++ "+".intercalate kinds ++ r"{").toList ++ s =
      '@' :: ((Header.ofKinds kinds).text.toList ++ '{' :: s) := by
    simp [htext]
  have hstep := step?_of_header (Header.wellFormed_ofKinds hkinds) s
  dsimp only
  rw [hstart, hstep, ← htext]
  refine ⟨fun htail ↦ ?_, ?_, ?_⟩
  · rw [hwalk.pattern_eq_unclosed htail]
    rfl
  · rintro rest rfl
    rw [hwalk.pattern_eq_nested]
    rfl
  · rintro rest rfl
    have hsegments := RawSegment.forall₂_isWrittenBy (stretches units)
    refine ⟨_, separatesInto_stretches units, ⟨_, hwalk.rawBody_eq_closed, hsegments⟩, ?_⟩
    rw [hwalk.pattern_eq_closed]
    rcases Pattern.ofRawSegments_cases (.ofKinds kinds) (stretches_ne_nil units)
      (Pattern.opening (.ofKinds kinds) units ++ r"}") with
      ⟨pattern, hpattern, hheader, hsource, hwritten⟩ | ⟨fault, hfault, hparts⟩
    · left
      exact ⟨pattern, by simp [hpattern]; rfl, hheader, hsource, hwritten⟩
    · right
      exact ⟨fault, by simp [hfault]; rfl, hparts⟩

/-- A body with each sort of shielded sign in it, and text after its brace. -/
def shielding : String := r"f:a\}\|b|m:~|c\:d} and }"

/-- The units of that body. -/
def shieldingUnits : List Glyph :=
  "f:a".toList.map .plain ++ [⟨'}', true⟩, ⟨'|', true⟩] ++ "b|m:~|c".toList.map .plain ++
    [⟨':', true⟩, .plain 'd']

theorem step?_extends_to_first_brace_shielding :
    let segments : List RawSegment :=
      [⟨some ['f'], .literal r"a}|b"⟩, ⟨some ['m'], .loud⟩, ⟨none, .literal "c:d"⟩]
    let pattern : Pattern :=
      ⟨.named "gender", [⟨[[.name "f"]], false, .literal r"a}|b"⟩, ⟨[[.name "m"]], false, .loud⟩],
        some (.literal "c:d"), r"@gender{f:a\}\|b|m:~|c\:d}"⟩
    (∀ kind ∈ ["gender"], Text.isName kind) ∧
      Body.WalksTo shielding.toList shieldingUnits r"} and }".toList ∧
      RawBody.read shielding.toList = ⟨segments, .closed, r" and }".toList⟩ ∧
      step? (r"@gender{" ++ shielding).toList = some (.ok (.pattern pattern), r" and }".toList) ∧
      (∃ parts, SeparatesInto shieldingUnits parts ∧
        List.Forall₂ RawSegment.IsWrittenBy segments parts ∧ pattern.IsWrittenBy parts) ∧
      Body.WalksTo r"f\".toList ("f".toList.map .plain) ['\\'] ∧
      step? r"@gender{f\".toList = some (.error ⟨r"@gender{f\", .unclosed⟩, []) := by
  intro segments pattern
  have hkinds : ∀ kind ∈ ["gender"], Text.isName kind := by decide
  have hwalk : Body.WalksTo shielding.toList shieldingUnits r"} and }".toList :=
    ⟨by decide, by decide, .inr (.inr ⟨_, .inr rfl⟩)⟩
  have hread : RawBody.read shielding.toList = ⟨segments, .closed, r" and }".toList⟩ := by
    decide +kernel
  have hstep : step? (r"@gender{" ++ shielding).toList =
      some (.ok (.pattern pattern), r" and }".toList) := by decide +kernel
  have hlone : Body.WalksTo r"f\".toList ("f".toList.map .plain) ['\\'] :=
    ⟨by decide, by decide, .inr (.inl rfl)⟩
  obtain ⟨-, hclosed⟩ := step?_extends_to_first_brace hkinds shielding.toList
  obtain ⟨-, hunclosed⟩ := step?_extends_to_first_brace hkinds r"f\".toList
  refine ⟨hkinds, hwalk, hread, hstep, ?_, hlone, (hunclosed _ _ hlone).1 (.inr rfl)⟩
  obtain ⟨parts, hparts, ⟨found, hfound, hwrite⟩, hends⟩ := (hclosed _ _ hwalk).2.2 _ rfl
  obtain rfl : found = segments := congrArg RawBody.segments (hfound.symm.trans hread)
  refine ⟨parts, hparts, hwrite, ?_⟩
  rcases hends with ⟨other, hother, -, -, hwritten⟩ | ⟨fault, hfails, -⟩
  · cases hother.symm.trans hstep
    exact hwritten
  · cases hfails.symm.trans hstep

end Template

end Concord
