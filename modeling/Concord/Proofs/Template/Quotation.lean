import Concord.Proofs.Template.Extent

/-!
# What is quoted from a text stands by itself

A pattern keeps the text that it was read from, and an error keeps the text of a malformed pattern
as far as it was read. Both begin with the `@` and end where reading stopped, so that nothing around
them had a part in what was read: no escape is found in front of the `@`, and the body ends as it
did (`Pattern.exists_read_quoted`). Hence a step on what an item quotes gives the item again and
leaves nothing (`Template.StepsTo.quoted`).

The main statement is `Template.parse_quoted`: the source of a pattern parses as that pattern alone,
and the text in an error fails with this very error.
-/

set_option autoImplicit false
set_option relaxedAutoImplicit false

namespace Concord

/-- The text that a pattern was read from, or in which it was found to be malformed. -/
def Pattern.quoted : Except PatternError Pattern → String
  | .ok pattern => pattern.source
  | .error error => error.pattern

/-- What is quoted of a pattern is `@`, the header, `{` and a body that reads as the whole text did,
with nothing after it. -/
theorem Pattern.exists_read_quoted (header : Header) (s : List Char) :
    ∃ body, (quoted (read header s).1).toList = '@' :: (header.text.toList ++ '{' :: body) ∧
      read header body = ((read header s).1, []) := by
  obtain ⟨units, tail, hwalk⟩ := Body.exists_walksTo s
  have hcut {brace : Char} (hbrace : brace = '{' ∨ brace = '}') :
      Body.WalksTo (units.flatMap Glyph.text ++ [brace]) units [brace] := by
    refine ⟨rfl, hwalk.units_wellFormed, .inr (.inr ⟨[], ?_⟩)⟩
    rcases hbrace with rfl | rfl
    · exact .inl rfl
    · exact .inr rfl
  rcases or_assoc.mpr hwalk.stops with htail | ⟨rest, rfl | rfl⟩
  · refine ⟨s, ?_, ?_⟩
    · rw [hwalk.pattern_eq_unclosed htail]
      simp [quoted]
    · rw [hwalk.pattern_eq_unclosed htail]
  · refine ⟨units.flatMap Glyph.text ++ ['{'], ?_, ?_⟩
    · rw [hwalk.pattern_eq_nested]
      simp [quoted, toList_opening]
    · rw [hwalk.pattern_eq_nested, (hcut (.inl rfl)).pattern_eq_nested]
  · refine ⟨units.flatMap Glyph.text ++ ['}'], ?_, ?_⟩
    · rw [hwalk.pattern_eq_closed]
      cases hmade : ofRawSegments header ((stretches units).map .ofGlyphs)
          (opening header units ++ r"}") with
      | error fault => simp [quoted, toList_opening]
      | ok pattern => simp [quoted, source_of_ofRawSegments hmade, toList_opening]
    · rw [hwalk.pattern_eq_closed, (hcut (.inr rfl)).pattern_eq_closed]
      cases ofRawSegments header ((stretches units).map .ofGlyphs)
        (opening header units ++ r"}") <;> rfl

namespace Template

/-- The text that an item of a scan quotes; a literal quotes none. -/
def quoted? : Except PatternError Piece → Option String
  | .ok (.literal _) => none
  | .ok (.pattern written) => some written.source
  | .error error => some error.pattern

/-- A step that takes a pattern, or fails with one, is taken again on what its item quotes, and
nothing is left after it. -/
theorem StepsTo.quoted {s rest : List Char} {item : Except PatternError Piece} {text : String}
    (h : StepsTo s item rest) (hquoted : quoted? item = some text) :
    StepsTo text.toList item [] := by
  cases h with
  | escape => cases hquoted
  | marker => cases hquoted
  | run => cases hquoted
  | @pattern _ body header _ hopening =>
    have htext : Pattern.quoted (Pattern.read header body).1 = text := by
      cases hread : (Pattern.read header body).1 with
      | ok pattern =>
        rw [hread] at hquoted
        exact Option.some.inj hquoted
      | error error =>
        rw [hread] at hquoted
        exact Option.some.inj hquoted
    obtain ⟨tail, -, hheader⟩ := opening?_eq_some_iff.mp hopening
    obtain ⟨again, hagain, hread⟩ := Pattern.exists_read_quoted header body
    have hstep := step?_of_header (Header.wellFormed_of_read? hheader) again
    rw [← hagain, htext, hread] at hstep
    exact stepsTo_of_step? hstep

/-- A pattern or an error in a scan is all there is in the scan of what it quotes. -/
theorem scan_quoted {text quoted : String} {item : Except PatternError Piece}
    (hitem : item ∈ scan text) (hquoted : quoted? item = some quoted) : scan quoted = [item] := by
  obtain ⟨s, rest, hstep⟩ := exists_stepsTo_of_mem_scan hitem
  rw [scan, (hstep.quoted hquoted).steps_eq, steps_nil]
  rfl

/-- Joining literals keeps the patterns. -/
theorem patterns_joinLiterals (pieces : List Piece) :
    patterns ⟨joinLiterals pieces⟩ = patterns ⟨pieces⟩ := by
  induction pieces with
  | nil => rfl
  | cons first rest ih =>
    have hpush (more : List Piece) :
        patterns ⟨pushPiece first more⟩ = patterns ⟨first :: more⟩ := by
      unfold pushPiece
      split <;> rfl
    rw [joinLiterals_cons, hpush]
    simp only [patterns, List.filterMap_cons] at ih ⊢
    rw [ih]

/-- The patterns of a template were all taken in the scan of its text. -/
theorem mem_scan_of_parse_ok {text : String} {template : Template} {pattern : Pattern}
    (h : parse text = .ok template) (hpattern : pattern ∈ template.patterns) :
    .ok (.pattern pattern) ∈ scan text := by
  obtain ⟨pieces, hscan, rfl⟩ := scan_of_parse_ok h
  rw [patterns_joinLiterals, patterns, List.mem_filterMap] at hpattern
  obtain ⟨piece, hpiece, hkind⟩ := hpattern
  cases piece with
  | literal text => cases hkind
  | pattern written =>
    obtain rfl := Option.some.inj hkind
    exact hscan ▸ List.mem_map_of_mem hpiece

/-- The source of a pattern that a scan takes parses as this pattern alone, also where the scan
ends with an error. -/
theorem parse_source {text : String} {pattern : Pattern}
    (h : .ok (.pattern pattern) ∈ scan text) :
    parse pattern.source = .ok ⟨[.pattern pattern]⟩ := by
  rw [parse, scan_quoted h rfl]
  rfl

/-- Take any text. The source of each pattern that its scan takes parses as this pattern alone, also
where the scan ends with an error later on. And if the text does not parse, the text in the error
does not parse either, with the same error. -/
theorem parse_quoted (text : String) :
    (∀ pattern, .ok (.pattern pattern) ∈ scan text →
        parse pattern.source = .ok ⟨[.pattern pattern]⟩) ∧
      ∀ error, parse text = .error error → parse error.pattern = .error error := by
  refine ⟨fun pattern hpattern ↦ parse_source hpattern, fun error herror ↦ ?_⟩
  obtain ⟨pieces, hscan⟩ := scan_of_parse_error herror
  have hmem : .error error ∈ scan text := hscan ▸ List.mem_append_right _ List.mem_cons_self
  rw [parse, scan_quoted hmem rfl]
  rfl

/-- A text with an escape in front of a header, and a pattern with a shielded sign in it. -/
def embedded : String := r"\@{x}@gender{f:her\|m:his}, @@{"

theorem parse_quoted_embedded :
    let pattern : Pattern :=
      ⟨.named "gender", [⟨[[.name "f"]], false, .literal "her|m:his"⟩], none,
        r"@gender{f:her\|m:his}"⟩
    let nested := embedded ++ r"@{f:a@n{s:b}"
    let error : PatternError := ⟨r"@{f:a@n{", .nestedBrace⟩
    let early : Pattern :=
      ⟨.inferred, [⟨[[.name "f"]], false, .literal "a"⟩], none, "@{f:a}"⟩
    parse embedded = .ok ⟨[.literal "@{x}", .pattern pattern, .literal r", @{"]⟩ ∧
      .ok (.pattern pattern) ∈ scan embedded ∧
      parse pattern.source = .ok ⟨[.pattern pattern]⟩ ∧
      parse nested = .error error ∧ parse error.pattern = .error error ∧
      scan r"@{f:a}@{" = [.ok (.pattern early), .error ⟨r"@{", .unclosed⟩] ∧
      parse early.source = .ok ⟨[.pattern early]⟩ ∧
      parse r"@{f:a}@{" = .error ⟨r"@{", .unclosed⟩ ∧ parse r"@{" = .error ⟨r"@{", .unclosed⟩ := by
  intro pattern nested error early
  have hok : parse embedded =
      .ok ⟨[.literal "@{x}", .pattern pattern, .literal r", @{"]⟩ := by
    decide +kernel
  have hpattern : .ok (.pattern pattern) ∈ scan embedded :=
    mem_scan_of_parse_ok hok List.mem_cons_self
  have herror : parse nested = .error error := by decide +kernel
  have hscan : scan r"@{f:a}@{" = [.ok (.pattern early), .error ⟨r"@{", .unclosed⟩] := by
    decide +kernel
  have htorn : parse r"@{f:a}@{" = .error ⟨r"@{", .unclosed⟩ := by decide +kernel
  exact ⟨hok, hpattern, (parse_quoted embedded).1 pattern hpattern, herror,
    (parse_quoted nested).2 error herror, hscan,
    (parse_quoted r"@{f:a}@{").1 early (hscan ▸ List.mem_cons_self), htorn,
    (parse_quoted r"@{f:a}@{").2 _ htorn⟩

end Template

end Concord
