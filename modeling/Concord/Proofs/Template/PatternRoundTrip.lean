import Concord.Proofs.Template.Reading
import Concord.Proofs.Text
import Concord.Proofs.Traversal

/-!
# Printed patterns read back

A pattern is printed from the inside out, matchers, entries, groups, wordings, segments, body and
header, and each layer has a law saying that what it prints is read back. The layers meet at the
separators: a text is split where the layer above joined it, because no part prints a separator of
its own.

The main statement is `Pattern.read_print`: the body of a printed well-formed pattern, whatever
text follows it, reads as the pattern with its printed form as its source, and leaves that text.
-/

set_option autoImplicit false
set_option relaxedAutoImplicit false

namespace Concord

/-! ### Characters of specifiers -/

/-- The characters of a printed specifier: those of names, and the signs around them. -/
def isSpecifierChar (c : Char) : Bool :=
  Text.isNameChar c || ['*', '+', '!', ','].contains c

/-- Signs in a specifier are not blank, and names have no blanks. -/
theorem isBlank_of_isSpecifierChar {c : Char} (h : isSpecifierChar c = true) :
    Text.isBlank c = false := by
  rcases Bool.or_eq_true_iff.mp h with hname | hsign
  · exact Text.isBlank_of_isNameChar hname
  · have hmem := List.contains_iff_mem.mp hsign
    simp only [List.mem_cons, List.not_mem_nil, or_false] at hmem
    rcases hmem with rfl | rfl | rfl | rfl <;> rfl

/-! ### Groups -/

namespace Matcher

/-- A matcher as it is printed in an entry. -/
def chars (matcher : Matcher) : List Char :=
  (matcher.name?.getD "*").toList

variable {header : Header} {matcher : Matcher}

theorem chars_ne_nil (h : matcher.WellFormed header) : matcher.chars ≠ [] := by
  cases matcher with
  | name token => exact (Text.isName_iff.mp h).1
  | any => decide

/-- A printed matcher is made of name characters, or it is `*`. -/
theorem isNameChar_or_eq_of_mem_chars (h : matcher.WellFormed header) {c : Char}
    (hc : c ∈ matcher.chars) : Text.isNameChar c = true ∨ c = '*' := by
  cases matcher with
  | name token => exact Or.inl ((Text.isName_iff.mp h).2 c hc)
  | any => exact Or.inr (List.mem_singleton.mp hc)

/-- A printed matcher has none of the signs that separate or negate entries. -/
theorem notMem_chars (h : matcher.WellFormed header) {c : Char} (hname : Text.isNameChar c = false)
    (hstar : c ≠ '*') : c ∉ matcher.chars := by
  intro hc
  rcases isNameChar_or_eq_of_mem_chars h hc with hc | hc
  · rw [hname] at hc
    cases hc
  · exact hstar hc

/-- A printed matcher reads back. -/
theorem read_chars (h : matcher.WellFormed header) : read header matcher.chars = .ok matcher := by
  cases matcher with
  | name token =>
    have hname : Text.isName token = true := h
    have hempty : token ≠ "" := by
      rintro rfl
      cases hname
    have hstar : token ≠ "*" := by
      rintro rfl
      cases hname
    simp [read, chars, name?, hempty, hstar, hname]
  | any =>
    have hheader : header ≠ .inferred := h
    simp [read, chars, name?, hheader]

end Matcher

/-- An entry is printed as its matchers joined by `+`. -/
theorem toList_entryText (entry : List Matcher) :
    (entryText entry).toList = ['+'].intercalate (entry.map Matcher.chars) := by
  rw [entryText, String.toList_intercalate, List.map_map]
  rfl

/-- The members of joined parts are those of the parts, and the separator. -/
theorem mem_intercalate {α : Type} {parts : List (List α)} {separator c : α}
    (h : c ∈ [separator].intercalate parts) : c = separator ∨ ∃ part ∈ parts, c ∈ part := by
  induction parts with
  | nil => simp at h
  | cons first rest ih =>
    cases rest with
    | nil =>
      rw [List.intercalate_singleton] at h
      exact Or.inr ⟨first, List.mem_cons_self, h⟩
    | cons second more =>
      rw [List.intercalate_cons_cons] at h
      simp only [List.mem_append, List.mem_singleton] at h
      rcases h with (h | h) | h
      · exact Or.inr ⟨first, List.mem_cons_self, h⟩
      · exact Or.inl h
      · rcases ih h with h | ⟨part, hpart, h⟩
        · exact Or.inl h
        · exact Or.inr ⟨part, List.mem_cons_of_mem _ hpart, h⟩

/-- An entry has a matcher for every kind of the header, and each has a written form there. -/
def EntryWellFormed (header : Header) (entry : List Matcher) : Prop :=
  entry.length = header.arity ∧ ∀ matcher ∈ entry, matcher.WellFormed header

/-- A well-formed header governs at least one position. -/
theorem Header.arity_pos {header : Header} (h : header.WellFormed) : 0 < header.arity := by
  cases header with
  | inferred => exact Nat.one_pos
  | named kind => exact Nat.one_pos
  | complex kinds => exact Nat.lt_of_lt_of_le Nat.two_pos h.1

section Groups

variable {header : Header} {entry : List Matcher}

/-- A printed entry is made of name characters, `*` and `+`. -/
theorem EntryWellFormed.isNameChar_or_of_mem (h : EntryWellFormed header entry) {c : Char}
    (hc : c ∈ (entryText entry).toList) : Text.isNameChar c = true ∨ c = '*' ∨ c = '+' := by
  rw [toList_entryText] at hc
  rcases mem_intercalate hc with hc | ⟨part, hpart, hc⟩
  · exact Or.inr (Or.inr hc)
  · obtain ⟨matcher, hmatcher, rfl⟩ := List.mem_map.mp hpart
    rcases Matcher.isNameChar_or_eq_of_mem_chars (h.2 matcher hmatcher) hc with hc | hc
    · exact Or.inl hc
    · exact Or.inr (Or.inl hc)

/-- A printed entry is not empty, and does not begin as a negated one. -/
theorem EntryWellFormed.exists_cons (hheader : header.WellFormed)
    (h : EntryWellFormed header entry) :
    ∃ c rest, (entryText entry).toList = c :: rest ∧ c ≠ '!' := by
  have hne : (entryText entry).toList ≠ [] := by
    have hpos : 0 < entry.length := h.1 ▸ Header.arity_pos hheader
    obtain ⟨first, more, rfl⟩ := List.exists_cons_of_length_pos hpos
    have hfirst := Matcher.chars_ne_nil (h.2 first List.mem_cons_self)
    rw [toList_entryText, List.map_cons]
    cases more with
    | nil => simpa using hfirst
    | cons second more => simp [List.intercalate_cons_cons, hfirst]
  obtain ⟨c, rest, hcons⟩ := List.exists_cons_of_ne_nil hne
  refine ⟨c, rest, hcons, ?_⟩
  rintro rfl
  rcases h.isNameChar_or_of_mem (hcons ▸ List.mem_cons_self) with hc | hc | hc
  · cases hc
  · cases hc
  · cases hc

/-- A printed entry splits into its printed matchers. -/
theorem EntryWellFormed.splitOn_toList (hheader : header.WellFormed)
    (h : EntryWellFormed header entry) :
    (entryText entry).toList.splitOn '+' = entry.map Matcher.chars := by
  have hpos : 0 < entry.length := h.1 ▸ Header.arity_pos hheader
  rw [toList_entryText]
  refine List.splitOn_intercalate '+' ?_ ?_
  · intro part hpart
    obtain ⟨matcher, hmatcher, rfl⟩ := List.mem_map.mp hpart
    exact Matcher.notMem_chars (h.2 matcher hmatcher) rfl (by decide)
  · exact List.ne_nil_of_length_pos (by rwa [List.length_map])

/-- A printed entry reads back, in a group that is negated as it is. -/
theorem EntryWellFormed.read?_toList (hheader : header.WellFormed)
    (h : EntryWellFormed header entry) (negated : Bool) :
    RawEntry.read? header negated ⟨negated, (entryText entry).toList⟩ = .ok entry := by
  obtain ⟨c, rest, hcons, -⟩ := h.exists_cons hheader
  have hparts : ((entryText entry).toList.splitOn '+').map Text.trimChars =
      entry.map Matcher.chars := by
    rw [h.splitOn_toList hheader, List.map_map]
    refine List.map_congr_left fun matcher hmatcher ↦ Text.trimChars_eq_self fun d hd ↦ ?_
    rcases Matcher.isNameChar_or_eq_of_mem_chars (h.2 matcher hmatcher) hd with hd | rfl
    · exact Text.isBlank_of_isNameChar hd
    · rfl
  have hmatchers : (entry.map Matcher.chars).mapM (Matcher.read header) = .ok entry :=
    Traversal.mapM_map_eq_ok fun matcher hmatcher ↦ Matcher.read_chars (h.2 matcher hmatcher)
  simp [RawEntry.read?, hcons ▸ hparts, hcons, hmatchers, h.1]

/-- Entries that are printed alike are the same. -/
theorem EntryWellFormed.eq_of_entryText_eq (hheader : header.WellFormed)
    (h : EntryWellFormed header entry) {other : List Matcher}
    (hother : EntryWellFormed header other) (htext : entryText entry = entryText other) :
    entry = other := by
  have hread := h.read?_toList hheader false
  rw [htext, hother.read?_toList hheader false] at hread
  exact (Except.ok.inj hread).symm

/-- An entry as it stands in a printed group, with the sign of a negated one. -/
def signedChars (negated : Bool) (entry : List Matcher) : List Char :=
  (if negated then ['!'] else []) ++ (entryText entry).toList

/-- A printed entry is made of specifier characters other than the comma. -/
theorem EntryWellFormed.mem_signedChars (h : EntryWellFormed header entry) {negated : Bool}
    {c : Char} (hc : c ∈ signedChars negated entry) : isSpecifierChar c = true ∧ c ≠ ',' := by
  have hentry (hc : c ∈ (entryText entry).toList) : isSpecifierChar c = true ∧ c ≠ ',' := by
    rcases h.isNameChar_or_of_mem hc with hc | rfl | rfl
    · refine ⟨Bool.or_eq_true_iff.mpr (Or.inl hc), ?_⟩
      rintro rfl
      cases hc
    · decide
    · decide
  cases negated with
  | false => exact hentry hc
  | true =>
    rcases List.mem_cons.mp hc with rfl | hc
    · decide
    · exact hentry hc

/-- The sign of a printed entry is told from its matchers. -/
theorem EntryWellFormed.read_signedChars (hheader : header.WellFormed)
    (h : EntryWellFormed header entry) (negated : Bool) :
    RawEntry.read (signedChars negated entry) = ⟨negated, (entryText entry).toList⟩ := by
  obtain ⟨c, rest, hcons, hc⟩ := h.exists_cons hheader
  have htrim : Text.trimChars (signedChars negated entry) = signedChars negated entry :=
    Text.trimChars_eq_self fun d hd ↦ isBlank_of_isSpecifierChar (h.mem_signedChars hd).1
  have hfirst : c ∈ signedChars false entry := by
    rw [signedChars, hcons]
    exact List.mem_cons_self
  have hblank := isBlank_of_isSpecifierChar (h.mem_signedChars hfirst).1
  rw [RawEntry.read, htrim, signedChars, hcons]
  cases negated with
  | false => simp [hc]
  | true => simp [Text.trimStartChars, hblank]

end Groups

namespace Segment

variable {header : Header} {segment : Segment}

/-- A group is printed as its entries joined by `,`, each with its sign. -/
theorem toList_specifier (segment : Segment) :
    segment.specifier.toList =
      [','].intercalate (segment.group.map (signedChars segment.negated)) := by
  rw [specifier, String.toList_intercalate, List.map_map]
  have hentry : (String.toList ∘ fun entry ↦ (if segment.negated then "!" else "") ++
      entryText entry) = signedChars segment.negated := by
    funext entry
    cases hnegated : segment.negated <;> simp [signedChars]
  rw [hentry]
  rfl

/-- A printed group reads back. -/
theorem readGroup_specifier (hheader : header.WellFormed) (h : segment.WellFormed header) :
    readGroup header segment.specifier.toList = .ok (segment.group, segment.negated) := by
  have hsplit : segment.specifier.toList.splitOn ',' =
      segment.group.map (signedChars segment.negated) := by
    rw [toList_specifier]
    refine List.splitOn_intercalate ',' ?_ (by simpa using h.1)
    intro part hpart hcomma
    obtain ⟨entry, hentry, rfl⟩ := List.mem_map.mp hpart
    exact (EntryWellFormed.mem_signedChars (h.2 entry hentry) hcomma).2 rfl
  have hraw : rawEntries segment.specifier.toList =
      segment.group.map fun entry ↦ ⟨segment.negated, (entryText entry).toList⟩ := by
    rw [rawEntries, hsplit, List.map_map]
    exact List.map_congr_left fun entry hentry ↦
      EntryWellFormed.read_signedChars hheader (h.2 entry hentry) segment.negated
  have hnegated : (rawEntries segment.specifier.toList).head?.any (·.negated) =
      segment.negated := by
    obtain ⟨first, rest, hgroup⟩ := List.exists_cons_of_ne_nil h.1
    simp [hraw, hgroup]
  have hgroup : (rawEntries segment.specifier.toList).mapM
      (RawEntry.read? header segment.negated) = .ok segment.group := by
    rw [hraw]
    exact Traversal.mapM_map_eq_ok fun entry hentry ↦
      EntryWellFormed.read?_toList hheader (h.2 entry hentry) segment.negated
  rw [readGroup, hnegated, hgroup]
  rfl

end Segment

/-! ### Bodies -/

namespace Wording

/-- Printed wording is well formed, and has no plain `|`; literal wording has no plain `:` or `~`
either. -/
theorem toGlyphs_wellFormed (wording : Wording) {glyph : Glyph} (h : glyph ∈ wording.toGlyphs) :
    glyph.WellFormed ∧ glyph ≠ .plain '|' ∧ glyph ≠ .plain ':' := by
  cases wording with
  | loud =>
    obtain rfl := List.mem_singleton.mp h
    exact ⟨fun _ ↦ by decide, by decide, by decide⟩
  | literal text =>
    obtain ⟨c, -, rfl⟩ := List.mem_map.mp h
    have hplain (d : Char) (hd : wordingMarks.contains d = true) :
        Glyph.ofWordingChar c ≠ .plain d := by
      intro heq
      obtain ⟨rfl, hshielded⟩ := Glyph.mk.inj heq
      rw [hd] at hshielded
      cases hshielded
    refine ⟨fun hshielded hc ↦ ?_, hplain _ rfl, hplain _ rfl⟩
    have hcontains : wordingMarks.contains c = false := hshielded
    simp only [List.mem_cons, List.not_mem_nil, or_false] at hc
    rcases hc with rfl | rfl | rfl <;> cases hcontains

/-- Printed wording reads back. -/
theorem ofGlyphs_toGlyphs (wording : Wording) : ofGlyphs wording.toGlyphs = wording := by
  cases wording with
  | loud => rfl
  | literal text =>
    have hloud : text.toList.map Glyph.ofWordingChar ≠ [.plain '~'] := by
      intro heq
      obtain ⟨c, -, hglyph⟩ := List.map_eq_singleton_iff.mp heq
      obtain ⟨rfl, hshielded⟩ := Glyph.mk.inj hglyph
      cases hshielded
    have hchars : (text.toList.map Glyph.ofWordingChar).map (·.char) = text.toList := by
      rw [List.map_map]
      exact List.map_id _
    rw [toGlyphs, ofGlyphs, if_neg hloud, hchars, String.ofList_toList]

end Wording

namespace Segment

variable {header : Header} {segment : Segment}

/-- The glyphs of a printed segment: its specifier, a plain `:`, and its wording. -/
def toGlyphs (segment : Segment) : List Glyph :=
  segment.specifier.toList.map Glyph.plain ++ .plain ':' :: segment.wording.toGlyphs

/-- Printed specifiers are made of specifier characters. -/
theorem isSpecifierChar_of_mem (h : segment.WellFormed header) {c : Char}
    (hc : c ∈ segment.specifier.toList) : isSpecifierChar c = true := by
  rw [toList_specifier] at hc
  rcases mem_intercalate hc with rfl | ⟨part, hpart, hc⟩
  · decide
  · obtain ⟨entry, hentry, rfl⟩ := List.mem_map.mp hpart
    exact (EntryWellFormed.mem_signedChars (h.2 entry hentry) hc).1

/-- The glyphs of a printed specifier are well formed, and separate nothing. -/
theorem wellFormed_of_mem_specifier (h : segment.WellFormed header) {glyph : Glyph}
    (hglyph : glyph ∈ segment.specifier.toList.map Glyph.plain) :
    glyph.WellFormed ∧ glyph ≠ .plain '|' ∧ glyph ≠ .plain ':' := by
  obtain ⟨c, hc, rfl⟩ := List.mem_map.mp hglyph
  have hchar := isSpecifierChar_of_mem h hc
  refine ⟨fun _ hmark ↦ ?_, ?_, ?_⟩
  · simp only [List.mem_cons, List.not_mem_nil, or_false] at hmark
    rcases hmark with rfl | rfl | rfl <;> cases hchar
  · intro heq
    obtain ⟨rfl, -⟩ := Glyph.mk.inj heq
    cases hchar
  · intro heq
    obtain ⟨rfl, -⟩ := Glyph.mk.inj heq
    cases hchar

/-- The glyphs of a printed segment are well formed, and hold no plain `|`. -/
theorem toGlyphs_wellFormed (h : segment.WellFormed header) {glyph : Glyph}
    (hglyph : glyph ∈ segment.toGlyphs) : glyph.WellFormed ∧ glyph ≠ .plain '|' := by
  rcases List.mem_append.mp hglyph with hglyph | hglyph
  · have hspecifier := wellFormed_of_mem_specifier h hglyph
    exact ⟨hspecifier.1, hspecifier.2.1⟩
  · rcases List.mem_cons.mp hglyph with rfl | hglyph
    · exact ⟨fun _ ↦ by decide, by decide⟩
    · have hwording := segment.wording.toGlyphs_wellFormed hglyph
      exact ⟨hwording.1, hwording.2.1⟩

/-- The specifier of a printed segment is told from its wording. -/
theorem specifier?_toGlyphs (h : segment.WellFormed header) :
    specifier? segment.toGlyphs =
      some (segment.specifier.toList, segment.wording.toGlyphs) := by
  refine specifier?_eq_some_iff.mpr ⟨fun hcolon ↦ ?_, rfl⟩
  exact (wellFormed_of_mem_specifier h (List.mem_map_of_mem hcolon)).2.2 rfl

/-- Segments print as their glyphs are written. -/
theorem toList_print (segment : Segment) :
    segment.print.toList = segment.toGlyphs.flatMap Glyph.text := by
  simp [print, toGlyphs, Wording.print, List.flatMap_map, Glyph.text, Glyph.plain]

end Segment

/-- Printed free text has no specifier. -/
theorem specifier?_toGlyphs_eq_none (wording : Wording) : specifier? wording.toGlyphs = none := by
  have hcolon : wording.toGlyphs.dropWhile (· ≠ .plain ':') = [] := by
    rw [List.dropWhile_eq_nil_iff]
    exact fun glyph hglyph ↦ decide_eq_true (wording.toGlyphs_wellFormed hglyph).2.2
  rw [specifier?, hcolon]

namespace RawSegment

/-- The glyphs of a printed segment are told apart. -/
theorem ofGlyphs_segment {header : Header} {segment : Segment} (h : segment.WellFormed header) :
    ofGlyphs segment.toGlyphs = ⟨some segment.specifier.toList, segment.wording⟩ := by
  rw [ofGlyphs, Segment.specifier?_toGlyphs h]
  dsimp only
  rw [Wording.ofGlyphs_toGlyphs]

/-- The glyphs of printed free text are all wording. -/
theorem ofGlyphs_freeText (wording : Wording) : ofGlyphs wording.toGlyphs = ⟨none, wording⟩ := by
  rw [ofGlyphs, specifier?_toGlyphs_eq_none]
  dsimp only
  rw [Wording.ofGlyphs_toGlyphs]

end RawSegment

namespace Pattern

variable {pattern : Pattern}

/-- The stretches of the printed body: those of the segments, and of the free text if there is
one. -/
def printedStretches (pattern : Pattern) : List (List Glyph) :=
  pattern.segments.map Segment.toGlyphs ++ pattern.freeText?.toList.map Wording.toGlyphs

/-- The stretches are joined by a plain `|`. -/
def printedGlyphs (pattern : Pattern) : List Glyph :=
  [.plain '|'].intercalate pattern.printedStretches

/-- A stretch of a well-formed pattern has well-formed glyphs, and no plain `|`. -/
theorem wellFormed_of_mem_printedStretches (h : pattern.WellFormed) {stretch : List Glyph}
    (hstretch : stretch ∈ pattern.printedStretches) {glyph : Glyph} (hglyph : glyph ∈ stretch) :
    glyph.WellFormed ∧ glyph ≠ .plain '|' := by
  rcases List.mem_append.mp hstretch with hstretch | hstretch
  · obtain ⟨segment, hsegment, rfl⟩ := List.mem_map.mp hstretch
    exact Segment.toGlyphs_wellFormed (h.2.2 segment hsegment) hglyph
  · obtain ⟨wording, -, rfl⟩ := List.mem_map.mp hstretch
    have hwording := wording.toGlyphs_wellFormed hglyph
    exact ⟨hwording.1, hwording.2.1⟩

/-- The printed body splits into its stretches. -/
theorem stretches_printedGlyphs (h : pattern.WellFormed) :
    stretches pattern.printedGlyphs = pattern.printedStretches := by
  refine List.splitOn_intercalate _ ?_ ?_
  · intro stretch hstretch hbar
    exact (wellFormed_of_mem_printedStretches h hstretch hbar).2 rfl
  · have hne := h.2.1
    simp [printedStretches, hne]

/-- Printed segments, and free text after them, read back. -/
theorem gatherSegments_printed {header : Header} (hheader : header.WellFormed)
    {segments : List Segment} (h : ∀ segment ∈ segments, segment.WellFormed header)
    (freeText? : Option Wording) :
    gatherSegments header
        ((segments.map Segment.toGlyphs ++ freeText?.toList.map Wording.toGlyphs).map .ofGlyphs) =
      .ok (segments, freeText?) := by
  induction segments with
  | nil =>
    cases freeText? with
    | none => rfl
    | some wording => simp [gatherSegments, RawSegment.ofGlyphs_freeText]
  | cons first rest ih =>
    have hfirst := h first List.mem_cons_self
    have hrest := ih fun segment hsegment ↦ h segment (List.mem_cons_of_mem _ hsegment)
    rw [List.map_cons, List.cons_append, List.map_cons, gatherSegments,
      RawSegment.ofGlyphs_segment hfirst, hrest]
    simp [Segment.readGroup_specifier hheader hfirst]

/-- The stretches of a printed well-formed pattern make the pattern. -/
theorem ofRawSegments_printedStretches (h : pattern.WellFormed) (source : String) :
    ofRawSegments pattern.header (pattern.printedStretches.map .ofGlyphs) source =
      .ok { pattern with source } := by
  rw [ofRawSegments, printedStretches, gatherSegments_printed h.1 h.2.2]
  exact if_neg h.2.1

end Pattern

/-! ### Headers and whole patterns -/

namespace Header

variable {header : Header}

/-- The kinds of a well-formed header are names. -/
theorem isName_of_mem_kinds (h : header.WellFormed) {kind : String} (hkind : kind ∈ header.kinds) :
    Text.isName kind = true := by
  cases header with
  | inferred => cases hkind
  | named name =>
    obtain rfl := List.mem_singleton.mp hkind
    exact h
  | complex names => exact h.2 kind hkind

/-- A well-formed header is told by its kinds. -/
theorem ofKinds_kinds (h : header.WellFormed) : ofKinds header.kinds = header := by
  cases header with
  | inferred => rfl
  | named kind => rfl
  | complex kinds =>
    match kinds, h with
    | [], h => exact absurd h.1 (by decide)
    | [_], h => exact absurd h.1 (Nat.not_succ_le_self 1)
    | first :: second :: rest, _ => rfl

/-- A header is printed as its kinds joined by `+`. -/
theorem toList_text (header : Header) :
    header.text.toList = ['+'].intercalate (header.kinds.map String.toList) := by
  rw [text, String.toList_intercalate]
  rfl

/-- The characters that headers are printed with. -/
def isHeaderChar (c : Char) : Bool :=
  Text.isNameChar c || c = '+'

/-- A printed header is made of header characters. -/
theorem isHeaderChar_of_mem_text (h : header.WellFormed) {c : Char}
    (hc : c ∈ header.text.toList) : isHeaderChar c = true := by
  rw [toList_text] at hc
  rcases mem_intercalate hc with rfl | ⟨part, hpart, hc⟩
  · decide
  · obtain ⟨kind, hkind, rfl⟩ := List.mem_map.mp hpart
    have hname := (Text.isName_iff.mp (isName_of_mem_kinds h hkind)).2 c hc
    rw [isHeaderChar, hname, Bool.true_or]

/-- A kind that is written out is read up to a character that no name has. -/
theorem readKind?_toList {kind : String} (hkind : Text.isName kind = true) {c : Char}
    (hc : Text.isNameChar c = false) (rest : List Char) :
    readKind? (kind.toList ++ c :: rest) = some (kind, c :: rest) := by
  obtain ⟨hne, hchars⟩ := Text.isName_iff.mp hkind
  have htake : (kind.toList ++ c :: rest).takeWhile Text.isNameChar = kind.toList := by
    rw [List.takeWhile_append_of_pos hchars, List.takeWhile_cons_of_neg (by simp [hc]),
      List.append_nil]
  have hdrop : (kind.toList ++ c :: rest).dropWhile Text.isNameChar = c :: rest := by
    rw [List.dropWhile_append_of_pos hchars, List.dropWhile_cons_of_neg (by simp [hc])]
  unfold readKind?
  rw [htake, hdrop]
  split
  · next hnil => exact absurd hnil hne
  · rw [String.ofList_toList]

theorem readKinds_of_none {s : List Char} (h : readKind? s = none) : readKinds s = ([], s) := by
  rw [readKinds]
  split <;> simp_all

theorem readKinds_of_plus {s rest : List Char} {first : String}
    (h : readKind? s = some (first, '+' :: rest)) (hothers : (readKinds rest).1 ≠ []) :
    readKinds s = (first :: (readKinds rest).1, (readKinds rest).2) := by
  rw [readKinds]
  split <;> simp_all

theorem readKinds_of_not_plus {s rest : List Char} {first : String}
    (h : readKind? s = some (first, rest)) (hplus : ∀ more, rest ≠ '+' :: more) :
    readKinds s = ([first], rest) := by
  rw [readKinds]
  split
  · simp_all
  · next hmore =>
    exact absurd (congrArg Prod.snd (Option.some.inj (h.symm.trans hmore))) (hplus _)
  · simp_all

/-- Kinds that are written out are read, whatever body follows. -/
theorem readKinds_intercalate {kinds : List String}
    (h : ∀ kind ∈ kinds, Text.isName kind = true) (body : List Char) :
    readKinds (['+'].intercalate (kinds.map String.toList) ++ '{' :: body) =
      (kinds, '{' :: body) := by
  induction kinds with
  | nil => exact readKinds_of_none rfl
  | cons first rest ih =>
    have hfirst := h first List.mem_cons_self
    cases rest with
    | nil =>
      have hread := readKind?_toList hfirst (rfl : Text.isNameChar '{' = false) body
      rw [List.map_singleton, List.intercalate_singleton]
      exact readKinds_of_not_plus hread (by simp)
    | cons second more =>
      have hothers := ih fun kind hkind ↦ h kind (List.mem_cons_of_mem _ hkind)
      have hread := readKind?_toList hfirst (rfl : Text.isNameChar '+' = false)
        (['+'].intercalate ((second :: more).map String.toList) ++ '{' :: body)
      have hsome : (readKinds (['+'].intercalate ((second :: more).map String.toList) ++
          '{' :: body)).1 ≠ [] := by
        rw [hothers]
        exact List.cons_ne_nil _ _
      have htext : ['+'].intercalate ((first :: second :: more).map String.toList) ++
          '{' :: body = first.toList ++
            '+' :: (['+'].intercalate ((second :: more).map String.toList) ++ '{' :: body) := by
        rw [List.map_cons, List.map_cons, List.intercalate_cons_cons]
        simp
      rw [htext, readKinds_of_plus hread hsome, hothers]

/-- A printed header reads back, whatever body follows. -/
theorem read?_text (h : header.WellFormed) (body : List Char) :
    read? (header.text.toList ++ '{' :: body) = some (header, body) := by
  rw [read?, toList_text, readKinds_intercalate fun kind hkind ↦ isName_of_mem_kinds h hkind]
  simp [ofKinds_kinds h]

end Header

namespace Pattern

variable {pattern : Pattern}

/-- A pattern is printed as its header and its glyphs between `@`, `{` and `}`. -/
theorem toList_print (pattern : Pattern) :
    pattern.print.toList =
      '@' :: (pattern.header.text.toList ++
        '{' :: (pattern.printedGlyphs.flatMap Glyph.text ++ ['}'])) := by
  have hparts : pattern.printedParts.map String.toList =
      pattern.printedStretches.map (·.flatMap Glyph.text) := by
    rw [printedParts, printedStretches, List.map_append, List.map_append, List.map_map,
      List.map_map, List.map_map, List.map_map]
    congr 1
    · exact List.map_congr_left fun segment _ ↦ segment.toList_print
    · exact List.map_congr_left fun wording _ ↦ String.toList_ofList
  have hbar : (Glyph.plain '|').text = "|".toList := rfl
  rw [printedGlyphs, flatMap_text_intercalate, ← hparts, hbar, ← String.toList_intercalate]
  simp [print]

/-- The body of a printed well-formed pattern reads as the pattern, whatever follows it. -/
theorem read_print (h : pattern.WellFormed) (rest : List Char) :
    read pattern.header (pattern.printedGlyphs.flatMap Glyph.text ++ '}' :: rest) =
      (.ok pattern.withPrintedSource, rest) := by
  have hglyphs (glyph : Glyph) (hglyph : glyph ∈ pattern.printedGlyphs) : glyph.WellFormed := by
    rcases mem_intercalate hglyph with rfl | ⟨stretch, hstretch, hglyph⟩
    · exact fun _ ↦ by decide
    · exact (wellFormed_of_mem_printedStretches h hstretch hglyph).1
  have hwalk : Body.WalksTo (pattern.printedGlyphs.flatMap Glyph.text ++ '}' :: rest)
      pattern.printedGlyphs ('}' :: rest) := ⟨rfl, hglyphs, .inr (.inr ⟨rest, .inr rfl⟩)⟩
  have hsource : opening pattern.header pattern.printedGlyphs ++ r"}" = pattern.print := by
    rw [← String.toList_inj, toList_print]
    simp [opening]
  rw [hwalk.pattern_eq_closed, stretches_printedGlyphs h, hsource,
    ofRawSegments_printedStretches h]
  rfl

end Pattern

end Concord
