import Concord.Proofs.Template.Body

/-!
# Segment by segment, and in one pass

A body is read segment by segment: a specifier is tried first, then a lone `~`, then fragments, and
what stands after all that is taken for a `|` or the brace at the end. Each of these readers stops
at signs of its own and may give back what it has read. They still take the body apart as one pass
does that minds nothing but backslashes.

What is compared are units that are written out before a tail. For each reader there is a law on
what it makes of units without a plain `|` (`IsStretch`) before a tail that ends wording
(`EndsWording`): fragments (`readFragments_text`), wording (`Wording.read_text`), specifiers
(`readSpecifier?_text`), segments (`RawSegment.read_text`) and all segments of a body
(`RawSegment.readAll_text`). A `~` at the end of a body that is not closed is the one thing that is
read in another way, and then the segments do not count.

Hence the walk through a text decides how its body is read (`Body.WalksTo.rawBody_eq_closed` and its
companions), both readers of bodies agree (`RawBody.read_agrees`), and so the walk decides what a
pattern is read as (`Body.WalksTo.pattern_eq_closed` and its companions).
-/

set_option autoImplicit false
set_option relaxedAutoImplicit false

namespace Concord

/-- Wording is not read on into the text: the text is empty or a lone backslash, or begins with a
sign that ends wording. -/
inductive EndsWording : List Char → Prop
  | nil : EndsWording []
  | backslash : EndsWording ['\\']
  | sign {c : Char} {rest : List Char} (hc : c = '|' ∨ c = '{' ∨ c = '}') : EndsWording (c :: rest)

/-- A segment that counts ends before the text. -/
def EndsSegment (tail : List Char) : Prop :=
  ∃ c rest, tail = c :: rest ∧ (c = '|' ∨ c = '}')

/-- The units may stand between two plain `|` of a body. -/
def IsStretch (units : List Glyph) : Prop :=
  ∀ unit ∈ units, unit.WellFormed ∧ unit ≠ .plain '|'

theorem isStretch_cons {first : Glyph} {rest : List Glyph} :
    IsStretch (first :: rest) ↔
      (first.WellFormed ∧ first ≠ .plain '|') ∧ IsStretch rest :=
  List.forall_mem_cons

/-- A plain unit of a stretch is none of the signs that end wording. -/
theorem IsStretch.endsFragment_eq_false {c : Char} {rest : List Glyph}
    (h : IsStretch (.plain c :: rest)) : endsFragment c = false := by
  obtain ⟨⟨hwellFormed, hbar⟩, -⟩ := isStretch_cons.mp h
  have hc : c ∉ ['\\', '{', '}'] := hwellFormed rfl
  have hne : c ≠ '|' := fun hc ↦ hbar (congrArg Glyph.plain hc)
  simp_all [endsFragment]

@[simp] theorem Glyph.text_plain (c : Char) : (Glyph.plain c).text = [c] := rfl

@[simp] theorem Glyph.text_shielded (c : Char) : (Glyph.mk c true).text = ['\\', c] := rfl

variable {units : List Glyph} {tail : List Char}

/-! ### Fragments -/

theorem readFragments_of_none {s : List Char} (h : readFragment? s = none) :
    readFragments s = ([], s) := by
  rw [readFragments]
  split
  · rfl
  · next hsome =>
    rw [h] at hsome
    cases hsome

theorem readFragments_of_some {s fragment rest : List Char}
    (h : readFragment? s = some (fragment, rest)) :
    readFragments s = (fragment ++ (readFragments rest).1, (readFragments rest).2) := by
  rw [readFragments]
  split
  · next hnone =>
    rw [h] at hnone
    cases hnone
  · next hsome =>
    obtain ⟨rfl, rfl⟩ := Prod.mk.inj (Option.some.inj (h.symm.trans hsome))
    rfl

/-- A character that ends no fragment begins one. -/
theorem readFragment?_cons {c : Char} (hc : endsFragment c = false) (s : List Char) :
    readFragment? (c :: s) =
      some (c :: s.takeWhile (!endsFragment ·), s.dropWhile (!endsFragment ·)) := by
  unfold readFragment?
  split
  · next heq =>
    obtain ⟨rfl, -⟩ := List.cons.inj heq
    cases hc
  · simp [hc]

/-- A run of wording may be read one character at a time. -/
theorem readFragments_cons {c : Char} (hc : endsFragment c = false) (s : List Char) :
    readFragments (c :: s) = (c :: (readFragments s).1, (readFragments s).2) := by
  rw [readFragments_of_some (readFragment?_cons hc s)]
  cases s with
  | nil => rfl
  | cons d rest =>
    cases hd : endsFragment d with
    | true => simp [hd]
    | false =>
      rw [readFragments_of_some (readFragment?_cons hd rest)]
      simp [hd]

/-- A shielded character stands for itself. -/
theorem readFragments_shielded (c : Char) (s : List Char) :
    readFragments ('\\' :: c :: s) = (c :: (readFragments s).1, (readFragments s).2) := by
  have hread : readFragment? ('\\' :: c :: s) = some ([c], s) := rfl
  rw [readFragments_of_some hread]
  rfl

theorem EndsWording.readFragments_eq (h : EndsWording tail) : readFragments tail = ([], tail) := by
  refine readFragments_of_none ?_
  cases h with
  | nil => rfl
  | backslash => rfl
  | sign hc => rcases hc with rfl | rfl | rfl <;> rfl

/-- The units of a stretch are fragments that stand for their characters. -/
theorem readFragments_text (hunits : IsStretch units) (htail : EndsWording tail) :
    readFragments (units.flatMap Glyph.text ++ tail) = (units.map (·.char), tail) := by
  induction units with
  | nil => exact htail.readFragments_eq
  | cons first rest ih =>
    have hrest := ih (isStretch_cons.mp hunits).2
    obtain ⟨c, shielded⟩ := first
    cases shielded with
    | true => simp [readFragments_shielded, hrest]
    | false =>
      have hc := IsStretch.endsFragment_eq_false hunits
      simp [Glyph.text, readFragments_cons hc, hrest]

/-! ### Wording -/

/-- Only the units of loud wording are read as such. -/
theorem afterLoud?_text (hunits : IsStretch units) (htail : EndsWording tail)
    (hloud : units ≠ [.plain '~']) : afterLoud? (units.flatMap Glyph.text ++ tail) = none := by
  unfold afterLoud?
  split
  · next c rest heq =>
    refine if_neg fun hc ↦ ?_
    cases units with
    | nil =>
      obtain rfl : tail = '~' :: c :: rest := heq
      cases htail with
      | sign hsign => simp at hsign
    | cons first others =>
      obtain ⟨d, _ | _⟩ := first
      · obtain ⟨rfl, hothers⟩ := List.cons.inj heq
        cases others with
        | nil => exact hloud rfl
        | cons second more =>
          obtain ⟨e, _ | _⟩ := second
          · obtain ⟨rfl, -⟩ := List.cons.inj hothers
            have he := IsStretch.endsFragment_eq_false (isStretch_cons.mp hunits).2
            rcases hc with rfl | rfl <;> cases he
          · obtain ⟨rfl, -⟩ := List.cons.inj hothers
            simp at hc
      · cases (List.cons.inj heq).1
  · rfl

/-- The wording of a stretch is read up to the tail, and for what it is if its segment counts. -/
theorem Wording.read_text (hunits : IsStretch units) (htail : EndsWording tail) :
    (read (units.flatMap Glyph.text ++ tail)).2 = tail ∧
      (EndsSegment tail → (read (units.flatMap Glyph.text ++ tail)).1 = ofGlyphs units) := by
  have hliteral (h : afterLoud? (units.flatMap Glyph.text ++ tail) = none) :
      read (units.flatMap Glyph.text ++ tail) =
        (.literal (String.ofList (units.map (·.char))), tail) := by
    rw [read, h, readFragments_text hunits htail]
  by_cases hloud : units = [.plain '~']
  · subst hloud
    by_cases hends : EndsSegment tail
    · have hread : read ('~' :: tail) = (.loud, tail) := by
        obtain ⟨c, rest, rfl, hc⟩ := hends
        simp [read, afterLoud?, hc]
      exact ⟨congrArg Prod.snd hread, fun _ ↦ congrArg Prod.fst hread⟩
    · have hnone : afterLoud? ('~' :: tail) = none := by
        unfold afterLoud?
        split
        · next heq =>
          exact if_neg fun hc ↦ hends ⟨_, _, (List.cons.inj heq).2, hc⟩
        · rfl
      exact ⟨congrArg Prod.snd (hliteral hnone), fun h ↦ absurd h hends⟩
  · have hread := hliteral (afterLoud?_text hunits htail hloud)
    exact ⟨congrArg Prod.snd hread, fun _ ↦ by rw [hread, ofGlyphs, if_neg hloud]⟩

/-! ### Segments -/

theorem readSpecifier?_cons {c : Char} (hc : endsSpecifier c = false) (s : List Char) :
    readSpecifier? (c :: s) = (readSpecifier? s).map fun found ↦ (c :: found.1, found.2) := by
  simp only [readSpecifier?, List.takeWhile_cons, List.dropWhile_cons, hc]
  simp only [Bool.not_false, if_true]
  split <;> rfl

theorem EndsWording.readSpecifier?_eq (h : EndsWording tail) : readSpecifier? tail = none := by
  cases h with
  | nil => rfl
  | backslash => rfl
  | sign hc => rcases hc with rfl | rfl | rfl <;> rfl

theorem specifier?_cons_shielded (c : Char) (rest : List Glyph) :
    specifier? (⟨c, true⟩ :: rest) = none := by
  rw [Option.eq_none_iff_forall_ne_some]
  rintro ⟨specifier, wording⟩ h
  have heq := (specifier?_eq_some_iff.mp h).eq_append
  cases specifier with
  | nil => cases (List.cons.inj heq).1
  | cons => cases (List.cons.inj heq).1

theorem specifier?_cons_plain {c : Char} (hc : c ≠ ':') (rest : List Glyph) :
    specifier? (.plain c :: rest) = (specifier? rest).map fun found ↦ (c :: found.1, found.2) := by
  have hne : Glyph.plain c ≠ .plain ':' := fun heq ↦ hc (Glyph.mk.inj heq).1
  simp only [specifier?, ne_eq, List.takeWhile_cons, List.dropWhile_cons, hne, not_false_eq_true,
    decide_true, if_true]
  split
  · rfl
  · rw [apply_ite (Option.map _)]
    rfl

/-- The specifier of a stretch is read, and the text after it begins with the wording. -/
theorem readSpecifier?_text (hunits : IsStretch units) (htail : EndsWording tail) :
    readSpecifier? (units.flatMap Glyph.text ++ tail) =
      (specifier? units).map fun found ↦ (found.1, found.2.flatMap Glyph.text ++ tail) := by
  induction units with
  | nil => exact htail.readSpecifier?_eq
  | cons first rest ih =>
    have hrest := ih (isStretch_cons.mp hunits).2
    obtain ⟨c, shielded⟩ := first
    cases shielded with
    | true =>
      rw [specifier?_cons_shielded]
      rfl
    | false =>
      by_cases hc : c = ':'
      · subst hc
        rfl
      · have hplain : endsSpecifier c = false := by
          have := IsStretch.endsFragment_eq_false hunits
          simp_all [endsFragment, endsSpecifier]
        have hcons := specifier?_cons_plain hc rest
        rw [Glyph.plain] at hcons
        rw [hcons, Option.map_map]
        simp only [List.flatMap_cons, Glyph.text, Bool.false_eq_true, if_false]
        rw [List.cons_append, List.nil_append, List.cons_append, readSpecifier?_cons hplain, hrest,
          Option.map_map]
        rfl

/-- The segment of a stretch is read up to the tail, and for what it is if it counts. -/
theorem RawSegment.read_text (hunits : IsStretch units) (htail : EndsWording tail) :
    (read (units.flatMap Glyph.text ++ tail)).2 = tail ∧
      (EndsSegment tail → (read (units.flatMap Glyph.text ++ tail)).1 = ofGlyphs units) := by
  rw [read, readSpecifier?_text hunits htail, ofGlyphs]
  cases hspecifier : Concord.specifier? units with
  | none =>
    obtain ⟨hrest, hwording⟩ := Wording.read_text hunits htail
    exact ⟨hrest, fun hends ↦ congrArg (RawSegment.mk none) (hwording hends)⟩
  | some found =>
    obtain ⟨specifier, wording⟩ := found
    have heq := (specifier?_eq_some_iff.mp hspecifier).eq_append
    have hafter : IsStretch wording := fun unit hunit ↦
      hunits unit (heq ▸ List.mem_append_right _ (List.mem_cons_of_mem _ hunit))
    obtain ⟨hrest, hwording⟩ := Wording.read_text hafter htail
    exact ⟨hrest, fun hends ↦ congrArg (RawSegment.mk (some specifier)) (hwording hends)⟩

namespace RawSegment

theorem readAll_of_bar {s rest : List Char} (h : (read s).2 = '|' :: rest) :
    readAll s = ((read s).1 :: (readAll rest).1, (readAll rest).2) := by
  rw [readAll]
  split
  · next hbar =>
    obtain ⟨-, rfl⟩ := List.cons.inj (h.symm.trans hbar)
    rfl
  · next hbar => exact absurd h (hbar rest)

theorem readAll_of_not_bar {s : List Char} (h : ∀ rest, (read s).2 ≠ '|' :: rest) :
    readAll s = ([(read s).1], (read s).2) := by
  rw [readAll]
  split
  · next rest hbar => exact absurd hbar (h rest)
  · rfl

/-- The segments of a body are read up to the tail, and for what they are if the tail closes the
body. The induction is on the stretches: each but the last has a `|` after it, so that it counts. -/
theorem readAll_text {parts : List (List Glyph)} (hparts : parts ≠ [])
    (hstretch : ∀ part ∈ parts, IsStretch part) (htail : EndsWording tail)
    (hbar : ∀ rest, tail ≠ '|' :: rest) :
    (readAll (([.plain '|'].intercalate parts).flatMap Glyph.text ++ tail)).2 = tail ∧
      (EndsSegment tail →
        (readAll (([.plain '|'].intercalate parts).flatMap Glyph.text ++ tail)).1 =
          parts.map ofGlyphs) := by
  induction parts with
  | nil => exact absurd rfl hparts
  | cons first rest ih =>
    have hfirst := hstretch first List.mem_cons_self
    cases rest with
    | nil =>
      obtain ⟨hrest, hread⟩ := read_text hfirst htail
      rw [List.intercalate_singleton, readAll_of_not_bar (hrest.symm ▸ hbar)]
      exact ⟨hrest, fun hends ↦ congrArg (fun segment ↦ [segment]) (hread hends)⟩
    | cons second more =>
      obtain ⟨hends, hothers⟩ := ih (List.cons_ne_nil _ _)
        fun part hpart ↦ hstretch part (List.mem_cons_of_mem _ hpart)
      have htext : ([.plain '|'].intercalate (first :: second :: more)).flatMap Glyph.text ++ tail =
          first.flatMap Glyph.text ++
            '|' :: (([.plain '|'].intercalate (second :: more)).flatMap Glyph.text ++ tail) := by
        rw [List.intercalate_cons_cons]
        simp
      obtain ⟨hrest, hread⟩ := read_text hfirst (.sign (.inl rfl))
      rw [htext, readAll_of_bar hrest]
      refine ⟨hends, fun hcloses ↦ ?_⟩
      rw [hread ⟨'|', _, rfl, .inl rfl⟩, hothers hcloses]
      rfl

end RawSegment

/-! ### Bodies -/

namespace Body.WalksTo

variable {s rest : List Char}

/-- What a walk has gone through is read as the segments of its stretches, up to where it stops. -/
theorem readAll_eq (h : WalksTo s units tail) :
    (RawSegment.readAll s).2 = tail ∧
      (EndsSegment tail →
        (RawSegment.readAll s).1 = (stretches units).map RawSegment.ofGlyphs) := by
  have hstretch (part : List Glyph) (hpart : part ∈ stretches units) : IsStretch part :=
    fun unit hunit ↦
      have hmem := mem_of_mem_splitOn hpart hunit
      ⟨h.units_wellFormed unit hmem.1, hmem.2⟩
  have hends : EndsWording tail ∧ ∀ rest, tail ≠ '|' :: rest := by
    rcases h.stops with rfl | rfl | ⟨rest, rfl | rfl⟩
    · exact ⟨.nil, by simp⟩
    · exact ⟨.backslash, by simp⟩
    · exact ⟨.sign (.inr (.inl rfl)), by simp⟩
    · exact ⟨.sign (.inr (.inr rfl)), by simp⟩
  have hparts : [.plain '|'].intercalate (stretches units) = units := List.intercalate_splitOn _
  have hread := RawSegment.readAll_text (stretches_ne_nil units) hstretch hends.1 hends.2
  rwa [hparts, ← h.eq_append] at hread

/-- A walk that meets no brace is through a body that is not closed. -/
theorem rawBody_eq_unclosed (h : WalksTo s units tail) (htail : tail = [] ∨ tail = ['\\']) :
    ∃ segments, RawBody.read s = ⟨segments, .unclosed, []⟩ := by
  refine ⟨(RawSegment.readAll s).1, ?_⟩
  rw [RawBody.read, h.readAll_eq.1]
  rcases htail with rfl | rfl <;> rfl

/-- A walk that stops at an opening brace is through a nested body. -/
theorem rawBody_eq_nested (h : WalksTo s units ('{' :: rest)) :
    ∃ segments, RawBody.read s = ⟨segments, .nested, rest⟩ := by
  refine ⟨(RawSegment.readAll s).1, ?_⟩
  rw [RawBody.read, h.readAll_eq.1]
  rfl

/-- A walk that stops at a closing brace is through the segments of a closed body. -/
theorem rawBody_eq_closed (h : WalksTo s units ('}' :: rest)) :
    RawBody.read s = ⟨(stretches units).map RawSegment.ofGlyphs, .closed, rest⟩ := by
  obtain ⟨hrest, hsegments⟩ := h.readAll_eq
  rw [RawBody.read, hrest, ← hsegments ⟨'}', rest, rfl, .inr rfl⟩]
  rfl

end Body.WalksTo

/-- Read segment by segment, a body ends as it does in one pass, and the same text is left after it.
If it is closed, its segments are those of its stretches. -/
theorem RawBody.read_agrees (s : List Char) :
    (read s).ending = (Body.read s).ending ∧ (read s).rest = (Body.read s).rest ∧
      ((read s).ending = .closed →
        (read s).segments = (stretches (Body.read s).glyphs).map RawSegment.ofGlyphs) := by
  obtain ⟨units, tail, hwalk⟩ := Body.exists_walksTo s
  rcases or_assoc.mpr hwalk.stops with htail | ⟨rest, rfl | rfl⟩
  · obtain ⟨segments, hread⟩ := hwalk.rawBody_eq_unclosed htail
    rw [hread, hwalk.read_eq_unclosed htail]
    exact ⟨rfl, rfl, fun h ↦ by cases h⟩
  · obtain ⟨segments, hread⟩ := hwalk.rawBody_eq_nested
    rw [hread, hwalk.read_eq_nested]
    exact ⟨rfl, rfl, fun h ↦ by cases h⟩
  · rw [hwalk.rawBody_eq_closed, hwalk.read_eq_closed]
    exact ⟨rfl, rfl, fun _ ↦ rfl⟩

/-! ### Patterns -/

/-- The text of a pattern up to the units of its body. -/
def Pattern.opening (header : Header) (units : List Glyph) : String :=
  "@" ++ header.text ++ r"{" ++ String.ofList (units.flatMap Glyph.text)

namespace Body.WalksTo

variable {s rest : List Char} {header : Header}

/-- A pattern is unclosed if the walk through its body meets no brace. -/
theorem pattern_eq_unclosed (h : WalksTo s units tail) (htail : tail = [] ∨ tail = ['\\']) :
    Pattern.read header s =
      (.error ⟨"@" ++ header.text ++ r"{" ++ String.ofList s, .unclosed⟩, []) := by
  obtain ⟨segments, hread⟩ := h.rawBody_eq_unclosed htail
  rw [Pattern.read, hread]

/-- The source of a pattern ends with the brace at which the walk stops. -/
theorem take_eq {brace : Char} (h : WalksTo s units (brace :: rest)) :
    "@" ++ header.text ++ r"{" ++ String.ofList (s.take (s.length - rest.length)) =
      Pattern.opening header units ++ String.singleton brace := by
  have htake : s.take (s.length - rest.length) = units.flatMap Glyph.text ++ [brace] := by
    have hsplit : s = units.flatMap Glyph.text ++ [brace] ++ rest := by
      rw [h.eq_append]
      simp
    rw [hsplit, List.length_append, Nat.add_sub_cancel, List.take_left]
  rw [htake, Pattern.opening, String.ofList_append, ← String.append_assoc]
  rfl

/-- A pattern is malformed if the walk through its body stops at an opening brace. -/
theorem pattern_eq_nested (h : WalksTo s units ('{' :: rest)) :
    Pattern.read header s = (.error ⟨Pattern.opening header units ++ r"{", .nestedBrace⟩, []) := by
  obtain ⟨segments, hread⟩ := h.rawBody_eq_nested
  rw [Pattern.read, hread]
  dsimp only
  rw [h.take_eq]
  rfl

/-- A pattern is made of its stretches if the walk through its body stops at a closing brace. -/
theorem pattern_eq_closed (h : WalksTo s units ('}' :: rest)) :
    let source := Pattern.opening header units ++ r"}"
    Pattern.read header s =
      match Pattern.ofRawSegments header ((stretches units).map .ofGlyphs) source with
      | .error fault => (.error ⟨source, fault⟩, [])
      | .ok pattern => (.ok pattern, rest) := by
  rw [Pattern.read, h.rawBody_eq_closed]
  dsimp only
  rw [h.take_eq]
  rfl

end Body.WalksTo

end Concord
