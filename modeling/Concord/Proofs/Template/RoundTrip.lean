import Concord.Proofs.Template.WellFormed

/-!
# Templates print and read back

Printing and reading are inverse to each other on well-formed templates, and these are just the
templates that reading gives (`parse_and_print_inverse`). A printed pattern reads back as
a piece of its own (`readPieces_print_pattern`). Literal text reads back although its escapes are
read one way and its other characters another: escaping never makes or breaks a header further on
(`isSome_read?_escapeMarkers`), so that character by character the escaped text reads as the text
(`readPieces_escapeMarkers`).
-/

set_option autoImplicit false
set_option relaxedAutoImplicit false

namespace Concord.Template

/-! ### Literal text -/

/-- The pieces with literal text in front of them, pushed character by character. -/
def pushText (text : List Char) (pieces : List Piece) : List Piece :=
  text.foldr (fun c more ↦ pushPiece (.literal (String.singleton c)) more) pieces

/-- Text that is not empty is pushed as one literal. -/
theorem pushText_eq_pushPiece {text : List Char} (h : text ≠ []) (pieces : List Piece) :
    pushText text pieces = pushPiece (.literal (String.ofList text)) pieces := by
  induction text with
  | nil => exact absurd rfl h
  | cons c rest ih =>
    by_cases hrest : rest = []
    · rw [hrest]
      rfl
    · have hsplit : String.ofList (c :: rest) = String.singleton c ++ String.ofList rest := by
        rw [String.singleton_eq_ofList, ← String.ofList_append]
        rfl
      change pushPiece _ (pushText rest pieces) = _
      rw [ih hrest, pushPiece_literal_append, hsplit]

/-- Text without an `@` is not escaped. -/
theorem escapeMarkers_append {text : List Char} (h : ∀ c ∈ text, c ≠ '@') (s : List Char) :
    escapeMarkers (text ++ s) = text ++ escapeMarkers s := by
  induction text with
  | nil => rfl
  | cons c rest ih =>
    have hc := h c List.mem_cons_self
    rw [List.cons_append, escapeMarkers, ih fun d hd ↦ h d (List.mem_cons_of_mem _ hd)]
    simp [hc]

/-- What may follow literal text in print: nothing, or a pattern. -/
def EndsLiteral (s : List Char) : Prop :=
  s = [] ∨ (opening? s).isSome

/-- Text without markers that escaped text begins with is also what the text itself begins with. -/
theorem prefix_of_prefix_escapeMarkers {word text s : List Char}
    (hword : ∀ c ∈ word, isMarker c = false) (hs : EndsLiteral s)
    (h : word <+: escapeMarkers text ++ s) : word <+: text := by
  induction word generalizing text with
  | nil => exact List.nil_prefix
  | cons d more ih =>
    have hd := hword d List.mem_cons_self
    cases text with
    | nil =>
      rcases hs with rfl | hopening
      · simp [escapeMarkers] at h
      · obtain ⟨⟨header, body⟩, hopening⟩ := Option.isSome_iff_exists.mp hopening
        obtain ⟨tail, rfl, -⟩ := opening?_eq_some_iff.mp hopening
        obtain rfl := (List.cons_prefix_cons.mp h).1
        cases hd
    | cons c rest =>
      rw [escapeMarkers] at h
      split at h
      · obtain rfl := (List.cons_prefix_cons.mp h).1
        cases hd
      · obtain ⟨rfl, htail⟩ := List.cons_prefix_cons.mp h
        have hmore := ih (fun e he ↦ hword e (List.mem_cons_of_mem _ he)) htail
        exact List.cons_prefix_cons.mpr ⟨rfl, hmore⟩

/-- Escaping makes no header and breaks none. -/
theorem isSome_read?_escapeMarkers (text : List Char) {s : List Char} (hs : EndsLiteral s) :
    (Header.read? (escapeMarkers text ++ s)).isSome = (Header.read? text).isSome := by
  rw [Bool.eq_iff_iff, Header.isSome_read?_iff, Header.isSome_read?_iff]
  constructor
  · rintro ⟨header, body, hheader, heq⟩
    have hword (c : Char) (hc : c ∈ header.text.toList ++ ['{']) : isMarker c = false := by
      rcases List.mem_append.mp hc with hc | hc
      · have hchar := Header.isHeaderChar_of_mem_text hheader hc
        rw [Bool.eq_false_iff]
        intro hmarker
        rcases Bool.or_eq_true_iff.mp hmarker with hat | hslash
        · obtain rfl := of_decide_eq_true hat
          cases hchar
        · obtain rfl := of_decide_eq_true hslash
          cases hchar
      · obtain rfl := List.mem_singleton.mp hc
        rfl
    have hprefix : header.text.toList ++ ['{'] <+: escapeMarkers text ++ s :=
      ⟨body, by simp [heq]⟩
    obtain ⟨rest, hrest⟩ := prefix_of_prefix_escapeMarkers hword hs hprefix
    exact ⟨header, rest, hheader, by simp [← hrest]⟩
  · rintro ⟨header, body, hheader, rfl⟩
    have hword (c : Char) (hc : c ∈ header.text.toList ++ ['{']) : c ≠ '@' := by
      rintro rfl
      rcases List.mem_append.mp hc with hc | hc
      · cases Header.isHeaderChar_of_mem_text hheader hc
      · cases List.mem_singleton.mp hc
    refine ⟨header, escapeMarkers body ++ s, hheader, ?_⟩
    have happend := escapeMarkers_append hword body
    simpa using congrArg (· ++ s) happend

/-- Escaped text begins no escape with a marker in front of it, unless the text is empty. -/
theorem afterEscape?_escapeMarkers (c : Char) {text s : List Char} (htext : text ≠ [])
    (hs : EndsLiteral s) : afterEscape? (c :: (escapeMarkers text ++ s)) = none := by
  rw [Option.eq_none_iff_forall_ne_some]
  intro after h
  obtain ⟨_, -, hheader, heq⟩ := afterEscape?_eq_some_iff.mp h
  have htail := (List.cons.inj heq).2
  obtain ⟨d, more, rfl⟩ := List.exists_cons_of_ne_nil htext
  rw [escapeMarkers] at htail
  split at htail
  · cases htail
  · next hkept =>
    obtain ⟨rfl, hafter⟩ := List.cons.inj htail
    have hsome := isSome_read?_escapeMarkers more hs
    change escapeMarkers more ++ s = after at hafter
    rw [hafter, hheader] at hsome
    exact hkept (by simp [← hsome])

/-- Escaped text reads as the text, character by character, if its last character makes no escape
of a pattern that follows. -/
theorem readPieces_escapeMarkers {text s : List Char} (hs : EndsLiteral s)
    (hmarker : s ≠ [] → ¬ text.getLast?.any isMarker) :
    readPieces (escapeMarkers text ++ s) = (readPieces s).map (pushText text) := by
  induction text with
  | nil => cases h : readPieces s <;> simp [escapeMarkers, h, Except.map, pushText]
  | cons c rest ih =>
    have hrest : readPieces (escapeMarkers rest ++ s) = (readPieces s).map (pushText rest) := by
      refine ih fun hne ↦ ?_
      cases rest with
      | nil => simp
      | cons d more => exact hmarker hne
    have hpush :
        ((readPieces s).map (pushText rest)).map (pushPiece (.literal (String.singleton c))) =
          (readPieces s).map (pushText (c :: rest)) := by
      cases readPieces s <;> rfl
    rw [escapeMarkers]
    split
    · next hescaped =>
      obtain ⟨hc, hheader⟩ := Bool.and_eq_true_iff.mp hescaped
      obtain rfl := of_decide_eq_true hc
      rw [← isSome_read?_escapeMarkers rest hs] at hheader
      have hstep := readPieces_of_stepsTo (StepsTo.escape (c := '\\') rfl hheader)
      rw [hrest] at hstep
      exact hstep.trans hpush
    · next hkept =>
      have hopening : opening? (c :: (escapeMarkers rest ++ s)) = none := by
        rw [Option.eq_none_iff_forall_ne_some]
        rintro ⟨header, body⟩ h
        obtain ⟨tail, heq, hheader⟩ := opening?_eq_some_iff.mp h
        obtain ⟨rfl, rfl⟩ := List.cons.inj heq
        have hsome := isSome_read?_escapeMarkers rest hs
        rw [hheader] at hsome
        exact hkept (by simp [← hsome])
      have hescape : afterEscape? (c :: (escapeMarkers rest ++ s)) = none := by
        by_cases hnil : rest = []
        · by_cases hempty : s = []
          · simp [hnil, hempty, escapeMarkers, afterEscape?]
          · have hc : isMarker c = false := by simpa [hnil] using hmarker hempty
            exact afterEscape?_of_not_isMarker hc _
        · exact afterEscape?_escapeMarkers c hnil hs
      rw [List.cons_append, readPieces_cons hescape hopening, hrest, hpush]

/-! ### Patterns and whole templates -/

/-- A printed pattern reads back as a piece of its own, with its printed form as its source. -/
theorem readPieces_print_pattern {pattern : Pattern} (h : pattern.WellFormed) (s : List Char) :
    readPieces (pattern.print.toList ++ s) =
      (readPieces s).map (pushPiece (.pattern pattern.withPrintedSource)) := by
  have hread := Header.read?_text h.1 (pattern.printedGlyphs.flatMap Glyph.text ++ '}' :: s)
  have hprint : pattern.print.toList ++ s =
      '@' :: (pattern.header.text.toList ++
        '{' :: (pattern.printedGlyphs.flatMap Glyph.text ++ '}' :: s)) := by
    simp [Pattern.toList_print]
  have hescape : afterEscape? (pattern.print.toList ++ s) = none := by
    rw [Option.eq_none_iff_forall_ne_some, hprint]
    intro after hafter
    obtain ⟨_, -, -, heq⟩ := afterEscape?_eq_some_iff.mp hafter
    have hat := Header.isSome_read?_at after
    rw [← (List.cons.inj heq).2, hread] at hat
    cases hat
  have hopening := opening?_eq_some_iff.mpr ⟨_, hprint, hread⟩
  have hstep := StepsTo.pattern hescape hopening
  rw [Pattern.read_print h s] at hstep
  exact readPieces_of_stepsTo hstep

/-- A printed pattern may follow literal text. -/
theorem endsLiteral_print {pattern : Pattern} (h : pattern.WellFormed) (s : List Char) :
    EndsLiteral (pattern.print.toList ++ s) := by
  right
  rw [Pattern.toList_print, List.cons_append, opening?, List.append_assoc, List.cons_append,
    Header.read?_text h.1]
  rfl

/-- Printed pieces read back. -/
theorem readPieces_print {pieces : List Piece} (h : WellFormedPieces pieces) :
    readPieces (pieces.flatMap fun piece ↦ piece.print.toList) =
      .ok (pieces.map Piece.withPrintedSource) := by
  induction pieces with
  | nil => exact readPieces_nil
  | cons first rest ih =>
    obtain ⟨hfirst, hprecede, hrest⟩ := wellFormedPieces_cons.mp h
    have hread := ih hrest
    rw [List.flatMap_cons]
    cases first with
    | pattern written =>
      change readPieces (written.print.toList ++ _) = _
      rw [readPieces_print_pattern hfirst, hread]
      rfl
    | literal text =>
      have hne : text.toList ≠ [] := fun hnil ↦ hfirst (String.toList_eq_nil_iff.mp hnil)
      have hends : EndsLiteral (rest.flatMap fun piece ↦ piece.print.toList) ∧
          (rest ≠ [] → ¬ text.toList.getLast?.any isMarker) := by
        cases rest with
        | nil => exact ⟨Or.inl rfl, fun hnil ↦ absurd rfl hnil⟩
        | cons second more =>
          have hmay : Piece.MayPrecede (.literal text) second := hprecede second rfl
          cases second with
          | literal next => exact absurd hmay id
          | pattern written =>
            exact ⟨endsLiteral_print (wellFormedPieces_cons.mp hrest).1 _, fun _ ↦ hmay⟩
      have hmarker : (rest.flatMap fun piece ↦ piece.print.toList) ≠ [] →
          ¬ text.toList.getLast?.any isMarker := by
        refine fun hprinted ↦ hends.2 ?_
        rintro rfl
        exact hprinted rfl
      change readPieces ((String.ofList (escapeMarkers text.toList)).toList ++ _) = _
      rw [String.toList_ofList, readPieces_escapeMarkers hends.1 hmarker, hread]
      change Except.ok (pushText text.toList (rest.map Piece.withPrintedSource)) = _
      rw [pushText_eq_pushPiece hne, String.ofList_toList]
      cases rest with
      | nil => rfl
      | cons second more =>
        cases second with
        | literal next => exact absurd (hprecede _ rfl) id
        | pattern written => rfl

/-- Reading gives well-formed templates only, and every well-formed template is read back from its
printed form, each pattern with its printed form as its source. -/
theorem parse_and_print_inverse :
    (∀ (text : String) (template : Template),
        parse text = .ok template → template.WellFormed) ∧
      ∀ template : Template,
        template.WellFormed → parse template.print = .ok template.withPrintedSources := by
  constructor
  · intro text template h
    rw [parse_eq_readPieces] at h
    obtain ⟨pieces, hpieces, rfl⟩ := Traversal.map_eq_ok_iff.mp h
    exact (wellFormedPieces_of_readPieces hpieces).1
  · intro template h
    have hprint : template.print.toList =
        template.pieces.flatMap fun piece ↦ piece.print.toList := by
      rw [print, String.toList_join, List.flatMap_map]
    rw [parse_eq_readPieces, hprint, readPieces_print h]
    rfl

/-- A template with a marker that needs an escape and one that needs none, a tuple of kinds, a
negated group, loud wording, and wording full of marks. -/
def greeting : Template where
  pieces :=
    [.literal "Write to a@b, not to @b{c}: ",
      .pattern {
        header := .complex ["gender", "number"]
        segments :=
          [⟨[[.name "f", .any], [.name "m", .name "pl"]], true, .loud⟩,
            ⟨[[.any, .name "sg"]], false, .literal r"\a|b:{~}"⟩]
        freeText? := some (.literal "~")
        source := "" },
      .literal "@"]

theorem parse_and_print_inverse_greeting :
    greeting.WellFormed ∧ parse greeting.print = .ok greeting.withPrintedSources ∧
      greeting.withPrintedSources.WellFormed := by
  have hwellFormed : greeting.WellFormed := by decide
  have hparse := parse_and_print_inverse.2 greeting hwellFormed
  exact ⟨hwellFormed, hparse, parse_and_print_inverse.1 _ _ hparse⟩

end Concord.Template
