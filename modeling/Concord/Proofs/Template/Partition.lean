import Concord.Proofs.Template.WellFormed

/-!
# Scans take their texts apart

A scan cuts a text into stretches and says what piece each of them stands for. Nothing between the
stretches is lost, and nothing that is not in the text is made up. `Piece.IsWrittenAs` says how a
piece may stand in a text, and `Partitions` that items account for a text from its start to its end
or to a malformed pattern. Each step keeps to this (`StepsTo.exists_taken` and
`StepsTo.prefix_of_error`), hence so does every scan (`partitions_steps`).

The main statement is `scan_takes_text_apart`. Every stretch that a step takes has a character in
it, which bounds the number of items by the length of the text.
-/

set_option autoImplicit false
set_option relaxedAutoImplicit false

namespace Concord

/-- The piece may stand in a text as the stretch `taken` when `rest` follows. A pattern stands as
its source and a literal as its own text, but `@` may have a marker in front of it where the rest
begins with a header. -/
inductive Piece.IsWrittenAs : Piece → List Char → List Char → Prop
  | pattern (written : Pattern) (rest : List Char) :
      IsWrittenAs (.pattern written) written.source.toList rest
  | literal (text : String) (rest : List Char) : IsWrittenAs (.literal text) text.toList rest
  | escape {c : Char} {rest : List Char} (hmarker : c = '\\' ∨ c = '@')
      (hheader : ∃ (header : Header) (body : List Char),
        header.WellFormed ∧ rest = header.text.toList ++ '{' :: body) :
      IsWrittenAs (.literal "@") [c, '@'] rest

/-! ### A pattern and its source -/

namespace Pattern

variable {header : Header} {s : List Char}

/-- A pattern is opened by `@`, its header and `{`. -/
theorem toList_opening (header : Header) (units : List Glyph) :
    (opening header units).toList =
      '@' :: (header.text.toList ++ '{' :: units.flatMap Glyph.text) := by
  simp [opening]

/-- The source of a pattern is the one that it is made with. -/
theorem source_of_ofRawSegments {segments : List RawSegment} {source : String} {pattern : Pattern}
    (h : ofRawSegments header segments source = .ok pattern) : pattern.source = source := by
  unfold ofRawSegments at h
  split at h
  · cases h
  · split at h
    · cases h
    · obtain rfl := Except.ok.inj h
      rfl

/-- A pattern is read from a body that its brace closes, it is made of the stretches of the body,
and the text after the brace is left. -/
theorem closed_of_read_ok {pattern : Pattern} (h : (read header s).1 = .ok pattern) :
    ∃ units rest, Body.WalksTo s units ('}' :: rest) ∧
      ofRawSegments header ((stretches units).map .ofGlyphs) (opening header units ++ r"}") =
        .ok pattern ∧ (read header s).2 = rest := by
  obtain ⟨units, tail, hwalk⟩ := Body.exists_walksTo s
  rcases or_assoc.mpr hwalk.stops with htail | ⟨rest, rfl | rfl⟩
  · rw [hwalk.pattern_eq_unclosed htail] at h
    cases h
  · rw [hwalk.pattern_eq_nested] at h
    cases h
  · refine ⟨units, rest, hwalk, ?_⟩
    rw [hwalk.pattern_eq_closed] at h ⊢
    split at h
    · cases h
    · next found hfound =>
      obtain rfl := Except.ok.inj h
      simp [hfound]

/-- The source of a pattern begins with `@`, and with the text left after it makes up the text that
the pattern is read from. -/
theorem source_of_read_ok {pattern : Pattern} (h : (read header s).1 = .ok pattern) :
    (∃ tail, pattern.source.toList = '@' :: tail) ∧
      '@' :: (header.text.toList ++ '{' :: s) =
        pattern.source.toList ++ (read header s).2 := by
  obtain ⟨units, rest, hwalk, hmade, hrest⟩ := closed_of_read_ok h
  have hsource : pattern.source.toList =
      '@' :: (header.text.toList ++ '{' :: (units.flatMap Glyph.text ++ ['}'])) := by
    rw [source_of_ofRawSegments hmade, String.toList_append, toList_opening]
    simp
  refine ⟨⟨_, hsource⟩, ?_⟩
  rw [hsource, hrest, hwalk.eq_append]
  simp

/-- The text of a malformed pattern begins with `@`, and is found at the start of the text that the
pattern is read from. -/
theorem prefix_of_read_error {error : PatternError} (h : (read header s).1 = .error error) :
    (∃ tail, error.pattern.toList = '@' :: tail) ∧
      error.pattern.toList <+: '@' :: (header.text.toList ++ '{' :: s) := by
  obtain ⟨units, tail, hwalk⟩ := Body.exists_walksTo s
  have hbrace (brace : String) (rest : List Char) (htail : tail = brace.toList ++ rest) :
      (∃ tail, (opening header units ++ brace).toList = '@' :: tail) ∧
        (opening header units ++ brace).toList <+: '@' :: (header.text.toList ++ '{' :: s) := by
    rw [String.toList_append, toList_opening]
    refine ⟨⟨_, rfl⟩, rest, ?_⟩
    rw [hwalk.eq_append, htail]
    simp
  rcases or_assoc.mpr hwalk.stops with htail | ⟨rest, rfl | rfl⟩
  · rw [hwalk.pattern_eq_unclosed htail] at h
    obtain rfl := Except.error.inj h
    simp
  · rw [hwalk.pattern_eq_nested] at h
    obtain rfl := Except.error.inj h
    exact hbrace r"{" rest rfl
  · rw [hwalk.pattern_eq_closed] at h
    split at h
    · obtain rfl := Except.error.inj h
      exact hbrace r"}" rest rfl
    · cases h

end Pattern

namespace Template

/-! ### One step -/

/-- A text that opens a pattern begins with `@`, the header and `{`. -/
theorem eq_of_opening? {s body : List Char} {header : Header}
    (h : opening? s = some (header, body)) :
    s = '@' :: (header.text.toList ++ '{' :: body) := by
  obtain ⟨tail, rfl, hheader⟩ := opening?_eq_some_iff.mp h
  rw [← Header.eq_append_of_read? hheader]

/-- A step that gives a piece takes a stretch off the front of the text, and the piece is written
as this stretch. -/
theorem StepsTo.exists_taken {s rest : List Char} {piece : Piece}
    (h : StepsTo s (.ok piece) rest) :
    ∃ taken, taken ≠ [] ∧ s = taken ++ rest ∧ piece.IsWrittenAs taken rest := by
  generalize hitem : (Except.ok piece : Except PatternError Piece) = item at h
  cases h with
  | @escape c _ hmarker hheader =>
    obtain rfl := Except.ok.inj hitem
    have hc : c = '\\' ∨ c = '@' := by simpa [isMarker, or_comm] using hmarker
    exact ⟨[c, '@'], List.cons_ne_nil _ _, rfl, .escape hc (Header.isSome_read?_iff.mp hheader)⟩
  | pattern _ hopening =>
    obtain ⟨written, hread, rfl⟩ := Traversal.map_eq_ok_iff.mp hitem.symm
    obtain ⟨⟨tail, htail⟩, happend⟩ := Pattern.source_of_read_ok hread
    refine ⟨written.source.toList, ?_, ?_, .pattern written _⟩
    · rw [htail]
      exact List.cons_ne_nil _ _
    · rw [eq_of_opening? hopening, happend]
  | @marker c _ _ _ _ =>
    obtain rfl := Except.ok.inj hitem
    refine ⟨[c], List.cons_ne_nil _ _, rfl, ?_⟩
    simpa using Piece.IsWrittenAs.literal (String.singleton c) rest
  | @run c tail _ =>
    obtain rfl := Except.ok.inj hitem
    refine ⟨c :: tail.takeWhile (!isMarker ·), List.cons_ne_nil _ _, ?_, ?_⟩
    · rw [List.cons_append, List.takeWhile_append_dropWhile]
    · simpa using Piece.IsWrittenAs.literal (String.ofList (c :: tail.takeWhile (!isMarker ·))) _

/-- A step that fails quotes the text from the `@` of a pattern on. -/
theorem StepsTo.prefix_of_error {s rest : List Char} {error : PatternError}
    (h : StepsTo s (.error error) rest) :
    (∃ tail, error.pattern.toList = '@' :: tail) ∧ error.pattern.toList <+: s := by
  generalize hitem : (Except.error error : Except PatternError Piece) = item at h
  cases h with
  | escape => cases hitem
  | marker => cases hitem
  | run => cases hitem
  | pattern _ hopening =>
    have hfault := congrArg Traversal.fault? hitem
    rw [Traversal.fault?_map] at hfault
    rw [eq_of_opening? hopening]
    exact Pattern.prefix_of_read_error (Traversal.fault?_eq_some_iff.mp hfault.symm)

/-! ### Whole scans -/

/-- The items, each with the text left after it, account for the text: the first takes a stretch
off its front and the others account for the rest, or it reports a malformed pattern there and is
the last. -/
inductive Partitions : List Char → List (Except PatternError Piece × List Char) → Prop
  | done : Partitions [] []
  | piece {piece : Piece} {taken rest : List Char}
      {items : List (Except PatternError Piece × List Char)} (htaken : taken ≠ [])
      (hwritten : piece.IsWrittenAs taken rest) (hrest : Partitions rest items) :
      Partitions (taken ++ rest) ((.ok piece, rest) :: items)
  | malformed {s : List Char} {error : PatternError}
      (hat : ∃ tail, error.pattern.toList = '@' :: tail) (hstart : error.pattern.toList <+: s) :
      Partitions s [(.error error, [])]

/-- The items of a scan account for its text. -/
theorem partitions_steps (s : List Char) : Partitions s (steps s) := by
  fun_induction steps s with
  | case1 s hnone =>
    cases s with
    | nil => exact .done
    | cons c tail =>
      obtain ⟨item, rest, hstep⟩ := exists_stepsTo c tail
      rw [hstep.step?_eq] at hnone
      cases hnone
  | case2 s item rest hsome _ ih =>
    have hstep := stepsTo_of_step? hsome
    cases item with
    | ok piece =>
      obtain ⟨taken, htaken, rfl, hwritten⟩ := hstep.exists_taken
      exact .piece htaken hwritten ih
    | error error =>
      obtain rfl := hstep.rest_of_error
      rw [steps_nil]
      exact .malformed hstep.prefix_of_error.1 hstep.prefix_of_error.2

namespace Partitions

variable {s : List Char} {items : List (Except PatternError Piece × List Char)}

/-- There are no more items than characters. -/
theorem length_le (h : Partitions s items) : items.length ≤ s.length := by
  induction h with
  | done => exact Nat.le_refl 0
  | @piece _ taken _ _ htaken _ _ ih =>
    have hpos := List.length_pos_of_ne_nil htaken
    rw [List.length_cons, List.length_append]
    omega
  | malformed hat hstart =>
    obtain ⟨tail, htail⟩ := hat
    have hle := hstart.length_le
    rw [htail, List.length_cons] at hle
    rw [List.length_singleton]
    omega

/-- There is no more than one malformed pattern. -/
theorem countP_error_le (h : Partitions s items) : items.countP (!·.1.isOk) ≤ 1 := by
  induction h with
  | done => exact Nat.zero_le 1
  | piece _ _ _ ih => rwa [List.countP_cons_of_neg (by simp [Except.isOk, Except.toBool])]
  | malformed => exact List.countP_le_length

/-- Where there is no malformed pattern, the stretches as which the pieces are written make up the
text. -/
theorem exists_flatten_eq (h : Partitions s items) (hok : ∀ item ∈ items, item.1.isOk) :
    ∃ stretches : List (List Char), stretches.flatten = s ∧
      List.Forall₂ (fun item taken ↦
        ∃ piece, item.1 = .ok piece ∧ piece.IsWrittenAs taken item.2) items stretches := by
  induction h with
  | done => exact ⟨[], rfl, .nil⟩
  | @piece piece taken rest items _ hwritten _ ih =>
    obtain ⟨stretches, hflatten, hforall⟩ :=
      ih fun item hitem ↦ hok item (List.mem_cons_of_mem _ hitem)
    refine ⟨taken :: stretches, ?_, .cons ⟨piece, rfl, hwritten⟩ hforall⟩
    rw [List.flatten_cons, hflatten]
  | malformed => cases hok _ List.mem_cons_self

end Partitions

/-- Take any text that is not empty: it has a first step. If the step gives a piece, it takes a
stretch of the text that is not empty, as which the piece is written, and leaves the rest. If it
fails, it quotes a part of the text from its start on, an `@`, and nothing follows. Hence a scan has
no more items than its text has characters, and no more than one of them is a malformed pattern. If
none is, the stretches make up the text. -/
theorem scan_takes_text_apart (text : String) :
    (∀ s : List Char, s ≠ [] →
        ∃ item rest, step? s = some (item, rest) ∧
          (∀ piece, item = .ok piece →
            ∃ taken, taken ≠ [] ∧ s = taken ++ rest ∧ piece.IsWrittenAs taken rest) ∧
          ∀ error, item = .error error →
            (∃ tail, error.pattern.toList = '@' :: tail) ∧ error.pattern.toList <+: s ∧
              rest = [] ∧ steps rest = []) ∧
      (scan text).length ≤ text.length ∧ (scan text).countP (!·.isOk) ≤ 1 ∧
      ((∀ item ∈ scan text, item.isOk) →
        ∃ stretches : List (List Char), stretches.flatten = text.toList ∧
          List.Forall₂ (fun item taken ↦
              ∃ piece, item.1 = .ok piece ∧ piece.IsWrittenAs taken item.2)
            (steps text.toList) stretches) := by
  have hpartitions := partitions_steps text.toList
  refine ⟨fun s hs ↦ ?_, ?_, ?_, fun hok ↦ ?_⟩
  · obtain ⟨c, tail, rfl⟩ := List.exists_cons_of_ne_nil hs
    obtain ⟨item, rest, hstep⟩ := exists_stepsTo c tail
    refine ⟨item, rest, hstep.step?_eq, ?_, ?_⟩
    · rintro piece rfl
      exact hstep.exists_taken
    · rintro error rfl
      obtain rfl := hstep.rest_of_error
      exact ⟨hstep.prefix_of_error.1, hstep.prefix_of_error.2, rfl, steps_nil⟩
  · rw [scan, List.length_map]
    exact hpartitions.length_le
  · rw [scan, List.countP_map]
    exact hpartitions.countP_error_le
  · exact hpartitions.exists_flatten_eq fun item hitem ↦ hok item.1 (List.mem_map_of_mem hitem)

/-- A text with a lone marker, a pattern, and an escape of either sort, the last before a header
that no body follows. -/
def signs : String := r"To a@b: @gender{f:her|m:his} \@{f:her} @@x+y{"

/-- A text that is a malformed pattern from its start on. -/
def nested : String := r"@gender{f:her|{ and more"

theorem scan_takes_text_apart_signs :
    ((∀ item ∈ scan signs, item.isOk) ∧ (scan signs).length ≤ signs.length ∧
        ∃ stretches : List (List Char), stretches.flatten = signs.toList ∧
          List.Forall₂ (fun item taken ↦
              ∃ piece, item.1 = .ok piece ∧ piece.IsWrittenAs taken item.2)
            (steps signs.toList) stretches) ∧
      nested.toList ≠ [] ∧
        ∃ item rest, step? nested.toList = some (item, rest) ∧ ¬ item.isOk ∧
          ∀ error, item = .error error →
            (∃ tail, error.pattern.toList = '@' :: tail) ∧
              error.pattern.toList <+: nested.toList ∧ rest = [] ∧ steps rest = [] := by
  have hok : ∀ item ∈ scan signs, item.isOk := by decide +kernel
  have hne : nested.toList ≠ [] := by decide
  have hfails : ((step? nested.toList).map (·.1.isOk)) = some false := by decide +kernel
  obtain ⟨-, hlength, -, hstretches⟩ := scan_takes_text_apart signs
  obtain ⟨item, rest, hstep, -, herror⟩ := (scan_takes_text_apart nested).1 nested.toList hne
  refine ⟨⟨hok, hlength, hstretches hok⟩, hne, item, rest, hstep, ?_, herror⟩
  rw [hstep] at hfails
  simpa using hfails

end Template

end Concord
