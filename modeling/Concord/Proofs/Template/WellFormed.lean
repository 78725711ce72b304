import Concord.Proofs.Template.Scanning
import Concord.Proofs.Template.Specifiers

/-!
# What is read is well formed

Whatever a template is read from, its headers name kinds, its entries have a matcher for every
kind, its patterns have segments, and no two of its literals are neighbours. The conditions on a
single pattern come from the checks that reading makes (`Pattern.wellFormed_of_read`). The
conditions on neighbours come from the scan: joining leaves no two literals side by side, and a
literal that ends in a marker has text after it that opens no pattern
(`wellFormedPieces_of_readPieces`).
-/

set_option autoImplicit false
set_option relaxedAutoImplicit false

namespace Concord

/-! ### Headers -/

namespace Header

theorem isName_of_readKind? {s rest : List Char} {kind : String}
    (h : readKind? s = some (kind, rest)) : Text.isName kind = true := by
  have hne := (eq_append_of_readKind? h).1
  unfold readKind? at h
  split at h
  · cases h
  · obtain ⟨rfl, -⟩ := Prod.mk.inj (Option.some.inj h)
    rw [Text.isName_iff]
    refine ⟨hne, fun c hc ↦ ?_⟩
    rw [String.toList_ofList] at hc
    exact List.mem_takeWhile_imp hc

/-- Kinds that are read are names. -/
theorem isName_of_mem_readKinds (s : List Char) :
    ∀ kind ∈ (readKinds s).1, Text.isName kind = true := by
  fun_induction readKinds s with
  | case1 => simp
  | case2 _ _ _ hfirst => simpa using isName_of_readKind? hfirst
  | case3 _ _ _ hfirst _ _ _ ih => exact List.forall_mem_cons.mpr ⟨isName_of_readKind? hfirst, ih⟩
  | case4 _ _ _ _ hfirst => simpa using isName_of_readKind? hfirst

/-- Names make a well-formed header. -/
theorem wellFormed_ofKinds {names : List String} (h : ∀ kind ∈ names, Text.isName kind = true) :
    (ofKinds names).WellFormed := by
  match names, h with
  | [], _ => trivial
  | [kind], h => exact h kind List.mem_cons_self
  | first :: second :: rest, h => exact ⟨Nat.le_add_left 2 rest.length, h⟩

/-- A header that is read is well formed. -/
theorem wellFormed_of_read? {s body : List Char} {header : Header}
    (h : read? s = some (header, body)) : header.WellFormed := by
  unfold read? at h
  dsimp only at h
  split at h
  · obtain ⟨rfl, -⟩ := Prod.mk.inj (Option.some.inj h)
    exact wellFormed_ofKinds (isName_of_mem_readKinds s)
  · cases h

/-- A text has a header exactly when it begins with a printed one and a `{`. -/
theorem isSome_read?_iff {s : List Char} :
    (read? s).isSome ↔
      ∃ (header : Header) (body : List Char),
        header.WellFormed ∧ s = header.text.toList ++ '{' :: body := by
  constructor
  · intro h
    obtain ⟨⟨header, body⟩, hread⟩ := Option.isSome_iff_exists.mp h
    exact ⟨header, body, wellFormed_of_read? hread, eq_append_of_read? hread⟩
  · rintro ⟨header, body, hheader, rfl⟩
    rw [read?_text hheader]
    rfl

/-- A text with a header begins with no `@`. -/
theorem isSome_read?_at (s : List Char) : (read? ('@' :: s)).isSome = false := by
  rw [Bool.eq_false_iff]
  intro h
  obtain ⟨header, body, hheader, heq⟩ := isSome_read?_iff.mp h
  have hat : ∀ c ∈ (header.text.toList ++ '{' :: body).head?, c ≠ '@' := by
    intro c hc
    cases htext : header.text.toList with
    | nil =>
      rw [htext] at hc
      obtain rfl := Option.some.inj hc
      decide
    | cons d more =>
      rw [htext] at hc
      obtain rfl := Option.some.inj hc
      rintro rfl
      cases isHeaderChar_of_mem_text hheader (htext ▸ List.mem_cons_self)
  rw [← heq] at hat
  exact hat '@' rfl rfl

end Header

/-! ### Patterns -/

/-- What an entry writes is well formed. -/
theorem RawEntry.Writes.entryWellFormed {header : Header} {raw : RawEntry} {entry : List Matcher}
    (h : raw.Writes header entry) : EntryWellFormed header entry := by
  obtain ⟨parts, -, harity, hmatchers⟩ := h.exists_parts
  refine ⟨hmatchers.length_eq ▸ harity, fun matcher hmatcher ↦ ?_⟩
  obtain ⟨part, -, hwritten⟩ := Traversal.exists_of_mem_of_forall₂ hmatchers hmatcher
  exact hwritten.wellFormed

/-- A group that is read makes a well-formed segment, whatever its wording. -/
theorem Segment.wellFormed_of_readGroup {header : Header} {specifier : List Char}
    {group : List (List Matcher)} {negated : Bool}
    (h : readGroup header specifier = .ok (group, negated)) (wording : Wording) :
    Segment.WellFormed header ⟨group, negated, wording⟩ := by
  obtain ⟨-, hwrites⟩ := readGroup_eq_ok_iff.mp h
  refine ⟨?_, fun entry hentry ↦ ?_⟩
  · obtain ⟨first, rest, hraws⟩ := exists_rawEntries_eq_cons specifier
    rw [hraws] at hwrites
    obtain ⟨entry, entries, -, -, rfl⟩ := List.forall₂_cons_left_iff.mp hwrites
    exact List.cons_ne_nil entry entries
  · obtain ⟨raw, -, hraw⟩ := Traversal.exists_of_mem_of_forall₂ hwrites hentry
    exact hraw.entryWellFormed

/-- Segments that are gathered are well formed. -/
theorem wellFormed_of_gatherSegments {header : Header} {raws : List RawSegment}
    {segments : List Segment} {freeText? : Option Wording}
    (h : gatherSegments header raws = .ok (segments, freeText?)) :
    ∀ segment ∈ segments, segment.WellFormed header := by
  induction raws generalizing segments freeText? with
  | nil =>
    obtain ⟨rfl, -⟩ := Prod.mk.inj (Except.ok.inj h)
    exact fun segment hsegment ↦ absurd hsegment List.not_mem_nil
  | cons first rest ih =>
    rw [gatherSegments] at h
    split at h
    · split at h
      · obtain ⟨rfl, -⟩ := Prod.mk.inj (Except.ok.inj h)
        exact fun segment hsegment ↦ absurd hsegment List.not_mem_nil
      · cases h
    · split at h
      · cases h
      · next hgroup =>
        split at h
        · cases h
        · next hrest =>
          obtain ⟨rfl, -⟩ := Prod.mk.inj (Except.ok.inj h)
          intro segment hsegment
          rcases List.mem_cons.mp hsegment with rfl | hsegment
          · exact Segment.wellFormed_of_readGroup hgroup _
          · exact ih hrest segment hsegment

/-- A pattern that is read under a well-formed header is well formed. -/
theorem Pattern.wellFormed_of_read {header : Header} (hheader : header.WellFormed)
    {s : List Char} {pattern : Pattern} (h : (read header s).1 = .ok pattern) :
    pattern.WellFormed := by
  unfold read at h
  dsimp only at h
  split at h
  · cases h
  · cases h
  · split at h
    · cases h
    · next hmade =>
      obtain rfl := Except.ok.inj h
      unfold ofRawSegments at hmade
      split at hmade
      · cases hmade
      · next hsegments =>
        split at hmade
        · cases hmade
        · next hne =>
          obtain rfl := Except.ok.inj hmade
          exact ⟨hheader, hne, wellFormed_of_gatherSegments hsegments⟩

/-- A well-formed pattern that leaves its kind to its names has a name. -/
theorem Pattern.WellFormed.names_ne_nil {pattern : Pattern} (h : pattern.WellFormed)
    (hheader : pattern.header = .inferred) : pattern.names ≠ [] := by
  obtain ⟨-, hsegments, hwellFormed⟩ := h
  obtain ⟨segment, hsegment⟩ := List.exists_mem_of_ne_nil _ hsegments
  obtain ⟨hgroup, hentries⟩ := hwellFormed segment hsegment
  obtain ⟨entry, hentry⟩ := List.exists_mem_of_ne_nil _ hgroup
  obtain ⟨hlength, hmatchers⟩ := hentries entry hentry
  rw [hheader] at hlength hmatchers
  obtain ⟨matcher, rfl⟩ := List.length_eq_one_iff.mp hlength
  have hmatcher := hmatchers matcher List.mem_cons_self
  cases matcher with
  | any => exact absurd rfl hmatcher
  | name token =>
    have hmem : [.name token] ∈ pattern.entries := List.mem_flatMap.mpr ⟨segment, hsegment, hentry⟩
    exact List.ne_nil_of_mem (mem_names_of_entry hmem (List.getElem?_cons_zero))

/-! ### Neighbouring pieces -/

/-- A piece may stand in front of others if it is well formed and may precede the next. -/
theorem wellFormedPieces_cons {first : Piece} {rest : List Piece} :
    WellFormedPieces (first :: rest) ↔
      first.WellFormed ∧ (∀ second ∈ rest.head?, first.MayPrecede second) ∧
        WellFormedPieces rest := by
  cases rest with
  | nil => simp [WellFormedPieces]
  | cons second more => simp [WellFormedPieces]

namespace Template

/-- A literal may be pushed in front of a pattern if it does not end in a marker, and in front of
other pieces anyway. -/
theorem wellFormedPieces_pushPiece {text : String} {pieces : List Piece} (htext : text ≠ "")
    (hpieces : WellFormedPieces pieces)
    (hmarker : ∀ written, pieces.head? = some (.pattern written) →
      ¬ text.toList.getLast?.any isMarker) :
    WellFormedPieces (pushPiece (.literal text) pieces) := by
  cases pieces with
  | nil => exact htext
  | cons first rest =>
    cases first with
    | pattern written =>
      change WellFormedPieces (.literal text :: .pattern written :: rest)
      refine wellFormedPieces_cons.mpr ⟨htext, fun second hsecond ↦ ?_, hpieces⟩
      obtain rfl := Option.some.inj hsecond
      exact hmarker written rfl
    | literal next =>
      obtain ⟨hnext, hprecede, hrest⟩ := wellFormedPieces_cons.mp hpieces
      have hlast : (text ++ next).toList.getLast? = next.toList.getLast? := by
        have hne : next.toList ≠ [] := fun hnil ↦ hnext (String.toList_eq_nil_iff.mp hnil)
        rw [String.toList_append, List.getLast?_append, List.getLast?_eq_some_getLast hne]
        rfl
      refine wellFormedPieces_cons.mpr ⟨fun hempty ↦ htext ?_, fun second hsecond ↦ ?_, hrest⟩
      · exact (String.append_eq_empty_iff.mp hempty).1
      · have hmay := hprecede second hsecond
        cases second with
        | literal _ => exact hmay
        | pattern _ =>
          rw [Piece.MayPrecede, hlast]
          exact hmay

/-- A pattern that a step takes is well formed, and the text opens it. -/
theorem StepsTo.wellFormed_of_pattern {s rest : List Char} {written : Pattern}
    (h : StepsTo s (.ok (.pattern written)) rest) :
    written.WellFormed ∧ (opening? s).isSome := by
  generalize hitem : (Except.ok (.pattern written) : Except PatternError Piece) = item at h
  cases h with
  | escape => cases hitem
  | marker => cases hitem
  | run => cases hitem
  | pattern _ hopening =>
    obtain ⟨found, hread, hfound⟩ := Traversal.map_eq_ok_iff.mp hitem.symm
    obtain rfl := Piece.pattern.inj hfound
    obtain ⟨tail, -, hheader⟩ := opening?_eq_some_iff.mp hopening
    refine ⟨Pattern.wellFormed_of_read (Header.wellFormed_of_read? hheader) hread, ?_⟩
    rw [hopening]
    rfl

/-- A literal that a step takes is not empty, and where it ends in a marker no pattern follows. -/
theorem StepsTo.wellFormed_of_literal {s rest : List Char} {text : String}
    (h : StepsTo s (.ok (.literal text)) rest) :
    text ≠ "" ∧ ((opening? rest).isSome → ¬ text.toList.getLast?.any isMarker) := by
  generalize hitem : (Except.ok (.literal text) : Except PatternError Piece) = item at h
  cases h with
  | escape _ hheader =>
    obtain rfl := Piece.literal.inj (Except.ok.inj hitem)
    refine ⟨by decide, fun hopening ↦ ?_⟩
    obtain ⟨⟨header, body⟩, hopening⟩ := Option.isSome_iff_exists.mp hopening
    obtain ⟨tail, rfl, -⟩ := opening?_eq_some_iff.mp hopening
    rw [Header.isSome_read?_at] at hheader
    cases hheader
  | pattern =>
    obtain ⟨found, -, hfound⟩ := Traversal.map_eq_ok_iff.mp hitem.symm
    cases hfound
  | @marker c _ hmarker hescape =>
    obtain rfl := Piece.literal.inj (Except.ok.inj hitem)
    refine ⟨by simp, fun hopening ↦ ?_⟩
    obtain ⟨⟨header, body⟩, hopening⟩ := Option.isSome_iff_exists.mp hopening
    obtain ⟨tail, rfl, hheader⟩ := opening?_eq_some_iff.mp hopening
    have hsome : (Header.read? tail).isSome := by
      rw [hheader]
      rfl
    rw [afterEscape?_eq_some_iff.mpr ⟨c, hmarker, hsome, rfl⟩] at hescape
    cases hescape
  | @run c tail hmarker =>
    obtain rfl := Piece.literal.inj (Except.ok.inj hitem)
    refine ⟨by simp [← String.toList_eq_nil_iff], fun _ ↦ ?_⟩
    rw [String.toList_ofList, Option.any_eq_true]
    rintro ⟨last, hlast, hany⟩
    rcases List.mem_cons.mp (List.mem_of_getLast? hlast) with rfl | hmem
    · rw [hmarker] at hany
      cases hany
    · have hnot := List.mem_takeWhile_imp hmem
      rw [hany] at hnot
      cases hnot

/-- What a text reads as is well formed, and begins with a pattern only if the text opens one. The
induction is on the length of the text, step by step. -/
theorem wellFormedPieces_of_readPieces {s : List Char} {pieces : List Piece}
    (h : readPieces s = .ok pieces) :
    WellFormedPieces pieces ∧
      ∀ written, pieces.head? = some (.pattern written) → (opening? s).isSome := by
  induction hlength : s.length using Nat.strong_induction_on generalizing s pieces with
  | _ length ih =>
    cases s with
    | nil =>
      rw [readPieces_nil] at h
      obtain rfl := Except.ok.inj h
      exact ⟨trivial, fun written hhead ↦ by cases hhead⟩
    | cons c tail =>
      obtain ⟨item, rest, hstep⟩ := exists_stepsTo c tail
      cases item with
      | error error =>
        rw [readPieces_of_stepsTo_error hstep] at h
        cases h
      | ok piece =>
        rw [readPieces_of_stepsTo hstep] at h
        obtain ⟨more, hmore, rfl⟩ := Traversal.map_eq_ok_iff.mp h
        obtain ⟨hwellFormed, hopens⟩ := ih rest.length (hlength ▸ hstep.length_lt) hmore rfl
        cases piece with
        | pattern written =>
          obtain ⟨hwritten, hopening⟩ := hstep.wellFormed_of_pattern
          exact ⟨wellFormedPieces_cons.mpr ⟨hwritten, fun _ _ ↦ trivial, hwellFormed⟩,
            fun _ _ ↦ hopening⟩
        | literal text =>
          obtain ⟨htext, hmarker⟩ := hstep.wellFormed_of_literal
          refine ⟨wellFormedPieces_pushPiece htext hwellFormed fun written hhead ↦
            hmarker (hopens written hhead), fun written hhead ↦ ?_⟩
          cases more with
          | nil => cases hhead
          | cons next others => cases next <;> cases hhead

/-- A pattern that a scan takes is well formed. -/
theorem wellFormed_of_mem_scan {text : String} {written : Pattern}
    (h : .ok (.pattern written) ∈ scan text) : written.WellFormed := by
  obtain ⟨s, rest, hstep⟩ := exists_stepsTo_of_mem_scan h
  exact hstep.wellFormed_of_pattern.1

end Template

end Concord
