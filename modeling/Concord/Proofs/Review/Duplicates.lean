import Concord.Proofs.Resolution.Likeness
import Concord.Proofs.Review.Agreement
import Mathlib.Data.List.Count

/-!
# Entries in more than one segment

An entry that two plain segments have (`Pattern.Repeats`) can only match in the first of them, and a
review reports it. The report is exact: of the findings about entries there is one for each entry
that is repeated, and none for any other (`count_duplicateEntry_review`), although a review only
looks at how entries are written (`entryText_mem_duplicates_iff`). And it is right: deleting
the entry from all plain segments but the first that has it (`withoutRepeats`) changes nothing that
a resolution looks at, since whatever it would find in the later ones it has met before. Segments
that lose all their entries may stay or go. The main statement is `review_reports_repeats`.
-/

set_option autoImplicit false
set_option relaxedAutoImplicit false

namespace Concord

open Traversal

/-- The segment is plain and has the entry. -/
def Segment.offers (segment : Segment) (entry : List Matcher) : Bool :=
  !segment.negated && segment.group.contains entry

/-- At least two plain segments have the entry. -/
def Pattern.Repeats (pattern : Pattern) (entry : List Matcher) : Prop :=
  2 ≤ pattern.segments.countP (·.offers entry)

instance (pattern : Pattern) : DecidablePred pattern.Repeats := fun entry ↦
  inferInstanceAs (Decidable (2 ≤ pattern.segments.countP (·.offers entry)))

/-- The segment without the entry, or the segment itself if it is negated. -/
def Segment.without (segment : Segment) (entry : List Matcher) : Segment :=
  if segment.negated then segment
  else { segment with group := segment.group.filter (· ≠ entry) }

/-- A plain segment without entries is for nothing. -/
def Segment.isVacant (segment : Segment) : Bool :=
  !segment.negated && segment.group.isEmpty

/-- The segments without the entry in all plain ones but the first that has it. -/
def withoutRepeats (entry : List Matcher) : List Segment → List Segment
  | [] => []
  | segment :: rest =>
    if segment.offers entry then segment :: rest.map (·.without entry)
    else segment :: withoutRepeats entry rest

theorem Segment.offers_iff {segment : Segment} {entry : List Matcher} :
    segment.offers entry = true ↔ segment.negated = false ∧ entry ∈ segment.group := by
  rw [offers, Bool.and_eq_true, Bool.not_eq_true', List.contains_iff_mem]

/-! ### What is reported -/

section Reports

theorem nodup_eraseDups (source : List String) : source.eraseDups.Nodup := by
  induction hlength : source.length using Nat.strong_induction_on generalizing source with
  | _ length ih =>
    cases source with
    | nil => exact List.nodup_nil
    | cons first rest =>
      rw [List.eraseDups_cons, List.nodup_cons, List.mem_eraseDups]
      refine ⟨by simp, ih _ ?_ _ rfl⟩
      rw [← hlength, List.length_cons]
      exact Nat.lt_succ_of_le (List.length_filter_le _ _)

/-- A key counts as repeated if it was seen and one of the groups has it, or two of the groups. -/
theorem mem_repeatedKeys_iff {key : String} {seen : List String} {groups : List (List String)} :
    key ∈ Pattern.repeatedKeys seen groups ↔
      key ∈ seen ∧ 1 ≤ groups.countP (key ∈ ·) ∨ 2 ≤ groups.countP (key ∈ ·) := by
  induction groups generalizing seen with
  | nil => simp [Pattern.repeatedKeys]
  | cons group rest ih =>
    rw [Pattern.repeatedKeys, List.mem_append, ih, List.mem_filter, List.mem_append,
      List.countP_cons]
    generalize rest.countP (key ∈ ·) = count
    by_cases hgroup : key ∈ group
    · by_cases hseen : key ∈ seen
      · simp [hgroup, hseen]
      · simp [hgroup, hseen]
        omega
    · simp [hgroup]

/-- A key is found to be a duplicate if two plain segments have entries written so. -/
theorem Pattern.mem_duplicates_iff {pattern : Pattern} {key : String} :
    key ∈ pattern.duplicates ↔
      2 ≤ pattern.segments.countP fun segment ↦
        !segment.negated && decide (key ∈ segment.group.map entryText) := by
  have hcount : ((pattern.segments.filter (!·.negated)).map (·.group.map entryText)).countP
      (key ∈ ·) = pattern.segments.countP fun segment ↦
        !segment.negated && decide (key ∈ segment.group.map entryText) := by
    rw [List.countP_map, List.countP_filter]
    exact List.countP_congr fun segment _ ↦ by simp [and_comm]
  rw [duplicates, List.mem_eraseDups, mem_repeatedKeys_iff, hcount]
  simp

/-- What is reported as a duplicate is the text of an entry. -/
theorem Pattern.exists_entry_of_mem_duplicates {pattern : Pattern} {key : String}
    (h : key ∈ pattern.duplicates) : ∃ entry ∈ pattern.entries, key = entryText entry := by
  have hpos := Nat.lt_of_lt_of_le Nat.zero_lt_two (mem_duplicates_iff.mp h)
  obtain ⟨segment, hsegment, hkey⟩ := List.countP_pos_iff.mp hpos
  rw [Bool.and_eq_true, decide_eq_true_eq, List.mem_map] at hkey
  obtain ⟨-, entry, hentry, rfl⟩ := hkey
  exact ⟨entry, List.mem_flatMap.mpr ⟨segment, hsegment, hentry⟩, rfl⟩

/-- No two entries of a pattern are written alike, so a duplicate is a repeated entry. -/
theorem Pattern.WellFormed.entryText_mem_duplicates_iff {pattern : Pattern}
    (h : pattern.WellFormed) {entry : List Matcher}
    (hentry : EntryWellFormed pattern.header entry) :
    entryText entry ∈ pattern.duplicates ↔ pattern.Repeats entry := by
  have hgroup : ∀ segment ∈ pattern.segments,
      entryText entry ∈ segment.group.map entryText ↔ entry ∈ segment.group := by
    intro segment hsegment
    rw [List.mem_map]
    constructor
    · rintro ⟨other, hother, htext⟩
      have hotherEntry := (h.2.2 segment hsegment).2 other hother
      rw [hentry.eq_of_entryText_eq h.1 hotherEntry htext.symm]
      exact hother
    · exact fun hmem ↦ ⟨entry, hmem, rfl⟩
  rw [mem_duplicates_iff, Repeats]
  refine iff_of_eq (congrArg (2 ≤ ·) (List.countP_congr fun segment hsegment ↦ ?_))
  rw [Segment.offers_iff, Bool.and_eq_true, Bool.not_eq_true', decide_eq_true_eq,
    hgroup segment hsegment]

/-- With the kinds at hand, the findings about entries are those for the duplicates. -/
theorem Pattern.count_duplicateEntry_eq {pattern : Pattern} {lexicon : Lexicon}
    {aliasedPatterns : Bool} {kinds : List Kind}
    (hkinds : pattern.reviewKinds lexicon aliasedPatterns = .ok kinds) (written : String) :
    (pattern.review lexicon aliasedPatterns).count (.duplicateEntry written) =
      pattern.duplicates.count written := by
  have hnames : (pattern.reviewNames lexicon aliasedPatterns kinds).count
      (.duplicateEntry written) = 0 :=
    List.count_eq_zero.mpr fun h ↦ Bool.false_ne_true (isAboutNames_of_mem_reviewNames h)
  have hfallback : (pattern.reviewFallback lexicon kinds).count (.duplicateEntry written) = 0 := by
    rw [List.count_eq_zero]
    intro h
    obtain ⟨kind, hkind⟩ := exists_of_mem_reviewFallback h
    cases hkind
  have hinjective : Function.Injective Finding.duplicateEntry := fun _ _ ↦
    Finding.duplicateEntry.inj
  rw [← List.count_map_of_injective _ _ hinjective, review, hkinds]
  dsimp only
  rw [List.count_append, List.count_append, hnames, hfallback, Nat.zero_add, Nat.add_zero]

/-- A review reports an entry once if the pattern repeats it, and otherwise does not. -/
theorem Pattern.count_duplicateEntry_review {pattern : Pattern} {lexicon : Lexicon}
    {aliasedPatterns : Bool} {kinds : List Kind} {entry : List Matcher}
    (hpattern : pattern.WellFormed)
    (hkinds : pattern.reviewKinds lexicon aliasedPatterns = .ok kinds)
    (hentry : EntryWellFormed pattern.header entry) :
    (pattern.review lexicon aliasedPatterns).count (.duplicateEntry (entryText entry)) =
      if pattern.Repeats entry then 1 else 0 := by
  have hnodup : pattern.duplicates.Nodup := nodup_eraseDups _
  rw [count_duplicateEntry_eq hkinds, hnodup.count]
  simp only [hpattern.entryText_mem_duplicates_iff hentry]

end Reports

/-! ### What a report means -/

section Deletion

variable {entry : List Matcher}

/-- A search that does not stop at the entry does not miss it. -/
theorem findSome?_group_without {β : Type} {f : List Matcher → Option β} (hnone : f entry = none)
    (segment : Segment) :
    (segment.without entry).group.findSome? f = segment.group.findSome? f := by
  rw [Segment.without]
  split
  · rfl
  · show (segment.group.filter _).findSome? f = _
    induction segment.group with
    | nil => rfl
    | cons first rest ih =>
      by_cases hfirst : first = entry
      · rw [List.filter_cons_of_neg (by simp [hfirst]), ih, List.findSome?_cons, hfirst, hnone]
      · rw [List.filter_cons_of_pos (by simp [hfirst]), List.findSome?_cons, List.findSome?_cons,
          ih]

/-- Whatever a search would meet first in a deleted entry, it has met before. -/
theorem searchedAlike_withoutRepeats (entry : List Matcher) (segments : List Segment) :
    SearchedAlike (segments.flatMap (·.group))
      ((withoutRepeats entry segments).flatMap (·.group)) := by
  intro β f
  induction segments with
  | nil => rfl
  | cons segment rest ih =>
    rw [withoutRepeats]
    split
    · next hoffers =>
      have hfirst := Segment.offers_iff.mp hoffers
      rw [List.flatMap_cons, List.flatMap_cons, List.findSome?_append, List.findSome?_append]
      cases hfound : segment.group.findSome? f with
      | some value => rfl
      | none =>
        -- The search has passed over the entry here, so it would do so again.
        have hnone := List.findSome?_eq_none_iff.mp hfound entry hfirst.2
        rw [findSome?_flatMap, findSome?_flatMap, List.findSome?_map]
        simp only [Function.comp_def, findSome?_group_without hnone]
    · rw [List.flatMap_cons, List.flatMap_cons, List.findSome?_append, List.findSome?_append, ih]

/-- Segments without entries that are for nothing have the same entries. -/
theorem flatMap_group_filter_isVacant (segments : List Segment) :
    (segments.filter (!·.isVacant)).flatMap (·.group) = segments.flatMap (·.group) := by
  induction segments with
  | nil => rfl
  | cons segment rest ih =>
    by_cases hvacant : segment.isVacant = true
    · have hgroup : segment.group = [] := by
        rw [Segment.isVacant, Bool.and_eq_true, List.isEmpty_iff] at hvacant
        exact hvacant.2
      rw [List.filter_cons_of_neg (by simp [hvacant]), ih, List.flatMap_cons, hgroup,
        List.nil_append]
    · rw [List.filter_cons_of_pos (by simp [hvacant]), List.flatMap_cons, List.flatMap_cons, ih]

namespace Context

variable {context : Context} {kinds : List Kind} {tokens : List (Option TokenId)}

/-- An entry that does not match makes no difference to a segment. -/
theorem fits_without_iff (hunmatched : ¬context.Matches kinds tokens entry) (segment : Segment) :
    context.Fits kinds tokens (segment.without entry) ↔ context.Fits kinds tokens segment := by
  rw [Segment.without]
  split
  · rfl
  · refine iff_congr (exists_congr fun other ↦ ?_) Iff.rfl
    rw [List.mem_filter, and_assoc]
    refine and_congr_right fun _ ↦ ?_
    constructor
    · exact fun h ↦ h.2
    · refine fun hmatches ↦ ⟨decide_eq_true ?_, hmatches⟩
      rintro rfl
      exact hunmatched hmatches

/-- An entry that is deleted from later segments does not match where the first one does not fit. -/
theorem gives_withoutRepeats_iff {segments : List Segment} {wording : Wording} :
    context.Gives kinds tokens (withoutRepeats entry segments) wording ↔
      context.Gives kinds tokens segments wording := by
  induction segments with
  | nil => rfl
  | cons segment rest ih =>
    rw [withoutRepeats]
    split
    · next hoffers =>
      have hfirst := Segment.offers_iff.mp hoffers
      -- It comes to the later segments only if the first one that has the entry does not fit.
      rw [gives_cons_iff, gives_cons_iff]
      refine or_congr_right (and_congr_right fun hnot ↦ gives_of_forall₂ ?_)
      have hunmatched : ¬context.Matches kinds tokens entry := fun hmatches ↦
        hnot ((fits_plain_iff hfirst.1).mpr ⟨entry, hfirst.2, hmatches⟩)
      refine List.forall₂_map_right_iff.mpr (List.forall₂_same.mpr fun later _ ↦ ⟨?_, ?_⟩)
      · rw [Segment.without]
        split <;> rfl
      · exact fits_without_iff hunmatched later
    · rw [gives_cons_iff, gives_cons_iff, ih]

/-- Segments that are for nothing give nothing. -/
theorem gives_filter_isVacant_iff {segments : List Segment} {wording : Wording} :
    context.Gives kinds tokens (segments.filter (!·.isVacant)) wording ↔
      context.Gives kinds tokens segments wording := by
  induction segments with
  | nil => rfl
  | cons segment rest ih =>
    by_cases hvacant : segment.isVacant = true
    · have hnot : ¬context.Fits kinds tokens segment := by
        rw [Segment.isVacant, Bool.and_eq_true, Bool.not_eq_true', List.isEmpty_iff] at hvacant
        rw [fits_plain_iff hvacant.1, hvacant.2]
        simp
      rw [List.filter_cons_of_neg (by simp [hvacant]), ih, gives_cons_iff]
      simp [hnot]
    · rw [List.filter_cons_of_pos (by simp [hvacant]), gives_cons_iff, gives_cons_iff, ih]

end Context

end Deletion

namespace Pattern

/-- Assumes: a pattern from the scan of some text, and that a review finds its kinds. An entry is
reported just if at least two plain segments have it, and then once. Deleting it from all of these
but the first, together with segments that become empty or without, changes the result of no
resolution. -/
theorem review_reports_repeats {text : String} {pattern : Pattern}
    (hscan : .ok (.pattern pattern) ∈ Template.scan text) {lexicon : Lexicon}
    {aliasedPatterns : Bool} {kinds : List Kind}
    (hkinds : pattern.reviewKinds lexicon aliasedPatterns = .ok kinds) :
    (∀ entry, EntryWellFormed pattern.header entry →
        (pattern.review lexicon aliasedPatterns).count (.duplicateEntry (entryText entry)) =
          if pattern.Repeats entry then 1 else 0) ∧
      (∀ written, .duplicateEntry written ∈ pattern.review lexicon aliasedPatterns →
        ∃ entry ∈ pattern.entries, written = entryText entry) ∧
      ∀ entry options switches source,
        let context : Context := ⟨lexicon, options, switches⟩
        let kept := withoutRepeats entry pattern.segments
        context.ResolvesAlike pattern { pattern with segments := kept, source } ∧
          context.ResolvesAlike pattern
            { pattern with segments := kept.filter (!·.isVacant), source } := by
  have hpattern := Template.wellFormed_of_mem_scan hscan
  refine ⟨fun entry ↦ count_duplicateEntry_review hpattern hkinds, ?_, ?_⟩
  · intro written hwritten
    rw [← List.count_pos_iff, count_duplicateEntry_eq hkinds, List.count_pos_iff] at hwritten
    exact exists_entry_of_mem_duplicates hwritten
  · intro entry options switches source context kept
    have hsearched := searchedAlike_withoutRepeats entry pattern.segments
    constructor
    · exact Context.resolvesAlike_of_searchedAlike rfl hsearched
        (fun _ _ _ ↦ Context.gives_withoutRepeats_iff) rfl
    · rw [← flatMap_group_filter_isVacant (withoutRepeats entry pattern.segments)] at hsearched
      exact Context.resolvesAlike_of_searchedAlike rfl hsearched
        (fun _ _ _ ↦ Context.gives_filter_isVacant_iff.trans Context.gives_withoutRepeats_iff) rfl

/-- A pattern with an entry in two plain segments and a negated one, and an entry twice in one
segment. -/
def overlapping : Pattern where
  header := .named "gender"
  segments := [⟨[[.name "f"], [.name "f"]], false, .literal "her"⟩,
    ⟨[[.name "x"], [.name "f"]], true, .literal "his"⟩, ⟨[[.name "f"]], false, .literal "hers"⟩,
    ⟨[[.any], [.name "m"]], false, .loud⟩]
  freeText? := none
  source := "@gender{f,f:her|!x,!f:his|f:hers|*,m:~}"

theorem review_reports_repeats_persons :
    .ok (.pattern overlapping) ∈ Template.scan overlapping.source ∧
      ∃ lexicon kinds, Grammar.compile (· = "en") "en" Grammar.persons = .ok lexicon ∧
        overlapping.reviewKinds lexicon false = .ok kinds ∧
        (overlapping.review lexicon false).count (.duplicateEntry "f") = 1 ∧
        (overlapping.review lexicon false).count (.duplicateEntry "m") = 0 ∧
        ∀ options switches source, Context.ResolvesAlike ⟨lexicon, options, switches⟩ overlapping
          { overlapping with
            segments := [⟨[[.name "f"], [.name "f"]], false, .literal "her"⟩,
              ⟨[[.name "x"], [.name "f"]], true, .literal "his"⟩,
              ⟨[[.any], [.name "m"]], false, .loud⟩]
            source } := by
  have hscan : Template.scan overlapping.source = [.ok (.pattern overlapping)] := by
    decide +kernel
  have hmem : .ok (.pattern overlapping) ∈ Template.scan overlapping.source :=
    hscan ▸ List.mem_singleton.mpr rfl
  have hcheck : ((Grammar.compile (· = "en") "en" Grammar.persons).toOption.bind fun lexicon ↦
      (overlapping.reviewKinds lexicon false).toOption).isSome = true := by
    decide +kernel
  obtain ⟨kinds, hkinds⟩ := Option.isSome_iff_exists.mp hcheck
  obtain ⟨lexicon, hlexicon, hkinds⟩ := Option.bind_eq_some_iff.mp hkinds
  rw [toOption_eq_some_iff] at hlexicon hkinds
  obtain ⟨hcount, -, halike⟩ := review_reports_repeats hmem hkinds
  have hf : EntryWellFormed overlapping.header [.name "f"] := ⟨rfl, by decide⟩
  have hm : EntryWellFormed overlapping.header [.name "m"] := ⟨rfl, by decide⟩
  refine ⟨hmem, lexicon, kinds, hlexicon, hkinds, hcount _ hf, hcount _ hm, ?_⟩
  intro options switches source
  exact (halike [.name "f"] options switches source).2

end Pattern

end Concord
