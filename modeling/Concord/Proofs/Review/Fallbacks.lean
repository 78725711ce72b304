import Concord.Proofs.Resolution.Leniency
import Concord.Proofs.Resolution.StandIns
import Concord.Proofs.Review.Clearance

/-!
# Patterns that come to nothing without findings

A review takes the default of a kind for a fallback if some entry covers it. It asks so for each
kind on its own, and takes the entries of negated segments as well as those of plain ones. Where
nothing is asked for and errors are not raised, a resolution takes the first segment that fits the
defaults of all kinds together. `Pattern.CatchesDefaults` says when there is one, in the terms of
the review. The main statement is `selects_iff_catchesDefaults`: a pattern without free text and
without findings comes to nothing just if defaults do not catch it.
-/

set_option autoImplicit false
set_option relaxedAutoImplicit false

namespace Concord

/-- The entry covers the defaults of all kinds, each at its position. -/
def Lexicon.CoversAll (lexicon : Lexicon) (kinds : List Kind) (entry : List Matcher) : Prop :=
  ∀ (position : Nat) (kind : Kind), kinds[position]? = some kind →
    ∃ matcher, entry[position]? = some matcher ∧ lexicon.Covers kind matcher

namespace Pattern

/-- A plain segment has an entry that covers the defaults of all kinds together, or a negated one
has none. -/
inductive CatchesDefaults (lexicon : Lexicon) (kinds : List Kind) (pattern : Pattern) : Prop
  | plain {segment : Segment} {entry : List Matcher} (hsegment : segment ∈ pattern.segments)
    (hplain : segment.negated = false) (hentry : entry ∈ segment.group)
    (hcovers : lexicon.CoversAll kinds entry) : CatchesDefaults lexicon kinds pattern
  | negated {segment : Segment} (hsegment : segment ∈ pattern.segments)
    (hnegated : segment.negated = true)
    (hnone : ∀ entry ∈ segment.group, ¬lexicon.CoversAll kinds entry) :
    CatchesDefaults lexicon kinds pattern

end Pattern

namespace Context

variable {context : Context} {pattern : Pattern} {kinds : List Kind}

/-! ### Segments for the defaults -/

namespace Cleared

variable {grammar : Grammar} {entry : List Matcher}

/-- In a pattern that is cleared an entry matches the defaults just if it covers all of them. -/
theorem matches_iff_coversAll (h : context.Cleared pattern kinds)
    (hflattens : context.lexicon.Flattens grammar) (hpattern : pattern.WellFormed)
    (hdefaults : ∀ kind, context.inEffect? kind = kind.default?)
    (hentry : entry ∈ pattern.entries) :
    context.Matches kinds (kinds.map context.inEffect?) entry ↔
      context.lexicon.CoversAll kinds entry := by
  rw [matches_inEffect_iff, Lexicon.CoversAll]
  constructor
  · intro haccepts position kind hkind
    obtain ⟨segment, hsegment, hmem⟩ := List.mem_flatMap.mp hentry
    have hlength := ((hpattern.2.2 segment hsegment).2 entry hmem).1
    rw [← h.govern.length_eq] at hlength
    have hlt : position < entry.length := hlength ▸ (List.getElem?_eq_some_iff.mp hkind).1
    have hmatcher := List.getElem?_eq_getElem hlt
    have haccept := haccepts position _ kind hmatcher hkind
    rw [hdefaults] at haccept
    exact ⟨_, hmatcher, (h.accepts_default_iff hflattens hentry hkind hmatcher).mp haccept⟩
  · intro hcovers position matcher kind hmatcher hkind
    obtain ⟨found, hfound, hcover⟩ := hcovers position kind hkind
    obtain rfl := Option.some.inj (hfound.symm.trans hmatcher)
    rw [hdefaults]
    exact (h.accepts_default_iff hflattens hentry hkind hmatcher).mpr hcover

/-- In a pattern that is cleared some segment fits the defaults just if defaults catch the
pattern. -/
theorem exists_fits_iff (h : context.Cleared pattern kinds)
    (hflattens : context.lexicon.Flattens grammar) (hpattern : pattern.WellFormed)
    (hdefaults : ∀ kind, context.inEffect? kind = kind.default?) :
    (∃ segment ∈ pattern.segments, context.Fits kinds (kinds.map context.inEffect?) segment) ↔
      pattern.CatchesDefaults context.lexicon kinds := by
  have hcovers {segment : Segment} (hsegment : segment ∈ pattern.segments) :
      (∃ entry ∈ segment.group, context.Matches kinds (kinds.map context.inEffect?) entry) ↔
        ∃ entry ∈ segment.group, context.lexicon.CoversAll kinds entry :=
    exists_congr fun entry ↦ and_congr_right fun hentry ↦
      h.matches_iff_coversAll hflattens hpattern hdefaults
        (List.mem_flatMap.mpr ⟨segment, hsegment, hentry⟩)
  constructor
  · rintro ⟨segment, hsegment, hfits⟩
    rw [Fits, hcovers hsegment] at hfits
    by_cases hnegated : segment.negated = false
    · obtain ⟨entry, hentry, hall⟩ := hfits.mpr hnegated
      exact .plain hsegment hnegated hentry hall
    · refine .negated hsegment ((Bool.not_eq_false _).mp hnegated) fun entry hentry hall ↦ ?_
      exact hnegated (hfits.mp ⟨entry, hentry, hall⟩)
  · intro hcatches
    cases hcatches with
    | @plain segment entry hsegment hplain hentry hall =>
      refine ⟨segment, hsegment, ?_⟩
      rw [Fits, hcovers hsegment]
      exact iff_of_true ⟨entry, hentry, hall⟩ hplain
    | @negated segment hsegment hnegated hnone =>
      refine ⟨segment, hsegment, ?_⟩
      rw [Fits, hcovers hsegment, hnegated]
      refine iff_of_false ?_ (by decide)
      rintro ⟨entry, hentry, hall⟩
      exact hnone entry hentry hall

/-- For a pattern of one kind and without negated segments, a default that is covered is caught. -/
theorem catchesDefaults_of_arity_eq_one (h : context.Cleared pattern kinds)
    (hfree : pattern.freeText? = none) (harity : pattern.header.arity = 1)
    (hplain : ∀ segment ∈ pattern.segments, segment.negated = false) :
    pattern.CatchesDefaults context.lexicon kinds := by
  obtain ⟨kind, rfl⟩ := List.length_eq_one_iff.mp (h.govern.length_eq.trans harity)
  obtain ⟨entry, hentry, matcher, hmatcher, hcovers⟩ := h.covered hfree 0 kind rfl
  obtain ⟨segment, hsegment, hmem⟩ := List.mem_flatMap.mp hentry
  refine .plain hsegment (hplain segment hsegment) hmem fun position other hother ↦ ?_
  cases position with
  | zero =>
    obtain rfl := Option.some.inj hother
    exact ⟨matcher, hmatcher, hcovers⟩
  | succ position => cases hother

end Cleared

/-! ### Errors not raised -/

/-- When errors are not raised and no token gives way to a default, a pattern resolves to the text
of the first segment that fits the tokens in effect, or else to the free text. -/
theorem resolve_of_not_raises (hraises : context.switches.raises = false)
    (hkinds : context.kindsOf pattern = .ok (some kinds))
    (hstay : ∀ position kind default, ¬context.GivesWay kinds pattern position kind default) :
    (∃ segment, context.Selects kinds (kinds.map context.inEffect?) pattern segment ∧
        pattern.resolve context =
          .ok (context.wordingText (kinds.map context.inEffect?) segment.wording)) ∨
      (∀ segment ∈ pattern.segments,
          ¬context.Fits kinds (kinds.map context.inEffect?) segment) ∧
        pattern.resolve context =
          .ok (context.freeText (kinds.map context.inEffect?) pattern) := by
  obtain ⟨text, htext⟩ := exists_resolve_of_not_raises hraises pattern
  obtain ⟨candidates, hcandidates, hchosen⟩ := exists_candidates_of_resolve hkinds htext
  rw [choose_of_not_givesWay hcandidates hstay] at hchosen
  rw [htext, ← hchosen]
  cases hfound : candidates.find? (·.fits (kinds.map context.inEffect?)) with
  | some chosen =>
    obtain ⟨segment, hselects, hwording⟩ := selects_of_find? hcandidates hfound
    exact .inl ⟨segment, hselects, by rw [← hwording]⟩
  | none => exact .inr ⟨(find?_eq_none_iff hcandidates).mp hfound, rfl⟩

/-- Without options nothing is asked for. -/
theorem request_of_options_eq_empty (hoptions : context.options = {}) (kind : Kind) :
    context.request kind = .absent := by
  rw [request, hoptions, Options.get?_empty]

end Context

namespace Pattern

open Context

/-- Assumes: the lexicon of a grammar, a pattern without free text from the scan of some text, no
findings about it, no options, that errors are not raised and that defaults stand in for missing
options. Then a segment of the pattern is selected just if defaults catch the pattern; otherwise it
resolves to nothing. A pattern of one kind and without negated segments is always caught. -/
theorem selects_iff_catchesDefaults {isLocale : String → Bool} {grammar : Grammar} {locale : String}
    {lexicon : Lexicon} (hcompile : Grammar.compile isLocale locale grammar = .ok lexicon)
    {text : String} {pattern : Pattern}
    (hscan : .ok (.pattern pattern) ∈ Template.scan text) (hfree : pattern.freeText? = none)
    (switches : Switches) (hraises : switches.raises = false)
    (hdefaults : switches.unknownDefaults = true)
    (hreview : pattern.review lexicon switches.aliasedPatterns = []) :
    let context : Context := ⟨lexicon, {}, switches⟩
    ∃ kinds, context.Govern pattern kinds ∧
      ((∃ segment, context.Selects kinds (kinds.map context.inEffect?) pattern segment ∧
          pattern.resolve context =
            .ok (context.wordingText (kinds.map context.inEffect?) segment.wording)) ↔
        pattern.CatchesDefaults lexicon kinds) ∧
      (¬pattern.CatchesDefaults lexicon kinds → pattern.resolve context = .ok "") ∧
      (pattern.header.arity = 1 → (∀ segment ∈ pattern.segments, segment.negated = false) →
        pattern.CatchesDefaults lexicon kinds) := by
  intro context
  have hflattens := (Grammar.flattens_of_compile hcompile).2
  have hpattern := Template.wellFormed_of_mem_scan hscan
  obtain ⟨kinds, hcleared⟩ : ∃ kinds, context.Cleared pattern kinds :=
    exists_cleared_of_review_eq_nil hpattern hreview
  have hrequest (kind : Kind) : context.request kind = .absent :=
    request_of_options_eq_empty rfl kind
  have heffect (kind : Kind) : context.inEffect? kind = kind.default? := by
    rw [inEffect?, hrequest]
    exact if_pos hdefaults
  have hstay (position : Nat) (kind : Kind) (default : TokenId) :
      ¬context.GivesWay kinds pattern position kind default := by
    rintro ⟨-, -, id, hknown, -⟩
    rw [hrequest] at hknown
    cases hknown
  have hresolve := resolve_of_not_raises hraises (kindsOf_eq_ok_iff.mpr hcleared.govern) hstay
  refine ⟨kinds, hcleared.govern, ?_, ?_, hcleared.catchesDefaults_of_arity_eq_one hfree⟩
  · rw [← hcleared.exists_fits_iff hflattens hpattern heffect]
    constructor
    · rintro ⟨segment, hselects, -⟩
      exact ⟨segment, hselects.mem_and_fits⟩
    · rintro ⟨segment, hsegment, hfits⟩
      rcases hresolve with hselects | ⟨hnone, -⟩
      · exact hselects
      · exact absurd hfits (hnone segment hsegment)
  · rw [← hcleared.exists_fits_iff hflattens hpattern heffect]
    intro hnot
    rcases hresolve with ⟨segment, hselects, -⟩ | ⟨-, htext⟩
    · exact absurd ⟨segment, hselects.mem_and_fits⟩ hnot
    · rw [htext, freeText, hfree]
      rfl

/-- A pattern of one kind with a plain segment for the default. -/
def address : Pattern where
  header := .inferred
  segments := [⟨[[.name "m"]], false, .literal "Sir"⟩, ⟨[[.name "f"]], false, .literal "Madam"⟩]
  freeText? := none
  source := "@{m:Sir|f:Madam}"

theorem selects_iff_catchesDefaults_persons :
    .ok (.pattern address) ∈ Template.scan address.source ∧
      ∃ lexicon kinds segment, Grammar.compile (· = "en") "en" Grammar.persons = .ok lexicon ∧
        address.review lexicon false = [] ∧
        let context : Context := ⟨lexicon, {}, {}⟩
        context.Selects kinds (kinds.map context.inEffect?) address segment ∧
          address.resolve context =
            .ok (context.wordingText (kinds.map context.inEffect?) segment.wording) ∧
          address.resolve context = .ok "Madam" := by
  have hscan : Template.scan address.source = [.ok (.pattern address)] := by decide +kernel
  have hmem : .ok (.pattern address) ∈ Template.scan address.source :=
    hscan ▸ List.mem_singleton.mpr rfl
  have hcheck : (Grammar.compile (· = "en") "en" Grammar.persons).toOption.map (fun lexicon ↦
      decide (address.review lexicon false = [] ∧
        address.resolve ⟨lexicon, {}, {}⟩ = .ok "Madam")) = some true := by
    decide +kernel
  obtain ⟨lexicon, hlexicon, hfacts⟩ := Option.map_eq_some_iff.mp hcheck
  have hcompile := Traversal.toOption_eq_some_iff.mp hlexicon
  obtain ⟨hreview, hmadam⟩ := of_decide_eq_true hfacts
  obtain ⟨kinds, -, hiff, -, hsingle⟩ :=
    selects_iff_catchesDefaults hcompile hmem rfl {} rfl rfl hreview
  have hplain : ∀ segment ∈ address.segments, segment.negated = false := by decide
  obtain ⟨segment, hselects, htext⟩ := hiff.mpr (hsingle rfl hplain)
  exact ⟨hmem, lexicon, kinds, segment, hcompile, hreview, hselects, htext, hmadam⟩

/-- A pattern whose only segment is there for all but the default. -/
def exception : Pattern where
  header := .named "gender"
  segments := [⟨[[.name "f"]], true, .literal "his"⟩]
  freeText? := none
  source := "@gender{!f:his}"

/-- The default of `gender` is covered in the pattern, but by a negated segment. So there is no
finding, and yet the pattern resolves to nothing. -/
theorem not_selects_of_review_eq_nil_persons :
    .ok (.pattern exception) ∈ Template.scan exception.source ∧ exception.freeText? = none ∧
      ∃ lexicon, Grammar.compile (· = "en") "en" Grammar.persons = .ok lexicon ∧
        exception.review lexicon false = [] ∧
        let context : Context := ⟨lexicon, {}, {}⟩
        ∃ kinds, context.kindsOf exception = .ok (some kinds) ∧
          (∀ segment,
            ¬context.Selects kinds (kinds.map context.inEffect?) exception segment) ∧
          exception.resolve context = .ok "" := by
  have hscan : Template.scan exception.source = [.ok (.pattern exception)] := by decide +kernel
  refine ⟨hscan ▸ List.mem_singleton.mpr rfl, rfl, ?_⟩
  have hcheck : ((Grammar.compile (· = "en") "en" Grammar.persons).toOption.bind fun lexicon ↦
      let context : Context := ⟨lexicon, {}, {}⟩
      (context.kindsOf exception).toOption.join.bind fun kinds ↦
        (exception.segments.mapM (context.candidate kinds)).toOption.map fun candidates ↦
          decide (exception.review lexicon false = [] ∧
            candidates.find? (·.fits (kinds.map context.inEffect?)) = none ∧
            exception.resolve context = .ok "")) = some true := by
    decide +kernel
  obtain ⟨lexicon, hlexicon, hkindsOf⟩ := Option.bind_eq_some_iff.mp hcheck
  obtain ⟨kinds, hkinds, hlookup⟩ := Option.bind_eq_some_iff.mp hkindsOf
  obtain ⟨candidates, hcandidates, hfacts⟩ := Option.map_eq_some_iff.mp hlookup
  obtain ⟨hreview, hnone, htext⟩ := of_decide_eq_true hfacts
  rw [Traversal.toOption_eq_some_iff] at hlexicon hcandidates
  rw [Option.join_eq_some_iff, Traversal.toOption_eq_some_iff] at hkinds
  refine ⟨lexicon, hlexicon, hreview, kinds, hkinds, fun segment hselects ↦ ?_, htext⟩
  obtain ⟨hsegment, hfits⟩ := hselects.mem_and_fits
  exact (find?_eq_none_iff hcandidates).mp hnone segment hsegment hfits

end Pattern

end Concord
