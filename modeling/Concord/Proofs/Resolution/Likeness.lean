import Concord.Proofs.Resolution.Leniency
import Concord.Proofs.Resolution.Matching

/-!
# Patterns that resolve alike

Patterns that are written differently may come to the same, whatever the options and switches
(`ResolvesAlike`). A resolution takes little from the segments of a pattern: what a search through
their entries meets first, which tokens they name, and the wording of the first segment that fits
given tokens (`Gives`). Two patterns that agree in these, in their headers and in their free texts
resolve alike (`resolvesAlike_of_searchedAlike`). The order of the entries matters only where the
kind is left to their names or errors are raised; otherwise it is enough that the entries are the
same (`resolvesAlike_of_gives`).
-/

set_option autoImplicit false
set_option relaxedAutoImplicit false

namespace Concord

open Traversal

/-- The wording of the first candidate that fits the tokens. -/
def wordingFor? (candidates : List Candidate) (tokens : List (Option TokenId)) : Option Wording :=
  (candidates.find? (·.fits tokens)).map (·.wording)

namespace Context

/-- Both patterns resolve to one text, or both fail with one problem and each quotes itself. -/
inductive ResolvesAlike (context : Context) (first second : Pattern) : Prop
  | text {text : String} (hfirst : first.resolve context = .ok text)
    (hsecond : second.resolve context = .ok text) : ResolvesAlike context first second
  | problem {problem : Problem} (hfirst : first.resolve context = .error ⟨first.source, problem⟩)
    (hsecond : second.resolve context = .error ⟨second.source, problem⟩) :
    ResolvesAlike context first second

namespace ResolvesAlike

variable {context : Context} {first second : Pattern}

theorem resolve_eq_ok (h : context.ResolvesAlike first second) {text : String}
    (hfirst : first.resolve context = .ok text) : second.resolve context = .ok text := by
  cases h with
  | text hother hsecond => rw [hsecond, ← hother, hfirst]
  | problem hother _ =>
    rw [hother] at hfirst
    cases hfirst

theorem resolve_eq_error (h : context.ResolvesAlike first second) {problem : Problem}
    (hfirst : first.resolve context = .error ⟨first.source, problem⟩) :
    second.resolve context = .error ⟨second.source, problem⟩ := by
  cases h with
  | text hother _ =>
    rw [hother] at hfirst
    cases hfirst
  | problem hother hsecond =>
    rw [hother] at hfirst
    cases hfirst
    exact hsecond

end ResolvesAlike

/-- The wording is that of the first of the segments that fits the tokens. -/
inductive Gives (context : Context) (kinds : List Kind) (tokens : List (Option TokenId)) :
    List Segment → Wording → Prop
  | here {segment : Segment} {rest : List Segment} (hfits : context.Fits kinds tokens segment) :
    Gives context kinds tokens (segment :: rest) segment.wording
  | later {segment : Segment} {rest : List Segment} {wording : Wording}
    (hnot : ¬context.Fits kinds tokens segment) (hrest : Gives context kinds tokens rest wording) :
    Gives context kinds tokens (segment :: rest) wording

variable {context : Context} {kinds : List Kind} {tokens : List (Option TokenId)}

/-! ### The wording that segments give -/

/-- A plain segment fits what one of its entries matches. -/
theorem fits_plain_iff {segment : Segment} (hplain : segment.negated = false) :
    context.Fits kinds tokens segment ↔
      ∃ entry ∈ segment.group, context.Matches kinds tokens entry := by
  rw [Fits, hplain]
  exact iff_true_right rfl

theorem gives_cons_iff {segment : Segment} {rest : List Segment} {wording : Wording} :
    context.Gives kinds tokens (segment :: rest) wording ↔
      context.Fits kinds tokens segment ∧ segment.wording = wording ∨
        ¬context.Fits kinds tokens segment ∧ context.Gives kinds tokens rest wording := by
  constructor
  · intro h
    cases h with
    | here hfits => exact .inl ⟨hfits, rfl⟩
    | later hnot hrest => exact .inr ⟨hnot, hrest⟩
  · rintro (⟨hfits, rfl⟩ | ⟨hnot, hrest⟩)
    · exact .here hfits
    · exact .later hnot hrest

/-- Segments leave it to those after them if none of them fits. -/
theorem gives_append_iff {before after : List Segment} {wording : Wording} :
    context.Gives kinds tokens (before ++ after) wording ↔
      context.Gives kinds tokens before wording ∨
        (∀ segment ∈ before, ¬context.Fits kinds tokens segment) ∧
          context.Gives kinds tokens after wording := by
  induction before with
  | nil =>
    rw [List.nil_append]
    constructor
    · exact fun h ↦ .inr ⟨fun segment hsegment ↦ (nomatch hsegment), h⟩
    · rintro (h | ⟨-, h⟩)
      · cases h
      · exact h
  | cons segment rest ih =>
    rw [List.cons_append, gives_cons_iff, gives_cons_iff, ih, List.forall_mem_cons]
    tauto

/-- Segments give a wording just if one of them fits. -/
theorem exists_gives_iff {segments : List Segment} :
    (∃ wording, context.Gives kinds tokens segments wording) ↔
      ∃ segment ∈ segments, context.Fits kinds tokens segment := by
  induction segments with
  | nil =>
    refine iff_of_false ?_ (by simp)
    rintro ⟨wording, h⟩
    cases h
  | cons segment rest ih =>
    simp only [gives_cons_iff, List.exists_mem_cons_iff, ← ih]
    by_cases hfits : context.Fits kinds tokens segment <;> simp [hfits]

/-- Segments that have the same wordings and fit the same tokens one by one give the same. -/
theorem gives_of_forall₂ {firsts seconds : List Segment}
    (h : List.Forall₂ (fun first second ↦ second.wording = first.wording ∧
      (context.Fits kinds tokens second ↔ context.Fits kinds tokens first)) firsts seconds)
    {wording : Wording} :
    context.Gives kinds tokens seconds wording ↔ context.Gives kinds tokens firsts wording := by
  induction h with
  | nil => rfl
  | cons hsegment _ ih => rw [gives_cons_iff, gives_cons_iff, hsegment.1, hsegment.2, ih]

/-- Once the segments are looked up, the candidates have the wording that the segments give. -/
theorem wordingFor?_eq_some_iff {segments : List Segment} {candidates : List Candidate}
    (h : segments.mapM (context.candidate kinds) = .ok candidates) {wording : Wording} :
    wordingFor? candidates tokens = some wording ↔
      context.Gives kinds tokens segments wording := by
  have hforall := mapM_eq_ok_iff.mp h
  clear h
  induction hforall with
  | nil => exact iff_of_false nofun nofun
  | @cons segment candidate segments candidates hlookup _ ih =>
    have hwording := (candidate_eq_ok_iff.mp hlookup).2.2
    have hrest : wordingFor? candidates tokens = some wording ↔ _ := ih
    rw [gives_cons_iff, ← hrest, ← fits_candidate_iff hlookup, ← hwording, wordingFor?,
      List.find?_cons]
    cases candidate.fits tokens with
    | true => simp
    | false => simp [wordingFor?]

/-- Candidates have no wording for the tokens just if none of the segments fits. -/
theorem wordingFor?_eq_none_iff {segments : List Segment} {candidates : List Candidate}
    (h : segments.mapM (context.candidate kinds) = .ok candidates) :
    wordingFor? candidates tokens = none ↔
      ∀ segment ∈ segments, ¬context.Fits kinds tokens segment := by
  have hfits : (∃ wording, context.Gives kinds tokens segments wording) ↔
      ∃ segment ∈ segments, context.Fits kinds tokens segment := exists_gives_iff
  simp only [← wordingFor?_eq_some_iff h, ← Option.isSome_iff_exists] at hfits
  rw [← Option.not_isSome_iff_eq_none, hfits]
  push Not
  rfl

/-! ### The stages of a resolution -/

/-- The text comes from the first candidate that fits the tokens in effect, or else, if defaults may
stand in, from the first that fits then, or else it is the free text. -/
theorem choose_eq (context : Context) (kinds : List Kind) (candidates : List Candidate)
    (pattern : Pattern) :
    context.choose kinds candidates pattern =
      let tokens := kinds.map context.inEffect?
      let standIns := kinds.zipIdx.map fun kind ↦ context.standIn? candidates kind.2 kind.1
      let second? := if context.switches.excludedDefaults then wordingFor? candidates standIns
        else none
      ((wordingFor? candidates tokens).map (context.wordingText tokens)).getD <|
        (second?.map (context.wordingText standIns)).getD <| context.freeText tokens pattern := by
  rw [choose]
  simp only [wordingFor?]
  cases candidates.find? (·.fits (kinds.map context.inEffect?)) with
  | some chosen => rfl
  | none =>
    cases context.switches.excludedDefaults with
    | false =>
      have hnone : (candidates.find? fun _ ↦ false) = none := by simp [List.find?_eq_none]
      simp [hnone]
    | true =>
      simp only [Bool.true_and]
      cases candidates.find? (·.fits
        (kinds.zipIdx.map fun kind ↦ context.standIn? candidates kind.2 kind.1)) <;> rfl

section Stages

variable {first second : Pattern}

/-- The kinds of a pattern depend on its header and on what searches through its names meet. -/
theorem kindsOf_of_searchedAlike (hheader : second.header = first.header)
    (hnames : SearchedAlike first.names second.names) :
    context.kindsOf second = context.kindsOf first := by
  have hinferred : second.inferredKind? context.lexicon context.switches.aliasedPatterns =
      first.inferredKind? context.lexicon context.switches.aliasedPatterns := hnames Kind _
  have hhead := hnames.head?_eq
  rw [kindsOf, kindsOf, hheader, hinferred]
  cases hfirst : first.names <;> cases hsecond : second.names <;> simp_all

/-- The problem that the lookup of segments ends in depends on what searches through the names of
the pattern meet. -/
theorem fault?_candidates_of_searchedAlike (hnames : SearchedAlike first.names second.names)
    (kinds : List Kind) :
    fault? (second.segments.mapM (context.candidate kinds)) =
      fault? (first.segments.mapM (context.candidate kinds)) := by
  cases hraises : context.switches.raises with
  | true =>
    rw [fault?_candidates hraises, fault?_candidates hraises]
    exact hnames Problem _
  | false => rw [fault?_candidates_of_not_raises hraises, fault?_candidates_of_not_raises hraises]

/-- Segments with the same entries, once they are looked up, ask for the same tokens by name. -/
theorem isNamedAt_congr (hentries : ∀ entry, entry ∈ second.entries ↔ entry ∈ first.entries)
    {candidates others : List Candidate}
    (hfirst : first.segments.mapM (context.candidate kinds) = .ok candidates)
    (hsecond : second.segments.mapM (context.candidate kinds) = .ok others) :
    isNamedAt others = isNamedAt candidates := by
  funext position id
  rw [Bool.eq_iff_iff, isNamedAt_iff hsecond, isNamedAt_iff hfirst, NamedAt, NamedAt]
  simp only [hentries]

/-- Under given kinds, two patterns have one outcome if their segments fail alike, have the same
entries and lead to the same choice. -/
theorem resolveUnder_congr
    (hfault : fault? (second.segments.mapM (context.candidate kinds)) =
      fault? (first.segments.mapM (context.candidate kinds)))
    (hentries : ∀ entry, entry ∈ second.entries ↔ entry ∈ first.entries)
    (hchoose : ∀ candidates others, first.segments.mapM (context.candidate kinds) = .ok candidates →
      second.segments.mapM (context.candidate kinds) = .ok others →
        context.choose kinds others second = context.choose kinds candidates first) :
    context.resolveUnder kinds second = context.resolveUnder kinds first := by
  rw [resolveUnder, resolveUnder]
  cases hfirst : first.segments.mapM (context.candidate kinds) with
  | error problem =>
    rw [hfirst, fault?_error, fault?_eq_some_iff] at hfault
    rw [hfault]
    rfl
  | ok candidates =>
    rw [hfirst, fault?_ok, fault?_eq_none_iff] at hfault
    obtain ⟨others, hsecond⟩ := hfault
    have hunmet : context.firstUnmet? kinds others = context.firstUnmet? kinds candidates := by
      simp only [firstUnmet?, unmet?, isNamedAt_congr hentries hfirst hsecond]
    rw [hsecond]
    simp only [bind, Except.bind, hunmet, hchoose candidates others hfirst hsecond]

/-- Segments with the same entries that give the same wordings lead to the same choice, if the free
texts are the same. -/
theorem choose_congr (hentries : ∀ entry, entry ∈ second.entries ↔ entry ∈ first.entries)
    (hgives : ∀ tokens wording, context.Gives kinds tokens second.segments wording ↔
      context.Gives kinds tokens first.segments wording)
    (hfree : second.freeText? = first.freeText?) {candidates others : List Candidate}
    (hfirst : first.segments.mapM (context.candidate kinds) = .ok candidates)
    (hsecond : second.segments.mapM (context.candidate kinds) = .ok others) :
    context.choose kinds others second = context.choose kinds candidates first := by
  have hwording : wordingFor? others = wordingFor? candidates := by
    funext tokens
    refine Option.ext fun wording ↦ ?_
    rw [wordingFor?_eq_some_iff hsecond, wordingFor?_eq_some_iff hfirst, hgives]
  simp only [choose_eq, hwording, standIn?, isNamedAt_congr hentries hfirst hsecond, freeText,
    hfree]

/-- Two patterns that come to the same outcome resolve alike. -/
theorem resolvesAlike_of_eq (h : context.resolveBody second = context.resolveBody first) :
    context.ResolvesAlike first second := by
  cases hbody : context.resolveBody first with
  | ok text =>
    have hfirst : first.resolve context = .ok text := by
      rw [Pattern.resolve, hbody]
      rfl
    have hsecond : second.resolve context = .ok text := by
      rw [Pattern.resolve, h, hbody]
      rfl
    exact .text hfirst hsecond
  | error problem =>
    have hfirst : first.resolve context = .error ⟨first.source, problem⟩ := by
      rw [Pattern.resolve, hbody]
      rfl
    have hsecond : second.resolve context = .error ⟨second.source, problem⟩ := by
      rw [Pattern.resolve, h, hbody]
      rfl
    exact .problem hfirst hsecond

/-- Two patterns with one free text resolve alike if they are governed by the same kinds, if their
segments fail alike, have the same entries and give the same wordings. -/
theorem resolvesAlike_of_gives (hkinds : context.kindsOf second = context.kindsOf first)
    (hfault : ∀ kinds, fault? (second.segments.mapM (context.candidate kinds)) =
      fault? (first.segments.mapM (context.candidate kinds)))
    (hentries : ∀ entry, entry ∈ second.entries ↔ entry ∈ first.entries)
    (hgives : ∀ kinds tokens wording, context.Gives kinds tokens second.segments wording ↔
      context.Gives kinds tokens first.segments wording)
    (hfree : second.freeText? = first.freeText?) : context.ResolvesAlike first second := by
  refine resolvesAlike_of_eq ?_
  rw [resolveBody, resolveBody, hkinds]
  refine bind_congr fun kinds? _ ↦ ?_
  cases kinds? with
  | none => rw [freeText, freeText, hfree]
  | some kinds =>
    exact resolveUnder_congr (hfault kinds) hentries fun _ _ hfirst hsecond ↦
      choose_congr hentries (hgives kinds) hfree hfirst hsecond

/-- Two patterns with one header and one free text resolve alike if their entries are searched alike
and their segments give the same wordings. -/
theorem resolvesAlike_of_searchedAlike (hheader : second.header = first.header)
    (hentries : SearchedAlike first.entries second.entries)
    (hgives : ∀ kinds tokens wording, context.Gives kinds tokens second.segments wording ↔
      context.Gives kinds tokens first.segments wording)
    (hfree : second.freeText? = first.freeText?) : context.ResolvesAlike first second := by
  have hnames : SearchedAlike first.names second.names := hentries.flatMap namesOfEntry
  exact resolvesAlike_of_gives (kindsOf_of_searchedAlike hheader hnames)
    (fault?_candidates_of_searchedAlike hnames) hentries.mem_iff hgives hfree

end Stages

end Context

end Concord
