import Concord.Proofs.Review.Clearance
import Concord.Proofs.Suggestion
import Concord.Proofs.Template.Respelling

/-!
# Suggestions help

A resolution and a review that come upon an unknown name suggest others for it. What they suggest
are names of real tokens, either of the kind that is expected there, or if no kind could be inferred
for the pattern, of any kind. With a suggestion in the place of the name, the pattern is governed by
the same kinds, in the second case by the kind of the suggestion, and the name there stands for a
token (`Context.Helps`). The kind is inferred anew from the names as they are then: the suggestion
counts where the unknown name did not, but it is of the same kind as the first name that counted
(`inferredKind?_respell`).

Which kinds govern a pattern depends on the lexicon, and where they are left to the names, on
whether patterns may name aliases, but on nothing else (`govern_iff`). The main statement is
`suggestions_help`.
-/

set_option autoImplicit false
set_option relaxedAutoImplicit false

namespace Concord

namespace Context

/-- The other context has the same lexicon, and if the kind of the pattern is left to its names, it
lets patterns name aliases just if the context does. -/
structure AgreesOn (context : Context) (pattern : Pattern) (other : Context) : Prop where
  lexicon_eq : other.lexicon = context.lexicon
  aliasedPatterns_eq (hheader : pattern.header = .inferred) :
    other.switches.aliasedPatterns = context.switches.aliasedPatterns

/-- A resolution and a review find the kinds for the pattern, and the name, the one at the index, is
looked up without a problem and reviewed without a finding. -/
structure Passes (context : Context) (pattern : Pattern) (kinds : List Kind) (index : Nat)
    (name : String) : Prop where
  kindsOf_eq : context.kindsOf pattern = .ok (some kinds)
  reviewKinds_eq :
    pattern.reviewKinds context.lexicon context.switches.aliasedPatterns = .ok kinds
  name_passes : ∃ position kind id, pattern.names[index]? = some (position, name) ∧
    kinds[position]? = some kind ∧ context.criterion kind (.name name) = .ok (.only id) ∧
      context.lexicon.reviewName? context.switches.aliasedPatterns kind name = none

/-- With the suggestion in the place of the name at the index and all other names as they are, the
pattern is written by a template, and the suggestion passes. -/
structure Mends (context : Context) (pattern : Pattern) (kinds : List Kind) (index : Nat)
    (suggestion : String) : Prop where
  header_eq : (pattern.respell index suggestion).header = pattern.header
  names_eq : (pattern.respell index suggestion).names =
    pattern.names.modify index fun name ↦ (name.1, suggestion)
  parse_eq : Template.parse (pattern.respell index suggestion).source =
    .ok ⟨[.pattern (pattern.respell index suggestion)]⟩
  passes (other : Context) (hother : context.AgreesOn pattern other) :
    other.Passes (pattern.respell index suggestion) kinds index suggestion

/-- The suggestion is another name than the one at the index, the name of a real token, and mends
the pattern. It is of the kind that governs the position, or if no kind can be inferred, the pattern
is then governed by the kind of the suggestion. -/
inductive Helps (context : Context) (pattern : Pattern) (index : Nat) (name suggestion : String) :
    Prop
  | governed {kinds : List Kind} {position : Nat} {kind : Kind}
    (hkinds : context.kindsOf pattern = .ok (some kinds))
    (hname : pattern.names[index]? = some (position, name))
    (hkind : kinds[position]? = some kind)
    (hlists : context.lexicon.ListsToken kind.name suggestion) (hne : suggestion ≠ name)
    (hmends : context.Mends pattern kinds index suggestion)
  | uninferred {position : Nat} {kind : Kind} (hheader : pattern.header = .inferred)
    (hnone : pattern.inferredKind? context.lexicon context.switches.aliasedPatterns = none)
    (hname : pattern.names[index]? = some (position, name))
    (hkind : context.lexicon.kind? kind.name = some kind)
    (hlists : context.lexicon.ListsToken kind.name suggestion) (hne : suggestion ≠ name)
    (hmends : context.Mends pattern [kind] index suggestion)

/-- The review of the pattern has the finding, and the name at the index is why. -/
def Reports (context : Context) (pattern : Pattern) (index : Nat) (finding : Finding) : Prop :=
  ∃ kinds position name kind,
    pattern.reviewKinds context.lexicon context.switches.aliasedPatterns = .ok kinds ∧
      pattern.names[index]? = some (position, name) ∧ kinds[position]? = some kind ∧
        context.lexicon.reviewName? context.switches.aliasedPatterns kind name = some finding

end Context

/-! ### Tokens that are suggested -/

section Tokens

variable {isLocale : String → Bool} {locale : String} {grammar : Grammar} {lexicon : Lexicon}
  {name : String}

/-- The name of a listed token is a name, and the token is what it resolves to. -/
theorem Grammar.exists_resolve?_of_listsToken
    (hcompile : compile isLocale locale grammar = .ok lexicon) {kind : String}
    (hlists : lexicon.ListsToken kind name) :
    Text.isName name = true ∧ ∃ resolved, lexicon.resolve? name = some resolved ∧
      resolved.kind.name = kind ∧ resolved.viaAlias = false := by
  have hflattens := (flattens_of_compile hcompile).2
  obtain ⟨token, hlisted⟩ := hlists
  obtain ⟨id, hmeaning, htoken, hkind⟩ := hflattens.mem_tokensOf_of_name_iff.mp hlisted
  have hname := isName_of_meaning hcompile hmeaning
  rw [← Text.trim_of_isName hname] at hmeaning
  obtain ⟨resolved, hresolved, -, hkindName, hreal⟩ :=
    hflattens.exists_meaning_iff_resolve?.mp ⟨id, hmeaning, htoken, hkind⟩
  exact ⟨hname, resolved, hresolved, hkindName, hreal⟩

/-- A kind that is found by its name is the kind of whatever resolves to a token of it. -/
theorem Lexicon.Flattens.kind_eq_of_resolve? (h : lexicon.Flattens grammar) {kind : Kind}
    {resolved : Resolved} (hkind : lexicon.kind? kind.name = some kind)
    (hresolved : lexicon.resolve? name = some resolved)
    (hname : resolved.kind.name = kind.name) : resolved.kind = kind := by
  have hfound := (Lexicon.resolve?_eq_some_iff.mp hresolved).2.2
  rw [← h.name_kind_of_resolve? hresolved, hname] at hfound
  exact Option.some.inj (hfound.symm.trans hkind)

theorem Lexicon.mem_tokenNamesOf_iff {kind : String} :
    name ∈ lexicon.tokenNamesOf kind ↔ lexicon.ListsToken kind name :=
  List.mem_map

/-- Every token is listed by a kind. -/
theorem Lexicon.Flattens.exists_listsToken (h : lexicon.Flattens grammar)
    (hname : name ∈ lexicon.tokenNames) : ∃ kind, lexicon.ListsToken kind name := by
  obtain ⟨token, htoken, rfl⟩ := List.mem_map.mp hname
  exact ⟨token.kind, token, h.mem_tokensOf_iff.mpr ⟨htoken, rfl⟩, rfl⟩

end Tokens

namespace Context

variable {context other : Context} {pattern : Pattern} {kinds : List Kind} {kind : Kind}
  {index position : Nat} {name suggestion : String} {resolved : Resolved}

/-! ### The kinds of a pattern -/

/-- What governs a pattern depends on the lexicon, and where that is left to the names, on which of
them count. -/
theorem AgreesOn.govern_iff (h : context.AgreesOn pattern other) :
    other.Govern pattern kinds ↔ context.Govern pattern kinds := by
  obtain ⟨hlexicon, hpatterns⟩ := h
  by_cases hheader : pattern.header = .inferred
  · rw [← kindsOf_eq_ok_iff, ← kindsOf_eq_ok_iff, kindsOf, kindsOf, hheader, hlexicon,
      hpatterns hheader]
    cases pattern.inferredKind? context.lexicon context.switches.aliasedPatterns with
    | some kind => rfl
    | none =>
      cases pattern.names with
      | nil => simp
      | cons first rest =>
        constructor
        · intro h
          cases eq_of_refuse h
        · intro h
          cases eq_of_refuse h
  · rw [← kindsOf_eq_ok_iff, ← kindsOf_eq_ok_iff, kindsOf_of_declared hheader,
      kindsOf_of_declared hheader, kindsNamed_eq_ok_iff, kindsNamed_eq_ok_iff, hlexicon]

/-- A review finds the kinds that govern the pattern. -/
theorem Govern.reviewKinds_eq (h : context.Govern pattern kinds) (hpattern : pattern.WellFormed) :
    pattern.reviewKinds context.lexicon context.switches.aliasedPatterns = .ok kinds := by
  -- The kinds are the same when errors are raised.
  let strict : Context := { context with switches := { context.switches with raises := true } }
  have hagrees : context.AgreesOn pattern strict := ⟨rfl, fun _ ↦ rfl⟩
  have hstrict : strict.kindsOf pattern = .ok (some kinds) :=
    kindsOf_eq_ok_iff.mpr (hagrees.govern_iff.mpr h)
  have hforetells := Pattern.reviewKinds_foretells hpattern strict rfl
  show pattern.reviewKinds strict.lexicon strict.switches.aliasedPatterns = .ok kinds
  cases hkinds : pattern.reviewKinds strict.lexicon strict.switches.aliasedPatterns with
  | ok found =>
    rw [hkinds, hstrict] at hforetells
    obtain rfl := Option.some.inj (Except.ok.inj hforetells)
    rfl
  | error findings =>
    rw [hkinds] at hforetells
    obtain ⟨-, problem, -, hproblem, -⟩ := hforetells
    rw [hstrict] at hproblem
    cases hproblem

/-- The kind that is inferred governs the pattern. -/
theorem govern_of_inferredKind? (hheader : pattern.header = .inferred)
    (hkind : pattern.inferredKind? context.lexicon context.switches.aliasedPatterns = some kind) :
    context.Govern pattern [kind] := by
  rw [← kindsOf_eq_ok_iff, kindsOf, hheader]
  dsimp only
  rw [hkind]

/-- With a real token in the place of a name, the pattern has the kind of the token, if it had no
other. -/
theorem inferredKind?_respell (hname : pattern.names[index]? = some (position, name))
    (hresolved : context.lexicon.resolve? suggestion = some resolved)
    (hreal : resolved.viaAlias = false)
    (hkind : ∀ kind, pattern.inferredKind? context.lexicon context.switches.aliasedPatterns =
      some kind → kind = resolved.kind) :
    (pattern.respell index suggestion).inferredKind? context.lexicon
      context.switches.aliasedPatterns = some resolved.kind := by
  rw [inferredKind?_eq_findSome?] at hkind ⊢
  rw [Pattern.names_respell]
  refine findSome?_modify hname ?_ hkind
  rw [counted?, hresolved, Option.filter_some, hreal]
  simp

/-! ### Names that are replaced -/

/-- Every name of a pattern stands at the position of a kind. -/
theorem Govern.exists_kind_of_mem_names (h : context.Govern pattern kinds)
    (hpattern : pattern.WellFormed) (hname : (position, name) ∈ pattern.names) :
    ∃ kind, kinds[position]? = some kind := by
  obtain ⟨entry, hentry, hmatcher⟩ := Pattern.exists_entry_of_mem_names hname
  obtain ⟨segment, hsegment, hmem⟩ := List.mem_flatMap.mp hentry
  have hlength : entry.length = kinds.length :=
    ((hpattern.2.2 segment hsegment).2 entry hmem).1.trans h.length_eq.symm
  have hlt : position < kinds.length := hlength ▸ (List.getElem?_eq_some_iff.mp hmatcher).1
  exact ⟨_, List.getElem?_eq_getElem hlt⟩

/-- A real token of the kind is looked up without a problem and reviewed without a finding. -/
theorem criterion_and_reviewName?_of_real
    (hresolved : context.lexicon.resolve? name = some resolved)
    (hkind : resolved.kind.name = kind.name) (hreal : resolved.viaAlias = false) :
    context.criterion kind (.name name) = .ok (.only resolved.id) ∧
      context.lexicon.reviewName? context.switches.aliasedPatterns kind name = none := by
  constructor
  · rw [criterion, hresolved]
    dsimp only
    rw [if_neg (not_not.mpr hkind), hreal]
    rfl
  · rw [Lexicon.reviewName?, Lexicon.standingIn_of_resolve? hresolved, if_pos hkind, hreal]
    rfl

/-- A real token mends a pattern under the kinds that then govern it. -/
theorem mends_of_govern (hpattern : pattern.WellFormed)
    (hname : pattern.names[index]? = some (position, name))
    (hsuggestion : Text.isName suggestion = true)
    (hresolved : context.lexicon.resolve? suggestion = some resolved)
    (hreal : resolved.viaAlias = false)
    (hgovern : context.Govern (pattern.respell index suggestion) kinds)
    (hkind : kinds[position]? = some kind) (hkindName : resolved.kind.name = kind.name) :
    context.Mends pattern kinds index suggestion := by
  have hrespelled := Pattern.wellFormed_respell hpattern hsuggestion index
  refine ⟨rfl, Pattern.names_respell pattern index suggestion,
    Pattern.parse_source_respell hpattern hsuggestion index, ?_⟩
  rintro other ⟨hlexicon, hpatterns⟩
  have hagrees : context.AgreesOn (pattern.respell index suggestion) other :=
    ⟨hlexicon, hpatterns⟩
  have hother := hagrees.govern_iff.mpr hgovern
  rw [← hlexicon] at hresolved
  obtain ⟨hcriterion, hreview⟩ := criterion_and_reviewName?_of_real hresolved hkindName hreal
  refine ⟨kindsOf_eq_ok_iff.mpr hother, hother.reviewKinds_eq hrespelled,
    position, kind, resolved.id, Pattern.getElem?_names_respell hname suggestion, hkind,
    hcriterion, hreview⟩

variable {isLocale : String → Bool} {locale : String} {grammar : Grammar}

/-- What is suggested for a name under a kind helps. -/
theorem helps_of_govern
    (hcompile : Grammar.compile isLocale locale grammar = .ok context.lexicon)
    (hpattern : pattern.WellFormed) (hgovern : context.Govern pattern kinds)
    (hname : pattern.names[index]? = some (position, name))
    (hkind : kinds[position]? = some kind)
    (hsuggestion : suggestion ∈ suggest name (context.lexicon.tokenNamesOf kind.name)) :
    context.Helps pattern index name suggestion := by
  have hflattens := (Grammar.flattens_of_compile hcompile).2
  obtain ⟨hlisted, hne, -⟩ := mem_and_corrects_of_mem_suggest hsuggestion
  have hlists := Lexicon.mem_tokenNamesOf_iff.mp hlisted
  obtain ⟨hisName, resolved, hresolved, hkindName, hreal⟩ :=
    Grammar.exists_resolve?_of_listsToken hcompile hlists
  have hfound := hgovern.kind?_eq hflattens hkind
  have hrespelled : context.Govern (pattern.respell index suggestion) kinds := by
    cases hgovern with
    | declared hheader hkinds => exact .declared hheader hkinds
    | @inferred before after first counted hheader hnames hbefore hcounts hcounted =>
      have hinferred := inferredKind?_eq_some_iff.mpr
        ⟨before, first, after, counted, hnames, hbefore, hcounts, hcounted, rfl⟩
      obtain rfl : counted.kind = kind := List.mem_singleton.mp (List.mem_of_getElem? hkind) |>.symm
      have hsame := hflattens.kind_eq_of_resolve? hfound hresolved hkindName
      rw [← hsame]
      refine govern_of_inferredKind? hheader (inferredKind?_respell hname hresolved hreal ?_)
      intro kind h
      rw [hinferred] at h
      rw [hsame, Option.some.inj h]
  exact .governed (kindsOf_eq_ok_iff.mpr hgovern) hname hkind hlists hne
    (mends_of_govern hpattern hname hisName hresolved hreal hrespelled hkind hkindName)

/-- What is suggested for a name where no kind can be inferred helps. -/
theorem helps_of_inferredKind?_eq_none
    (hcompile : Grammar.compile isLocale locale grammar = .ok context.lexicon)
    (hpattern : pattern.WellFormed) (hheader : pattern.header = .inferred)
    (hnone : pattern.inferredKind? context.lexicon context.switches.aliasedPatterns = none)
    (hname : pattern.names[index]? = some (position, name))
    (hsuggestion : suggestion ∈ suggest name context.lexicon.tokenNames) :
    context.Helps pattern index name suggestion := by
  have hflattens := (Grammar.flattens_of_compile hcompile).2
  obtain ⟨hlisted, hne, -⟩ := mem_and_corrects_of_mem_suggest hsuggestion
  obtain ⟨kind, hlists⟩ := hflattens.exists_listsToken hlisted
  obtain ⟨hisName, resolved, hresolved, rfl, hreal⟩ :=
    Grammar.exists_resolve?_of_listsToken hcompile hlists
  have hrespelled : context.Govern (pattern.respell index suggestion) [resolved.kind] := by
    refine govern_of_inferredKind? hheader (inferredKind?_respell hname hresolved hreal ?_)
    intro kind h
    rw [hnone] at h
    cases h
  have hmem : (position, suggestion) ∈ (pattern.respell index suggestion).names :=
    List.mem_of_getElem? (Pattern.getElem?_names_respell hname suggestion)
  obtain ⟨kind, hkind⟩ := hrespelled.exists_kind_of_mem_names
    (Pattern.wellFormed_respell hpattern hisName index) hmem
  have hkindName : resolved.kind.name = kind.name := by
    rw [List.mem_singleton.mp (List.mem_of_getElem? hkind)]
  have hfound : context.lexicon.kind? resolved.kind.name = some resolved.kind := by
    rw [hflattens.name_kind_of_resolve? hresolved]
    exact (Lexicon.resolve?_eq_some_iff.mp hresolved).2.2
  exact .uninferred hheader hnone hname hfound hlists hne
    (mends_of_govern hpattern hname hisName hresolved hreal hrespelled hkind hkindName)

/-! ### Errors and findings -/

/-- The name that a resolution fails with is the first of its spelling, and what is suggested for it
helps. -/
theorem helps_of_firstProblem
    (hcompile : Grammar.compile isLocale locale grammar = .ok context.lexicon)
    (hpattern : pattern.WellFormed) {suggestions : List String}
    (h : context.FirstProblem pattern (.unknownToken name suggestions)) :
    ∃ before position after, pattern.names = before ++ (position, name) :: after ∧
      (∀ earlier ∈ before, earlier.2 ≠ name) ∧
        ∀ suggestion ∈ suggestions, context.Helps pattern before.length name suggestion := by
  cases h with
  | kind h =>
    cases h with
    | @unknownOnly first rest hheader hnames hnone =>
      refine ⟨[], first.1, rest, hnames, by simp, fun suggestion hsuggestion ↦ ?_⟩
      exact helps_of_inferredKind?_eq_none hcompile hpattern hheader
        (inferredKind?_eq_none_iff.mpr hnone) (by rw [hnames]; rfl) hsuggestion
  | @name kinds before after found _ hkinds hnames hbefore hproblem =>
    cases hproblem with
    | unknown hkind hunknown =>
      refine ⟨before, found.1, after, hnames, ?_, fun suggestion hsuggestion ↦ ?_⟩
      · intro earlier hearlier heq
        have hmem : earlier ∈ pattern.names := hnames ▸ List.mem_append_left _ hearlier
        obtain ⟨kind, hkind⟩ := hkinds.exists_kind_of_mem_names hpattern hmem
        exact hbefore earlier hearlier _ (.unknown hkind (by rw [heq]; exact hunknown))
      · exact helps_of_govern hcompile hpattern hkinds (by rw [hnames]; simp) hkind hsuggestion
  | option _ _ _ hproblem => cases hproblem

/-- A review that cannot tell the kinds has no findings about unknown names. -/
theorem unknownToken_notMem_of_reviewKinds {findings : List Finding}
    (h : pattern.reviewKinds context.lexicon context.switches.aliasedPatterns = .error findings)
    (suggestions : List String) : .unknownToken name suggestions ∉ findings := by
  unfold Pattern.reviewKinds at h
  split at h
  · split at h
    · cases h
    · obtain rfl := Except.error.inj h
      simp
  all_goals
    dsimp only at h
    split at h
    · cases h
    · obtain rfl := Except.error.inj h
      simp

/-- A finding about an unknown name is there because of some name in the pattern. -/
theorem exists_reports_of_mem_review {suggestions : List String}
    (h : .unknownToken name suggestions ∈
      pattern.review context.lexicon context.switches.aliasedPatterns) :
    ∃ index, context.Reports pattern index (.unknownToken name suggestions) := by
  rw [Pattern.review] at h
  cases hkinds : pattern.reviewKinds context.lexicon context.switches.aliasedPatterns with
  | error findings =>
    rw [hkinds] at h
    exact absurd h (unknownToken_notMem_of_reviewKinds hkinds suggestions)
  | ok kinds =>
    rw [hkinds] at h
    dsimp only at h
    rcases List.mem_append.mp h with h | hfallback
    · rcases List.mem_append.mp h with hnames | hduplicate
      · obtain ⟨found, hfound, hreview⟩ := List.mem_filterMap.mp hnames
        obtain ⟨kind, hkind, hreview⟩ := Option.bind_eq_some_iff.mp hreview
        obtain ⟨index, hindex⟩ := List.mem_iff_getElem?.mp hfound
        exact ⟨index, kinds, found.1, found.2, kind, hkinds, hindex, hkind, hreview⟩
      · obtain ⟨entry, -, hentry⟩ := List.mem_map.mp hduplicate
        cases hentry
    · obtain ⟨kind, hkind⟩ := Pattern.exists_of_mem_reviewFallback hfallback
      cases hkind

/-- A review that finds a name unknown suggests tokens of the kind for it. -/
theorem suggest_of_reviewName? {lexicon : Lexicon} {aliasedPatterns : Bool} {token : String}
    {suggestions : List String}
    (h : lexicon.reviewName? aliasedPatterns kind name = some (.unknownToken token suggestions)) :
    name = token ∧ suggestions = suggest name (lexicon.tokenNamesOf kind.name) := by
  unfold Lexicon.reviewName? at h
  split at h
  · cases h
  · split at h
    · cases h
    · cases Option.some.inj h
  · split at h
    · cases Option.some.inj h
    · obtain ⟨rfl, rfl⟩ := Finding.unknownToken.inj (Option.some.inj h)
      exact ⟨rfl, rfl⟩

/-- What a review suggests for an unknown name helps. -/
theorem helps_of_reports
    (hcompile : Grammar.compile isLocale locale grammar = .ok context.lexicon)
    (hpattern : pattern.WellFormed) {suggestions : List String}
    (h : context.Reports pattern index (.unknownToken name suggestions))
    (hsuggestion : suggestion ∈ suggestions) : context.Helps pattern index name suggestion := by
  obtain ⟨kinds, position, found, kind, hkinds, hname, hkind, hreview⟩ := h
  obtain ⟨rfl, rfl⟩ := suggest_of_reviewName? hreview
  have hgovern := context.govern_of_reviewKinds hpattern
  rw [hkinds] at hgovern
  exact helps_of_govern hcompile hpattern hgovern hname hkind hsuggestion

/-- Assumes: the lexicon of a grammar, and a pattern from the scan of some text. If errors are
raised and the resolution of the pattern fails because of an unknown name, then whatever is
suggested for it helps at its first place in the pattern. If a review of the pattern finds an
unknown name, it reports one at some place, and at any place where it does, whatever is suggested
helps. -/
theorem suggestions_help
    (hcompile : Grammar.compile isLocale locale grammar = .ok context.lexicon)
    {text : String} (hscan : .ok (.pattern pattern) ∈ Template.scan text) :
    (context.switches.raises = true → ∀ source token suggestions,
        pattern.resolve context = .error ⟨source, .unknownToken token suggestions⟩ →
          ∃ before position after, pattern.names = before ++ (position, token) :: after ∧
            (∀ earlier ∈ before, earlier.2 ≠ token) ∧ ∀ suggestion ∈ suggestions,
              context.Helps pattern before.length token suggestion) ∧
      ∀ token suggestions,
        (.unknownToken token suggestions ∈
            pattern.review context.lexicon context.switches.aliasedPatterns →
          ∃ index, context.Reports pattern index (.unknownToken token suggestions)) ∧
        ∀ index, context.Reports pattern index (.unknownToken token suggestions) →
          ∀ suggestion ∈ suggestions, context.Helps pattern index token suggestion := by
  have hpattern := Template.wellFormed_of_mem_scan hscan
  constructor
  · intro hraises source token suggestions herror
    obtain ⟨-, hproblem⟩ := resolve_eq_error_iff.mp herror
    exact helps_of_firstProblem hcompile hpattern
      ((resolveBody_eq_error_iff hraises hpattern).mp hproblem)
  · intro token suggestions
    exact ⟨exists_reports_of_mem_review, fun index hreports suggestion hsuggestion ↦
      helps_of_reports hcompile hpattern hreports hsuggestion⟩

/-- A pattern from whose names no kind can be inferred, since they are misspelled. -/
def misspelled : Pattern where
  header := .inferred
  segments :=
    [⟨[[.name "ona"]], false, .literal "it"⟩, ⟨[[.name "tow"]], false, .literal "them"⟩]
  freeText? := none
  source := "@{ona:it|tow:them}"

/-- A pattern of a kind that lacks the second of its names. -/
def mistaken : Pattern where
  header := .named "gender"
  segments := [⟨[[.name "f"]], false, .literal "her"⟩, ⟨[[.name "n"]], false, .literal "its"⟩]
  freeText? := none
  source := "@gender{f:her|n:its}"

theorem suggestions_help_persons :
    ∃ lexicon, Grammar.compile (· = "en") "en" Grammar.persons = .ok lexicon ∧
      let context : Context := ⟨lexicon, {}, { raises := true }⟩
      .ok (.pattern misspelled) ∈ Template.scan (misspelled.source ++ mistaken.source) ∧
        .ok (.pattern mistaken) ∈ Template.scan (misspelled.source ++ mistaken.source) ∧
        misspelled.resolve context =
          .error ⟨misspelled.source, .unknownToken "ona" ["one"]⟩ ∧
        (∃ before position after, misspelled.names = before ++ (position, "ona") :: after ∧
          context.Helps misspelled before.length "ona" "one") ∧
        context.Reports mistaken 1 (.unknownToken "n" ["f", "m"]) ∧
        context.Helps mistaken 1 "n" "f" ∧ context.Helps mistaken 1 "n" "m" := by
  have hcheck : (Grammar.compile (· = "en") "en" Grammar.persons).toOption.map (fun lexicon ↦
      decide (misspelled.inferredKind? lexicon false = none ∧ lexicon.resolve? "ona" = none ∧
        lexicon.tokenNames = ["one", "f", "m"] ∧ lexicon.kindOf? "n" = none ∧
        lexicon.tokenNamesOf "gender" = ["f", "m"] ∧
        (lexicon.kind? "gender").map (·.name) = some "gender")) = some true := by
    decide +kernel
  obtain ⟨lexicon, hlexicon, hfacts⟩ := Option.map_eq_some_iff.mp hcheck
  obtain ⟨hnone, hunknown, hnames, hmissing, hgenders, hgender⟩ := of_decide_eq_true hfacts
  let context : Context := ⟨lexicon, {}, { raises := true }⟩
  have hcompile : Grammar.compile (· = "en") "en" Grammar.persons = .ok context.lexicon :=
    Traversal.toOption_eq_some_iff.mp hlexicon
  obtain ⟨kind, hkind, hkindName⟩ := Option.map_eq_some_iff.mp hgender
  have hscan : Template.scan (misspelled.source ++ mistaken.source) =
      [.ok (.pattern misspelled), .ok (.pattern mistaken)] := by
    decide +kernel
  have hmisspelled : .ok (.pattern misspelled) ∈
      Template.scan (misspelled.source ++ mistaken.source) := by
    rw [hscan]
    exact List.mem_cons_self
  have hmistaken : .ok (.pattern mistaken) ∈
      Template.scan (misspelled.source ++ mistaken.source) := by
    rw [hscan]
    exact List.mem_cons_of_mem _ List.mem_cons_self
  have herror : misspelled.resolve context =
      .error ⟨misspelled.source, .unknownToken "ona" ["one"]⟩ := by
    have hsuggest : suggest "ona" lexicon.tokenNames = ["one"] := by
      rw [hnames]
      cbv
    have hspelled : misspelled.names = [(0, "ona"), (0, "tow")] := rfl
    have hproblem : context.FirstProblem misspelled (.unknownToken "ona" ["one"]) := by
      rw [← hsuggest]
      exact .kind (.unknownOnly rfl hspelled (inferredKind?_eq_none_iff.mp hnone) hunknown)
    have hbody : context.resolveBody misspelled = .error (.unknownToken "ona" ["one"]) :=
      (resolveBody_eq_error_iff rfl (Template.wellFormed_of_mem_scan hmisspelled)).mpr hproblem
    exact resolve_eq_error_iff.mpr ⟨rfl, hbody⟩
  have hreports : context.Reports mistaken 1 (.unknownToken "n" ["f", "m"]) := by
    have hsuggest : suggest "n" (lexicon.tokenNamesOf kind.name) = ["f", "m"] := by
      rw [hkindName, hgenders]
      cbv
    refine ⟨[kind], 0, "n", kind, ?_, rfl, rfl, ?_⟩
    · simp [Pattern.reviewKinds, mistaken, context, hkind]
    · simp [Lexicon.reviewName?, Lexicon.standingIn, Lexicon.isOfKind, context, hmissing, hsuggest]
  obtain ⟨hraised, hfound⟩ := suggestions_help hcompile hmisspelled
  obtain ⟨before, position, after, hbefore, -, hhelps⟩ := hraised rfl _ _ _ herror
  have hreview := (suggestions_help hcompile hmistaken).2 "n" ["f", "m"]
  refine ⟨lexicon, hcompile, hmisspelled, hmistaken, herror,
    ⟨before, position, after, hbefore, hhelps "one" List.mem_cons_self⟩, hreports, ?_, ?_⟩
  · exact hreview.2 1 hreports "f" List.mem_cons_self
  · exact hreview.2 1 hreports "m" (List.mem_cons_of_mem _ List.mem_cons_self)

end Context

end Concord
