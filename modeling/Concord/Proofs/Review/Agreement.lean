import Concord.Review
import Concord.Proofs.Lexicon.Lookup
import Concord.Proofs.Resolution.Faults
import Concord.Proofs.Template.WellFormed

/-!
# Reviews foretell resolutions

A review looks at a pattern without options, a resolution with them, and each looks up kinds and
names in its own way. `Finding.isAboutNames` picks out the findings about kinds and names, and
`Finding.Foretells` says which problem such a finding tells of. The main statement is
`review_foretells_resolve`: when errors are raised, the resolution of a pattern fails with the
problem that the first finding about its names tells of, and where there is no such finding it
fails, if at all, because of the options.

Both go through the names in the same order, so that the statement comes down to a single name
(`reviewName?_foretells`).
-/

set_option autoImplicit false
set_option relaxedAutoImplicit false

namespace Concord

/-- The findings that tell of an unusable kind or name, unlike those about repeated entries and
missing fallbacks. -/
def Finding.isAboutNames : Finding → Bool
  | .duplicateEntry _ | .noFallback _ => false
  | _ => true

/-- The problem is the one that a finding about the pattern tells of. Where no kind can be inferred,
it is about the first name. -/
def Finding.Foretells (pattern : Pattern) : Finding → Problem → Prop
  | .unknownKind kind, problem => problem = .unknownKind kind
  | .wrongKind token expected actual, problem => problem = .wrongKind token expected actual
  | .unknownToken token suggestions, problem => problem = .unknownToken token suggestions
  | .aliasToken token _, problem => problem = .aliasInPattern token
  | .uninferableKind, problem =>
    ∃ first ∈ pattern.names.head?, problem = .aliasInPattern first.2 ∨
      ∃ suggestions, problem = .unknownToken first.2 suggestions
  | .duplicateEntry _, _ | .noFallback _, _ => False

/-! ### A single name -/

namespace Lexicon

variable {lexicon : Lexicon}

/-- A finding about a name is about names. -/
theorem isAboutNames_of_reviewName? {aliasedPatterns : Bool} {kind : Kind} {name : String}
    {finding : Finding} (h : lexicon.reviewName? aliasedPatterns kind name = some finding) :
    finding.isAboutNames = true := by
  unfold reviewName? at h
  split at h
  · cases h
  · split at h
    · cases h
    · obtain rfl := Option.some.inj h
      rfl
  · split at h
    · obtain rfl := Option.some.inj h
      rfl
    · obtain rfl := Option.some.inj h
      rfl

/-- The finding about a name tells of its problem, and there is no finding only where there is no
problem. -/
theorem reviewName?_foretells (pattern : Pattern) (context : Context) (kind : Kind)
    (name : String) :
    match context.lexicon.reviewName? context.switches.aliasedPatterns kind name with
    | some finding =>
      ∃ problem, context.nameProblem? kind name = some problem ∧ finding.Foretells pattern problem
    | none => context.nameProblem? kind name = none := by
  rw [reviewName?, Context.nameProblem?, standingIn, isOfKind, kindOf?]
  cases hresolve : context.lexicon.resolve? name with
  | none => simp [Finding.Foretells]
  | some resolved =>
    by_cases hkind : resolved.kind.name = kind.name
    · rw [standing_of_resolve? hresolve]
      cases hvia : resolved.viaAlias
      · simp [hkind, hvia]
      · cases context.switches.aliasedPatterns
        · simp [hkind, hvia, Finding.Foretells]
        · simp [hkind]
    · simp [hkind, Finding.Foretells]

end Lexicon

namespace Pattern

/-! ### All names of a pattern -/

/-- The first finding about names under given kinds tells of the first problem among them. -/
theorem reviewNames_foretells (pattern : Pattern) (context : Context) (kinds : List Kind) :
    match (pattern.reviewNames context.lexicon context.switches.aliasedPatterns kinds).head? with
    | some finding =>
      ∃ problem, context.firstNameProblem? kinds pattern.names = some problem ∧
        finding.Foretells pattern problem
    | none => context.firstNameProblem? kinds pattern.names = none := by
  rw [reviewNames, List.head?_filterMap, Context.firstNameProblem?]
  generalize hnames : pattern.names = names
  clear hnames
  induction names with
  | nil => rfl
  | cons name rest ih =>
    rw [List.findSome?_cons, List.findSome?_cons]
    cases hkind : kinds[name.1]? with
    | none => exact ih
    | some kind =>
      have hname := Lexicon.reviewName?_foretells pattern context kind name.2
      rw [Option.bind_some, Option.bind_some]
      cases hreview : context.lexicon.reviewName? context.switches.aliasedPatterns kind name.2 with
      | none =>
        rw [hreview] at hname
        rw [hname]
        exact ih
      | some finding =>
        rw [hreview] at hname
        obtain ⟨problem, hproblem, hforetells⟩ := hname
        exact ⟨problem, by rw [hproblem], hforetells⟩

/-- The findings about the names of a pattern are about names. -/
theorem isAboutNames_of_mem_reviewNames {pattern : Pattern} {lexicon : Lexicon}
    {aliasedPatterns : Bool} {kinds : List Kind} {finding : Finding}
    (h : finding ∈ pattern.reviewNames lexicon aliasedPatterns kinds) :
    finding.isAboutNames = true := by
  obtain ⟨name, -, hreview⟩ := List.mem_filterMap.mp h
  obtain ⟨kind, -, hreview⟩ := Option.bind_eq_some_iff.mp hreview
  exact Lexicon.isAboutNames_of_reviewName? hreview

/-- All that is missed in the end is a fallback. -/
theorem exists_of_mem_reviewFallback {pattern : Pattern} {lexicon : Lexicon} {kinds : List Kind}
    {finding : Finding} (h : finding ∈ pattern.reviewFallback lexicon kinds) :
    ∃ kind, finding = .noFallback kind := by
  unfold reviewFallback at h
  split at h
  · cases h
  · obtain ⟨kind, -, hkind⟩ := List.mem_filterMap.mp h
    split at hkind
    · cases hkind
    · exact ⟨kind.1.name, (Option.some.inj hkind).symm⟩

/-- With the kinds at hand, the first finding about names is the first one about a name. -/
theorem find?_isAboutNames_review {pattern : Pattern} {lexicon : Lexicon} {aliasedPatterns : Bool}
    {kinds : List Kind} (h : pattern.reviewKinds lexicon aliasedPatterns = .ok kinds) :
    (pattern.review lexicon aliasedPatterns).find? Finding.isAboutNames =
      (pattern.reviewNames lexicon aliasedPatterns kinds).head? := by
  have hnames : (pattern.reviewNames lexicon aliasedPatterns kinds).filter Finding.isAboutNames =
      pattern.reviewNames lexicon aliasedPatterns kinds :=
    List.filter_eq_self.mpr fun _ ↦ isAboutNames_of_mem_reviewNames
  have hduplicates : (pattern.duplicates.map Finding.duplicateEntry).filter
      Finding.isAboutNames = [] := by
    rw [List.filter_eq_nil_iff]
    intro finding hfinding
    obtain ⟨key, -, rfl⟩ := List.mem_map.mp hfinding
    exact Bool.false_ne_true
  have hfallback : (pattern.reviewFallback lexicon kinds).filter Finding.isAboutNames = [] := by
    rw [List.filter_eq_nil_iff]
    intro finding hfinding
    obtain ⟨kind, rfl⟩ := exists_of_mem_reviewFallback hfinding
    exact Bool.false_ne_true
  rw [review, h, ← List.head?_filter, List.filter_append, List.filter_append, hnames, hduplicates,
    hfallback, List.append_nil, List.append_nil]

/-! ### The kinds of a pattern -/

/-- A review finds the kinds that govern a resolution, or tells why there are none. -/
theorem reviewKinds_foretells {pattern : Pattern} (h : pattern.WellFormed) (context : Context)
    (hraises : context.switches.raises = true) :
    match pattern.reviewKinds context.lexicon context.switches.aliasedPatterns with
    | .ok kinds => context.kindsOf pattern = .ok (some kinds)
    | .error findings =>
      ∃ finding problem, findings.find? Finding.isAboutNames = some finding ∧
        context.kindsOf pattern = .error problem ∧ finding.Foretells pattern problem := by
  have hdeclared (names : List String) :
      match (let missing := names.filter fun name ↦ (context.lexicon.kind? name).isNone
        if missing.isEmpty then .ok (names.filterMap context.lexicon.kind?)
        else .error (missing.map .unknownKind) : Except (List Finding) (List Kind)) with
      | .ok kinds => context.kindsNamed names = .ok (some kinds)
      | .error findings =>
        ∃ finding problem, findings.find? Finding.isAboutNames = some finding ∧
          context.kindsNamed names = .error problem ∧ finding.Foretells pattern problem := by
    rw [Context.kindsNamed_of_raises hraises, ← List.head?_filter]
    cases names.filter fun name ↦ (context.lexicon.kind? name).isNone with
    | nil => rfl
    | cons missing more => exact ⟨.unknownKind missing, .unknownKind missing, rfl, rfl, rfl⟩
  cases hheader : pattern.header with
  | named kind =>
    rw [reviewKinds, Context.kindsOf, hheader]
    exact hdeclared [kind]
  | complex kinds =>
    rw [reviewKinds, Context.kindsOf, hheader]
    exact hdeclared kinds
  | inferred =>
    rw [reviewKinds, Context.kindsOf, hheader]
    dsimp only
    cases pattern.inferredKind? context.lexicon context.switches.aliasedPatterns with
    | some kind => rfl
    | none =>
      obtain ⟨first, rest, hnames⟩ := List.exists_cons_of_ne_nil (h.names_ne_nil hheader)
      rw [hnames]
      refine ⟨.uninferableKind, context.uninferable first.2, rfl,
        Context.refuse_of_raises hraises _ _, first, by rw [hnames]; rfl, ?_⟩
      rw [Context.uninferable]
      split
      · exact Or.inl rfl
      · exact Or.inr ⟨_, rfl⟩

/-! ### Whole patterns -/

/-- Assumes: a pattern from the scan of some text, and that errors are raised. If the review of the
pattern has findings about names, the resolution fails with the problem that the first of them
tells of, whatever the options. If it has none, the resolution gives a text, or fails because of
the options. -/
theorem review_foretells_resolve {text : String} {pattern : Pattern}
    (hscan : .ok (.pattern pattern) ∈ Template.scan text) (lexicon : Lexicon) (options : Options)
    {switches : Switches} (hraises : switches.raises = true) :
    (∀ finding,
        (pattern.review lexicon switches.aliasedPatterns).find? Finding.isAboutNames =
            some finding →
          ∃ problem, finding.Foretells pattern problem ∧
            pattern.resolve ⟨lexicon, options, switches⟩ = .error ⟨pattern.source, problem⟩) ∧
      ((pattern.review lexicon switches.aliasedPatterns).find? Finding.isAboutNames = none →
        (∃ result, pattern.resolve ⟨lexicon, options, switches⟩ = .ok result) ∨
          ∃ problem, problem.isAboutOptions = true ∧
            pattern.resolve ⟨lexicon, options, switches⟩ = .error ⟨pattern.source, problem⟩) := by
  have hwellFormed := Template.wellFormed_of_mem_scan hscan
  have hkinds := reviewKinds_foretells hwellFormed ⟨lexicon, options, switches⟩ hraises
  have hresolve (result : Except Problem String)
      (h : Context.resolveBody ⟨lexicon, options, switches⟩ pattern = result) :
      pattern.resolve ⟨lexicon, options, switches⟩ =
        result.mapError fun problem ↦ ⟨pattern.source, problem⟩ := by
    rw [Pattern.resolve, h]
  cases hreview : pattern.reviewKinds lexicon switches.aliasedPatterns with
  | error findings =>
    rw [hreview] at hkinds
    obtain ⟨finding, problem, hfind, hkindsOf, hforetells⟩ := hkinds
    have hfailed := hresolve (.error problem) (by rw [Context.resolveBody, hkindsOf]; rfl)
    rw [review, hreview]
    dsimp only
    rw [hfind]
    constructor
    · intro found hfound
      obtain rfl := Option.some.inj hfound
      exact ⟨problem, hforetells, hfailed⟩
    · intro hnone
      cases hnone
  | ok kinds =>
    rw [hreview] at hkinds
    have hbody : Context.resolveBody ⟨lexicon, options, switches⟩ pattern =
        Context.resolveUnder ⟨lexicon, options, switches⟩ kinds pattern := by
      rw [Context.resolveBody, hkinds]
      rfl
    have hnames := reviewNames_foretells pattern ⟨lexicon, options, switches⟩ kinds
    rw [find?_isAboutNames_review hreview]
    constructor
    · intro finding hfinding
      rw [hfinding] at hnames
      obtain ⟨problem, hproblem, hforetells⟩ := hnames
      refine ⟨problem, hforetells, hresolve (.error problem) ?_⟩
      rw [hbody, Context.resolveUnder_of_firstNameProblem? hraises hproblem]
    · intro hnone
      rw [hnone] at hnames
      rcases Context.resolveUnder_of_firstNameProblem?_eq_none hraises hnames with
        ⟨result, hresult⟩ | ⟨problem, habout, hproblem⟩
      · exact Or.inl ⟨result, hresolve (.ok result) (hbody.trans hresult)⟩
      · exact Or.inr ⟨problem, habout, hresolve (.error problem) (hbody.trans hproblem)⟩

/-- A lexicon with two tokens of one kind, and an alias of the first. -/
def genders : Lexicon where
  locale := "en"
  tokens := [⟨"f", "female", "gender"⟩, ⟨"m", "male", "gender"⟩]
  kinds := Std.ExtTreeMap.insert ∅ "gender"
    { name := "gender", tokens := [0, 1], aliases := Std.ExtTreeMap.insert ∅ "lady" 0,
      default? := none }
  names := ((Std.ExtTreeMap.insert ∅ "f" ⟨0, false⟩).insert "lady" ⟨0, true⟩).insert "m" ⟨1, false⟩

/-- A pattern whose kind cannot be told from its names, since one is unknown and the other is an
alias. -/
def nameless : Pattern where
  header := .inferred
  segments :=
    [⟨[[.name "n"]], false, .literal "its"⟩, ⟨[[.name "lady"]], false, .literal "her"⟩]
  freeText? := none
  source := "@{n:its|lady:her}"

/-- A pattern whose names are the tokens of one kind. -/
def possessive : Pattern where
  header := .named "gender"
  segments := [⟨[[.name "f"]], false, .literal "her"⟩, ⟨[[.name "m"]], false, .literal "his"⟩]
  freeText? := none
  source := "@gender{f:her|m:his}"

theorem review_foretells_resolve_genders :
    (nameless.review genders false).find? Finding.isAboutNames = some .uninferableKind ∧
      (∃ problem, Finding.Foretells nameless .uninferableKind problem ∧
        nameless.resolve ⟨genders, {}, { raises := true }⟩ = .error ⟨nameless.source, problem⟩) ∧
      (possessive.review genders false).find? Finding.isAboutNames = none ∧
      ((∃ result, possessive.resolve ⟨genders, {}, { raises := true }⟩ = .ok result) ∨
        ∃ problem, problem.isAboutOptions = true ∧
          possessive.resolve ⟨genders, {}, { raises := true }⟩ =
            .error ⟨possessive.source, problem⟩) := by
  have hscan (pattern : Pattern)
      (h : .pattern pattern ∈ (Template.scan
        "@{n:its|lady:her} and @gender{f:her|m:his}").filterMap Except.toOption) :
      .ok (.pattern pattern) ∈ Template.scan
        "@{n:its|lady:her} and @gender{f:her|m:his}" := by
    obtain ⟨item, hitem, hpiece⟩ := List.mem_filterMap.mp h
    cases item with
    | error problem => cases hpiece
    | ok piece =>
      obtain rfl := Option.some.inj hpiece
      exact hitem
  have huninferable :
      (nameless.review genders false).find? Finding.isAboutNames = some .uninferableKind := by
    decide +kernel
  have hnone : (possessive.review genders false).find? Finding.isAboutNames = none := by
    decide +kernel
  refine ⟨huninferable, ?_, hnone, ?_⟩
  · exact (review_foretells_resolve (hscan nameless (by decide +kernel)) genders {} rfl).1 _
      huninferable
  · exact (review_foretells_resolve (hscan possessive (by decide +kernel)) genders {} rfl).2 hnone

end Pattern

end Concord
