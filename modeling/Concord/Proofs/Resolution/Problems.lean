import Concord.Proofs.Resolution.Matching
import Concord.Proofs.Lexicon.Queries
import Concord.Proofs.Template.WellFormed

/-!
# The first problem of a pattern

When errors are raised, a pattern is resolved if nothing is wrong with it, and otherwise fails with
the first of its problems. What can be wrong is said here of the pattern as it is written, without
looking it up: its kinds cannot be told (`KindProblem`), a name does not stand for a token of the
kind at its position (`NameProblem`), or nothing can be in effect for a kind, neither what is asked
for nor a default that the pattern names (`OptionProblem`). `FirstProblem` puts them into order:
problems of kinds come before those of names and these before those of options, and within each
class the leftmost comes first. The main statement is `resolve_eq_error_iff_firstProblem`.
-/

set_option autoImplicit false
set_option relaxedAutoImplicit false

namespace Concord

open Traversal

namespace Context

/-! ### Problems -/

/-- The name counts when the kind of a pattern is inferred: a real token does, and an alias where
patterns may name aliases. -/
def Counts (context : Context) (name : String) : Prop :=
  ∃ resolved, context.lexicon.resolve? name = some resolved ∧
    (resolved.viaAlias = true → context.switches.aliasedPatterns = true)

/-- The kinds govern the pattern: those that its header names, or if it names none, the kind of the
first name that counts. -/
inductive Govern (context : Context) (pattern : Pattern) : List Kind → Prop
  | inferred {before after : List (Nat × String)} {name : Nat × String} {resolved : Resolved}
    (hheader : pattern.header = .inferred) (hnames : pattern.names = before ++ name :: after)
    (hbefore : ∀ earlier ∈ before, ¬context.Counts earlier.2) (hname : context.Counts name.2)
    (hresolved : context.lexicon.resolve? name.2 = some resolved) :
    Govern context pattern [resolved.kind]
  | declared {kinds : List Kind} (hheader : pattern.header ≠ .inferred)
    (hkinds : List.Forall₂ (fun name kind ↦ context.lexicon.kind? name = some kind)
      pattern.header.kinds kinds) :
    Govern context pattern kinds

/-- The kinds of the pattern cannot be told. If they are left to its names and none counts, then the
problem is the first name; otherwise it is the first kind that the lexicon lacks. -/
inductive KindProblem (context : Context) (pattern : Pattern) : Problem → Prop
  | aliasOnly {first : Nat × String} {rest : List (Nat × String)}
    (hheader : pattern.header = .inferred) (hnames : pattern.names = first :: rest)
    (hnone : ∀ name ∈ pattern.names, ¬context.Counts name.2)
    (hknown : (context.lexicon.resolve? first.2).isSome) :
    KindProblem context pattern (.aliasInPattern first.2)
  | unknownOnly {first : Nat × String} {rest : List (Nat × String)}
    (hheader : pattern.header = .inferred) (hnames : pattern.names = first :: rest)
    (hnone : ∀ name ∈ pattern.names, ¬context.Counts name.2)
    (hunknown : context.lexicon.resolve? first.2 = none) :
    KindProblem context pattern
      (.unknownToken first.2 (suggest first.2 context.lexicon.tokenNames))
  | unknownKind {before after : List String} {kind : String}
    (hkinds : pattern.header.kinds = before ++ kind :: after)
    (hbefore : ∀ earlier ∈ before, earlier ∈ context.lexicon.kinds)
    (hkind : kind ∉ context.lexicon.kinds) : KindProblem context pattern (.unknownKind kind)

/-- The name does not stand for a token of the kind at its position: it is unknown, or belongs to
another kind, or is an alias where patterns may not name aliases. -/
inductive NameProblem (context : Context) (kinds : List Kind) (name : Nat × String) :
    Problem → Prop
  | unknown {kind : Kind} (hkind : kinds[name.1]? = some kind)
    (hunknown : context.lexicon.resolve? name.2 = none) :
    NameProblem context kinds name
      (.unknownToken name.2 (suggest name.2 (context.lexicon.tokenNamesOf kind.name)))
  | wrongKind {kind : Kind} {actual : String} (hkind : kinds[name.1]? = some kind)
    (hactual : context.lexicon.kindOf? name.2 = some actual) (hne : actual ≠ kind.name) :
    NameProblem context kinds name (.wrongKind name.2 kind.name actual)
  | aliasName {kind : Kind} (hkind : kinds[name.1]? = some kind)
    (halias : context.lexicon.isAlias name.2 (some kind.name))
    (hpatterns : context.switches.aliasedPatterns = false) :
    NameProblem context kinds name (.aliasInPattern name.2)

/-- The default of the kind at the position may be in effect, and the pattern names it there. -/
def DefaultServes (context : Context) (kinds : List Kind) (pattern : Pattern) (position : Nat) :
    Prop :=
  context.switches.unknownDefaults = true ∧ ∃ kind default, kinds[position]? = some kind ∧
    kind.default? = some default ∧ context.NamedAt kinds pattern position default

/-- No token of the kind at the position is asked for, and its default does not serve. -/
inductive OptionProblem (context : Context) (kinds : List Kind) (pattern : Pattern)
    (position : Nat) : Problem → Prop
  | invalid {kind : Kind} {name : String} (hkind : kinds[position]? = some kind)
    (hchoice : context.options.get? kind.name = some (.token name))
    (hother : context.lexicon.isOfKind name kind.name = false)
    (hdefault : ¬context.DefaultServes kinds pattern position) :
    OptionProblem context kinds pattern position (.invalidOption kind.name name)
  | missing {kind : Kind} (hkind : kinds[position]? = some kind)
    (hchoice : ∀ name, context.options.get? kind.name ≠ some (.token name))
    (hdefault : ¬context.DefaultServes kinds pattern position) :
    OptionProblem context kinds pattern position (.missingOption kind.name)

/-- The first problem of the pattern: of its kinds, or else of its names in order, or else of the
options in the order of the kinds. -/
inductive FirstProblem (context : Context) (pattern : Pattern) : Problem → Prop
  | kind {problem : Problem} (h : context.KindProblem pattern problem) :
    FirstProblem context pattern problem
  | name {kinds : List Kind} {before after : List (Nat × String)} {name : Nat × String}
    {problem : Problem} (hkinds : context.Govern pattern kinds)
    (hnames : pattern.names = before ++ name :: after)
    (hbefore : ∀ earlier ∈ before, ∀ other, ¬context.NameProblem kinds earlier other)
    (hproblem : context.NameProblem kinds name problem) : FirstProblem context pattern problem
  | option {kinds : List Kind} {position : Nat} {problem : Problem}
    (hkinds : context.Govern pattern kinds)
    (hnames : ∀ name ∈ pattern.names, ∀ other, ¬context.NameProblem kinds name other)
    (hbefore : ∀ earlier < position, ∀ other, ¬context.OptionProblem kinds pattern earlier other)
    (hproblem : context.OptionProblem kinds pattern position problem) :
    FirstProblem context pattern problem

variable {context : Context} {pattern : Pattern} {kinds : List Kind} {problem : Problem}

/-! ### Problems of kinds -/

/-- What the name resolves to, if it counts. -/
def counted? (context : Context) (name : String) : Option Resolved :=
  (context.lexicon.resolve? name).filter fun resolved ↦
    context.switches.aliasedPatterns || !resolved.viaAlias

/-- A name counts as what it resolves to. -/
theorem counted?_eq_some_iff {name : String} {resolved : Resolved} :
    context.counted? name = some resolved ↔
      context.Counts name ∧ context.lexicon.resolve? name = some resolved := by
  unfold counted? Counts
  cases context.lexicon.resolve? name with
  | none => simp
  | some found => cases found.viaAlias <;> grind

/-- A name that does not count comes to nothing. -/
theorem counted?_eq_none_iff {name : String} :
    context.counted? name = none ↔ ¬context.Counts name := by
  unfold counted? Counts
  cases context.lexicon.resolve? name with
  | none => simp
  | some found => cases found.viaAlias <;> grind

/-- The kind inferred for a pattern comes from the names that count. -/
theorem inferredKind?_eq_findSome? (context : Context) (pattern : Pattern) :
    pattern.inferredKind? context.lexicon context.switches.aliasedPatterns =
      pattern.names.findSome? fun name ↦ (context.counted? name.2).map (·.kind) := by
  unfold Pattern.inferredKind? counted?
  congr 1
  funext name
  cases context.lexicon.resolve? name.2 with
  | none => rfl
  | some resolved =>
    show ite _ _ _ = _
    by_cases h : (context.switches.aliasedPatterns || !resolved.viaAlias) = true
    · rw [if_pos h, Option.filter_some, if_pos h, Option.map_some]
    · rw [if_neg h, Option.filter_some, if_neg h, Option.map_none]

/-- The kind inferred for a pattern is that of the first name that counts. -/
theorem inferredKind?_eq_some_iff {kind : Kind} :
    pattern.inferredKind? context.lexicon context.switches.aliasedPatterns = some kind ↔
      ∃ before name after resolved, pattern.names = before ++ name :: after ∧
        (∀ earlier ∈ before, ¬context.Counts earlier.2) ∧ context.Counts name.2 ∧
          context.lexicon.resolve? name.2 = some resolved ∧ resolved.kind = kind := by
  rw [inferredKind?_eq_findSome?, List.findSome?_eq_some_iff]
  simp only [Option.map_eq_some_iff, Option.map_eq_none_iff, counted?_eq_some_iff,
    counted?_eq_none_iff]
  constructor
  · rintro ⟨before, name, after, hnames, ⟨resolved, ⟨hname, hresolved⟩, hkind⟩, hbefore⟩
    exact ⟨before, name, after, resolved, hnames, hbefore, hname, hresolved, hkind⟩
  · rintro ⟨before, name, after, resolved, hnames, hbefore, hname, hresolved, hkind⟩
    exact ⟨before, name, after, hnames, ⟨resolved, ⟨hname, hresolved⟩, hkind⟩, hbefore⟩

/-- No kind is inferred for a pattern just if none of its names counts. -/
theorem inferredKind?_eq_none_iff :
    pattern.inferredKind? context.lexicon context.switches.aliasedPatterns = none ↔
      ∀ name ∈ pattern.names, ¬context.Counts name.2 := by
  rw [inferredKind?_eq_findSome?, List.findSome?_eq_none_iff]
  simp only [Option.map_eq_none_iff, counted?_eq_none_iff]

/-- All of the named kinds are found just if the lexicon has each of them. -/
theorem kindsNamed_eq_ok_iff {names : List String} :
    context.kindsNamed names = .ok (some kinds) ↔
      List.Forall₂ (fun name kind ↦ context.lexicon.kind? name = some kind) names kinds := by
  rw [kindsNamed, forall₂_eq_some_iff]
  cases hmissing : names.find? fun name ↦ (context.lexicon.kind? name).isNone with
  | none =>
    have hall : ∀ name ∈ names, context.lexicon.kind? name ≠ none := by
      simpa [Option.ne_none_iff_isSome] using List.find?_eq_none.mp hmissing
    constructor
    · intro h
      exact ⟨hall, Option.some.inj (Except.ok.inj h)⟩
    · rintro ⟨-, rfl⟩
      rfl
  | some missing =>
    constructor
    · intro h
      cases eq_of_refuse h
    · rintro ⟨hall, -⟩
      have hnone := List.find?_some hmissing
      rw [Option.isNone_iff_eq_none] at hnone
      exact absurd hnone (hall _ (List.mem_of_find?_eq_some hmissing))

/-- When errors are raised, the search for the named kinds fails with the first one that the lexicon
lacks. -/
theorem kindsNamed_eq_error_iff (hraises : context.switches.raises = true) {names : List String} :
    context.kindsNamed names = .error problem ↔
      ∃ before kind after, names = before ++ kind :: after ∧ problem = .unknownKind kind ∧
        (∀ earlier ∈ before, earlier ∈ context.lexicon.kinds) ∧ kind ∉ context.lexicon.kinds := by
  have hknown (name : String) : name ∈ context.lexicon.kinds ↔
      (context.lexicon.kind? name).isNone = false := by
    rw [mem_table_iff, ← Option.isSome_iff_exists, Option.isNone_eq_false_iff]
    rfl
  have hmissing : context.kindsNamed names = .error problem ↔
      ∃ kind, names.find? (fun name ↦ (context.lexicon.kind? name).isNone) = some kind ∧
        problem = .unknownKind kind := by
    rw [kindsNamed_of_raises hraises]
    cases names.find? fun name ↦ (context.lexicon.kind? name).isNone <;> simp [eq_comm]
  rw [hmissing]
  simp only [hknown, Bool.not_eq_false, List.find?_eq_some_iff_append, Bool.not_eq_true']
  constructor
  · rintro ⟨kind, ⟨hkind, before, after, hnames, hbefore⟩, hproblem⟩
    exact ⟨before, kind, after, hnames, hproblem, hbefore, hkind⟩
  · rintro ⟨before, kind, after, hnames, hproblem, hbefore, hkind⟩
    exact ⟨kind, ⟨hkind, before, after, hnames, hbefore⟩, hproblem⟩

/-- The kinds of a header that names kinds are looked up by their names. -/
theorem kindsOf_of_declared (hheader : pattern.header ≠ .inferred) :
    context.kindsOf pattern = context.kindsNamed pattern.header.kinds := by
  rw [kindsOf]
  cases h : pattern.header with
  | inferred => exact absurd h hheader
  | named kind => rfl
  | complex names => rfl

/-- The kinds found for a pattern are those that govern it. -/
theorem kindsOf_eq_ok_iff :
    context.kindsOf pattern = .ok (some kinds) ↔ context.Govern pattern kinds := by
  by_cases hheader : pattern.header = .inferred
  · rw [kindsOf, hheader]
    dsimp only
    constructor
    · intro h
      split at h
      · next kind hkind =>
        obtain rfl := Option.some.inj (Except.ok.inj h)
        obtain ⟨before, name, after, resolved, hnames, hbefore, hname, hresolved, rfl⟩ :=
          inferredKind?_eq_some_iff.mp hkind
        exact .inferred hheader hnames hbefore hname hresolved
      · split at h
        · cases h
        · cases eq_of_refuse h
    · intro h
      cases h with
      | inferred _ hnames hbefore hname hresolved =>
        rw [inferredKind?_eq_some_iff.mpr ⟨_, _, _, _, hnames, hbefore, hname, hresolved, rfl⟩]
      | declared hdeclared => exact absurd hheader hdeclared
  · rw [kindsOf_of_declared hheader, kindsNamed_eq_ok_iff]
    constructor
    · intro h
      exact .declared hheader h
    · intro h
      cases h with
      | inferred hinferred => exact absurd hinferred hheader
      | declared _ hkinds => exact hkinds

/-- When errors are raised, the search for the kind of a pattern that leaves it to its names fails
if none of them counts, because of the first. -/
theorem kindsOf_eq_error_iff_of_inferred (hraises : context.switches.raises = true)
    (hheader : pattern.header = .inferred) :
    context.kindsOf pattern = .error problem ↔
      (∀ name ∈ pattern.names, ¬context.Counts name.2) ∧
        ∃ first rest, pattern.names = first :: rest ∧ context.uninferable first.2 = problem := by
  rw [kindsOf, hheader, ← inferredKind?_eq_none_iff]
  cases pattern.inferredKind? context.lexicon context.switches.aliasedPatterns with
  | some kind => simp
  | none =>
    cases pattern.names with
    | nil => simp
    | cons first rest => simp [refuse_of_raises hraises]

/-- When errors are raised, the search for the kinds of a pattern fails with its problem of
kinds. -/
theorem kindsOf_eq_error_iff (hraises : context.switches.raises = true) :
    context.kindsOf pattern = .error problem ↔ context.KindProblem pattern problem := by
  by_cases hheader : pattern.header = .inferred
  · rw [kindsOf_eq_error_iff_of_inferred hraises hheader]
    constructor
    · rintro ⟨hnone, first, rest, hnames, rfl⟩
      rw [uninferable]
      by_cases hknown : (context.lexicon.resolve? first.2).isSome
      · rw [if_pos hknown]
        exact .aliasOnly hheader hnames hnone hknown
      · rw [if_neg hknown]
        exact .unknownOnly hheader hnames hnone (Option.not_isSome_iff_eq_none.mp hknown)
    · intro h
      cases h with
      | aliasOnly _ hnames hnone hknown => exact ⟨hnone, _, _, hnames, if_pos hknown⟩
      | unknownOnly _ hnames hnone hunknown =>
        exact ⟨hnone, _, _, hnames, if_neg (Option.not_isSome_iff_eq_none.mpr hunknown)⟩
      | unknownKind hkinds =>
        rw [hheader, Header.kinds, eq_comm, List.append_eq_nil_iff] at hkinds
        cases hkinds.2
  · rw [kindsOf_of_declared hheader, kindsNamed_eq_error_iff hraises]
    constructor
    · rintro ⟨before, kind, after, hkinds, rfl, hbefore, hkind⟩
      exact .unknownKind hkinds hbefore hkind
    · intro h
      cases h with
      | aliasOnly hinferred => exact absurd hinferred hheader
      | unknownOnly hinferred => exact absurd hinferred hheader
      | unknownKind hkinds hbefore hkind => exact ⟨_, _, _, hkinds, rfl, hbefore, hkind⟩

/-- When errors are raised, the kinds of a pattern that is well formed are not passed over. -/
theorem kindsOf_ne_ok_none (hraises : context.switches.raises = true)
    (hpattern : pattern.WellFormed) : context.kindsOf pattern ≠ .ok none := by
  intro h
  by_cases hheader : pattern.header = .inferred
  · rw [kindsOf, hheader] at h
    dsimp only at h
    split at h
    · cases h
    · split at h
      · next hnames => exact hpattern.names_ne_nil hheader hnames
      · rw [refuse_of_raises hraises] at h
        cases h
  · rw [kindsOf_of_declared hheader, kindsNamed_of_raises hraises] at h
    split at h <;> cases h

/-! ### Problems of names -/

/-- The problem found for a name is the one that it has. -/
theorem nameProblem?_eq_some_iff {name : Nat × String} :
    kinds[name.1]?.bind (context.nameProblem? · name.2) = some problem ↔
      context.NameProblem kinds name problem := by
  rw [Option.bind_eq_some_iff]
  constructor
  · rintro ⟨kind, hkind, h⟩
    unfold nameProblem? at h
    split at h
    · next hunknown =>
      obtain rfl := Option.some.inj h
      exact .unknown hkind hunknown
    · next resolved hresolved =>
      split at h
      · next hne =>
        obtain rfl := Option.some.inj h
        exact .wrongKind hkind (by rw [Lexicon.kindOf?, hresolved]; rfl) hne
      · next heq =>
        split at h
        · next halias =>
          obtain rfl := Option.some.inj h
          rw [Bool.and_eq_true, Bool.not_eq_true'] at halias
          exact .aliasName hkind (Lexicon.isAlias_iff_resolve?.mpr
            ⟨resolved, hresolved, not_not.mp heq, halias.1⟩) halias.2
        · cases h
  · intro h
    cases h with
    | unknown hkind hunknown => exact ⟨_, hkind, by rw [nameProblem?, hunknown]⟩
    | wrongKind hkind hactual hne =>
      obtain ⟨resolved, hresolved, rfl⟩ := Option.map_eq_some_iff.mp hactual
      refine ⟨_, hkind, ?_⟩
      rw [nameProblem?, hresolved]
      exact if_pos hne
    | aliasName hkind halias hpatterns =>
      obtain ⟨resolved, hresolved, hname, hvia⟩ := Lexicon.isAlias_iff_resolve?.mp halias
      refine ⟨_, hkind, ?_⟩
      rw [nameProblem?, hresolved]
      dsimp only
      rw [if_neg (not_not.mpr hname), hvia, hpatterns]
      rfl

/-- No problem is found for a name just if it has none. -/
theorem nameProblem?_eq_none_iff {name : Nat × String} :
    kinds[name.1]?.bind (context.nameProblem? · name.2) = none ↔
      ∀ problem, ¬context.NameProblem kinds name problem := by
  simp only [← nameProblem?_eq_some_iff, Option.eq_none_iff_forall_ne_some]

/-- The first problem found for names is that of the first name that has one. -/
theorem firstNameProblem?_eq_some_iff {names : List (Nat × String)} :
    context.firstNameProblem? kinds names = some problem ↔
      ∃ before name after, names = before ++ name :: after ∧
        context.NameProblem kinds name problem ∧
          ∀ earlier ∈ before, ∀ other, ¬context.NameProblem kinds earlier other := by
  simp only [firstNameProblem?, List.findSome?_eq_some_iff, nameProblem?_eq_some_iff,
    nameProblem?_eq_none_iff]

/-- No problem is found for names just if none of them has one. -/
theorem firstNameProblem?_eq_none_iff {names : List (Nat × String)} :
    context.firstNameProblem? kinds names = none ↔
      ∀ name ∈ names, ∀ problem, ¬context.NameProblem kinds name problem := by
  simp only [firstNameProblem?, List.findSome?_eq_none_iff, nameProblem?_eq_none_iff]

/-! ### Problems of options -/

section Options

variable {candidates : List Candidate} {position : Nat} {kind : Kind}

/-- Once the segments are looked up, they tell whether a default serves. -/
theorem isNamedAt_default_iff
    (hlookup : pattern.segments.mapM (context.candidate kinds) = .ok candidates)
    (hkind : kinds[position]? = some kind) :
    (context.switches.unknownDefaults && kind.default?.any (isNamedAt candidates position)) =
        true ↔ context.DefaultServes kinds pattern position := by
  rw [Bool.and_eq_true, Option.any_eq_true, DefaultServes, hkind]
  simp only [isNamedAt_iff hlookup, Option.some.injEq]
  grind

/-- A request is absent or blank if the options have no name for the kind, and otherwise unknown or
known as the name is. -/
theorem request_cases (context : Context) (kind : Kind) :
    (∀ name, context.options.get? kind.name ≠ some (.token name)) ∧
        (context.request kind = .absent ∨ context.request kind = .blank) ∨
      ∃ name, context.options.get? kind.name = some (.token name) ∧
        (context.lexicon.isOfKind name kind.name = false ∧ context.request kind = .unknown name ∨
          context.lexicon.isOfKind name kind.name = true ∧
            ∃ id, context.request kind = .known id) := by
  rw [request]
  cases context.options.get? kind.name with
  | none => simp
  | some choice =>
    cases choice with
    | blank => simp
    | token name =>
      refine Or.inr ⟨name, rfl, ?_⟩
      rw [Lexicon.isOfKind, Lexicon.kindOf?]
      dsimp only
      cases context.lexicon.resolve? name with
      | none => simp
      | some resolved => by_cases hkind : resolved.kind.name = kind.name <;> simp [hkind]

/-- At a position with a kind, what is wrong with the option is what is wrong with the choice for
that kind. -/
theorem optionProblem_iff (hkind : kinds[position]? = some kind) :
    context.OptionProblem kinds pattern position problem ↔
      ¬context.DefaultServes kinds pattern position ∧
        ((∃ name, context.options.get? kind.name = some (.token name) ∧
            context.lexicon.isOfKind name kind.name = false ∧
              .invalidOption kind.name name = problem) ∨
          (∀ name, context.options.get? kind.name ≠ some (.token name)) ∧
            .missingOption kind.name = problem) := by
  constructor
  · intro h
    cases h with
    | invalid hother hchoice hnot hdefault =>
      obtain rfl := Option.some.inj (hother.symm.trans hkind)
      exact ⟨hdefault, .inl ⟨_, hchoice, hnot, rfl⟩⟩
    | missing hother hchoice hdefault =>
      obtain rfl := Option.some.inj (hother.symm.trans hkind)
      exact ⟨hdefault, .inr ⟨hchoice, rfl⟩⟩
  · rintro ⟨hdefault, ⟨name, hchoice, hnot, rfl⟩ | ⟨hchoice, rfl⟩⟩
    · exact .invalid hkind hchoice hnot hdefault
    · exact .missing hkind hchoice hdefault

/-- Once the segments are looked up, the problem found for a kind is that of its option. -/
theorem unmet?_eq_some_iff
    (hlookup : pattern.segments.mapM (context.candidate kinds) = .ok candidates)
    (hkind : kinds[position]? = some kind) :
    context.unmet? candidates position kind = some problem ↔
      context.OptionProblem kinds pattern position problem := by
  have hserves := isNamedAt_default_iff hlookup hkind
  rw [unmet?, optionProblem_iff hkind]
  by_cases hdefault : context.DefaultServes kinds pattern position
  · rw [hserves.mpr hdefault, Bool.or_true, if_pos rfl]
    exact iff_of_false nofun fun h ↦ h.1 hdefault
  · rw [Bool.eq_false_iff.mpr (mt hserves.mp hdefault), Bool.or_false]
    rcases context.request_cases kind with
      ⟨hchoice, hrequest | hrequest⟩ | ⟨name, hchoice, ⟨hnot, hrequest⟩ | ⟨hof, id, hrequest⟩⟩
    · simp [hrequest, hchoice, hdefault, Request.known?]
    · simp [hrequest, hchoice, hdefault, Request.known?]
    · simp [hrequest, hchoice, hnot, hdefault, Request.known?]
    · simp [hrequest, hchoice, hof, Request.known?]

/-- Once the segments are looked up, no problem is found for a kind just if its option has none. -/
theorem unmet?_eq_none_iff
    (hlookup : pattern.segments.mapM (context.candidate kinds) = .ok candidates)
    (hkind : kinds[position]? = some kind) :
    context.unmet? candidates position kind = none ↔
      ∀ problem, ¬context.OptionProblem kinds pattern position problem := by
  simp only [← unmet?_eq_some_iff hlookup hkind, Option.eq_none_iff_forall_ne_some]

/-- An option has a problem only where there is a kind. -/
theorem OptionProblem.exists_kind (h : context.OptionProblem kinds pattern position problem) :
    ∃ kind, kinds[position]? = some kind := by
  cases h with
  | invalid hkind => exact ⟨_, hkind⟩
  | missing hkind => exact ⟨_, hkind⟩

/-- If the options have problems, then one position is the first to have one. -/
theorem OptionProblem.exists_first (h : context.OptionProblem kinds pattern position problem) :
    ∃ first other, context.OptionProblem kinds pattern first other ∧
      ∀ earlier < first, ∀ another, ¬context.OptionProblem kinds pattern earlier another := by
  induction position using Nat.strong_induction_on generalizing problem with
  | _ position ih =>
    by_cases hearlier : ∃ earlier < position, ∃ other,
        context.OptionProblem kinds pattern earlier other
    · obtain ⟨earlier, hlt, other, hother⟩ := hearlier
      exact ih earlier hlt hother
    · exact ⟨position, problem, h, fun earlier hlt another hanother ↦
        hearlier ⟨earlier, hlt, another, hanother⟩⟩

/-- When errors are raised and the segments are looked up, the problem found for the options is that
of the first kind that has one. -/
theorem firstUnmet?_eq_some_iff (hraises : context.switches.raises = true)
    (hlookup : pattern.segments.mapM (context.candidate kinds) = .ok candidates) :
    context.firstUnmet? kinds candidates = some problem ↔
      ∃ position, context.OptionProblem kinds pattern position problem ∧
        ∀ earlier < position, ∀ other, ¬context.OptionProblem kinds pattern earlier other := by
  rw [firstUnmet?, if_pos hraises,
    findSome?_zipIdx_eq_some_iff (f := fun position kind ↦ context.unmet? candidates position kind)]
  constructor
  · rintro ⟨position, kind, hkind, hunmet, hbefore⟩
    refine ⟨position, (unmet?_eq_some_iff hlookup hkind).mp hunmet, fun earlier hlt other h ↦ ?_⟩
    obtain ⟨found, hfound⟩ := h.exists_kind
    exact (unmet?_eq_none_iff hlookup hfound).mp (hbefore earlier hlt found hfound) other h
  · rintro ⟨position, h, hbefore⟩
    obtain ⟨kind, hkind⟩ := h.exists_kind
    exact ⟨position, kind, hkind, (unmet?_eq_some_iff hlookup hkind).mpr h,
      fun earlier hlt other hother ↦ (unmet?_eq_none_iff hlookup hother).mpr (hbefore earlier hlt)⟩

end Options

/-! ### The first problem -/

/-- Under given kinds, a resolution fails with the first problem of the names, or if there is none,
with the first problem of the options. -/
theorem resolveUnder_eq_error_iff (hraises : context.switches.raises = true) :
    context.resolveUnder kinds pattern = .error problem ↔
      context.firstNameProblem? kinds pattern.names = some problem ∨
        context.firstNameProblem? kinds pattern.names = none ∧
          ∃ position, context.OptionProblem kinds pattern position problem ∧
            ∀ earlier < position, ∀ other,
              ¬context.OptionProblem kinds pattern earlier other := by
  rw [← fault?_candidates hraises]
  show Except.bind _ _ = _ ↔ _
  cases hlookup : pattern.segments.mapM (context.candidate kinds) with
  | error fault => simp [Except.bind]
  | ok candidates =>
    rw [← firstUnmet?_eq_some_iff hraises hlookup, fault?_ok]
    cases hunmet : context.firstUnmet? kinds candidates with
    | none => simp [Except.bind, hunmet, pure, Except.pure]
    | some found => simp [Except.bind, hunmet]

/-- When errors are raised, what is wrong with a well-formed pattern is its first problem. -/
theorem resolveBody_eq_error_iff (hraises : context.switches.raises = true)
    (hpattern : pattern.WellFormed) :
    context.resolveBody pattern = .error problem ↔ context.FirstProblem pattern problem := by
  have hbody : context.resolveBody pattern = .error problem ↔
      context.kindsOf pattern = .error problem ∨ ∃ kinds,
        context.kindsOf pattern = .ok (some kinds) ∧
          context.resolveUnder kinds pattern = .error problem := by
    show Except.bind _ _ = _ ↔ _
    cases hkinds : context.kindsOf pattern with
    | error fault => simp [Except.bind]
    | ok kinds? =>
      cases kinds? with
      | none => exact absurd hkinds (kindsOf_ne_ok_none hraises hpattern)
      | some kinds => simp [Except.bind]
  rw [hbody]
  simp only [kindsOf_eq_ok_iff, kindsOf_eq_error_iff hraises, resolveUnder_eq_error_iff hraises,
    firstNameProblem?_eq_some_iff, firstNameProblem?_eq_none_iff]
  constructor
  · rintro (h | ⟨kinds, hkinds, ⟨before, name, after, hnames, h, hbefore⟩ |
      ⟨hnames, position, h, hbefore⟩⟩)
    · exact .kind h
    · exact .name hkinds hnames hbefore h
    · exact .option hkinds hnames hbefore h
  · intro h
    cases h with
    | kind h => exact .inl h
    | name hkinds hnames hbefore h =>
      exact .inr ⟨_, hkinds, .inl ⟨_, _, _, hnames, h, hbefore⟩⟩
    | option hkinds hnames hbefore h =>
      exact .inr ⟨_, hkinds, .inr ⟨hnames, _, h, hbefore⟩⟩

/-- An error about a pattern quotes it and has the problem of its body. -/
theorem resolve_eq_error_iff {error : ResolutionError} :
    pattern.resolve context = .error error ↔
      error.pattern = pattern.source ∧ context.resolveBody pattern = .error error.problem := by
  obtain ⟨source, problem⟩ := error
  rw [Pattern.resolve]
  cases context.resolveBody pattern with
  | ok result => simp [Except.mapError]
  | error fault => simp [Except.mapError, eq_comm]

/-- A pattern gives a text unless its body has a problem. -/
theorem exists_resolve_eq_ok_iff :
    (∃ result, pattern.resolve context = .ok result) ↔
      ∀ problem, context.resolveBody pattern ≠ .error problem := by
  rw [Pattern.resolve]
  cases context.resolveBody pattern with
  | ok result => simp [Except.mapError]
  | error fault => simp [Except.mapError]

/-- Assumes: a pattern from the scan of some text, and that errors are raised. The resolution of the
pattern fails just with its first problem, about the pattern as it is written, and gives a text just
if the pattern has no problem. -/
theorem resolve_eq_error_iff_firstProblem {text : String}
    (hscan : .ok (.pattern pattern) ∈ Template.scan text)
    (hraises : context.switches.raises = true) :
    (∀ error, pattern.resolve context = .error error ↔
        error.pattern = pattern.source ∧ context.FirstProblem pattern error.problem) ∧
      ((∃ result, pattern.resolve context = .ok result) ↔
        ∀ problem, ¬context.FirstProblem pattern problem) := by
  have hbody (problem : Problem) :
      context.resolveBody pattern = .error problem ↔ context.FirstProblem pattern problem :=
    resolveBody_eq_error_iff hraises (Template.wellFormed_of_mem_scan hscan)
  constructor
  · intro error
    rw [resolve_eq_error_iff, hbody]
  · rw [exists_resolve_eq_ok_iff]
    exact forall_congr' fun problem ↦ not_congr (hbody problem)

/-- A pattern that names the default of its second kind and not that of its first. -/
def subject : Pattern where
  header := .complex ["gender", "count"]
  segments := [⟨[[.name "m", .name "one"]], false, .literal "he"⟩,
    ⟨[[.name "m", .any]], false, .literal "they"⟩]
  freeText? := none
  source := "@gender+count{m+one:he|m+*:they}"

theorem resolve_eq_error_iff_firstProblem_persons :
    .ok (.pattern subject) ∈ Template.scan subject.source ∧
      ∃ lexicon, Grammar.compile (· = "en") "en" Grammar.persons = .ok lexicon ∧
        let switches : Switches := { raises := true }
        FirstProblem ⟨lexicon, .ofList [("gender", .token "one")], switches⟩ subject
            (.invalidOption "gender" "one") ∧
          ∀ problem, ¬FirstProblem ⟨lexicon, .ofList [("gender", .token "m")], switches⟩ subject
            problem := by
  have hscan : Template.scan subject.source = [.ok (.pattern subject)] := by decide +kernel
  have hmem : .ok (.pattern subject) ∈ Template.scan subject.source :=
    hscan ▸ List.mem_singleton.mpr rfl
  have hcheck : (Grammar.compile (· = "en") "en" Grammar.persons).toOption.map (fun lexicon ↦
      let switches : Switches := { raises := true }
      decide (subject.resolve ⟨lexicon, .ofList [("gender", .token "one")], switches⟩ =
          .error ⟨subject.source, .invalidOption "gender" "one"⟩ ∧
        subject.resolve ⟨lexicon, .ofList [("gender", .token "m")], switches⟩ = .ok "he")) =
          some true := by
    decide +kernel
  obtain ⟨lexicon, hlexicon, hfacts⟩ := Option.map_eq_some_iff.mp hcheck
  obtain ⟨herror, htext⟩ := of_decide_eq_true hfacts
  refine ⟨hmem, lexicon, toOption_eq_some_iff.mp hlexicon, ?_, ?_⟩
  · exact (((resolve_eq_error_iff_firstProblem hmem rfl).1 _).mp herror).2
  · exact (resolve_eq_error_iff_firstProblem hmem rfl).2.mp ⟨"he", htext⟩

end Context

end Concord
