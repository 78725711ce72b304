import Concord.Proofs.Review.Clearance

/-!
# Fallbacks when errors are raised

A review takes a matcher for any token for a fallback if the kind has a default. A resolution that
raises errors does not: a kind is provided for by a token that is asked for or by its default, but
then the pattern must name it (`Context.Provided`). The main statement is
`resolve_eq_ok_iff_provided`: a pattern without free text and without findings gives a text just if
all of its kinds are provided for, and those that are not have defaults that are covered by matchers
for any token.
-/

set_option autoImplicit false
set_option relaxedAutoImplicit false

namespace Concord

/-- Some entry names the default of the kind at the position. -/
def Pattern.NamesDefault (pattern : Pattern) (lexicon : Lexicon) (position : Nat) (kind : Kind) :
    Prop :=
  ∃ entry ∈ pattern.entries, ∃ name, entry[position]? = some (.name name) ∧
    lexicon.Covers kind (.name name)

namespace Context

/-- A token of the kind is asked for, or the pattern names its default at the position. -/
def Provided (context : Context) (pattern : Pattern) (position : Nat) (kind : Kind) : Prop :=
  ¬context.options.LeavesOut context.lexicon kind.name ∨
    pattern.NamesDefault context.lexicon position kind

/-- What to say of a kind that is not provided for: that the name given for it is none of its own,
or that no name is given. -/
def lacking (context : Context) (kind : Kind) : Problem :=
  match context.options.get? kind.name with
  | some (.token name) => .invalidOption kind.name name
  | _ => .missingOption kind.name

end Context

/-! ### Options of a pattern without findings -/

namespace Context.Cleared

variable {context : Context} {pattern : Pattern} {kinds : List Kind} {grammar : Grammar}

/-- In a pattern that is cleared a default serves just if it is named. -/
theorem defaultServes_iff (h : context.Cleared pattern kinds)
    (hflattens : context.lexicon.Flattens grammar)
    (hdefaults : context.switches.unknownDefaults = true) {position : Nat} {kind : Kind}
    (hkind : kinds[position]? = some kind) :
    context.DefaultServes kinds pattern position ↔
      pattern.NamesDefault context.lexicon position kind := by
  constructor
  · rintro ⟨-, found, id, hfound, hid, entry, hentry, name, other, hname, hother, hnames⟩
    obtain rfl := Option.some.inj (hfound.symm.trans hkind)
    obtain rfl := Option.some.inj (hother.symm.trans hkind)
    exact ⟨entry, hentry, name, hname,
      (h.covers_name_iff hflattens hentry hkind hname).mpr ⟨id, hid, hnames⟩⟩
  · rintro ⟨entry, hentry, name, hname, hcovers⟩
    obtain ⟨id, hid, hnames⟩ := (h.covers_name_iff hflattens hentry hkind hname).mp hcovers
    exact ⟨hdefaults, kind, id, hkind, hid, entry, hentry, name, kind, hname, hkind, hnames⟩

/-- In a pattern that is cleared the option of a kind has a problem just if the kind is not provided
for. -/
theorem optionProblem_iff (h : context.Cleared pattern kinds)
    (hflattens : context.lexicon.Flattens grammar)
    (hdefaults : context.switches.unknownDefaults = true) {position : Nat} {kind : Kind}
    (hkind : kinds[position]? = some kind) {problem : Problem} :
    context.OptionProblem kinds pattern position problem ↔
      ¬context.Provided pattern position kind ∧ context.lacking kind = problem := by
  rw [Context.optionProblem_iff hkind, h.defaultServes_iff hflattens hdefaults hkind, Provided,
    not_or, not_not, and_comm (a := context.options.LeavesOut _ _), and_assoc]
  refine and_congr_right fun _ ↦ ?_
  rw [Options.LeavesOut, lacking]
  cases context.options.get? kind.name with
  | none => simp
  | some choice =>
    cases choice with
    | blank => simp
    | token name => simp

/-- In a pattern that is cleared the option at a position has no problem just if the kind there is
provided for. -/
theorem forall_not_optionProblem_iff (h : context.Cleared pattern kinds)
    (hflattens : context.lexicon.Flattens grammar)
    (hdefaults : context.switches.unknownDefaults = true) {position : Nat} :
    (∀ problem, ¬context.OptionProblem kinds pattern position problem) ↔
      ∀ kind, kinds[position]? = some kind → context.Provided pattern position kind := by
  constructor
  · intro hnone kind hkind
    by_contra hnot
    exact hnone _ ((h.optionProblem_iff hflattens hdefaults hkind).mpr ⟨hnot, rfl⟩)
  · intro hprovided problem hproblem
    obtain ⟨kind, hkind⟩ := hproblem.exists_kind
    exact ((h.optionProblem_iff hflattens hdefaults hkind).mp hproblem).1 (hprovided kind hkind)

/-- When errors are raised, all that can be wrong with a pattern that is cleared are options. -/
theorem resolveBody_eq_error_iff (h : context.Cleared pattern kinds)
    (hraises : context.switches.raises = true) {problem : Problem} :
    context.resolveBody pattern = .error problem ↔
      ∃ position, context.OptionProblem kinds pattern position problem ∧
        ∀ earlier < position, ∀ other, ¬context.OptionProblem kinds pattern earlier other := by
  have hbody : context.resolveBody pattern = context.resolveUnder kinds pattern := by
    rw [resolveBody, kindsOf_eq_ok_iff.mpr h.govern]
    rfl
  rw [hbody, resolveUnder_eq_error_iff hraises, firstNameProblem?_eq_none_iff.mpr h.names_stand]
  simp

/-- In a pattern that is cleared and has no free text, a default that is not named is covered by
matchers for any token. -/
theorem exists_any_of_not_namesDefault (h : context.Cleared pattern kinds)
    (hfree : pattern.freeText? = none) {position : Nat} {kind : Kind}
    (hkind : kinds[position]? = some kind)
    (hnot : ¬pattern.NamesDefault context.lexicon position kind) :
    (∃ default, context.lexicon.defaultOf? kind.name = some default) ∧
      ∃ entry ∈ pattern.entries, entry[position]? = some .any := by
  obtain ⟨entry, hentry, matcher, hmatcher, hcovers⟩ := h.covered hfree position kind hkind
  cases matcher with
  | any => exact ⟨Lexicon.covers_any_iff.mp hcovers, entry, hentry, hmatcher⟩
  | name name => exact absurd ⟨entry, hentry, name, hmatcher, hcovers⟩ hnot

end Context.Cleared

namespace Pattern

open Context

/-- Assumes: the lexicon of a grammar, a pattern without free text from the scan of some text, no
findings about it, that errors are raised and that defaults stand in for missing options. Then the
pattern resolves to a text just if every kind is provided for, by the options or by the name of its
default in the pattern; otherwise the error is about the first kind that is not. The default of such
a kind is covered, but only by matchers for any token. -/
theorem resolve_eq_ok_iff_provided {isLocale : String → Bool} {grammar : Grammar} {locale : String}
    {lexicon : Lexicon} (hcompile : Grammar.compile isLocale locale grammar = .ok lexicon)
    {text : String} {pattern : Pattern}
    (hscan : .ok (.pattern pattern) ∈ Template.scan text) (hfree : pattern.freeText? = none)
    (switches : Switches) (hraises : switches.raises = true)
    (hdefaults : switches.unknownDefaults = true)
    (hreview : pattern.review lexicon switches.aliasedPatterns = []) (options : Options) :
    let context : Context := ⟨lexicon, options, switches⟩
    ∃ kinds, context.Govern pattern kinds ∧
      ((∃ result, pattern.resolve context = .ok result) ↔
        ∀ position kind, kinds[position]? = some kind → context.Provided pattern position kind) ∧
      (∀ error, pattern.resolve context = .error error ↔
        error.pattern = pattern.source ∧ ∃ position kind, kinds[position]? = some kind ∧
          ¬context.Provided pattern position kind ∧ error.problem = context.lacking kind ∧
            ∀ earlier < position, ∀ other, kinds[earlier]? = some other →
              context.Provided pattern earlier other) ∧
      ∀ position kind, kinds[position]? = some kind → ¬context.Provided pattern position kind →
        (∃ default, lexicon.defaultOf? kind.name = some default) ∧
          ∃ entry ∈ pattern.entries, entry[position]? = some .any := by
  intro context
  have hflattens := (Grammar.flattens_of_compile hcompile).2
  have hpattern := Template.wellFormed_of_mem_scan hscan
  obtain ⟨kinds, hcleared⟩ : ∃ kinds, context.Cleared pattern kinds :=
    exists_cleared_of_review_eq_nil hpattern hreview
  have hprovided (position : Nat) :
      (∀ problem, ¬context.OptionProblem kinds pattern position problem) ↔
        ∀ kind, kinds[position]? = some kind → context.Provided pattern position kind :=
    hcleared.forall_not_optionProblem_iff hflattens hdefaults
  refine ⟨kinds, hcleared.govern, ?_, ?_, ?_⟩
  · rw [exists_resolve_eq_ok_iff, ← forall_congr' hprovided]
    constructor
    · intro hnone position problem hproblem
      obtain ⟨first, other, hfirst, hbefore⟩ := hproblem.exists_first
      exact hnone other ((hcleared.resolveBody_eq_error_iff hraises).mpr ⟨first, hfirst, hbefore⟩)
    · intro hnone problem hproblem
      obtain ⟨position, hposition, -⟩ := (hcleared.resolveBody_eq_error_iff hraises).mp hproblem
      exact hnone position problem hposition
  · intro error
    rw [resolve_eq_error_iff, hcleared.resolveBody_eq_error_iff hraises]
    refine and_congr_right fun _ ↦ ?_
    constructor
    · rintro ⟨position, hproblem, hbefore⟩
      obtain ⟨kind, hkind⟩ := hproblem.exists_kind
      obtain ⟨hnot, hlacking⟩ :=
        (hcleared.optionProblem_iff hflattens hdefaults hkind).mp hproblem
      exact ⟨position, kind, hkind, hnot, hlacking.symm,
        fun earlier hlt ↦ (hprovided earlier).mp (hbefore earlier hlt)⟩
    · rintro ⟨position, kind, hkind, hnot, hlacking, hbefore⟩
      exact ⟨position,
        (hcleared.optionProblem_iff hflattens hdefaults hkind).mpr ⟨hnot, hlacking.symm⟩,
        fun earlier hlt ↦ (hprovided earlier).mpr (hbefore earlier hlt)⟩
  · intro position kind hkind hnot
    exact hcleared.exists_any_of_not_namesDefault hfree hkind fun hnamed ↦ hnot (.inr hnamed)

/-- A pattern that takes any token, and names none. -/
def greeting : Pattern where
  header := .named "gender"
  segments := [⟨[[.any]], false, .literal "You"⟩]
  freeText? := none
  source := "@gender{*:You}"

theorem resolve_eq_ok_iff_provided_persons :
    .ok (.pattern greeting) ∈ Template.scan greeting.source ∧
      ∃ lexicon, Grammar.compile (· = "en") "en" Grammar.persons = .ok lexicon ∧
        greeting.review lexicon false = [] ∧
        let given : Context := ⟨lexicon, .ofList [("gender", .token "m")], { raises := true }⟩
        let empty : Context := ⟨lexicon, {}, { raises := true }⟩
        (∃ kinds, given.Govern greeting kinds ∧
          ∀ position kind, kinds[position]? = some kind →
            given.Provided greeting position kind) ∧
        ∃ kinds position kind, empty.Govern greeting kinds ∧ kinds[position]? = some kind ∧
          ¬empty.Provided greeting position kind ∧
            .missingOption "gender" = empty.lacking kind := by
  have hscan : Template.scan greeting.source = [.ok (.pattern greeting)] := by decide +kernel
  have hmem : .ok (.pattern greeting) ∈ Template.scan greeting.source :=
    hscan ▸ List.mem_singleton.mpr rfl
  have hcheck : (Grammar.compile (· = "en") "en" Grammar.persons).toOption.map (fun lexicon ↦
      decide (greeting.review lexicon false = [] ∧
        greeting.resolve ⟨lexicon, .ofList [("gender", .token "m")], { raises := true }⟩ =
          .ok "You" ∧
        greeting.resolve ⟨lexicon, {}, { raises := true }⟩ =
          .error ⟨greeting.source, .missingOption "gender"⟩)) = some true := by
    decide +kernel
  obtain ⟨lexicon, hlexicon, hfacts⟩ := Option.map_eq_some_iff.mp hcheck
  obtain ⟨hreview, htext, herror⟩ := of_decide_eq_true hfacts
  have hcompile := Traversal.toOption_eq_some_iff.mp hlexicon
  refine ⟨hmem, lexicon, hcompile, hreview, ?_⟩
  intro given empty
  constructor
  · obtain ⟨kinds, hgovern, hok, -⟩ := resolve_eq_ok_iff_provided hcompile hmem rfl
      { raises := true } rfl rfl hreview (.ofList [("gender", .token "m")])
    exact ⟨kinds, hgovern, hok.mp ⟨"You", htext⟩⟩
  · obtain ⟨kinds, hgovern, -, hfails, -⟩ := resolve_eq_ok_iff_provided hcompile hmem rfl
      { raises := true } rfl rfl hreview {}
    obtain ⟨-, position, kind, hkind, hnot, hlacking, -⟩ := (hfails _).mp herror
    exact ⟨kinds, position, kind, hgovern, hkind, hnot, hlacking⟩

/-- The default of `gender` is covered in the pattern, but by a matcher for any token. So there is
no finding, and yet to resolve the pattern is an error when errors are raised. -/
theorem not_resolve_of_review_eq_nil_persons :
    .ok (.pattern greeting) ∈ Template.scan greeting.source ∧ greeting.freeText? = none ∧
      ∃ lexicon, Grammar.compile (· = "en") "en" Grammar.persons = .ok lexicon ∧
        greeting.review lexicon false = [] ∧
        greeting.resolve ⟨lexicon, {}, { raises := true }⟩ =
          .error ⟨greeting.source, .missingOption "gender"⟩ := by
  have hscan : Template.scan greeting.source = [.ok (.pattern greeting)] := by decide +kernel
  have hcheck : (Grammar.compile (· = "en") "en" Grammar.persons).toOption.map (fun lexicon ↦
      decide (greeting.review lexicon false = [] ∧
        greeting.resolve ⟨lexicon, {}, { raises := true }⟩ =
          .error ⟨greeting.source, .missingOption "gender"⟩)) = some true := by
    decide +kernel
  obtain ⟨lexicon, hlexicon, hfacts⟩ := Option.map_eq_some_iff.mp hcheck
  exact ⟨hscan ▸ List.mem_singleton.mpr rfl, rfl, lexicon,
    Traversal.toOption_eq_some_iff.mp hlexicon, of_decide_eq_true hfacts⟩

end Pattern

end Concord
