import Concord.Proofs.Resolution.Defaults
import Concord.Proofs.Resolution.Problems
import Concord.Proofs.Review.Agreement

/-!
# What a review without findings says

A review that finds nothing clears a pattern (`Context.Cleared`): its kinds are known, its names
stand for tokens of the kinds at their positions, and unless there is free text, the default of each
kind is covered by some entry (`Lexicon.Covers`). The kinds are those that a resolution goes by, and
in the lexicon of a grammar a matcher that covers a default is one that accepts it
(`Cleared.accepts_default_iff`).
-/

set_option autoImplicit false
set_option relaxedAutoImplicit false

namespace Concord

/-- The matcher covers the default of the kind: it asks for any token and there is a default, or it
is a name of the default, real or an alias. -/
inductive Lexicon.Covers (lexicon : Lexicon) (kind : Kind) : Matcher → Prop
  | any {default : Token} (hdefault : lexicon.defaultOf? kind.name = some default) :
    Covers lexicon kind .any
  | name {name : String} {resolved : Resolved}
    (hdefault : lexicon.defaultOf? kind.name = some resolved.token)
    (hresolved : lexicon.resolve? name = some resolved) : Covers lexicon kind (.name name)

/-! ### Patterns without findings -/

/-- A matcher for any token covers whatever default there is. -/
theorem Lexicon.covers_any_iff {lexicon : Lexicon} {kind : Kind} :
    lexicon.Covers kind .any ↔ ∃ default, lexicon.defaultOf? kind.name = some default := by
  constructor
  · intro h
    cases h with
    | any hdefault => exact ⟨_, hdefault⟩
  · rintro ⟨default, hdefault⟩
    exact .any hdefault

/-- A name covers the default that it resolves to. -/
theorem Lexicon.covers_name_iff {lexicon : Lexicon} {kind : Kind} {name : String} :
    lexicon.Covers kind (.name name) ↔ ∃ resolved, lexicon.resolve? name = some resolved ∧
      lexicon.defaultOf? kind.name = some resolved.token := by
  constructor
  · intro h
    cases h with
    | name hdefault hresolved => exact ⟨_, hresolved, hdefault⟩
  · rintro ⟨resolved, hresolved, hdefault⟩
    exact .name hdefault hresolved

/-- A review finds a default covered if some entry has a matcher there that covers it. -/
theorem Pattern.coversDefault_iff {pattern : Pattern} {lexicon : Lexicon} {position : Nat}
    {kind : Kind} :
    pattern.coversDefault lexicon position kind = true ↔
      ∃ entry ∈ pattern.entries, ∃ matcher, entry[position]? = some matcher ∧
        lexicon.Covers kind matcher := by
  rw [coversDefault]
  cases hdefault : lexicon.defaultOf? kind.name with
  | none =>
    refine iff_of_false Bool.false_ne_true ?_
    rintro ⟨entry, -, matcher, -, hcovers⟩
    cases matcher with
    | any => simp [Lexicon.covers_any_iff, hdefault] at hcovers
    | name name => simp [Lexicon.covers_name_iff, hdefault] at hcovers
  | some default =>
    dsimp only
    rw [List.any_eq_true]
    refine exists_congr fun entry ↦ and_congr_right fun _ ↦ ?_
    cases entry[position]? with
    | none => simp
    | some matcher =>
      cases matcher with
      | any => simp [Lexicon.covers_any_iff, hdefault]
      | name name =>
        simp only [Option.some.injEq, exists_eq_left', Lexicon.covers_name_iff, hdefault,
          Option.any_eq_true, decide_eq_true_eq]
        exact exists_congr fun resolved ↦ and_congr_right fun _ ↦ eq_comm

/-- A review that misses no fallback in a pattern without free text finds all defaults covered. -/
theorem Pattern.coversDefault_of_reviewFallback_eq_nil {pattern : Pattern} {lexicon : Lexicon}
    {kinds : List Kind} (hfree : pattern.freeText? = none)
    (hfallback : pattern.reviewFallback lexicon kinds = []) {position : Nat} {kind : Kind}
    (hkind : kinds[position]? = some kind) :
    pattern.coversDefault lexicon position kind = true := by
  rw [reviewFallback, hfree, Option.isSome_none, if_neg Bool.false_ne_true,
    List.filterMap_eq_nil_iff] at hfallback
  have hcovers := hfallback _ (List.mk_mem_zipIdx_iff_getElem?.mpr hkind)
  by_contra hnot
  rw [if_neg hnot] at hcovers
  cases hcovers

namespace Context

variable {context : Context} {pattern : Pattern} {kinds : List Kind}

/-- The kinds of the pattern are known, its names stand for tokens of the kinds at their positions,
and without free text the default of each kind is covered. -/
structure Cleared (context : Context) (pattern : Pattern) (kinds : List Kind) : Prop where
  govern : context.Govern pattern kinds
  names_stand (name : Nat × String) (hname : name ∈ pattern.names) (problem : Problem) :
    ¬context.NameProblem kinds name problem
  covered (hfree : pattern.freeText? = none) (position : Nat) (kind : Kind)
    (hkind : kinds[position]? = some kind) :
    ∃ entry ∈ pattern.entries, ∃ matcher, entry[position]? = some matcher ∧
      context.lexicon.Covers kind matcher

/-- A review finds the kinds that govern the pattern, and has findings if it does not. -/
theorem govern_of_reviewKinds (context : Context) (hpattern : pattern.WellFormed) :
    match pattern.reviewKinds context.lexicon context.switches.aliasedPatterns with
    | .ok kinds => context.Govern pattern kinds
    | .error findings => findings ≠ [] := by
  -- The kinds do not depend on whether errors are raised.
  let strict : Context := { context with switches := { context.switches with raises := true } }
  have hforetells := Pattern.reviewKinds_foretells hpattern strict rfl
  show match pattern.reviewKinds strict.lexicon strict.switches.aliasedPatterns with
    | .ok kinds => context.Govern pattern kinds
    | .error findings => findings ≠ []
  cases hkinds : pattern.reviewKinds strict.lexicon strict.switches.aliasedPatterns with
  | error findings =>
    rw [hkinds] at hforetells
    obtain ⟨finding, problem, hfinding, -⟩ := hforetells
    exact List.ne_nil_of_mem (List.mem_of_find?_eq_some hfinding)
  | ok kinds =>
    rw [hkinds] at hforetells
    cases kindsOf_eq_ok_iff.mp hforetells with
    | inferred hheader hnames hbefore hname hresolved =>
      exact .inferred hheader hnames hbefore hname hresolved
    | declared hheader hkinds => exact .declared hheader hkinds

/-- A review without findings clears the pattern. -/
theorem exists_cleared_of_review_eq_nil (hpattern : pattern.WellFormed)
    (hreview : pattern.review context.lexicon context.switches.aliasedPatterns = []) :
    ∃ kinds, context.Cleared pattern kinds := by
  have hgovern := context.govern_of_reviewKinds hpattern
  rw [Pattern.review] at hreview
  cases hkinds : pattern.reviewKinds context.lexicon context.switches.aliasedPatterns with
  | error findings =>
    rw [hkinds] at hreview hgovern
    exact absurd hreview hgovern
  | ok kinds =>
    rw [hkinds] at hreview hgovern
    dsimp only at hreview
    rw [List.append_eq_nil_iff, List.append_eq_nil_iff] at hreview
    obtain ⟨⟨hnames, -⟩, hfallback⟩ := hreview
    have hstand := Pattern.reviewNames_foretells pattern context kinds
    rw [hnames] at hstand
    exact ⟨kinds, hgovern, firstNameProblem?_eq_none_iff.mp hstand, fun hfree position kind hkind ↦
      Pattern.coversDefault_iff.mp
        (Pattern.coversDefault_of_reviewFallback_eq_nil hfree hfallback hkind)⟩

/-! ### Defaults covered and defaults in effect -/

/-- A kind that governs a pattern is found by its name. -/
theorem Govern.kind?_eq {grammar : Grammar} (h : context.Govern pattern kinds)
    (hflattens : context.lexicon.Flattens grammar) {position : Nat} {kind : Kind}
    (hkind : kinds[position]? = some kind) : context.lexicon.kind? kind.name = some kind := by
  obtain ⟨name, hname⟩ :=
    exists_kind?_of_kindsOf (kindsOf_eq_ok_iff.mpr h) kind (List.mem_of_getElem? hkind)
  rw [(hflattens.kinds_gathered name kind hname).name_eq]
  exact hname

/-- A pattern is governed by as many kinds as its entries have matchers. -/
theorem Govern.length_eq (h : context.Govern pattern kinds) :
    kinds.length = pattern.header.arity := by
  cases h with
  | inferred hheader =>
    rw [hheader]
    rfl
  | declared hheader hkinds =>
    rw [← hkinds.length_eq]
    cases hnames : pattern.header with
    | inferred => exact absurd hnames hheader
    | named kind => rfl
    | complex names => rfl

namespace Cleared

variable {grammar : Grammar} {position : Nat} {kind : Kind} {entry : List Matcher}

/-- In a pattern that is cleared a name stands for the token that it resolves to. -/
theorem exists_names_iff (h : context.Cleared pattern kinds) (hentry : entry ∈ pattern.entries)
    (hkind : kinds[position]? = some kind) {name : String}
    (hname : entry[position]? = some (.name name)) :
    ∃ resolved, context.lexicon.resolve? name = some resolved ∧
      ∀ id, context.Names kind name id ↔ resolved.id = id := by
  have hstands := h.names_stand (position, name) (Pattern.mem_names_of_entry hentry hname)
  cases hresolved : context.lexicon.resolve? name with
  | none => exact absurd (.unknown hkind hresolved) (hstands _)
  | some resolved =>
    have hkindName : resolved.kind.name = kind.name := by
      by_contra hne
      exact hstands _ (.wrongKind hkind (by rw [Lexicon.kindOf?, hresolved]; rfl) hne)
    have halias : resolved.viaAlias = true → context.switches.aliasedPatterns = true := by
      intro hvia
      by_contra hpatterns
      exact hstands _ (.aliasName hkind
        (Lexicon.isAlias_iff_resolve?.mpr ⟨resolved, hresolved, hkindName, hvia⟩)
        (Bool.eq_false_iff.mpr hpatterns))
    refine ⟨resolved, rfl, fun id ↦ ?_⟩
    constructor
    · rintro ⟨found, hfound, hid, -⟩
      rw [hresolved] at hfound
      rw [Option.some.inj hfound]
      exact hid
    · rintro rfl
      exact ⟨resolved, hresolved, rfl, hkindName, halias⟩

/-- In a pattern that is cleared a name covers a default just if it stands for it. -/
theorem covers_name_iff (h : context.Cleared pattern kinds)
    (hflattens : context.lexicon.Flattens grammar) (hentry : entry ∈ pattern.entries)
    (hkind : kinds[position]? = some kind) {name : String}
    (hname : entry[position]? = some (.name name)) :
    context.lexicon.Covers kind (.name name) ↔
      ∃ id, kind.default? = some id ∧ context.Names kind name id := by
  obtain ⟨resolved, hresolved, hnames⟩ := h.exists_names_iff hentry hkind hname
  have htoken := (Lexicon.resolve?_eq_some_iff.mp hresolved).2.1
  rw [Lexicon.covers_name_iff, Lexicon.defaultOf?_of_kind? (h.govern.kind?_eq hflattens hkind),
    hresolved]
  simp only [hnames, Option.some.injEq, exists_eq_left', Option.bind_eq_some_iff]
  refine exists_congr fun id ↦ and_congr_right fun _ ↦ ?_
  constructor
  · intro hid
    exact hflattens.id_unique htoken hid
  · rintro rfl
    exact htoken

/-- In a pattern that is cleared a matcher accepts a default just if it covers it. -/
theorem accepts_default_iff (h : context.Cleared pattern kinds)
    (hflattens : context.lexicon.Flattens grammar) (hentry : entry ∈ pattern.entries)
    (hkind : kinds[position]? = some kind) {matcher : Matcher}
    (hmatcher : entry[position]? = some matcher) :
    context.Accepts kind kind.default? matcher ↔ context.lexicon.Covers kind matcher := by
  cases matcher with
  | name name => exact (h.covers_name_iff hflattens hentry hkind hmatcher).symm
  | any =>
    have hfound := h.govern.kind?_eq hflattens hkind
    rw [Lexicon.covers_any_iff, Lexicon.defaultOf?_of_kind? hfound]
    constructor
    · intro hsome
      obtain ⟨id, hid⟩ := Option.isSome_iff_exists.mp hsome
      obtain ⟨-, -, token, -, htoken, -⟩ :=
        (hflattens.kinds_gathered _ _ hfound).default?_reached id hid
      exact ⟨token, by rw [hid]; exact htoken⟩
    · rintro ⟨token, htoken⟩
      obtain ⟨id, hid, -⟩ := Option.bind_eq_some_iff.mp htoken
      exact Option.isSome_iff_exists.mpr ⟨id, hid⟩

end Cleared

end Context

end Concord
