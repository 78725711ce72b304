import Concord.Resolution
import Concord.Proofs.Traversal

/-!
# Why a resolution fails when errors are raised

When errors are raised, a pattern is worked through from left to right and the first problem ends
the resolution. `Context.nameProblem?` is the problem of a single name where a token of a kind is
expected. Since lookups go through segments, entries and positions in the order in which the
pattern names its tokens, the first problem of the segments is the first among these names
(`fault?_candidates`). With the segments looked up only the options are left to complain about
(`resolveUnder_of_nameProblem?_eq_none`).
-/

set_option autoImplicit false
set_option relaxedAutoImplicit false

namespace Concord

open Traversal

/-- The problems that the caller's options cause. -/
def Problem.isAboutOptions : Problem → Bool
  | .missingOption _ | .invalidOption _ _ => true
  | _ => false

namespace Context

variable {context : Context}

/-- The problem of a name that stands where a token of the kind is expected, if there is one. -/
def nameProblem? (context : Context) (kind : Kind) (token : String) : Option Problem :=
  match context.lexicon.resolve? token with
  | none => some (.unknownToken token (suggest token (context.lexicon.tokenNamesOf kind.name)))
  | some resolved =>
    if resolved.kind.name ≠ kind.name then
      some (.wrongKind token kind.name resolved.kind.name)
    else if resolved.viaAlias && !context.switches.aliasedPatterns then
      some (.aliasInPattern token)
    else none

/-- When errors are raised, a refused problem is the error. -/
theorem refuse_of_raises (hraises : context.switches.raises = true) {α : Type}
    (problem : Problem) (substitute : α) :
    context.refuse problem substitute = .error problem :=
  if_pos hraises

/-- All that can come of a refused problem is the substitute. -/
theorem eq_of_refuse {α : Type} {problem : Problem} {substitute value : α}
    (h : context.refuse problem substitute = .ok value) : value = substitute := by
  unfold refuse at h
  split at h
  · cases h
  · exact (Except.ok.inj h).symm

/-- A matcher fails with the problem of its name; one for any token does not fail. -/
theorem fault?_criterion (hraises : context.switches.raises = true) (kind : Kind)
    (matcher : Matcher) :
    fault? (context.criterion kind matcher) = matcher.name?.bind (context.nameProblem? kind) := by
  cases matcher with
  | any => rfl
  | name token =>
    change _ = context.nameProblem? kind token
    rw [criterion, nameProblem?]
    cases context.lexicon.resolve? token with
    | none => simp [refuse_of_raises hraises]
    | some resolved =>
      dsimp only
      split
      · simp [refuse_of_raises hraises]
      · split
        · simp [refuse_of_raises hraises]
        · rfl

/-- The first problem of matchers, each paired with the kind at its position, is the first among
their names. The position of the first matcher may be any: `kindAt` tells the kinds from there
on. -/
theorem findSome?_zip_eq (context : Context) (kindAt : Nat → Option Kind) (entry : List Matcher)
    (kinds : List Kind) (start : Nat) (hkindAt : ∀ index, kindAt (start + index) = kinds[index]?) :
    ((entry.zip kinds).findSome? fun pair ↦ pair.1.name?.bind (context.nameProblem? pair.2)) =
      (entry.zipIdx start).findSome? fun matcher ↦
        matcher.1.name?.bind fun token ↦
          (kindAt matcher.2).bind (context.nameProblem? · token) := by
  induction entry generalizing kinds start with
  | nil => rfl
  | cons matcher rest ih =>
    rw [List.zipIdx_cons, List.findSome?_cons]
    have hstart := hkindAt 0
    rw [Nat.add_zero] at hstart
    rw [hstart]
    cases kinds with
    | nil =>
      have hrest := ih [] (start + 1) fun index ↦ by
        rw [Nat.add_assoc, hkindAt]
        rfl
      rw [List.zip_nil_right] at hrest ⊢
      rw [← hrest]
      cases matcher.name? <;> rfl
    | cons kind more =>
      have hrest := ih more (start + 1) fun index ↦ by
        rw [Nat.add_assoc, hkindAt, Nat.add_comm 1 index, List.getElem?_cons_succ]
      rw [List.zip_cons_cons, List.findSome?_cons, hrest]
      rfl

/-- The first problem of a pattern's names, each judged by the kind at its position. -/
def firstNameProblem? (context : Context) (kinds : List Kind) (names : List (Nat × String)) :
    Option Problem :=
  names.findSome? fun name ↦ kinds[name.1]?.bind (context.nameProblem? · name.2)

/-- An entry fails with the first problem of its names. -/
theorem fault?_criteria (hraises : context.switches.raises = true) (kinds : List Kind)
    (entry : List Matcher) :
    fault? (context.criteria kinds entry) =
      context.firstNameProblem? kinds (namesOfEntry entry) := by
  have hzip := findSome?_zip_eq context (kinds[·]?) entry kinds 0 fun index ↦ by
    rw [Nat.zero_add]
  rw [criteria, fault?_mapM, firstNameProblem?, namesOfEntry, ← List.head?_filterMap,
    ← List.head?_filterMap, List.filterMap_filterMap, List.head?_filterMap, List.head?_filterMap]
  simp only [fault?_criterion hraises, Option.bind_map]
  exact hzip

/-- The first problem of the names of several entries is the first of their first problems. -/
theorem firstNameProblem?_flatMap {α : Type} (kinds : List Kind) (source : List α)
    (namesOf : α → List (Nat × String)) :
    context.firstNameProblem? kinds (source.flatMap namesOf) =
      source.findSome? fun entry ↦ context.firstNameProblem? kinds (namesOf entry) :=
  findSome?_flatMap _ namesOf source

/-- The segments of a pattern fail with the first problem of its names. -/
theorem fault?_candidates (hraises : context.switches.raises = true) (kinds : List Kind)
    (pattern : Pattern) :
    fault? (pattern.segments.mapM (context.candidate kinds)) =
      context.firstNameProblem? kinds pattern.names := by
  have hnames : pattern.names =
      pattern.segments.flatMap fun segment ↦ segment.group.flatMap namesOfEntry := by
    rw [Pattern.names, Pattern.entries, List.flatMap_assoc]
  simp only [hnames, firstNameProblem?_flatMap, fault?_mapM, candidate, fault?_map,
    fault?_criteria hraises]

/-- A problem of the names ends the resolution under given kinds. -/
theorem resolveUnder_of_firstNameProblem? (hraises : context.switches.raises = true)
    {kinds : List Kind} {pattern : Pattern} {problem : Problem}
    (h : context.firstNameProblem? kinds pattern.names = some problem) :
    context.resolveUnder kinds pattern = .error problem := by
  rw [← fault?_candidates hraises, fault?_eq_some_iff] at h
  rw [resolveUnder, h]
  rfl

/-- Only the options are complained about after the names. -/
theorem isAboutOptions_of_firstUnmet? {kinds : List Kind} {candidates : List Candidate}
    {problem : Problem} (h : context.firstUnmet? kinds candidates = some problem) :
    problem.isAboutOptions = true := by
  unfold firstUnmet? at h
  split at h
  · obtain ⟨⟨kind, position⟩, -, hunmet⟩ := List.exists_of_findSome?_eq_some h
    unfold unmet? at hunmet
    dsimp only at hunmet
    split at hunmet
    · cases hunmet
    · split at hunmet
      · obtain rfl := Option.some.inj hunmet
        rfl
      · obtain rfl := Option.some.inj hunmet
        rfl
  · cases h

/-- Without a problem of the names, the resolution under given kinds gives a text, or fails because
of the options. -/
theorem resolveUnder_of_firstNameProblem?_eq_none (hraises : context.switches.raises = true)
    {kinds : List Kind} {pattern : Pattern}
    (h : context.firstNameProblem? kinds pattern.names = none) :
    (∃ text, context.resolveUnder kinds pattern = .ok text) ∨
      ∃ problem, problem.isAboutOptions = true ∧
        context.resolveUnder kinds pattern = .error problem := by
  rw [← fault?_candidates hraises, fault?_eq_none_iff] at h
  obtain ⟨candidates, hcandidates⟩ := h
  rw [resolveUnder, hcandidates]
  cases hunmet : context.firstUnmet? kinds candidates with
  | none =>
    left
    exact ⟨context.choose kinds candidates pattern, by simp [bind, Except.bind, hunmet]; rfl⟩
  | some problem =>
    right
    exact ⟨problem, isAboutOptions_of_firstUnmet? hunmet, by simp [bind, Except.bind, hunmet]⟩

/-- When errors are raised, a kind that the lexicon lacks ends the search for the kinds. -/
theorem kindsNamed_of_raises (hraises : context.switches.raises = true) (names : List String) :
    context.kindsNamed names =
      match names.find? fun name ↦ (context.lexicon.kind? name).isNone with
      | some missing => .error (.unknownKind missing)
      | none => .ok (some (names.filterMap context.lexicon.kind?)) := by
  rw [kindsNamed]
  cases names.find? fun name ↦ (context.lexicon.kind? name).isNone with
  | none => rfl
  | some missing => exact refuse_of_raises hraises _ _

end Context

end Concord
