import Concord.Proofs.Lexicon.Flattening
import Concord.Proofs.Lexicon.Lookup
import Concord.Proofs.Resolution.Faults
import Concord.Template.Scan

/-!
# Names of one token in patterns

A token may have several names: its own and its aliases. Where patterns may name aliases, it does
not matter which of them a pattern uses. Two patterns are synonymous (`Pattern.Synonymous`) if they
are the same up to their written form and the choice among names of one token. Such patterns are
governed by the same kinds (`kindsOf_of_synonymous`), and every matcher of the one asks for what its
counterpart asks for (`agree_criterion`), so that their segments become the same candidates. What is
left of a difference is the spelling of a name in the report that it belongs to another kind
(`Problem.Respells`). The main statement is `resolve_of_synonymous`.
-/

set_option autoImplicit false
set_option relaxedAutoImplicit false

namespace Concord

open Traversal

/-! ### Synonymous names, matchers and patterns -/

/-- The names are the same, or names of one token. -/
def Lexicon.Synonymous (lexicon : Lexicon) (first second : String) : Prop :=
  first = second ∨ ∃ resolved found, lexicon.resolve? first = some resolved ∧
    lexicon.resolve? second = some found ∧ found.id = resolved.id

/-- Both matchers are for any token, or both have names and these are synonymous. -/
inductive Matcher.Synonymous (lexicon : Lexicon) : Matcher → Matcher → Prop
  | any : Synonymous lexicon .any .any
  | name {first second : String} (h : lexicon.Synonymous first second) :
    Synonymous lexicon (.name first) (.name second)

/-- The segments differ only in the choice among names of one token. -/
structure Segment.Synonymous (lexicon : Lexicon) (first second : Segment) : Prop where
  group_synonymous :
    List.Forall₂ (List.Forall₂ (Matcher.Synonymous lexicon)) first.group second.group
  negated_eq : second.negated = first.negated
  wording_eq : second.wording = first.wording

/-- The patterns differ only in the choice among names of one token, and in how they are written. -/
structure Pattern.Synonymous (lexicon : Lexicon) (first second : Pattern) : Prop where
  header_eq : second.header = first.header
  segments_synonymous : List.Forall₂ (Segment.Synonymous lexicon) first.segments second.segments
  freeText?_eq : second.freeText? = first.freeText?

/-- The problems are the same, up to the choice among names of one token where a name belongs to
another kind. -/
inductive Problem.Respells (lexicon : Lexicon) : Problem → Problem → Prop
  | same (problem : Problem) : Respells lexicon problem problem
  | wrongKind {first second : String} (expected actual : String)
    (h : lexicon.Synonymous first second) :
    Respells lexicon (.wrongKind first expected actual) (.wrongKind second expected actual)

/-- Synonymous names lead to one kind, if to any. -/
theorem Lexicon.Synonymous.map_kind_eq {lexicon : Lexicon} {first second : String}
    (h : lexicon.Synonymous first second) :
    (lexicon.resolve? second).map (·.kind) = (lexicon.resolve? first).map (·.kind) := by
  rcases h with rfl | ⟨resolved, found, hresolved, hfound, hid⟩
  · rfl
  · rw [hresolved, hfound, Option.map_some, Option.map_some,
      kind_eq_of_id_eq hresolved hfound hid]

/-- Synonymous entries have synonymous names at the same positions. -/
theorem forall₂_namesOfEntry {lexicon : Lexicon} {first second : List Matcher}
    (h : List.Forall₂ (Matcher.Synonymous lexicon) first second) :
    List.Forall₂ (fun name other ↦ lexicon.Synonymous name.2 other.2) (namesOfEntry first)
      (namesOfEntry second) := by
  rw [namesOfEntry, namesOfEntry]
  generalize 0 = start
  induction h generalizing start with
  | nil => exact .nil
  | cons hfirst _ ih =>
    cases hfirst with
    | any => exact ih (start + 1)
    | name hname => exact .cons hname (ih (start + 1))

namespace Pattern.Synonymous

variable {lexicon : Lexicon} {first second : Pattern}

/-- Synonymous patterns have synonymous names, in the same order. -/
theorem names_synonymous (h : Pattern.Synonymous lexicon first second) :
    List.Forall₂ (fun name other ↦ lexicon.Synonymous name.2 other.2) first.names second.names := by
  have hentries : List.Forall₂ (List.Forall₂ (Matcher.Synonymous lexicon)) first.entries
      second.entries :=
    List.rel_flatMap h.segments_synonymous fun _ _ hsegment ↦ hsegment.group_synonymous
  exact List.rel_flatMap hentries fun _ _ hentry ↦ forall₂_namesOfEntry hentry

end Pattern.Synonymous

/-- Where patterns may name aliases, the kind inferred from a pattern is that of the first name that
resolves. -/
theorem Pattern.inferredKind?_of_aliasedPatterns (lexicon : Lexicon) (pattern : Pattern) :
    pattern.inferredKind? lexicon true =
      pattern.names.findSome? fun name ↦ (lexicon.resolve? name.2).map (·.kind) := by
  rw [inferredKind?]
  congr 1
  funext name
  cases lexicon.resolve? name.2 <;> rfl

namespace Context

variable {context : Context} {first second : Pattern}

/-! ### The stages of a resolution -/

/-- A refusal agrees with the refusal of a related problem. -/
theorem agree_refuse {α : Type} {related : Problem → Problem → Prop} {problem other : Problem}
    (h : related problem other) (substitute : α) :
    Agree related (context.refuse problem substitute) (context.refuse other substitute) := by
  unfold refuse
  split
  · exact .error h
  · exact .ok substitute

/-- Errors about one pattern and another that differ in the problem as `related` says, and in the
pattern that they quote. -/
theorem resolve_of_agree {related : Problem → Problem → Prop}
    (h : Agree related (context.resolveBody first) (context.resolveBody second)) :
    (∀ text, first.resolve context = .ok text → second.resolve context = .ok text) ∧
      ∀ error, first.resolve context = .error error → error.pattern = first.source ∧
        ∃ problem, related error.problem problem ∧
          second.resolve context = .error ⟨second.source, problem⟩ := by
  rw [Pattern.resolve, Pattern.resolve]
  generalize context.resolveBody first = result at h ⊢
  generalize context.resolveBody second = other at h ⊢
  cases h with
  | ok value => exact ⟨fun text htext ↦ htext, fun error herror ↦ nomatch herror⟩
  | @error problem other hrelated =>
    refine ⟨fun text htext ↦ (nomatch htext), fun error herror ↦ ?_⟩
    obtain rfl := Except.error.inj herror
    exact ⟨rfl, other, hrelated, rfl⟩

section Stages

variable (haliased : context.switches.aliasedPatterns = true)

include haliased

/-- The same kind is inferred from synonymous patterns. -/
theorem inferredKind?_of_synonymous (h : Pattern.Synonymous context.lexicon first second) :
    second.inferredKind? context.lexicon context.switches.aliasedPatterns =
      first.inferredKind? context.lexicon context.switches.aliasedPatterns := by
  rw [haliased, Pattern.inferredKind?_of_aliasedPatterns, Pattern.inferredKind?_of_aliasedPatterns]
  have hnames := h.names_synonymous
  generalize first.names = names at hnames ⊢
  generalize second.names = others at hnames ⊢
  induction hnames with
  | nil => rfl
  | cons hname _ ih => rw [List.findSome?_cons, List.findSome?_cons, hname.map_kind_eq, ih]

/-- The same kinds govern synonymous patterns. If no kind can be inferred from them, then no name in
them resolves, and synonymous names are the same. -/
theorem kindsOf_of_synonymous (h : Pattern.Synonymous context.lexicon first second) :
    context.kindsOf second = context.kindsOf first := by
  rw [kindsOf, kindsOf, h.header_eq, inferredKind?_of_synonymous haliased h]
  cases first.header with
  | named kind => rfl
  | complex kinds => rfl
  | inferred =>
    cases hinferred : first.inferredKind? context.lexicon context.switches.aliasedPatterns with
    | some kind => rfl
    | none =>
      rw [haliased, Pattern.inferredKind?_of_aliasedPatterns] at hinferred
      cases hfirst : first.names with
      | nil =>
        have hnames := h.names_synonymous
        rw [hfirst, List.forall₂_nil_left_iff] at hnames
        rw [hnames]
      | cons name rest =>
        have hnames := h.names_synonymous
        rw [hfirst, List.forall₂_cons_left_iff] at hnames
        obtain ⟨other, more, hname, -, hsecond⟩ := hnames
        have hunknown := List.findSome?_eq_none_iff.mp hinferred name (hfirst ▸ List.mem_cons_self)
        rw [Option.map_eq_none_iff] at hunknown
        rcases hname with hsame | ⟨resolved, found, hresolved, -⟩
        · rw [hsecond]
          dsimp only
          rw [hsame]
        · rw [hunknown] at hresolved
          cases hresolved

/-- Synonymous matchers ask for the same. -/
theorem agree_criterion (kind : Kind) (matcher other : Matcher)
    (h : Matcher.Synonymous context.lexicon matcher other) :
    Agree (Problem.Respells context.lexicon) (context.criterion kind matcher)
      (context.criterion kind other) := by
  cases h with
  | any => exact .ok Criterion.present
  | @name token synonym hname =>
    rcases id hname with rfl | ⟨resolved, found, hresolved, hfound, hid⟩
    · exact .refl .same _
    · have hkind := Lexicon.kind_eq_of_id_eq hresolved hfound hid
      simp only [criterion, hresolved, hfound, hkind, hid, haliased, Bool.not_true, Bool.and_false]
      split
      · exact agree_refuse (Problem.Respells.wrongKind _ _ hname) _
      · exact .ok _

/-- Synonymous entries ask for the same at every position. -/
theorem agree_criteria (kinds : List Kind) (entry other : List Matcher)
    (h : List.Forall₂ (Matcher.Synonymous context.lexicon) entry other) :
    Agree (Problem.Respells context.lexicon) (context.criteria kinds entry)
      (context.criteria kinds other) := by
  have hpairs : List.Forall₂ (fun pair mate : Matcher × Kind ↦
      Matcher.Synonymous context.lexicon pair.1 mate.1 ∧ mate.2 = pair.2) (entry.zip kinds)
        (other.zip kinds) := by
    induction h generalizing kinds with
    | nil => exact .nil
    | cons hmatcher _ ih =>
      cases kinds with
      | nil => exact .nil
      | cons kind rest => exact .cons ⟨hmatcher, rfl⟩ (ih rest)
  refine .mapM (fun pair mate hpair ↦ ?_) hpairs
  rw [hpair.2]
  exact agree_criterion haliased pair.2 pair.1 mate.1 hpair.1

/-- Synonymous segments become the same candidates. -/
theorem agree_candidate (kinds : List Kind) (segment other : Segment)
    (h : Segment.Synonymous context.lexicon segment other) :
    Agree (Problem.Respells context.lexicon) (context.candidate kinds segment)
      (context.candidate kinds other) := by
  rw [candidate, candidate, h.negated_eq, h.wording_eq]
  exact (Agree.mapM (agree_criteria haliased kinds) h.group_synonymous).map _

/-- Under given kinds, synonymous patterns have the same text or respelled problems. -/
theorem agree_resolveUnder (kinds : List Kind)
    (h : Pattern.Synonymous context.lexicon first second) :
    Agree (Problem.Respells context.lexicon) (context.resolveUnder kinds first)
      (context.resolveUnder kinds second) := by
  refine (Agree.mapM (agree_candidate haliased kinds) h.segments_synonymous).bind
    fun candidates ↦ ?_
  have hchoose : context.choose kinds candidates second =
      context.choose kinds candidates first := by
    rw [choose, choose, freeText, freeText, h.freeText?_eq]
  rw [hchoose]
  cases context.firstUnmet? kinds candidates with
  | none => exact .ok _
  | some problem => exact .error (.same problem)

/-- Synonymous patterns have the same text or respelled problems. -/
theorem agree_resolveBody (h : Pattern.Synonymous context.lexicon first second) :
    Agree (Problem.Respells context.lexicon) (context.resolveBody first)
      (context.resolveBody second) := by
  rw [resolveBody, resolveBody, kindsOf_of_synonymous haliased h]
  refine Agree.bind (.refl .same (context.kindsOf first)) fun kinds? ↦ ?_
  cases kinds? with
  | none =>
    have hfree : context.freeText [] second = context.freeText [] first := by
      rw [freeText, freeText, h.freeText?_eq]
    rw [hfree]
    exact .refl .same _
  | some kinds => exact agree_resolveUnder haliased kinds h

end Stages

/-- Assumes: patterns may name aliases. Then it does not matter by which of its names a pattern
names a token. Of two patterns that differ in nothing else, both resolve to one text, or both fail
with one problem, up to the spelling of a name that belongs to another kind. Each error quotes its
own pattern. -/
theorem resolve_of_synonymous (context : Context)
    (haliased : context.switches.aliasedPatterns = true) {first second : Pattern}
    (h : Pattern.Synonymous context.lexicon first second) :
    (∀ text, first.resolve context = .ok text → second.resolve context = .ok text) ∧
      ∀ error, first.resolve context = .error error → error.pattern = first.source ∧
        ∃ problem, error.problem.Respells context.lexicon problem ∧
          second.resolve context = .error ⟨second.source, problem⟩ :=
  resolve_of_agree (agree_resolveBody haliased h)

/-- A pattern that uses one name for a token in its own place and in that of another kind. -/
def pronouns (name : String) : Pattern where
  header := .complex ["gender", "count"]
  segments := [⟨[[.name "m", .any]], false, .literal "he"⟩,
    ⟨[[.name name, .name "one"], [.name "m", .name name]], false, .literal "she"⟩]
  freeText? := none
  source := r"@gender+count{m+*:he|" ++ name ++ "+one,m+" ++ name ++ r":she}"

theorem resolve_of_synonymous_persons :
    Template.scan (pronouns "lady").source = [.ok (.pattern (pronouns "lady"))] ∧
      ∃ lexicon, Grammar.compile (· = "en") "en" Grammar.persons = .ok lexicon ∧
        let lenient : Context :=
          ⟨lexicon, .ofList [("gender", .token "woman")], { aliasedPatterns := true }⟩
        let strict : Context :=
          { lenient with switches := { lenient.switches with raises := true } }
        Pattern.Synonymous lexicon (pronouns "lady") (pronouns "f") ∧
          (pronouns "f").resolve lenient = .ok "she" ∧
          ∃ problem, Problem.Respells lexicon (.wrongKind "lady" "count" "gender") problem ∧
            (pronouns "f").resolve strict = .error ⟨(pronouns "f").source, problem⟩ := by
  refine ⟨by decide +kernel, ?_⟩
  have hcheck : (Grammar.compile (· = "en") "en" Grammar.persons).toOption.map (fun lexicon ↦
      let lenient : Context :=
        ⟨lexicon, .ofList [("gender", .token "woman")], { aliasedPatterns := true }⟩
      let strict : Context :=
        { lenient with switches := { lenient.switches with raises := true } }
      decide ((lexicon.resolve? "lady").map (·.id) = some 1 ∧
        (lexicon.resolve? "f").map (·.id) = some 1 ∧
        (pronouns "lady").resolve lenient = .ok "she" ∧
        (pronouns "lady").resolve strict =
          .error ⟨(pronouns "lady").source, .wrongKind "lady" "count" "gender"⟩)) = some true := by
    decide +kernel
  obtain ⟨lexicon, hlexicon, hfacts⟩ := Option.map_eq_some_iff.mp hcheck
  obtain ⟨hlady, hf, htext, hproblem⟩ := of_decide_eq_true hfacts
  obtain ⟨lady, hlady, hladyId⟩ := Option.map_eq_some_iff.mp hlady
  obtain ⟨f, hf, hfId⟩ := Option.map_eq_some_iff.mp hf
  refine ⟨lexicon, toOption_eq_some_iff.mp hlexicon, ?_⟩
  intro lenient strict
  have hname : lexicon.Synonymous "lady" "f" :=
    .inr ⟨lady, f, hlady, hf, hfId.trans hladyId.symm⟩
  have hkept (name : String) : Matcher.Synonymous lexicon (.name name) (.name name) :=
    .name (.inl rfl)
  have hsynonymous : Pattern.Synonymous lexicon (pronouns "lady") (pronouns "f") :=
    ⟨rfl, .cons ⟨.cons (.cons (hkept "m") (.cons .any .nil)) .nil, rfl, rfl⟩
      (.cons ⟨.cons (.cons (.name hname) (.cons (hkept "one") .nil))
        (.cons (.cons (hkept "m") (.cons (.name hname) .nil)) .nil), rfl, rfl⟩ .nil), rfl⟩
  obtain ⟨hsame, -⟩ := resolve_of_synonymous lenient rfl hsynonymous
  obtain ⟨-, hrespelled⟩ := resolve_of_synonymous strict rfl hsynonymous
  exact ⟨hsynonymous, hsame "she" htext, (hrespelled _ hproblem).2⟩

end Context

end Concord
