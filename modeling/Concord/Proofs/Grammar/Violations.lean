import Concord.Proofs.Grammar.Validity
import Mathlib.Data.List.Chain

/-!
# What the errors of a grammar point at

A grammar that has no lexicon for a locale is refused with an error. `Grammar.Violates` says of each
error what has to be wrong with the locale or the grammar for it to be true, in terms of what the
kinds declare. The main statement is `violates_of_compile_eq_error`: every error is true.

The errors of aliases come from a walk along targets. Its trail is a path of aliases of one kind
that ends where the walk stands (`IsTrail`), so that the walk reports the alias that it stands at,
and a cycle as the trail with the name that is met again.
-/

set_option autoImplicit false
set_option relaxedAutoImplicit false

namespace Concord

open Traversal

namespace Grammar

/-- The kind has an alias under the one name that points at the other. -/
def PointsAt (grammar : Grammar) (kind name target : String) : Prop :=
  grammar.Declares kind name (.aliasOf target)

/-- What the error reports is true of the locale and the grammar. -/
inductive Violates (isLocale : String → Bool) (locale : String) (grammar : Grammar) :
    GrammarError → Prop
  | invalidLocale (hlocale : isLocale locale = false) :
    Violates isLocale locale grammar (.invalidLocale locale)
  | malformedKind {kind : String} (hkind : kind ∈ grammar.kinds)
    (hname : Text.isName kind = false) : Violates isLocale locale grammar (.malformedKind kind)
  | notAName {kind name : String} {entry : Entry} (hdeclares : grammar.Declares kind name entry)
    (hname : Text.isName name = false) :
    Violates isLocale locale grammar (.malformedToken kind name .notAName)
  | blankDescription {kind name description : String}
    (hdeclares : grammar.Declares kind name (.real description))
    (hblank : ∀ c ∈ description.toList, Text.isBlank c) :
    Violates isLocale locale grammar (.malformedToken kind name .blankDescription)
  | noTarget {kind name : String} (halias : grammar.PointsAt kind name "") :
    Violates isLocale locale grammar (.malformedToken kind name .noTarget)
  | noDefaultNamed {kind : String} {entry : Entry} (hdefault : grammar.HasDefault kind entry)
    (hempty : entry.referent = "") :
    Violates isLocale locale grammar (.malformedToken kind defaultKey .noDefaultNamed)
  | duplicateToken {token first second : String} {entry another : Entry} (hlt : first < second)
    (hfirst : grammar.Declares first token entry)
    (hsecond : grammar.Declares second token another) :
    Violates isLocale locale grammar (.duplicateToken token first second)
  | danglingAlias {kind name target : String} (halias : grammar.PointsAt kind name target)
    (hundeclared : ∀ other entry, ¬grammar.Declares other target entry) :
    Violates isLocale locale grammar (.danglingAlias kind name target)
  | aliasKindMismatch {kind name target targetKind : String} {entry : Entry}
    (halias : grammar.PointsAt kind name target)
    (htarget : grammar.Declares targetKind target entry) (hne : targetKind ≠ kind) :
    Violates isLocale locale grammar (.aliasKindMismatch kind name target targetKind)
  /-- The names before the last are distinct, and the last is one of them. -/
  | aliasCycle {kind last : String} {visited : List String}
    (hchain : (visited ++ [last]).IsChain (grammar.PointsAt kind)) (hnodup : visited.Nodup)
    (hlast : last ∈ visited) :
    Violates isLocale locale grammar (.aliasCycle kind (visited ++ [last]))
  | danglingDefault {kind : String} {entry : Entry} (hdefault : grammar.HasDefault kind entry)
    (hundeclared : ∀ other found, ¬grammar.Declares other entry.referent found) :
    Violates isLocale locale grammar (.danglingDefault kind entry.referent)
  | defaultOutsideKind {kind targetKind : String} {entry found : Entry}
    (hdefault : grammar.HasDefault kind entry)
    (htarget : grammar.Declares targetKind entry.referent found) (hne : targetKind ≠ kind) :
    Violates isLocale locale grammar (.defaultOutsideKind kind entry.referent targetKind)

/-- The names follow the aliases of the kind, none comes twice, and the last is the given one. -/
structure IsTrail (grammar : Grammar) (kind : String) (trail : List String) (current : String) :
    Prop where
  chain : trail.IsChain (grammar.PointsAt kind)
  nodup : trail.Nodup
  getLast?_eq : trail.getLast? = some current

variable {isLocale : String → Bool} {locale : String} {grammar : Grammar} {error : GrammarError}

/-! ### Errors of entries -/

/-- The kind that declares a name first comes before any other that does. -/
theorem kind_lt_of_find? {first declaration : Declaration}
    (hmem : declaration ∈ grammar.declarations)
    (hfirst : Declaration.find? grammar.declarations declaration.name = some first)
    (hne : first.kind ≠ declaration.kind) : first.kind < declaration.kind := by
  -- The first declaration of the name stands before the other in the list, which goes by kinds.
  obtain ⟨-, before, after, hsplit, hbefore⟩ := List.find?_eq_some_iff_append.mp hfirst
  have hpairwise := pairwise_declarations grammar
  rw [hsplit] at hmem hpairwise
  have hafter : declaration ∈ after := by
    rcases List.mem_append.mp hmem with hmem | hmem
    · have hother := hbefore declaration hmem
      simp at hother
    · rcases List.mem_cons.mp hmem with rfl | hmem
      · exact absurd rfl hne
      · exact hmem
  have hcons := (List.pairwise_append.mp hpairwise).2.1
  rcases (List.pairwise_cons.mp hcons).1 declaration hafter with hlt | ⟨heq, -⟩
  · exact hlt
  · exact absurd heq hne

/-- What is wrong with an entry by itself is true. -/
theorem violates_of_entry_fault? {kind name : String} {entry : Entry} {fault : EntryFault}
    (hdeclares : grammar.Declares kind name entry) (h : entry.fault? name = some fault) :
    grammar.Violates isLocale locale (.malformedToken kind name fault) := by
  unfold Entry.fault? at h
  split at h
  · cases entry with
    | real description =>
      dsimp only at h
      split at h
      · next hblank =>
        obtain rfl := Option.some.inj h
        exact .blankDescription hdeclares ((Text.trim_eq_empty_iff description).mp hblank)
      · cases h
    | aliasOf target =>
      dsimp only at h
      split at h
      · next hempty =>
        obtain rfl := Option.some.inj h
        subst hempty
        exact .noTarget hdeclares
      · cases h
  · next hname =>
    obtain rfl := Option.some.inj h
    exact .notAName hdeclares (Bool.eq_false_iff.mpr hname)

/-- What is wrong with a declaration is true. -/
theorem violates_of_declaration_fault? {declaration : Declaration}
    (hmem : declaration ∈ grammar.declarations)
    (h : declaration.fault? grammar.declarations = some error) :
    grammar.Violates isLocale locale error := by
  have hdeclares := mem_declarations_iff.mp hmem
  unfold Declaration.fault? at h
  split at h
  · next fault hfault =>
    obtain rfl := Option.some.inj h
    exact violates_of_entry_fault? hdeclares hfault
  · split at h
    · next first hfirst =>
      split at h
      · cases h
      · next hne =>
        obtain rfl := Option.some.inj h
        exact .duplicateToken (kind_lt_of_find? hmem hfirst hne) (declares_of_find? hfirst)
          hdeclares
    · cases h

/-- What is wrong with the kinds and entries of a grammar is true. -/
theorem violates_of_fault? (h : grammar.fault? = some error) :
    grammar.Violates isLocale locale error := by
  obtain ⟨⟨kind, declared⟩, hkind, hfault⟩ := List.exists_of_findSome?_eq_some h
  split at hfault
  · obtain ⟨declaration, hdeclaration, hfault⟩ := List.exists_of_findSome?_eq_some hfault
    have hmem : declaration ∈ grammar.declarations :=
      List.mem_flatMap.mpr ⟨(kind, declared), hkind, hdeclaration⟩
    exact violates_of_declaration_fault? hmem hfault
  · next hname =>
    obtain rfl := Option.some.inj hfault
    exact .malformedKind (mem_kinds_iff.mpr ⟨declared, hkind⟩) (Bool.eq_false_iff.mpr hname)

/-! ### Errors of aliases and defaults -/

theorem isTrail_singleton (grammar : Grammar) (kind name : String) :
    grammar.IsTrail kind [name] name :=
  ⟨.singleton name, List.nodup_singleton name, rfl⟩

/-- An alias at the end of a trail goes on to its target. -/
theorem IsTrail.isChain_append {kind current target : String} {trail : List String}
    (h : grammar.IsTrail kind trail current) (halias : grammar.PointsAt kind current target) :
    (trail ++ [target]).IsChain (grammar.PointsAt kind) := by
  refine h.chain.append (.singleton target) fun last hlast next hnext ↦ ?_
  rw [h.getLast?_eq] at hlast
  obtain rfl := Option.some.inj hlast
  obtain rfl := Option.some.inj hnext
  exact halias

/-- A trail grows by the target of its last name if that is new. -/
theorem IsTrail.append {kind current target : String} {trail : List String}
    (h : grammar.IsTrail kind trail current) (halias : grammar.PointsAt kind current target)
    (hnew : target ∉ trail) : grammar.IsTrail kind (trail ++ [target]) target := by
  refine ⟨h.isChain_append halias, ?_, List.getLast?_concat⟩
  refine List.nodup_append.mpr ⟨h.nodup, List.nodup_singleton target, ?_⟩
  intro visited hvisited last hlast heq
  rw [heq, List.mem_singleton.mp hlast] at hvisited
  exact hnew hvisited

theorem pointsAt_of_entry_eq {declaration : Declaration} {target : String}
    (hmem : declaration ∈ grammar.declarations) (hentry : declaration.entry = .aliasOf target) :
    grammar.PointsAt declaration.kind declaration.name target := by
  have hdeclares := mem_declarations_iff.mp hmem
  rwa [hentry] at hdeclares

/-- What a walk along aliases fails with is true. -/
theorem violates_of_follow {kind : String} {trail : List String} {current : Declaration}
    (hcurrent : current ∈ grammar.declarations) (hkind : current.kind = kind)
    (htrail : grammar.IsTrail kind trail current.name)
    (h : Declaration.follow grammar.declarations kind trail current = .error error) :
    grammar.Violates isLocale locale error := by
  -- Each step reports the alias that the walk stands at, and only the last needs the whole trail.
  fun_induction Declaration.follow grammar.declarations kind trail current with
  | case1 => cases h
  | case2 trail current target hentry hnone =>
    obtain rfl := Except.error.inj h
    exact .danglingAlias (hkind ▸ pointsAt_of_entry_eq hcurrent hentry)
      (not_declares_of_find?_eq_none hnone)
  | case3 trail current target hentry next hnext hne =>
    obtain rfl := Except.error.inj h
    exact .aliasKindMismatch (hkind ▸ pointsAt_of_entry_eq hcurrent hentry)
      (declares_of_find? hnext) hne
  | case4 trail current target hentry next hnext hnextKind hvisited =>
    obtain rfl := Except.error.inj h
    exact .aliasCycle (htrail.isChain_append (hkind ▸ pointsAt_of_entry_eq hcurrent hentry))
      htrail.nodup hvisited
  | case5 trail current target hentry next hnext hnextKind hvisited hlt ih =>
    refine ih (Declaration.mem_of_find? hnext) (not_not.mp hnextKind) ?_ h
    rw [Declaration.name_of_find? hnext]
    exact htrail.append (hkind ▸ pointsAt_of_entry_eq hcurrent hentry) hvisited

theorem violates_of_settle {declaration : Declaration}
    (hmem : declaration ∈ grammar.declarations)
    (h : declaration.settle grammar.declarations = .error error) :
    grammar.Violates isLocale locale error :=
  violates_of_follow hmem rfl (isTrail_singleton grammar _ _) h

theorem violates_of_settleDefault {kind : String} {entry : Entry}
    (hdefault : grammar.HasDefault kind entry)
    (h : Declaration.settleDefault grammar.declarations kind entry = .error error) :
    grammar.Violates isLocale locale error := by
  unfold Declaration.settleDefault at h
  split at h
  · next hempty =>
    obtain rfl := Except.error.inj h
    exact .noDefaultNamed hdefault hempty
  · split at h
    · next hnone =>
      obtain rfl := Except.error.inj h
      exact .danglingDefault hdefault (not_declares_of_find?_eq_none hnone)
    · next found hfound =>
      split at h
      · exact violates_of_settle (Declaration.mem_of_find? hfound) h
      · next hne =>
        obtain rfl := Except.error.inj h
        exact .defaultOutsideKind hdefault (declares_of_find? hfound) hne

theorem violates_of_settledAliases (h : grammar.settledAliases = .error error) :
    grammar.Violates isLocale locale error := by
  obtain ⟨before, declaration, after, hsplit, hfails, -⟩ := mapM_eq_error_iff.mp h
  have hmem : declaration ∈ grammar.declarations.filter (·.entry.isAlias) := by
    rw [hsplit]
    exact List.mem_append_right before List.mem_cons_self
  exact violates_of_settle (List.mem_filter.mp hmem).1 (map_eq_error_iff.mp hfails)

theorem violates_of_settledDefaults (h : grammar.settledDefaults = .error error) :
    grammar.Violates isLocale locale error := by
  obtain ⟨before, default, after, hsplit, hfails, -⟩ := mapM_eq_error_iff.mp h
  have hmem : default ∈ grammar.defaults := by
    rw [hsplit]
    exact List.mem_append_right before List.mem_cons_self
  exact violates_of_settleDefault (mem_defaults_iff.mp hmem) (map_eq_error_iff.mp hfails)

/-- Assumes: a grammar that has no lexicon for a locale. What its error reports is true of them. -/
theorem violates_of_compile_eq_error {isLocale : String → Bool} {locale : String}
    {grammar : Grammar} {error : GrammarError}
    (h : compile isLocale locale grammar = .error error) :
    grammar.Violates isLocale locale error := by
  unfold compile at h
  split at h
  · split at h
    · next fault hfault =>
      obtain rfl := Except.error.inj h
      exact violates_of_fault? hfault
    · rcases bind_eq_error_iff.mp h with haliases | ⟨aliases, -, h⟩
      · exact violates_of_settledAliases haliases
      · rcases bind_eq_error_iff.mp h with hdefaults | ⟨defaults, -, h⟩
        · exact violates_of_settledDefaults hdefaults
        · cases h
  · next hlocale =>
    obtain rfl := Except.error.inj h
    exact .invalidLocale (Bool.eq_false_iff.mpr hlocale)

/-- A grammar in which an alias leads into a cycle of two others. -/
def circular : Grammar :=
  let gender := KindDeclaration.mk ∅
    |>.insertReal "m" "male"
    |>.insertAlias "boy" "lad"
    |>.insertAlias "lad" "youth"
    |>.insertAlias "youth" "lad"
    |>.setDefault "m"
  Grammar.mk ∅ |>.insertKind "gender" gender

/-- A grammar in which an alias leads to one that points at a token of another kind. -/
def straying : Grammar :=
  let gender := KindDeclaration.mk ∅
    |>.insertReal "m" "male"
    |>.insertAlias "boy" "lad"
    |>.insertAlias "lad" "one"
  let count := KindDeclaration.mk ∅
    |>.insertReal "one" "singular"
  Grammar.mk ∅ |>.insertKind "gender" gender |>.insertKind "count" count

theorem violates_of_compile_eq_error_circular :
    compile (· = "en") "en" circular =
        .error (.aliasCycle "gender" ["boy", "lad", "youth", "lad"]) ∧
      circular.Violates (· = "en") "en" (.aliasCycle "gender" ["boy", "lad", "youth", "lad"]) ∧
      compile (· = "en") "en" straying = .error (.aliasKindMismatch "gender" "lad" "one" "count") ∧
      straying.Violates (· = "en") "en" (.aliasKindMismatch "gender" "lad" "one" "count") := by
  have hcycle : compile (· = "en") "en" circular =
      .error (.aliasCycle "gender" ["boy", "lad", "youth", "lad"]) := by
    decide +kernel
  have hmismatch : compile (· = "en") "en" straying =
      .error (.aliasKindMismatch "gender" "lad" "one" "count") := by
    decide +kernel
  exact ⟨hcycle, violates_of_compile_eq_error hcycle, hmismatch,
    violates_of_compile_eq_error hmismatch⟩

end Grammar

end Concord
