import Concord.Proofs.Grammar.Aliases
import Concord.Proofs.Text

/-!
# The grammars that have a lexicon

`Grammar.Valid` says what a grammar has to be like, in terms of what it declares. Its condition on
aliases is `Grammar.SettlesIn`: following targets from a name ends at a real token after so many
steps, and never leaves the kind on the way. The main statement is `exists_compile_iff`: the
grammars that have a lexicon for a locale are just the valid ones, for a valid locale.

A walk along aliases refuses a name that it has visited, so that it has to be shown that it never
meets one in a valid grammar. The number of steps that are left from a name is determined by it
(`SettlesIn.unique`) and goes down along the walk, hence no name comes twice
(`exists_follow_of_settlesIn`).
-/

set_option autoImplicit false
set_option relaxedAutoImplicit false

namespace Concord

/-- A description is not blank throughout, and an alias has a target. -/
def Entry.Meaningful : Entry → Prop
  | .real description => ∃ c ∈ description.toList, ¬ Text.isBlank c
  | .aliasOf target => target ≠ ""

/-- An entry by itself has no fault if it is meaningful and its name is a name. -/
theorem Entry.fault?_eq_none_iff {name : String} {entry : Entry} :
    entry.fault? name = none ↔ Text.isName name ∧ entry.Meaningful := by
  by_cases hname : Text.isName name = true
  · cases entry with
    | real description => simp [Entry.fault?, hname, Entry.Meaningful, Text.trim_eq_empty_iff]
    | aliasOf target => simp [Entry.fault?, hname, Entry.Meaningful]
  · simp [Entry.fault?, hname]

/-- A declaration has no fault if its entry has none and the first declaration of its name is by
the same kind. -/
theorem Declaration.fault?_eq_none_iff {declared : List Declaration} {declaration : Declaration} :
    declaration.fault? declared = none ↔
      declaration.entry.fault? declaration.name = none ∧
        ∀ first, Declaration.find? declared declaration.name = some first →
          first.kind = declaration.kind := by
  rw [Declaration.fault?]
  cases declaration.entry.fault? declaration.name with
  | some fault => simp
  | none =>
    cases Declaration.find? declared declaration.name with
    | none => simp
    | some first => simp

namespace Grammar

/-- Following the aliases of the kind from a name reaches a description after so many steps, by
names that the kind has entries for. -/
def SettlesIn (grammar : Grammar) (kind : String) : Nat → String → Prop
  | 0, name => ∃ description, grammar.Declares kind name (.real description)
  | steps + 1, name =>
    ∃ target, grammar.Declares kind name (.aliasOf target) ∧ grammar.SettlesIn kind steps target

/-- The grammar is fit to be compiled. -/
structure Valid (grammar : Grammar) : Prop where
  kinds_named (kind : String) (hkind : kind ∈ grammar.kinds) : Text.isName kind
  entries_named (kind name : String) (entry : Entry)
    (hdeclares : grammar.Declares kind name entry) : Text.isName name
  entries_meaningful (kind name : String) (entry : Entry)
    (hdeclares : grammar.Declares kind name entry) : entry.Meaningful
  /-- No two kinds have an entry of one name. -/
  declared_once (name kind other : String) (entry another : Entry)
    (hfirst : grammar.Declares kind name entry) (hsecond : grammar.Declares other name another) :
    kind = other
  aliases_settle (kind name target : String)
    (halias : grammar.Declares kind name (.aliasOf target)) :
    ∃ steps, grammar.SettlesIn kind steps name
  defaults_declared (kind : String) (entry : Entry) (hdefault : grammar.HasDefault kind entry) :
    entry.referent ≠ "" ∧ ∃ found, grammar.Declares kind entry.referent found

variable {grammar : Grammar}

/-! ### Faults of kinds and entries -/

/-- A kind of a grammar is listed with its entries. -/
theorem mem_kinds_iff {kind : String} :
    kind ∈ grammar.kinds ↔ ∃ declared, (kind, declared) ∈ grammar.kinds.toList := by
  simp only [mem_table_iff, Std.ExtTreeMap.mem_toList_iff_getElem?_eq_some]

/-- A grammar has no fault if its kinds have names and its declarations have no fault. -/
theorem fault?_eq_none_iff :
    grammar.fault? = none ↔
      (∀ kind ∈ grammar.kinds, Text.isName kind) ∧
        ∀ declaration ∈ grammar.declarations,
          declaration.fault? grammar.declarations = none := by
  constructor
  · refine fun h ↦ ⟨fun kind hkind ↦ ?_, fun declaration ↦ fault?_of_mem_declarations h⟩
    obtain ⟨declared, hmem⟩ := mem_kinds_iff.mp hkind
    have hfault := List.findSome?_eq_none_iff.mp h _ hmem
    split at hfault
    · assumption
    · cases hfault
  · rintro ⟨hkinds, hdeclarations⟩
    refine List.findSome?_eq_none_iff.mpr fun kind hkind ↦ ?_
    rw [if_pos (hkinds kind.1 (mem_kinds_iff.mpr ⟨kind.2, hkind⟩)), List.findSome?_eq_none_iff]
    intro declaration hdeclaration
    exact hdeclarations declaration (List.mem_flatMap.mpr ⟨kind, hkind, hdeclaration⟩)

/-- A valid grammar has no fault. -/
theorem Valid.fault?_eq_none (h : grammar.Valid) : grammar.fault? = none := by
  refine fault?_eq_none_iff.mpr ⟨h.kinds_named, fun declaration hdeclaration ↦ ?_⟩
  have hdeclares := mem_declarations_iff.mp hdeclaration
  refine Declaration.fault?_eq_none_iff.mpr ⟨Entry.fault?_eq_none_iff.mpr
    ⟨h.entries_named _ _ _ hdeclares, h.entries_meaningful _ _ _ hdeclares⟩, fun first hfirst ↦ ?_⟩
  exact h.declared_once _ _ _ _ _ (declares_of_find? hfirst) hdeclares

/-- A grammar without a fault meets all that `Valid` asks of single entries. -/
theorem meaningful_of_declares (h : grammar.fault? = none) {kind name : String} {entry : Entry}
    (hdeclares : grammar.Declares kind name entry) : Text.isName name ∧ entry.Meaningful := by
  have hmem : (⟨kind, name, entry⟩ : Declaration) ∈ grammar.declarations :=
    mem_declarations_iff.mpr hdeclares
  have hfault := fault?_of_mem_declarations h hmem
  exact Entry.fault?_eq_none_iff.mp (Declaration.fault?_eq_none_iff.mp hfault).1

/-- In a grammar without a fault a declared name is found. -/
theorem find?_of_declares (h : grammar.fault? = none) {kind name : String} {entry : Entry}
    (hdeclares : grammar.Declares kind name entry) :
    Declaration.find? grammar.declarations name = some ⟨kind, name, entry⟩ := by
  obtain ⟨⟨other, same, found⟩, hfind, rfl⟩ := exists_find?_of_declares h hdeclares
  obtain rfl : same = name := Declaration.name_of_find? hfind
  obtain ⟨-, rfl⟩ := declaration_unique h hdeclares (declares_of_find? hfind)
  exact hfind

/-! ### Walks along aliases -/

/-- In a grammar without a fault a name settles after one number of steps at most. -/
theorem SettlesIn.unique (h : grammar.fault? = none) {kind name : String} {steps more : Nat}
    (hsteps : grammar.SettlesIn kind steps name) (hmore : grammar.SettlesIn kind more name) :
    steps = more := by
  induction steps generalizing more name with
  | zero =>
    obtain ⟨description, hreal⟩ := hsteps
    cases more with
    | zero => rfl
    | succ more =>
      obtain ⟨target, halias, -⟩ := hmore
      cases (declaration_unique h hreal halias).2
  | succ steps ih =>
    obtain ⟨target, halias, htarget⟩ := hsteps
    cases more with
    | zero =>
      obtain ⟨description, hreal⟩ := hmore
      cases (declaration_unique h halias hreal).2
    | succ more =>
      obtain ⟨other, halias', hother⟩ := hmore
      obtain rfl := Entry.aliasOf.inj (declaration_unique h halias halias').2
      rw [ih htarget hother]

/-- A walk that ends has settled. -/
theorem exists_settlesIn_of_follow {kind : String} {trail : List String} {current : Declaration}
    {reached : String} (hcurrent : current ∈ grammar.declarations) (hkind : current.kind = kind)
    (h : Declaration.follow grammar.declarations kind trail current = .ok reached) :
    ∃ steps, grammar.SettlesIn kind steps current.name := by
  fun_induction Declaration.follow grammar.declarations kind trail current with
  | case1 trail current description hentry =>
    have hdeclares := mem_declarations_iff.mp hcurrent
    rw [hkind, hentry] at hdeclares
    exact ⟨0, description, hdeclares⟩
  | case2 => cases h
  | case3 => cases h
  | case4 => cases h
  | case5 trail current target hentry next hnext hnextKind hvisited hlt ih =>
    have hdeclares := mem_declarations_iff.mp hcurrent
    rw [hkind, hentry] at hdeclares
    obtain ⟨steps, hsteps⟩ := ih (Declaration.mem_of_find? hnext) (not_not.mp hnextKind) h
    rw [Declaration.name_of_find? hnext] at hsteps
    exact ⟨steps + 1, target, hdeclares, hsteps⟩

/-- A walk from a name that settles ends, if as many steps are left from every name on its trail,
or more. -/
theorem exists_follow_of_settlesIn (h : grammar.fault? = none) {kind : String} {steps : Nat}
    {trail : List String} {current : Declaration} (hcurrent : current ∈ grammar.declarations)
    (hkind : current.kind = kind) (hsettles : grammar.SettlesIn kind steps current.name)
    (htrail : ∀ visited ∈ trail, ∃ more, steps ≤ more ∧ grammar.SettlesIn kind more visited) :
    ∃ reached, Declaration.follow grammar.declarations kind trail current = .ok reached := by
  have hdeclares := mem_declarations_iff.mp hcurrent
  induction steps generalizing trail current with
  | zero =>
    obtain ⟨description, hreal⟩ := hsettles
    have hentry := (declaration_unique h hdeclares hreal).2
    exact ⟨current.name, by rw [Declaration.follow, hentry]⟩
  | succ steps ih =>
    obtain ⟨target, halias, htarget⟩ := hsettles
    have hentry := (declaration_unique h hdeclares halias).2
    obtain ⟨found, hfound⟩ : ∃ entry, grammar.Declares kind target entry := by
      cases steps with
      | zero => exact ⟨_, htarget.choose_spec⟩
      | succ steps => exact ⟨_, htarget.choose_spec.1⟩
    have hnext := find?_of_declares h hfound
    -- The target has fewer steps left than any name on the trail, so it is none of them.
    have hvisited : target ∉ trail := by
      intro hmem
      obtain ⟨more, hle, hmore⟩ := htrail target hmem
      have := htarget.unique h hmore
      omega
    have hlonger : ∀ visited ∈ trail ++ [target],
        ∃ more, steps ≤ more ∧ grammar.SettlesIn kind more visited := by
      intro visited hmem
      rcases List.mem_append.mp hmem with hmem | hmem
      · obtain ⟨more, hle, hmore⟩ := htrail visited hmem
        exact ⟨more, Nat.le_of_succ_le hle, hmore⟩
      · obtain rfl := List.mem_singleton.mp hmem
        exact ⟨steps, Nat.le_refl steps, htarget⟩
    obtain ⟨reached, hreached⟩ := ih (Declaration.mem_of_find? hnext) rfl htarget hlonger hfound
    refine ⟨reached, ?_⟩
    rw [Declaration.follow, hentry]
    dsimp only
    split
    · next hnone =>
      rw [hnext] at hnone
      cases hnone
    · next hsome =>
      obtain rfl := Option.some.inj (hnext.symm.trans hsome)
      rw [if_neg (not_not.mpr rfl), dif_neg hvisited]
      exact hreached

/-- A declaration settles if following its targets ends within its kind, and only then. -/
theorem exists_settle_iff (h : grammar.fault? = none) {declaration : Declaration}
    (hdeclaration : declaration ∈ grammar.declarations) :
    (∃ reached, declaration.settle grammar.declarations = .ok reached) ↔
      ∃ steps, grammar.SettlesIn declaration.kind steps declaration.name := by
  constructor
  · rintro ⟨reached, hreached⟩
    exact exists_settlesIn_of_follow hdeclaration rfl hreached
  · rintro ⟨steps, hsteps⟩
    refine exists_follow_of_settlesIn h hdeclaration rfl hsteps fun visited hvisited ↦ ?_
    obtain rfl := List.mem_singleton.mp hvisited
    exact ⟨steps, Nat.le_refl steps, hsteps⟩

/-! ### Aliases and defaults -/

/-- All aliases of a grammar settle if following the targets of each ends within its kind. -/
theorem exists_settledAliases_iff (h : grammar.fault? = none) :
    (∃ aliases, grammar.settledAliases = .ok aliases) ↔
      ∀ kind name target, grammar.Declares kind name (.aliasOf target) →
        ∃ steps, grammar.SettlesIn kind steps name := by
  rw [settledAliases, Traversal.exists_mapM_eq_ok_iff]
  constructor
  · intro hsettled kind name target halias
    have hmem : (⟨kind, name, .aliasOf target⟩ : Declaration) ∈ grammar.declarations :=
      mem_declarations_iff.mpr halias
    obtain ⟨settled, hok⟩ := hsettled _ (List.mem_filter.mpr ⟨hmem, rfl⟩)
    obtain ⟨reached, hreached, -⟩ := Traversal.map_eq_ok_iff.mp hok
    exact (exists_settle_iff h hmem).mp ⟨reached, hreached⟩
  · rintro hsettles ⟨kind, name, entry⟩ hmem
    obtain ⟨hdeclaration, halias⟩ := List.mem_filter.mp hmem
    cases entry with
    | real description => cases halias
    | aliasOf target =>
      have hsteps := hsettles kind name target (mem_declarations_iff.mp hdeclaration)
      obtain ⟨reached, hreached⟩ := (exists_settle_iff h hdeclaration).mpr hsteps
      exact ⟨_, Traversal.map_eq_ok_iff.mpr ⟨reached, hreached, rfl⟩⟩

/-- Where all aliases settle, a default entry does if it refers to an entry of its kind, and only
then. -/
theorem exists_settleDefault_iff (h : grammar.fault? = none)
    (haliases : ∀ kind name target, grammar.Declares kind name (.aliasOf target) →
      ∃ steps, grammar.SettlesIn kind steps name) (kind : String) (entry : Entry) :
    (∃ reached, Declaration.settleDefault grammar.declarations kind entry = .ok reached) ↔
      entry.referent ≠ "" ∧ ∃ found, grammar.Declares kind entry.referent found := by
  unfold Declaration.settleDefault
  constructor
  · rintro ⟨reached, hreached⟩
    split at hreached
    · cases hreached
    · next hreferent =>
      split at hreached
      · cases hreached
      · next found hfound =>
        split at hreached
        · next hkind =>
          exact ⟨hreferent, found.entry, hkind ▸ declares_of_find? hfound⟩
        · cases hreached
  · rintro ⟨hreferent, found, hdeclares⟩
    have hfind := find?_of_declares h hdeclares
    have hsteps : ∃ steps, grammar.SettlesIn kind steps entry.referent := by
      cases found with
      | real description => exact ⟨0, description, hdeclares⟩
      | aliasOf target => exact haliases kind _ target hdeclares
    rw [if_neg hreferent, hfind]
    dsimp only
    rw [if_pos rfl]
    exact (exists_settle_iff h (Declaration.mem_of_find? hfind)).mpr hsteps

/-- Where all aliases settle, all default entries do if each refers to an entry of its kind. -/
theorem exists_settledDefaults_iff (h : grammar.fault? = none)
    (haliases : ∀ kind name target, grammar.Declares kind name (.aliasOf target) →
      ∃ steps, grammar.SettlesIn kind steps name) :
    (∃ defaults, grammar.settledDefaults = .ok defaults) ↔
      ∀ kind entry, grammar.HasDefault kind entry →
        entry.referent ≠ "" ∧ ∃ found, grammar.Declares kind entry.referent found := by
  rw [settledDefaults, Traversal.exists_mapM_eq_ok_iff]
  constructor
  · intro hsettled kind entry hdefault
    obtain ⟨settled, hok⟩ := hsettled (kind, entry) (mem_defaults_iff.mpr hdefault)
    obtain ⟨reached, hreached, -⟩ := Traversal.map_eq_ok_iff.mp hok
    exact (exists_settleDefault_iff h haliases kind entry).mp ⟨reached, hreached⟩
  · rintro hdeclared ⟨kind, entry⟩ hmem
    have hdefault := hdeclared kind entry (mem_defaults_iff.mp hmem)
    obtain ⟨reached, hreached⟩ := (exists_settleDefault_iff h haliases kind entry).mpr hdefault
    exact ⟨_, Traversal.map_eq_ok_iff.mpr ⟨reached, hreached, rfl⟩⟩

/-! ### Grammars with a lexicon -/

/-- The lexicon of a grammar is assembled from its settled aliases and defaults, where the locale is
valid and the grammar has no fault. -/
theorem compile_eq_ok_iff {isLocale : String → Bool} {locale : String} {lexicon : Lexicon} :
    compile isLocale locale grammar = .ok lexicon ↔
      isLocale locale ∧ grammar.fault? = none ∧
        ∃ aliases defaults, grammar.settledAliases = .ok aliases ∧
          grammar.settledDefaults = .ok defaults ∧
            grammar.assemble locale aliases defaults = lexicon := by
  rw [compile]
  constructor
  · intro h
    split at h
    · next hlocale =>
      split at h
      · cases h
      · next hfault =>
        obtain ⟨aliases, haliases, h⟩ := Traversal.bind_eq_ok_iff.mp h
        obtain ⟨defaults, hdefaults, h⟩ := Traversal.bind_eq_ok_iff.mp h
        exact ⟨hlocale, hfault, aliases, defaults, haliases, hdefaults, Except.ok.inj h⟩
    · cases h
  · rintro ⟨hlocale, hfault, aliases, defaults, haliases, hdefaults, rfl⟩
    rw [if_pos hlocale, hfault, haliases, hdefaults]
    rfl

/-- A grammar has a lexicon if the locale is valid and the grammar has no fault, and if its aliases
and defaults settle. -/
theorem exists_compile_iff_settled {isLocale : String → Bool} {locale : String} :
    (∃ lexicon, compile isLocale locale grammar = .ok lexicon) ↔
      isLocale locale ∧ grammar.fault? = none ∧
        (∃ aliases, grammar.settledAliases = .ok aliases) ∧
          ∃ defaults, grammar.settledDefaults = .ok defaults := by
  constructor
  · rintro ⟨lexicon, h⟩
    obtain ⟨hlocale, hfault, aliases, defaults, haliases, hdefaults, -⟩ := compile_eq_ok_iff.mp h
    exact ⟨hlocale, hfault, ⟨aliases, haliases⟩, ⟨defaults, hdefaults⟩⟩
  · rintro ⟨hlocale, hfault, ⟨aliases, haliases⟩, ⟨defaults, hdefaults⟩⟩
    exact ⟨_, compile_eq_ok_iff.mpr
      ⟨hlocale, hfault, aliases, defaults, haliases, hdefaults, rfl⟩⟩

/-- A grammar has a lexicon for a locale if both are valid, and only then. -/
theorem exists_compile_iff (isLocale : String → Bool) (locale : String) (grammar : Grammar) :
    (∃ lexicon, compile isLocale locale grammar = .ok lexicon) ↔
      isLocale locale ∧ grammar.Valid := by
  rw [exists_compile_iff_settled]
  refine and_congr_right fun _ ↦ ⟨?_, fun h ↦ ?_⟩
  · rintro ⟨hfault, haliases, hdefaults⟩
    rw [exists_settledAliases_iff hfault] at haliases
    rw [exists_settledDefaults_iff hfault haliases] at hdefaults
    refine ⟨(fault?_eq_none_iff.mp hfault).1, ?_, ?_, ?_, haliases, hdefaults⟩
    · intro kind name entry hdeclares
      exact (meaningful_of_declares hfault hdeclares).1
    · intro kind name entry hdeclares
      exact (meaningful_of_declares hfault hdeclares).2
    · intro name kind other entry another hfirst hsecond
      exact (declaration_unique hfault hfirst hsecond).1
  · have hfault := h.fault?_eq_none
    exact ⟨hfault, (exists_settledAliases_iff hfault).mpr h.aliases_settle,
      (exists_settledDefaults_iff hfault h.aliases_settle).mpr h.defaults_declared⟩

end Grammar

end Concord
