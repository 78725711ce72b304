import Concord.Lexicon.Compile
import Concord.Proofs.Traversal
import Mathlib.Data.List.Nodup

/-!
# Where aliases lead

`Grammar.Declares` and `Grammar.HasDefault` read the entries of a grammar off its kinds, and
`Grammar.LeadsTo` says which real token the aliases of a grammar lead to from a name.
In a grammar without a fault every name is declared once (`declaration_unique`), so that a name
leads to one token at most (`LeadsTo.unique`). The main statements are
`Declaration.exists_leadsTo_of_settle` and `Declaration.exists_leadsTo_of_settleDefault`: settling
an alias or a default entry gives the real token that its targets lead to, a token of its own kind.
-/

set_option autoImplicit false
set_option relaxedAutoImplicit false

namespace Concord

/-- The keys of a table are those that it has a value for. -/
theorem mem_table_iff {α : Type} {table : Std.ExtTreeMap String α} {key : String} :
    key ∈ table ↔ ∃ value, table[key]? = some value := by
  rw [Std.ExtTreeMap.mem_iff_isSome_getElem?, Option.isSome_iff_exists]

/-- A table that takes in a list has its values from before or from the list. -/
theorem mem_of_getElem?_insertMany {α : Type} {table : Std.ExtTreeMap String α}
    {entries : List (String × α)} {key : String} {value : α}
    (h : (table.insertMany entries)[key]? = some value) :
    table[key]? = some value ∨ (key, value) ∈ entries := by
  induction entries generalizing table with
  | nil => exact .inl (by simpa using h)
  | cons first rest ih =>
    rw [Std.ExtTreeMap.insertMany_cons] at h
    rcases ih h with hold | hrest
    · rw [Std.ExtTreeMap.getElem?_insert] at hold
      split at hold
      · next heq =>
        obtain rfl := Std.compare_eq_iff_eq.mp heq
        obtain rfl := Option.some.inj hold
        exact .inr List.mem_cons_self
      · exact .inl hold
    · exact .inr (List.mem_cons_of_mem first hrest)

/-- A table made of a list has its values from the list. -/
theorem mem_of_getElem?_ofList {α : Type} {entries : List (String × α)} {key : String} {value : α}
    (h : (Std.ExtTreeMap.ofList entries)[key]? = some value) : (key, value) ∈ entries := by
  rw [Std.ExtTreeMap.ofList_eq_insertMany_empty] at h
  rcases mem_of_getElem?_insertMany h with hempty | hmem
  · simp at hempty
  · exact hmem

/-- A table made of a list with distinct keys holds the entries of the list. -/
theorem getElem?_ofList_eq_some_iff {α : Type} {entries : List (String × α)}
    (hnodup : (entries.map (·.1)).Nodup) {key : String} {value : α} :
    (Std.ExtTreeMap.ofList entries)[key]? = some value ↔ (key, value) ∈ entries := by
  have hdistinct : entries.Pairwise fun first second ↦ ¬compare first.1 second.1 = .eq :=
    (List.pairwise_map.mp hnodup).imp fun hne heq ↦ hne (Std.compare_eq_iff_eq.mp heq)
  exact ⟨mem_of_getElem?_ofList,
    Std.ExtTreeMap.getElem?_ofList_of_mem (Std.compare_eq_iff_eq.mpr rfl) hdistinct⟩

namespace Grammar

/-- The kind has the entry, as a token or an alias, under the name. -/
def Declares (grammar : Grammar) (kind name : String) (entry : Entry) : Prop :=
  name ≠ defaultKey ∧
    ∃ declaration, grammar.kinds[kind]? = some declaration ∧ declaration.entries[name]? = some entry

/-- The entry says which token is the default of the kind. -/
def HasDefault (grammar : Grammar) (kind : String) (entry : Entry) : Prop :=
  ∃ declaration, grammar.kinds[kind]? = some declaration ∧
    declaration.entries[defaultKey]? = some entry

/-- Following the aliases of the grammar from a name ends at the real token. -/
inductive LeadsTo (grammar : Grammar) : String → Token → Prop
  | real {kind name description : String} (hreal : grammar.Declares kind name (.real description)) :
      LeadsTo grammar name ⟨name, description, kind⟩
  | aliasOf {kind name target : String} {token : Token}
      (halias : grammar.Declares kind name (.aliasOf target))
      (htarget : LeadsTo grammar target token) : LeadsTo grammar name token

variable {grammar : Grammar}

/-! ### The declarations of a grammar -/

/-- A kind that declares something is a kind of the grammar. -/
theorem Declares.mem_kinds {kind name : String} {entry : Entry}
    (h : grammar.Declares kind name entry) : kind ∈ grammar.kinds := by
  obtain ⟨-, declaration, hkind, -⟩ := h
  exact mem_table_iff.mpr ⟨declaration, hkind⟩

/-- The list of declarations holds what the kinds declare. -/
theorem mem_declarations_iff {declaration : Declaration} :
    declaration ∈ grammar.declarations ↔
      grammar.Declares declaration.kind declaration.name declaration.entry := by
  constructor
  · intro h
    obtain ⟨⟨kind, declared⟩, hkind, h⟩ := List.mem_flatMap.mp h
    obtain ⟨⟨name, entry⟩, hmember, rfl⟩ := List.mem_map.mp h
    obtain ⟨hentry, hname⟩ := List.mem_filter.mp hmember
    exact ⟨of_decide_eq_true hname, declared,
      Std.ExtTreeMap.mem_toList_iff_getElem?_eq_some.mp hkind,
      Std.ExtTreeMap.mem_toList_iff_getElem?_eq_some.mp hentry⟩
  · rintro ⟨hname, declared, hkind, hentry⟩
    refine List.mem_flatMap.mpr ⟨(declaration.kind, declared),
      Std.ExtTreeMap.mem_toList_iff_getElem?_eq_some.mpr hkind, ?_⟩
    refine List.mem_map.mpr ⟨(declaration.name, declaration.entry), ?_, rfl⟩
    exact List.mem_filter.mpr ⟨Std.ExtTreeMap.mem_toList_iff_getElem?_eq_some.mpr hentry,
      decide_eq_true hname⟩

/-- The list of defaults holds the default entries of the kinds. -/
theorem mem_defaults_iff {kind : String} {entry : Entry} :
    (kind, entry) ∈ grammar.defaults ↔ grammar.HasDefault kind entry := by
  constructor
  · intro h
    obtain ⟨⟨name, declared⟩, hkind, h⟩ := List.mem_filterMap.mp h
    obtain ⟨found, hfound, hpair⟩ := Option.map_eq_some_iff.mp h
    obtain ⟨rfl, rfl⟩ := Prod.mk.inj hpair
    exact ⟨declared, Std.ExtTreeMap.mem_toList_iff_getElem?_eq_some.mp hkind, hfound⟩
  · rintro ⟨declared, hkind, hentry⟩
    exact List.mem_filterMap.mpr ⟨(kind, declared),
      Std.ExtTreeMap.mem_toList_iff_getElem?_eq_some.mpr hkind,
      Option.map_eq_some_iff.mpr ⟨entry, hentry, rfl⟩⟩

/-- The declarations are listed by kind and then by name, each once. -/
theorem pairwise_declarations (grammar : Grammar) :
    grammar.declarations.Pairwise fun first second ↦
      first.kind < second.kind ∨ first.kind = second.kind ∧ first.name < second.name := by
  refine List.pairwise_flatMap.mpr ⟨fun kind _ ↦ List.pairwise_map.mpr ?_, ?_⟩
  · refine (Std.ExtTreeMap.ordered_keys_toList.sublist List.filter_sublist).imp fun hlt ↦ ?_
    exact Or.inr ⟨rfl, compareOfLessAndEq_eq_lt.mp hlt⟩
  · refine Std.ExtTreeMap.ordered_keys_toList.imp ?_
    intro kind next hlt first hfirst second hsecond
    obtain ⟨_, -, rfl⟩ := List.mem_map.mp hfirst
    obtain ⟨_, -, rfl⟩ := List.mem_map.mp hsecond
    exact Or.inl (compareOfLessAndEq_eq_lt.mp hlt)

/-! ### Lookups -/

/-- What is found under a name is declared under it. -/
theorem declares_of_find? {name : String} {found : Declaration}
    (h : Declaration.find? grammar.declarations name = some found) :
    grammar.Declares found.kind name found.entry := by
  have hdeclares := mem_declarations_iff.mp (Declaration.mem_of_find? h)
  rwa [Declaration.name_of_find? h] at hdeclares

/-- A name that is not found is declared by no kind. -/
theorem not_declares_of_find?_eq_none {name : String}
    (h : Declaration.find? grammar.declarations name = none) (kind : String) (entry : Entry) :
    ¬grammar.Declares kind name entry := by
  intro hdeclares
  have hmem : (⟨kind, name, entry⟩ : Declaration) ∈ grammar.declarations :=
    mem_declarations_iff.mpr hdeclares
  exact List.find?_eq_none.mp h _ hmem (decide_eq_true rfl)

/-! ### Grammars without a fault -/

/-- A declaration of a grammar without a fault has no fault. -/
theorem fault?_of_mem_declarations (h : grammar.fault? = none) {declaration : Declaration}
    (hmem : declaration ∈ grammar.declarations) :
    declaration.fault? grammar.declarations = none := by
  obtain ⟨kind, hkind, hdeclared⟩ := List.mem_flatMap.mp hmem
  have hfault := List.findSome?_eq_none_iff.mp h kind hkind
  split at hfault
  · exact List.findSome?_eq_none_iff.mp hfault declaration hdeclared
  · cases hfault

/-- In a grammar without a fault the first declaration of a name is by the kind that has it. -/
theorem exists_find?_of_declares (h : grammar.fault? = none) {kind name : String} {entry : Entry}
    (hdeclares : grammar.Declares kind name entry) :
    ∃ first, Declaration.find? grammar.declarations name = some first ∧ first.kind = kind := by
  have hmem : (⟨kind, name, entry⟩ : Declaration) ∈ grammar.declarations :=
    mem_declarations_iff.mpr hdeclares
  have hfault := fault?_of_mem_declarations h hmem
  rw [Declaration.fault?] at hfault
  split at hfault
  · cases hfault
  · split at hfault
    · next first hfirst =>
      split at hfault
      · next hkind => exact ⟨first, hfirst, hkind⟩
      · cases hfault
    · next hnone => exact absurd hdeclares (not_declares_of_find?_eq_none hnone kind entry)

/-- A grammar without a fault declares every name once. -/
theorem declaration_unique (h : grammar.fault? = none) {kind other name : String}
    {entry another : Entry} (hfirst : grammar.Declares kind name entry)
    (hsecond : grammar.Declares other name another) : kind = other ∧ entry = another := by
  obtain ⟨first, hfind, rfl⟩ := exists_find?_of_declares h hfirst
  obtain ⟨second, hfind', rfl⟩ := exists_find?_of_declares h hsecond
  obtain rfl := Option.some.inj (hfind.symm.trans hfind')
  obtain ⟨-, declared, hkind, hentry⟩ := hfirst
  obtain ⟨-, declared', hkind', hentry'⟩ := hsecond
  obtain rfl := Option.some.inj (hkind.symm.trans hkind')
  exact ⟨rfl, Option.some.inj (hentry.symm.trans hentry')⟩

/-- A grammar without a fault lists every name once. -/
theorem nodup_names_declarations (h : grammar.fault? = none) :
    (grammar.declarations.map (·.name)).Nodup := by
  have hnodup : grammar.declarations.Nodup := by
    refine (pairwise_declarations grammar).imp fun {first second} hlt heq ↦ ?_
    subst heq
    rcases hlt with hlt | ⟨-, hlt⟩
    · exact String.ne_of_lt hlt rfl
    · exact String.ne_of_lt hlt rfl
  refine (List.nodup_map_iff_inj_on hnodup).mpr fun first hfirst second hsecond hname ↦ ?_
  rw [mem_declarations_iff] at hfirst hsecond
  rw [← hname] at hsecond
  obtain ⟨hkind, hentry⟩ := declaration_unique h hfirst hsecond
  obtain ⟨kind, name, entry⟩ := first
  obtain ⟨other, _, another⟩ := second
  rw [Declaration.mk.injEq]
  exact ⟨hkind, hname, hentry⟩

/-- In a grammar without a fault a name leads to one token at most. -/
theorem LeadsTo.unique (h : grammar.fault? = none) {name : String} {token other : Token}
    (htoken : grammar.LeadsTo name token) (hother : grammar.LeadsTo name other) :
    token = other := by
  induction htoken with
  | real hreal =>
    cases hother with
    | real hreal' =>
      obtain ⟨rfl, hentry⟩ := declaration_unique h hreal hreal'
      obtain rfl := Entry.real.inj hentry
      rfl
    | aliasOf halias _ =>
      obtain ⟨-, hentry⟩ := declaration_unique h hreal halias
      cases hentry
  | aliasOf halias _ ih =>
    cases hother with
    | real hreal =>
      obtain ⟨-, hentry⟩ := declaration_unique h halias hreal
      cases hentry
    | aliasOf halias' htarget' =>
      obtain ⟨-, hentry⟩ := declaration_unique h halias halias'
      obtain rfl := Entry.aliasOf.inj hentry
      exact ih htarget'

end Grammar

/-! ### Settling aliases and defaults -/

namespace Declaration

variable {grammar : Grammar}

/-- A walk that ends has followed the aliases to a real token of the kind. -/
theorem exists_leadsTo_of_follow {kind : String} {trail : List String} {current : Declaration}
    {reached : String} (hcurrent : current ∈ grammar.declarations) (hkind : current.kind = kind)
    (h : follow grammar.declarations kind trail current = .ok reached) :
    ∃ token, grammar.LeadsTo current.name token ∧ token.kind = kind ∧ token.name = reached := by
  fun_induction follow grammar.declarations kind trail current with
  | case1 trail current description hentry =>
    obtain rfl := Except.ok.inj h
    have hdeclares := Grammar.mem_declarations_iff.mp hcurrent
    rw [hentry] at hdeclares
    exact ⟨_, .real hdeclares, hkind, rfl⟩
  | case2 => cases h
  | case3 => cases h
  | case4 => cases h
  | case5 trail current target hentry next hnext hnextKind hvisited hlt ih =>
    have hdeclares := Grammar.mem_declarations_iff.mp hcurrent
    rw [hentry] at hdeclares
    obtain ⟨token, htoken, htokenKind, hname⟩ :=
      ih (mem_of_find? hnext) (not_not.mp hnextKind) h
    rw [name_of_find? hnext] at htoken
    exact ⟨token, .aliasOf hdeclares htoken, htokenKind, hname⟩

/-- A declaration settles on the real token that it leads to, one of its own kind. -/
theorem exists_leadsTo_of_settle {declaration : Declaration} {reached : String}
    (hdeclaration : declaration ∈ grammar.declarations)
    (h : declaration.settle grammar.declarations = .ok reached) :
    ∃ token, grammar.LeadsTo declaration.name token ∧ token.kind = declaration.kind ∧
      token.name = reached :=
  exists_leadsTo_of_follow hdeclaration rfl h

/-- A default entry settles on the real token that its reference leads to, one of its kind. -/
theorem exists_leadsTo_of_settleDefault {kind : String} {entry : Entry} {reached : String}
    (h : settleDefault grammar.declarations kind entry = .ok reached) :
    ∃ token, grammar.LeadsTo entry.referent token ∧ token.kind = kind ∧ token.name = reached := by
  unfold settleDefault at h
  split at h
  · cases h
  · split at h
    · cases h
    · next found hfound =>
      split at h
      · next hkind =>
        rw [← name_of_find? hfound, ← hkind]
        exact exists_leadsTo_of_settle (mem_of_find? hfound) h
      · cases h

end Declaration

end Concord
