import Concord.Proofs.Grammar.Aliases

/-!
# Lexicons flatten their grammars

A lexicon holds in four places what its grammar declares in one: the list of real tokens, the ids
and aliases of each kind, and the index of names. `Lexicon.Flattens` says what these hold, and that
they agree, in terms of the grammar alone: of what it declares and of where its aliases lead. The
main statement is `flattens_of_compile`: the lexicon of a grammar flattens it.
-/

set_option autoImplicit false
set_option relaxedAutoImplicit false

namespace Concord

/-- What a kind of a lexicon holds for the kind of the given name in a grammar. -/
structure Kind.Gathers (kind : Kind) (lexicon : Lexicon) (grammar : Grammar) (name : String) :
    Prop where
  name_eq : kind.name = name
  /-- The ids go up, so that each is listed once. -/
  tokens_ordered : kind.tokens.Pairwise (· < ·)
  mem_tokens_iff (id : TokenId) :
    id ∈ kind.tokens ↔ ∃ token, lexicon.tokens[id]? = some token ∧ token.kind = name
  aliases_iff (other : String) (id : TokenId) :
    kind.aliases[other]? = some id ↔
      (∃ target, grammar.Declares name other (.aliasOf target)) ∧
        lexicon.names[other]? = some ⟨id, true⟩
  isSome_default?_iff : kind.default?.isSome ↔ ∃ entry, grammar.HasDefault name entry
  default?_reached (id : TokenId) (hdefault : kind.default? = some id) :
    id ∈ kind.tokens ∧ ∃ entry token, grammar.HasDefault name entry ∧
      lexicon.tokens[id]? = some token ∧
        ∀ reached, grammar.LeadsTo entry.referent reached ↔ reached = token

/-- The lexicon holds what the grammar declares, with every alias and default entry replaced by the
one real token that it leads to. -/
structure Lexicon.Flattens (lexicon : Lexicon) (grammar : Grammar) : Prop where
  /-- The tokens are listed by kind and then by name, so that each is listed once. -/
  tokens_ordered : lexicon.tokens.Pairwise fun first second ↦
    first.kind < second.kind ∨ first.kind = second.kind ∧ first.name < second.name
  mem_tokens_iff (token : Token) :
    token ∈ lexicon.tokens ↔ grammar.Declares token.kind token.name (.real token.description)
  mem_kinds_iff (name : String) : name ∈ lexicon.kinds ↔ name ∈ grammar.kinds
  kinds_gathered (name : String) (kind : Kind) (hkind : lexicon.kinds[name]? = some kind) :
    kind.Gathers lexicon grammar name
  mem_names_iff (name : String) :
    name ∈ lexicon.names ↔ ∃ kind entry, grammar.Declares kind name entry
  real_reached (kind name description : String)
    (hreal : grammar.Declares kind name (.real description)) :
    ∃ id, lexicon.names[name]? = some ⟨id, false⟩ ∧
      lexicon.tokens[id]? = some ⟨name, description, kind⟩
  alias_reached (kind name target : String)
    (halias : grammar.Declares kind name (.aliasOf target)) :
    ∃ id token, lexicon.names[name]? = some ⟨id, true⟩ ∧ lexicon.tokens[id]? = some token ∧
      token.kind = kind ∧ ∀ reached, grammar.LeadsTo name reached ↔ reached = token

/-! ### Tables and ids -/

namespace Token

variable {tokens : List Token}

/-- The id of a token is its position. -/
theorem getElem?_idOf (hnodup : (tokens.map (·.name)).Nodup) {token : Token}
    (htoken : token ∈ tokens) : tokens[idOf tokens token.name]? = some token := by
  have hlt : idOf tokens token.name < tokens.length :=
    List.findIdx_lt_length_of_exists ⟨token, htoken, decide_eq_true rfl⟩
  have hname : tokens[idOf tokens token.name].name = token.name :=
    of_decide_eq_true (List.findIdx_getElem (w := hlt))
  rw [List.getElem?_eq_getElem hlt]
  exact congrArg some (List.inj_on_of_nodup_map hnodup (List.getElem_mem hlt) htoken hname)

/-- The token at a position has that position as its id. -/
theorem idOf_of_getElem? (hnodup : (tokens.map (·.name)).Nodup) {token : Token} {id : TokenId}
    (h : tokens[id]? = some token) : idOf tokens token.name = id := by
  obtain ⟨hlt, hget⟩ := List.getElem?_eq_some_iff.mp h
  obtain ⟨hlt', hget'⟩ :=
    List.getElem?_eq_some_iff.mp (getElem?_idOf hnodup (List.mem_of_getElem? h))
  exact (List.getElem_inj hnodup.of_map).mp (hget'.trans hget.symm)

/-- Taken in order, the tokens have the ids from zero up. -/
theorem map_idOf (hnodup : (tokens.map (·.name)).Nodup) :
    (tokens.map fun token ↦ idOf tokens token.name) = List.range tokens.length := by
  refine List.ext_getElem (by rw [List.length_map, List.length_range]) ?_
  intro id hid _
  rw [List.length_map] at hid
  rw [List.getElem_map, List.getElem_range]
  exact idOf_of_getElem? hnodup (List.getElem?_eq_getElem hid)

end Token

namespace Grammar

variable {grammar : Grammar}

/-! ### The tokens of a grammar -/

/-- The tokens are the declarations with a description. -/
theorem mem_tokens_iff {token : Token} :
    token ∈ grammar.tokens ↔ grammar.Declares token.kind token.name (.real token.description) := by
  rw [tokens, List.mem_filterMap]
  constructor
  · rintro ⟨⟨kind, name, entry⟩, hdeclaration, htoken⟩
    cases entry with
    | real description =>
      obtain rfl := Option.some.inj htoken
      exact mem_declarations_iff.mp hdeclaration
    | aliasOf target => cases htoken
  · intro h
    exact ⟨⟨token.kind, token.name, .real token.description⟩, mem_declarations_iff.mpr h, rfl⟩

/-- A declaration and its token have one kind and one name. -/
theorem kind_and_name_of_token? {declaration : Declaration} {token : Token}
    (h : declaration.token? = some token) :
    declaration.kind = token.kind ∧ declaration.name = token.name := by
  obtain ⟨kind, name, entry⟩ := declaration
  cases entry with
  | real description =>
    obtain rfl := Option.some.inj h
    exact ⟨rfl, rfl⟩
  | aliasOf target => cases h

/-- The tokens are listed by kind and then by name, each once. -/
theorem pairwise_tokens (grammar : Grammar) :
    grammar.tokens.Pairwise fun first second ↦
      first.kind < second.kind ∨ first.kind = second.kind ∧ first.name < second.name := by
  refine List.pairwise_filterMap.mpr ((pairwise_declarations grammar).imp ?_)
  intro declaration next hlt first hfirst second hsecond
  obtain ⟨hkind, hname⟩ := kind_and_name_of_token? hfirst
  obtain ⟨hkind', hname'⟩ := kind_and_name_of_token? hsecond
  rwa [hkind, hname, hkind', hname'] at hlt

/-- No two tokens of a grammar without a fault have one name. -/
theorem nodup_names_tokens (h : grammar.fault? = none) : (grammar.tokens.map (·.name)).Nodup := by
  refine List.pairwise_map.mpr (List.pairwise_filterMap.mpr ?_)
  refine (List.pairwise_map.mp (nodup_names_declarations h)).imp ?_
  intro declaration next hne first hfirst second hsecond
  rwa [(kind_and_name_of_token? hfirst).2, (kind_and_name_of_token? hsecond).2] at hne

/-- A token that a name leads to is one of the tokens. -/
theorem LeadsTo.mem_tokens {name : String} {token : Token} (h : grammar.LeadsTo name token) :
    token ∈ grammar.tokens := by
  induction h with
  | real hreal => exact mem_tokens_iff.mpr hreal
  | aliasOf _ _ ih => exact ih

/-! ### Settled aliases and defaults -/

/-- Every alias is settled, on the token that it leads to. -/
theorem exists_mem_settledAliases {aliases : List SettledAlias}
    (haliases : grammar.settledAliases = .ok aliases) {kind name target : String}
    (halias : grammar.Declares kind name (.aliasOf target)) :
    ∃ reached, ⟨kind, name, reached⟩ ∈ aliases := by
  have hmem : (⟨kind, name, .aliasOf target⟩ : Declaration) ∈
      grammar.declarations.filter (·.entry.isAlias) :=
    List.mem_filter.mpr ⟨mem_declarations_iff.mpr halias, rfl⟩
  obtain ⟨settled, hsettled, hok⟩ := Traversal.exists_mem_of_mapM_eq_ok haliases hmem
  obtain ⟨reached, -, rfl⟩ := Traversal.map_eq_ok_iff.mp hok
  exact ⟨reached, hsettled⟩

/-- A settled alias is an alias, and settled on the token that it leads to. -/
theorem leadsTo_of_mem_settledAliases {aliases : List SettledAlias}
    (haliases : grammar.settledAliases = .ok aliases) {settled : SettledAlias}
    (hsettled : settled ∈ aliases) :
    (∃ target, grammar.Declares settled.kind settled.name (.aliasOf target)) ∧
      ∃ token, grammar.LeadsTo settled.name token ∧ token.kind = settled.kind ∧
        token.name = settled.target := by
  obtain ⟨⟨kind, name, entry⟩, hmem, hok⟩ :=
    Traversal.exists_of_mem_of_mapM_eq_ok haliases hsettled
  obtain ⟨reached, hreached, rfl⟩ := Traversal.map_eq_ok_iff.mp hok
  obtain ⟨hdeclaration, halias⟩ := List.mem_filter.mp hmem
  refine ⟨?_, Declaration.exists_leadsTo_of_settle hdeclaration hreached⟩
  cases entry with
  | real description => cases halias
  | aliasOf target => exact ⟨target, mem_declarations_iff.mp hdeclaration⟩

/-- No two settled aliases of a grammar without a fault have one name. -/
theorem nodup_names_settledAliases (h : grammar.fault? = none) {aliases : List SettledAlias}
    (haliases : grammar.settledAliases = .ok aliases) : (aliases.map (·.name)).Nodup := by
  have hnames : (grammar.declarations.filter (·.entry.isAlias)).map (·.name) =
      aliases.map (·.name) := by
    rw [← List.forall₂_eq_eq_eq, List.forall₂_map_left_iff, List.forall₂_map_right_iff]
    refine (Traversal.mapM_eq_ok_iff.mp haliases).imp fun declaration settled hok ↦ ?_
    obtain ⟨reached, -, rfl⟩ := Traversal.map_eq_ok_iff.mp hok
    rfl
  rw [← hnames]
  exact (nodup_names_declarations h).sublist (List.filter_sublist.map _)

/-- Every default entry is settled. -/
theorem exists_mem_settledDefaults {defaults : List SettledDefault}
    (hdefaults : grammar.settledDefaults = .ok defaults) {kind : String} {entry : Entry}
    (hdefault : grammar.HasDefault kind entry) : ∃ reached, ⟨kind, reached⟩ ∈ defaults := by
  obtain ⟨settled, hsettled, hok⟩ :=
    Traversal.exists_mem_of_mapM_eq_ok hdefaults (mem_defaults_iff.mpr hdefault)
  obtain ⟨reached, -, rfl⟩ := Traversal.map_eq_ok_iff.mp hok
  exact ⟨reached, hsettled⟩

/-- A settled default comes from a default entry, and is settled on the token that its reference
leads to. -/
theorem leadsTo_of_mem_settledDefaults {defaults : List SettledDefault}
    (hdefaults : grammar.settledDefaults = .ok defaults) {settled : SettledDefault}
    (hsettled : settled ∈ defaults) :
    ∃ entry, grammar.HasDefault settled.kind entry ∧
      ∃ token, grammar.LeadsTo entry.referent token ∧ token.kind = settled.kind ∧
        token.name = settled.target := by
  obtain ⟨⟨kind, entry⟩, hmem, hok⟩ := Traversal.exists_of_mem_of_mapM_eq_ok hdefaults hsettled
  obtain ⟨reached, hreached, rfl⟩ := Traversal.map_eq_ok_iff.mp hok
  exact ⟨entry, mem_defaults_iff.mp hmem, Declaration.exists_leadsTo_of_settleDefault hreached⟩

/-! ### The parts of a lexicon -/

/-- In a grammar without a fault a name leads to a token exactly if it is the one. -/
theorem LeadsTo.iff_eq (h : grammar.fault? = none) {name : String} {token : Token}
    (htoken : grammar.LeadsTo name token) (reached : Token) :
    grammar.LeadsTo name reached ↔ reached = token := by
  constructor
  · intro hreached
    exact hreached.unique h htoken
  · rintro rfl
    exact htoken

variable {aliases : List SettledAlias} {defaults : List SettledDefault}

/-- The index of names is made of the tokens and the settled aliases. -/
theorem getElem?_index_eq_some_iff (h : grammar.fault? = none)
    (haliases : grammar.settledAliases = .ok aliases) {name : String} {meaning : Meaning} :
    (Meaning.index grammar.tokens aliases)[name]? = some meaning ↔
      (∃ token ∈ grammar.tokens, token.name = name ∧
          ⟨Token.idOf grammar.tokens token.name, false⟩ = meaning) ∨
        ∃ settled ∈ aliases, settled.name = name ∧
          ⟨Token.idOf grammar.tokens settled.target, true⟩ = meaning := by
  rw [Meaning.index, getElem?_ofList_eq_some_iff]
  · simp only [List.mem_append, List.mem_map, Prod.mk.injEq]
  · rw [List.map_append, List.map_map, List.map_map]
    refine List.nodup_append.mpr
      ⟨nodup_names_tokens h, nodup_names_settledAliases h haliases, ?_⟩
    intro first hfirst second hsecond heq
    obtain ⟨token, htoken, rfl⟩ := List.mem_map.mp hfirst
    obtain ⟨settled, hsettled, rfl⟩ := List.mem_map.mp hsecond
    obtain ⟨⟨target, halias⟩, -⟩ := leadsTo_of_mem_settledAliases haliases hsettled
    have hreal := mem_tokens_iff.mp htoken
    rw [show token.name = settled.name from heq] at hreal
    obtain ⟨-, hentry⟩ := declaration_unique h hreal halias
    cases hentry

/-- The index has the id of every token under its name. -/
theorem getElem?_index_of_mem_tokens (h : grammar.fault? = none)
    (haliases : grammar.settledAliases = .ok aliases) {token : Token}
    (htoken : token ∈ grammar.tokens) :
    (Meaning.index grammar.tokens aliases)[token.name]? =
      some ⟨Token.idOf grammar.tokens token.name, false⟩ :=
  (getElem?_index_eq_some_iff h haliases).mpr (Or.inl ⟨token, htoken, rfl, rfl⟩)

/-- The index has the id behind every alias under its name. -/
theorem getElem?_index_of_mem_settledAliases (h : grammar.fault? = none)
    (haliases : grammar.settledAliases = .ok aliases) {settled : SettledAlias}
    (hsettled : settled ∈ aliases) :
    (Meaning.index grammar.tokens aliases)[settled.name]? =
      some ⟨Token.idOf grammar.tokens settled.target, true⟩ :=
  (getElem?_index_eq_some_iff h haliases).mpr (Or.inr ⟨settled, hsettled, rfl, rfl⟩)

/-- The names of the index are the declared ones. -/
theorem mem_index_iff (h : grammar.fault? = none)
    (haliases : grammar.settledAliases = .ok aliases) (name : String) :
    name ∈ Meaning.index grammar.tokens aliases ↔
      ∃ kind entry, grammar.Declares kind name entry := by
  rw [mem_table_iff]
  constructor
  · rintro ⟨meaning, hmeaning⟩
    rcases (getElem?_index_eq_some_iff h haliases).mp hmeaning with
      ⟨token, htoken, rfl, -⟩ | ⟨settled, hsettled, rfl, -⟩
    · exact ⟨_, _, mem_tokens_iff.mp htoken⟩
    · obtain ⟨⟨target, halias⟩, -⟩ := leadsTo_of_mem_settledAliases haliases hsettled
      exact ⟨_, _, halias⟩
  · rintro ⟨kind, entry, hdeclares⟩
    cases entry with
    | real description =>
      have htoken : (⟨name, description, kind⟩ : Token) ∈ grammar.tokens :=
        mem_tokens_iff.mpr hdeclares
      exact ⟨_, getElem?_index_of_mem_tokens h haliases htoken⟩
    | aliasOf target =>
      obtain ⟨reached, hsettled⟩ := exists_mem_settledAliases haliases hdeclares
      exact ⟨_, getElem?_index_of_mem_settledAliases h haliases hsettled⟩

/-- A name that leads to a token has its id under the name of the token. -/
theorem LeadsTo.getElem?_idOf (h : grammar.fault? = none) {name : String} {token : Token}
    (htoken : grammar.LeadsTo name token) :
    grammar.tokens[Token.idOf grammar.tokens token.name]? = some token :=
  Token.getElem?_idOf (nodup_names_tokens h) htoken.mem_tokens

/-! ### The kinds of a lexicon -/

/-- A kind holds the ids of its tokens. -/
theorem mem_tokens_gather_iff (h : grammar.fault? = none) (name : String) (id : TokenId) :
    id ∈ (Kind.gather name grammar.tokens aliases defaults).tokens ↔
      ∃ token, grammar.tokens[id]? = some token ∧ token.kind = name := by
  rw [Kind.gather, List.mem_map]
  constructor
  · rintro ⟨token, htoken, rfl⟩
    obtain ⟨hmem, hkind⟩ := List.mem_filter.mp htoken
    exact ⟨token, Token.getElem?_idOf (nodup_names_tokens h) hmem, of_decide_eq_true hkind⟩
  · rintro ⟨token, hget, hkind⟩
    exact ⟨token, List.mem_filter.mpr ⟨List.mem_of_getElem? hget, decide_eq_true hkind⟩,
      Token.idOf_of_getElem? (nodup_names_tokens h) hget⟩

/-- The ids in a kind go up. -/
theorem pairwise_tokens_gather (h : grammar.fault? = none) (name : String) :
    (Kind.gather name grammar.tokens aliases defaults).tokens.Pairwise (· < ·) := by
  have hsublist : (Kind.gather name grammar.tokens aliases defaults).tokens.Sublist
      (List.range grammar.tokens.length) := by
    rw [← Token.map_idOf (nodup_names_tokens h)]
    exact List.filter_sublist.map _
  exact List.pairwise_lt_range.sublist hsublist

/-- A kind holds its aliases, with the ids that the index has for them. -/
theorem getElem?_aliases_gather_iff (h : grammar.fault? = none)
    (haliases : grammar.settledAliases = .ok aliases) (name other : String) (id : TokenId) :
    (Kind.gather name grammar.tokens aliases defaults).aliases[other]? = some id ↔
      (∃ target, grammar.Declares name other (.aliasOf target)) ∧
        (Meaning.index grammar.tokens aliases)[other]? = some ⟨id, true⟩ := by
  have hnames : (((aliases.filter (·.kind = name)).map fun settled ↦
      (settled.name, Token.idOf grammar.tokens settled.target)).map (·.1)).Nodup := by
    rw [List.map_map]
    exact (nodup_names_settledAliases h haliases).sublist (List.filter_sublist.map _)
  rw [Kind.gather, getElem?_ofList_eq_some_iff hnames, List.mem_map]
  constructor
  · rintro ⟨settled, hmem, hpair⟩
    obtain ⟨rfl, rfl⟩ := Prod.mk.inj hpair
    obtain ⟨hsettled, hkind⟩ := List.mem_filter.mp hmem
    obtain ⟨halias, -⟩ := leadsTo_of_mem_settledAliases haliases hsettled
    rw [of_decide_eq_true hkind] at halias
    exact ⟨halias, getElem?_index_of_mem_settledAliases h haliases hsettled⟩
  · rintro ⟨⟨target, halias⟩, hmeaning⟩
    obtain ⟨reached, hsettled⟩ := exists_mem_settledAliases haliases halias
    have hfound := getElem?_index_of_mem_settledAliases h haliases hsettled
    obtain ⟨hid, -⟩ := Meaning.mk.inj (Option.some.inj (hfound.symm.trans hmeaning))
    exact ⟨_, List.mem_filter.mpr ⟨hsettled, decide_eq_true rfl⟩, Prod.ext rfl hid⟩

/-- A kind has a default token if the grammar has a default entry for it. -/
theorem isSome_default?_gather_iff (hdefaults : grammar.settledDefaults = .ok defaults)
    (name : String) :
    (Kind.gather name grammar.tokens aliases defaults).default?.isSome ↔
      ∃ entry, grammar.HasDefault name entry := by
  rw [Kind.gather, Option.isSome_map, List.find?_isSome]
  constructor
  · rintro ⟨settled, hsettled, hkind⟩
    obtain ⟨entry, hentry, -⟩ := leadsTo_of_mem_settledDefaults hdefaults hsettled
    rw [of_decide_eq_true hkind] at hentry
    exact ⟨entry, hentry⟩
  · rintro ⟨entry, hentry⟩
    obtain ⟨reached, hsettled⟩ := exists_mem_settledDefaults hdefaults hentry
    exact ⟨_, hsettled, decide_eq_true rfl⟩

/-- The default token of a kind is the one of the kind that its default entry leads to. -/
theorem leadsTo_of_default?_gather (h : grammar.fault? = none)
    (hdefaults : grammar.settledDefaults = .ok defaults) {name : String} {id : TokenId}
    (hdefault : (Kind.gather name grammar.tokens aliases defaults).default? = some id) :
    ∃ entry token, grammar.HasDefault name entry ∧ grammar.tokens[id]? = some token ∧
      token.kind = name ∧ grammar.LeadsTo entry.referent token := by
  obtain ⟨settled, hfind, rfl⟩ := Option.map_eq_some_iff.mp hdefault
  have hname : settled.kind = name := by simpa using List.find?_some hfind
  obtain ⟨entry, hentry, token, htoken, hkind, htarget⟩ :=
    leadsTo_of_mem_settledDefaults hdefaults (List.mem_of_find?_eq_some hfind)
  have hget := htoken.getElem?_idOf h
  rw [htarget] at hget
  rw [hname] at hentry hkind
  exact ⟨entry, token, hentry, hget, hkind, htoken⟩

/-- A kind gathers what the grammar declares for it. -/
theorem gathers_gather (h : grammar.fault? = none)
    (haliases : grammar.settledAliases = .ok aliases)
    (hdefaults : grammar.settledDefaults = .ok defaults) (locale name : String) :
    (Kind.gather name grammar.tokens aliases defaults).Gathers
      (grammar.assemble locale aliases defaults) grammar name := by
  refine ⟨rfl, pairwise_tokens_gather h name, mem_tokens_gather_iff h name,
    getElem?_aliases_gather_iff h haliases name, isSome_default?_gather_iff hdefaults name, ?_⟩
  intro id hdefault
  obtain ⟨entry, token, hentry, hget, hkind, htoken⟩ :=
    leadsTo_of_default?_gather h hdefaults hdefault
  exact ⟨(mem_tokens_gather_iff h name id).mpr ⟨token, hget, hkind⟩, entry, token, hentry, hget,
    htoken.iff_eq h⟩

/-! ### The lexicon of a grammar -/

/-- The lexicon assembled from settled aliases and defaults flattens the grammar. -/
theorem flattens_assemble (h : grammar.fault? = none)
    (haliases : grammar.settledAliases = .ok aliases)
    (hdefaults : grammar.settledDefaults = .ok defaults) (locale : String) :
    (grammar.assemble locale aliases defaults).Flattens grammar := by
  refine ⟨pairwise_tokens grammar, fun token ↦ mem_tokens_iff, ?_, ?_,
    mem_index_iff h haliases, ?_, ?_⟩
  · intro name
    exact Std.ExtTreeMap.mem_map
  · intro name kind hkind
    obtain ⟨declared, -, rfl⟩ :=
      Option.map_eq_some_iff.mp (Std.ExtTreeMap.getElem?_map.symm.trans hkind)
    exact gathers_gather h haliases hdefaults locale name
  · intro kind name description hreal
    have htoken : (⟨name, description, kind⟩ : Token) ∈ grammar.tokens :=
      mem_tokens_iff.mpr hreal
    exact ⟨_, getElem?_index_of_mem_tokens h haliases htoken,
      (LeadsTo.real hreal).getElem?_idOf h⟩
  · intro kind name target halias
    obtain ⟨reached, hsettled⟩ := exists_mem_settledAliases haliases halias
    obtain ⟨-, token, htoken, hkind, rfl⟩ := leadsTo_of_mem_settledAliases haliases hsettled
    exact ⟨_, token, getElem?_index_of_mem_settledAliases h haliases hsettled,
      htoken.getElem?_idOf h, hkind, htoken.iff_eq h⟩

/-- The lexicon of a grammar is the lexicon of its locale and holds exactly what the grammar
declares, flattened. -/
theorem flattens_of_compile {isLocale : String → Bool} {locale : String} {lexicon : Lexicon}
    (hcompile : compile isLocale locale grammar = .ok lexicon) :
    lexicon.locale = locale ∧ lexicon.Flattens grammar := by
  unfold compile at hcompile
  split at hcompile
  · split at hcompile
    · cases hcompile
    · next h =>
      obtain ⟨aliases, haliases, hcompile⟩ := Traversal.bind_eq_ok_iff.mp hcompile
      obtain ⟨defaults, hdefaults, hcompile⟩ := Traversal.bind_eq_ok_iff.mp hcompile
      obtain rfl := Except.ok.inj hcompile
      exact ⟨rfl, flattens_assemble h haliases hdefaults locale⟩
  · cases hcompile

/-- A grammar with an alias of an alias, a default that both lead to, and a default that names its
token without a mark. -/
def persons : Grammar :=
  let gender := KindDeclaration.mk ∅
    |>.insertReal "f" "female"
    |>.insertReal "m" "male"
    |>.insertAlias "woman" "f"
    |>.insertAlias "lady" "woman"
    |>.setDefault "lady"
  let count := KindDeclaration.mk ∅
    |>.insertReal "one" "singular"
    |>.insertReal defaultKey " one "
  Grammar.mk ∅ |>.insertKind "gender" gender |>.insertKind "count" count

theorem flattens_of_compile_persons :
    ∃ lexicon, compile (· = "en") "en" persons = .ok lexicon ∧ lexicon.locale = "en" ∧
      lexicon.Flattens persons ∧
      let f : Token := ⟨"f", "female", "gender"⟩
      lexicon.tokens = [⟨"one", "singular", "count"⟩, f, ⟨"m", "male", "gender"⟩] ∧
      lexicon.aliases "gender" = [("lady", f), ("woman", f)] ∧
      lexicon.defaultOf? "gender" = some f ∧
      lexicon.defaultOf? "count" = some ⟨"one", "singular", "count"⟩ ∧
      (lexicon.resolve? " lady ").map (fun found ↦ (found.token, found.viaAlias)) =
        some (f, true) := by
  have hcheck : (compile (· = "en") "en" persons).toOption.map (fun lexicon ↦
      let f : Token := ⟨"f", "female", "gender"⟩
      decide (lexicon.tokens = [⟨"one", "singular", "count"⟩, f, ⟨"m", "male", "gender"⟩] ∧
        lexicon.aliases "gender" = [("lady", f), ("woman", f)] ∧
        lexicon.defaultOf? "gender" = some f ∧
        lexicon.defaultOf? "count" = some ⟨"one", "singular", "count"⟩ ∧
        (lexicon.resolve? " lady ").map (fun found ↦ (found.token, found.viaAlias)) =
          some (f, true))) = some true := by
    decide +kernel
  obtain ⟨lexicon, hlexicon, hanswers⟩ := Option.map_eq_some_iff.mp hcheck
  have hcompile := Traversal.toOption_eq_some_iff.mp hlexicon
  obtain ⟨hlocale, hflattens⟩ := flattens_of_compile hcompile
  exact ⟨lexicon, hcompile, hlocale, hflattens, of_decide_eq_true hanswers⟩

end Grammar

end Concord
