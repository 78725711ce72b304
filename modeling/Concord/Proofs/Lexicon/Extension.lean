import Concord.Proofs.Lexicon.Lookup
import Mathlib.Data.List.Sort

/-!
# Kinds are independent

A grammar is extended by kinds of new names (`Grammar.ExtendedBy`). Ids run through all kinds, so
the tokens of the old kinds get new ids in the lexicon of the extended grammar, and
`Lexicon.renumbering` tells which. `Lexicon.EmbedsBy` says that nothing else changes: under the new
ids the larger lexicon has all that the smaller one has, and no more for the kinds of the smaller
one. The main statement is `Flattens.embedsBy`, which ties the lexicons of a grammar and of its
extension.
-/

set_option autoImplicit false
set_option relaxedAutoImplicit false

namespace Concord

/-! ### Extended grammars -/

namespace Grammar

/-- The larger grammar has the kinds of the smaller one, each with the same declaration. -/
def ExtendedBy (small large : Grammar) : Prop :=
  ∀ (kind : String) (declaration : KindDeclaration), small.kinds[kind]? = some declaration →
    large.kinds[kind]? = some declaration

variable {small large : Grammar}

/-- A kind has one default entry at most. -/
theorem HasDefault.unique {kind : String} {entry another : Entry}
    (hentry : small.HasDefault kind entry) (hanother : small.HasDefault kind another) :
    entry = another := by
  obtain ⟨declaration, hdeclaration, hdefault⟩ := hentry
  obtain ⟨declaration', hdeclaration', hdefault'⟩ := hanother
  obtain rfl := Option.some.inj (hdeclaration.symm.trans hdeclaration')
  exact Option.some.inj (hdefault.symm.trans hdefault')

namespace ExtendedBy

/-- A kind of a new name extends a grammar. -/
theorem insertKind {kind : String} (hnew : kind ∉ small.kinds) (declaration : KindDeclaration) :
    small.ExtendedBy (small.insertKind kind declaration) := by
  intro name found hfound
  have hne : kind ≠ name := by
    rintro rfl
    exact hnew (mem_table_iff.mpr ⟨found, hfound⟩)
  rw [Grammar.insertKind, Std.ExtTreeMap.getElem?_insert, if_neg, hfound]
  exact fun hcompare ↦ hne (Std.compare_eq_iff_eq.mp hcompare)

/-- A kind of the smaller grammar has one declaration in both. -/
theorem getElem?_kinds (h : small.ExtendedBy large) {kind : String} (hkind : kind ∈ small.kinds) :
    large.kinds[kind]? = small.kinds[kind]? := by
  obtain ⟨declaration, hdeclaration⟩ := mem_table_iff.mp hkind
  rw [hdeclaration, h kind declaration hdeclaration]

/-- The kinds of the smaller grammar are kinds of the larger one. -/
theorem mem_kinds (h : small.ExtendedBy large) {kind : String} (hkind : kind ∈ small.kinds) :
    kind ∈ large.kinds := by
  rwa [mem_table_iff, h.getElem?_kinds hkind, ← mem_table_iff]

/-- A kind of the smaller grammar declares the same in both. -/
theorem declares_iff (h : small.ExtendedBy large) {kind : String} (hkind : kind ∈ small.kinds)
    {name : String} {entry : Entry} :
    large.Declares kind name entry ↔ small.Declares kind name entry := by
  rw [Declares, Declares, h.getElem?_kinds hkind]

/-- What the smaller grammar declares, the larger one declares. -/
theorem declares (h : small.ExtendedBy large) {kind name : String} {entry : Entry}
    (hdeclares : small.Declares kind name entry) : large.Declares kind name entry :=
  (h.declares_iff hdeclares.mem_kinds).mpr hdeclares

/-- A kind of the smaller grammar has the same default entry in both. -/
theorem hasDefault_iff (h : small.ExtendedBy large) {kind : String} (hkind : kind ∈ small.kinds)
    {entry : Entry} : large.HasDefault kind entry ↔ small.HasDefault kind entry := by
  rw [HasDefault, HasDefault, h.getElem?_kinds hkind]

/-- Names of the smaller grammar lead where they did. -/
theorem leadsTo (h : small.ExtendedBy large) {name : String} {token : Token}
    (hleads : small.LeadsTo name token) : large.LeadsTo name token := by
  induction hleads with
  | real hreal => exact .real (h.declares hreal)
  | aliasOf halias _ ih => exact .aliasOf (h.declares halias) ih

end ExtendedBy

end Grammar

/-! ### Renumbered lexicons -/

/-- The kind with a new id for every id. -/
def Kind.renumber (rename : TokenId → TokenId) (kind : Kind) : Kind where
  name := kind.name
  tokens := kind.tokens.map rename
  aliases := kind.aliases.map fun _ ↦ rename
  default? := kind.default?.map rename

@[simp] theorem Kind.name_renumber (rename : TokenId → TokenId) (kind : Kind) :
    (kind.renumber rename).name = kind.name := rfl

@[simp] theorem Kind.default?_renumber (rename : TokenId → TokenId) (kind : Kind) :
    (kind.renumber rename).default? = kind.default?.map rename := rfl

/-- What a name resolves to, with a new id for every id. -/
def Resolved.renumber (rename : TokenId → TokenId) (resolved : Resolved) : Resolved where
  id := rename resolved.id
  token := resolved.token
  kind := resolved.kind.renumber rename
  viaAlias := resolved.viaAlias

namespace Lexicon

/-- The larger lexicon has all that the smaller one has, under new ids, and no more for the kinds
of the smaller one. -/
structure EmbedsBy (small large : Lexicon) (rename : TokenId → TokenId) : Prop where
  injective : Function.Injective rename
  token?_rename (id : TokenId) : large.token? (rename id) = small.token? id
  name_eq (name : String) (kind : Kind) (hkind : small.kind? name = some kind) : kind.name = name
  kind?_renumber (name : String) (kind : Kind) (hkind : small.kind? name = some kind) :
    large.kind? name = some (kind.renumber rename)
  resolve?_renumber (name : String) (resolved : Resolved)
    (hresolved : small.resolve? name = some resolved) :
    large.resolve? name = some (resolved.renumber rename)
  /-- A name of a kind of the smaller lexicon is a name of the smaller lexicon. -/
  isSome_resolve? (name : String) (resolved : Resolved)
    (hresolved : large.resolve? name = some resolved) (hkind : resolved.kind.name ∈ small.kinds) :
    (small.resolve? name).isSome

/-- The id in the larger lexicon of the token that has the id in the smaller one. Ids of no token
are kept apart by moving them past all tokens. -/
def renumbering (small large : Lexicon) (id : TokenId) : TokenId :=
  match small.tokens[id]? with
  | some token => large.tokens.idxOf token
  | none => large.tokens.length + id

variable {small large : Lexicon}

namespace EmbedsBy

variable {rename : TokenId → TokenId}

/-- A kind of the smaller lexicon is a kind of the larger one, under new ids. -/
theorem exists_kind? (h : small.EmbedsBy large rename) {kind : String}
    (hkind : kind ∈ small.kinds) :
    ∃ found, small.kind? kind = some found ∧ large.kind? kind = some (found.renumber rename) := by
  obtain ⟨found, hfound⟩ := mem_table_iff.mp hkind
  exact ⟨found, hfound, h.kind?_renumber kind found hfound⟩

/-- The kinds of the smaller lexicon are kinds of the larger one. -/
theorem mem_kinds (h : small.EmbedsBy large rename) {kind : String} (hkind : kind ∈ small.kinds) :
    kind ∈ large.kinds := by
  obtain ⟨found, -, hrenumbered⟩ := h.exists_kind? hkind
  exact mem_table_iff.mpr ⟨_, hrenumbered⟩

/-- A kind of the smaller lexicon keeps its tokens. -/
theorem tokensOf_eq (h : small.EmbedsBy large rename) {kind : String} (hkind : kind ∈ small.kinds) :
    large.tokensOf kind = small.tokensOf kind := by
  obtain ⟨found, hfound, hrenumbered⟩ := h.exists_kind? hkind
  rw [tokensOf, tokensOf, hfound, hrenumbered]
  dsimp only [Kind.renumber]
  rw [List.filterMap_map]
  exact List.filterMap_congr fun id _ ↦ h.token?_rename id

/-- A kind of the smaller lexicon keeps its aliases and the tokens behind them. -/
theorem aliases_eq (h : small.EmbedsBy large rename) {kind : String} (hkind : kind ∈ small.kinds) :
    large.aliases kind = small.aliases kind := by
  obtain ⟨found, hfound, hrenumbered⟩ := h.exists_kind? hkind
  rw [aliases, aliases, hfound, hrenumbered]
  dsimp only [Kind.renumber]
  rw [Std.ExtTreeMap.toList_map, List.filterMap_map]
  refine List.filterMap_congr fun entry _ ↦ ?_
  rw [Function.comp_apply, h.token?_rename]

/-- A kind of the smaller lexicon keeps its default token. -/
theorem defaultOf?_eq (h : small.EmbedsBy large rename) {kind : String}
    (hkind : kind ∈ small.kinds) : large.defaultOf? kind = small.defaultOf? kind := by
  obtain ⟨found, hfound, hrenumbered⟩ := h.exists_kind? hkind
  rw [defaultOf?, defaultOf?, hfound, hrenumbered]
  change (found.default?.map rename).bind large.token? = found.default?.bind small.token?
  rw [Option.bind_map]
  exact congrArg found.default?.bind (funext h.token?_rename)

end EmbedsBy

/-! ### The lexicon of an extended grammar -/

namespace Flattens

variable {grammar extended : Grammar} (hsmall : small.Flattens grammar)
  (hlarge : large.Flattens extended) (h : grammar.ExtendedBy extended)

include hsmall hlarge h

/-- The tokens of the smaller lexicon are tokens of the larger one. -/
theorem tokens_subset : small.tokens ⊆ large.tokens := fun token htoken ↦
  (hlarge.mem_tokens_iff token).mpr (h.declares ((hsmall.mem_tokens_iff token).mp htoken))

/-- A renumbered id is the id of the same token, or of none as before. -/
theorem getElem?_renumbering (id : TokenId) :
    large.tokens[small.renumbering large id]? = small.tokens[id]? := by
  rw [renumbering]
  cases hid : small.tokens[id]? with
  | none => exact List.getElem?_eq_none (Nat.le_add_right _ _)
  | some token =>
    exact List.getElem?_idxOf (hsmall.tokens_subset hlarge h (List.mem_of_getElem? hid))

/-- No two ids are renumbered alike. -/
theorem renumbering_injective : Function.Injective (small.renumbering large) := by
  intro id other heq
  have htoken := hsmall.getElem?_renumbering hlarge h id
  rw [heq, hsmall.getElem?_renumbering hlarge h other] at htoken
  cases hid : small.tokens[id]? with
  | some token => exact hsmall.id_unique hid (htoken.trans hid)
  | none =>
    have hother := htoken.trans hid
    rw [renumbering, renumbering, hid, hother] at heq
    exact Nat.add_left_cancel heq

/-- The larger lexicon has the new id of a token at hand. -/
theorem renumbering_eq {token : Token} {id other : TokenId}
    (hid : small.tokens[id]? = some token) (hother : large.tokens[other]? = some token) :
    small.renumbering large id = other :=
  hlarge.id_unique ((hsmall.getElem?_renumbering hlarge h id).trans hid) hother

/-- Renumbered ids are in the order of the ids. -/
theorem renumbering_lt {id other : TokenId} {token next : Token}
    (hid : small.tokens[id]? = some token) (hother : small.tokens[other]? = some next)
    (hlt : id < other) : small.renumbering large id < small.renumbering large other := by
  have hnew := (hsmall.getElem?_renumbering hlarge h id).trans hid
  have hnext := (hsmall.getElem?_renumbering hlarge h other).trans hother
  exact (hlarge.id_lt_iff hnew hnext).mpr ((hsmall.id_lt_iff hid hother).mp hlt)

/-- What the index of the smaller lexicon has, that of the larger one has under a new id. -/
theorem meaning_renumbered {name : String} {meaning : Meaning}
    (hmeaning : small.names[name]? = some meaning) :
    large.names[name]? = some ⟨small.renumbering large meaning.id, meaning.viaAlias⟩ := by
  obtain ⟨entry, token, htoken, hdeclares, halias, hleads, -⟩ := hsmall.declares_of_meaning hmeaning
  obtain ⟨id, found, hnew, hfound, -⟩ := hlarge.meaning_of_declares (h.declares hdeclares)
  -- The name leads to the same token as before, and that token has one id.
  obtain ⟨other, hother, htoken'⟩ := hlarge.leadsTo_iff.mp (h.leadsTo hleads)
  obtain rfl := Option.some.inj (hother.symm.trans hnew)
  rw [hnew, hsmall.renumbering_eq hlarge h htoken htoken', halias]

section Kinds

variable {name : String} {kind found : Kind} (hname : name ∈ grammar.kinds)
  (hkind : kind.Gathers small grammar name) (hfound : found.Gathers large extended name)

include hname hkind hfound

/-- A kind of the smaller lexicon has its tokens under new ids. -/
theorem tokens_renumbered : found.tokens = kind.tokens.map (small.renumbering large) := by
  refine hfound.tokens_ordered.eq_of_mem_iff ?_ fun id ↦ ?_
  · refine List.pairwise_map.mpr (hkind.tokens_ordered.imp_of_mem ?_)
    intro id other hid hother hlt
    obtain ⟨token, htoken, -⟩ := (hkind.mem_tokens_iff id).mp hid
    obtain ⟨next, hnext, -⟩ := (hkind.mem_tokens_iff other).mp hother
    exact hsmall.renumbering_lt hlarge h htoken hnext hlt
  · rw [hfound.mem_tokens_iff, List.mem_map]
    constructor
    · rintro ⟨token, hid, rfl⟩
      have hdeclares := (hlarge.mem_tokens_iff token).mp (List.mem_of_getElem? hid)
      have hmem := (hsmall.mem_tokens_iff token).mpr ((h.declares_iff hname).mp hdeclares)
      obtain ⟨old, hold⟩ := List.mem_iff_getElem?.mp hmem
      exact ⟨old, (hkind.mem_tokens_iff old).mpr ⟨token, hold, rfl⟩,
        hsmall.renumbering_eq hlarge h hold hid⟩
    · rintro ⟨old, hold, rfl⟩
      obtain ⟨token, htoken, htokenKind⟩ := (hkind.mem_tokens_iff old).mp hold
      exact ⟨token, (hsmall.getElem?_renumbering hlarge h old).trans htoken, htokenKind⟩

/-- A kind of the smaller lexicon has its aliases under new ids. -/
theorem aliases_renumbered :
    found.aliases = kind.aliases.map fun _ ↦ small.renumbering large := by
  refine Std.ExtTreeMap.ext_getElem? fun other ↦ ?_
  rw [Std.ExtTreeMap.getElem?_map]
  cases hold : kind.aliases[other]? with
  | some id =>
    obtain ⟨⟨target, halias⟩, hmeaning⟩ := (hkind.aliases_iff other id).mp hold
    exact (hfound.aliases_iff other _).mpr
      ⟨⟨target, h.declares halias⟩, hsmall.meaning_renumbered hlarge h hmeaning⟩
  | none =>
    refine Option.eq_none_iff_forall_ne_some.mpr fun id hnew ↦ ?_
    obtain ⟨⟨target, halias⟩, -⟩ := (hfound.aliases_iff other id).mp hnew
    have halias' := (h.declares_iff hname).mp halias
    obtain ⟨old, token, hmeaning, -⟩ := hsmall.meaning_of_declares halias'
    rw [(hkind.aliases_iff other old).mpr ⟨⟨target, halias'⟩, hmeaning⟩] at hold
    cases hold

/-- A kind of the smaller lexicon has its default token under a new id. -/
theorem default?_renumbered :
    found.default? = kind.default?.map (small.renumbering large) := by
  have hsome : found.default?.isSome ↔ kind.default?.isSome := by
    rw [hfound.isSome_default?_iff, hkind.isSome_default?_iff]
    simp only [h.hasDefault_iff hname]
  cases hold : kind.default? with
  | none =>
    rw [hold, Option.isSome_none] at hsome
    exact Option.not_isSome_iff_eq_none.mp (by simpa using hsome)
  | some old =>
    -- Both lexicons follow the one default entry of the kind, which leads to one token.
    obtain ⟨id, hid⟩ := Option.isSome_iff_exists.mp (hsome.mpr (by rw [hold]; rfl))
    obtain ⟨-, entry, token, hentry, htoken, hleads⟩ := hkind.default?_reached old hold
    obtain ⟨-, entry', token', hentry', htoken', hleads'⟩ := hfound.default?_reached id hid
    obtain rfl := hentry.unique ((h.hasDefault_iff hname).mp hentry')
    obtain rfl := (hleads' token).mp (h.leadsTo ((hleads token).mpr rfl))
    rw [hid, Option.map_some, hsmall.renumbering_eq hlarge h htoken htoken']

/-- A kind of the smaller lexicon is in the larger one under new ids. -/
theorem eq_renumber : found = kind.renumber (small.renumbering large) := by
  have htokens := hsmall.tokens_renumbered hlarge h hname hkind hfound
  have haliases := hsmall.aliases_renumbered hlarge h hname hkind hfound
  have hdefault := hsmall.default?_renumbered hlarge h hname hkind hfound
  have hnames : found.name = kind.name := hfound.name_eq.trans hkind.name_eq.symm
  obtain ⟨_, _, _, _⟩ := found
  rw [Kind.renumber, Kind.mk.injEq]
  exact ⟨hnames, htokens, haliases, hdefault⟩

end Kinds

/-- The larger lexicon has every kind of the smaller one under new ids. -/
theorem kind?_eq_renumber {name : String} {kind : Kind} (hkind : small.kind? name = some kind) :
    large.kind? name = some (kind.renumber (small.renumbering large)) := by
  have hname : name ∈ grammar.kinds :=
    (hsmall.mem_kinds_iff name).mp (mem_table_iff.mpr ⟨kind, hkind⟩)
  have hmem : name ∈ large.kinds := (hlarge.mem_kinds_iff name).mpr (h.mem_kinds hname)
  obtain ⟨found, hfound⟩ := mem_table_iff.mp hmem
  have hold := hsmall.kinds_gathered name kind hkind
  have hnew := hlarge.kinds_gathered name found hfound
  rw [kind?, hfound, hsmall.eq_renumber hlarge h hname hold hnew]

/-- The lexicon of a grammar is embedded in that of an extension. -/
theorem embedsBy : small.EmbedsBy large (small.renumbering large) := by
  refine ⟨hsmall.renumbering_injective hlarge h, hsmall.getElem?_renumbering hlarge h,
    fun name kind hkind ↦ (hsmall.kinds_gathered name kind hkind).name_eq,
    fun name kind hkind ↦ hsmall.kind?_eq_renumber hlarge h hkind, ?_, ?_⟩
  · intro name resolved hresolved
    obtain ⟨hmeaning, htoken, hkind⟩ := resolve?_eq_some_iff.mp hresolved
    exact resolve?_eq_some_iff.mpr ⟨hsmall.meaning_renumbered hlarge h hmeaning,
      (hsmall.getElem?_renumbering hlarge h _).trans htoken,
      hsmall.kind?_eq_renumber hlarge h hkind⟩
  · intro name resolved hresolved hkind
    obtain ⟨hmeaning, htoken, -⟩ := resolve?_eq_some_iff.mp hresolved
    obtain ⟨entry, token, hfound, hdeclares, -⟩ := hlarge.declares_of_meaning hmeaning
    obtain rfl := Option.some.inj (hfound.symm.trans htoken)
    rw [hlarge.name_kind_of_resolve? hresolved, hsmall.mem_kinds_iff] at hkind
    rw [hsmall.isSome_resolve?_iff, hsmall.mem_names_iff]
    exact ⟨_, entry, (h.declares_iff hkind).mp hdeclares⟩

end Flattens

end Lexicon

end Concord
