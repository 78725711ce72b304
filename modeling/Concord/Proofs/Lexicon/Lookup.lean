import Concord.Proofs.Lexicon.Flattening

/-!
# Looking names up

A lookup goes from the index of names to the list of tokens and on to the kinds
(`Lexicon.resolve?_eq_some_iff`). In the lexicon of a grammar no such lookup breaks off: whatever
the grammar declares has a place in all three (`Flattens.meaning_of_declares`), and nothing else is
in the index (`Flattens.declares_of_meaning`). So a name resolves as soon as it is known
(`Flattens.isSome_resolve?_iff`).
-/

set_option autoImplicit false
set_option relaxedAutoImplicit false

namespace Concord.Lexicon

variable {lexicon : Lexicon} {grammar : Grammar}

/-! ### Lookups in any lexicon -/

/-- A name resolves by the index, the list of tokens and the kinds. -/
theorem resolve?_eq_some_iff {name : String} {resolved : Resolved} :
    lexicon.resolve? name = some resolved ↔
      lexicon.names[Text.trim name]? = some ⟨resolved.id, resolved.viaAlias⟩ ∧
        lexicon.tokens[resolved.id]? = some resolved.token ∧
          lexicon.kinds[resolved.token.kind]? = some resolved.kind := by
  constructor
  · intro h
    obtain ⟨meaning, hmeaning, h⟩ := Option.bind_eq_some_iff.mp h
    obtain ⟨token, htoken, h⟩ := Option.bind_eq_some_iff.mp h
    obtain ⟨kind, hkind, h⟩ := Option.bind_eq_some_iff.mp h
    obtain rfl := Option.some.inj h
    exact ⟨hmeaning, htoken, hkind⟩
  · rintro ⟨hmeaning, htoken, hkind⟩
    exact Option.bind_eq_some_iff.mpr ⟨_, hmeaning, Option.bind_eq_some_iff.mpr
      ⟨_, htoken, Option.bind_eq_some_iff.mpr ⟨_, hkind, rfl⟩⟩⟩

/-- Names of one token resolve to one kind. -/
theorem kind_eq_of_id_eq {name other : String} {resolved found : Resolved}
    (hresolved : lexicon.resolve? name = some resolved)
    (hfound : lexicon.resolve? other = some found)
    (hid : found.id = resolved.id) : found.kind = resolved.kind := by
  obtain ⟨-, htoken, hkind⟩ := resolve?_eq_some_iff.mp hresolved
  obtain ⟨-, hsame, hother⟩ := resolve?_eq_some_iff.mp hfound
  rw [hid, htoken] at hsame
  rw [← Option.some.inj hsame, hkind] at hother
  exact (Option.some.inj hother).symm

/-- A name that resolves stands to the lexicon as the index of names says. -/
theorem standing_of_resolve? {name : String} {resolved : Resolved}
    (h : lexicon.resolve? name = some resolved) :
    lexicon.standing name = if resolved.viaAlias then .aliased else .real := by
  obtain ⟨hmeaning, -, -⟩ := resolve?_eq_some_iff.mp h
  rw [standing, hmeaning]

namespace Flattens

/-! ### Lookups in the lexicon of a grammar -/

/-- A kind that declares something is a kind of the lexicon. -/
theorem exists_kind_of_declares (h : lexicon.Flattens grammar) {kind name : String} {entry : Entry}
    (hdeclares : grammar.Declares kind name entry) :
    ∃ found, lexicon.kinds[kind]? = some found :=
  mem_table_iff.mp ((h.mem_kinds_iff kind).mpr hdeclares.mem_kinds)

/-- Whatever is declared is in the index, with the token of its kind that it leads to. -/
theorem meaning_of_declares (h : lexicon.Flattens grammar) {kind name : String} {entry : Entry}
    (hdeclares : grammar.Declares kind name entry) :
    ∃ id token, lexicon.names[name]? = some ⟨id, entry.isAlias⟩ ∧
      lexicon.tokens[id]? = some token ∧ token.kind = kind ∧ grammar.LeadsTo name token ∧
        (entry.isAlias = false → token.name = name) := by
  cases entry with
  | real description =>
    obtain ⟨id, hmeaning, htoken⟩ := h.real_reached kind name description hdeclares
    exact ⟨id, _, hmeaning, htoken, rfl, .real hdeclares, fun _ ↦ rfl⟩
  | aliasOf target =>
    obtain ⟨id, token, hmeaning, htoken, hkind, hleads⟩ :=
      h.alias_reached kind name target hdeclares
    exact ⟨id, token, hmeaning, htoken, hkind, (hleads token).mpr rfl, fun hreal ↦ nomatch hreal⟩

/-- Whatever is in the index is declared, by the kind of the token that is found there. -/
theorem declares_of_meaning (h : lexicon.Flattens grammar) {name : String} {meaning : Meaning}
    (hmeaning : lexicon.names[name]? = some meaning) :
    ∃ entry token, lexicon.tokens[meaning.id]? = some token ∧
      grammar.Declares token.kind name entry ∧ entry.isAlias = meaning.viaAlias ∧
        grammar.LeadsTo name token ∧ (meaning.viaAlias = false → token.name = name) := by
  have hmem : name ∈ lexicon.names := mem_table_iff.mpr ⟨meaning, hmeaning⟩
  obtain ⟨kind, entry, hdeclares⟩ := (h.mem_names_iff name).mp hmem
  obtain ⟨id, token, hfound, htoken, rfl, hleads, hname⟩ := h.meaning_of_declares hdeclares
  obtain rfl := Option.some.inj (hfound.symm.trans hmeaning)
  exact ⟨entry, token, htoken, hdeclares, rfl, hleads, hname⟩

/-- A name that is in the index resolves, to the token and the kind found by way of it. -/
theorem exists_resolve?_of_meaning (h : lexicon.Flattens grammar) {name : String}
    {meaning : Meaning} (hmeaning : lexicon.names[Text.trim name]? = some meaning) :
    ∃ token kind, lexicon.resolve? name = some ⟨meaning.id, token, kind, meaning.viaAlias⟩ := by
  obtain ⟨entry, token, htoken, hdeclares, -⟩ := h.declares_of_meaning hmeaning
  obtain ⟨kind, hkind⟩ := h.exists_kind_of_declares hdeclares
  exact ⟨token, kind, resolve?_eq_some_iff.mpr ⟨hmeaning, htoken, hkind⟩⟩

/-- A name resolves just if it is in the index. -/
theorem isSome_resolve?_iff (h : lexicon.Flattens grammar) (name : String) :
    (lexicon.resolve? name).isSome ↔ Text.trim name ∈ lexicon.names := by
  rw [mem_table_iff, Option.isSome_iff_exists]
  constructor
  · rintro ⟨resolved, hresolved⟩
    exact ⟨_, (resolve?_eq_some_iff.mp hresolved).1⟩
  · rintro ⟨meaning, hmeaning⟩
    obtain ⟨token, kind, hresolved⟩ := h.exists_resolve?_of_meaning hmeaning
    exact ⟨_, hresolved⟩

/-- The kind that a name resolves to is the one that its token names. -/
theorem name_kind_of_resolve? (h : lexicon.Flattens grammar) {name : String} {resolved : Resolved}
    (hresolved : lexicon.resolve? name = some resolved) :
    resolved.kind.name = resolved.token.kind :=
  (h.kinds_gathered _ _ (resolve?_eq_some_iff.mp hresolved).2.2).name_eq

/-- A kind lists the tokens of its own. -/
theorem mem_tokensOf_iff (h : lexicon.Flattens grammar) {kind : String} {token : Token} :
    token ∈ lexicon.tokensOf kind ↔ token ∈ lexicon.tokens ∧ token.kind = kind := by
  rw [tokensOf, kind?]
  cases hkind : lexicon.kinds[kind]? with
  | none =>
    refine iff_of_false (by simp) ?_
    rintro ⟨hmem, rfl⟩
    obtain ⟨found, hfound⟩ := h.exists_kind_of_declares ((h.mem_tokens_iff token).mp hmem)
    rw [hkind] at hfound
    cases hfound
  | some found =>
    have hgathers := h.kinds_gathered kind found hkind
    rw [List.mem_filterMap]
    constructor
    · rintro ⟨id, hid, htoken⟩
      obtain ⟨other, hother, hkind⟩ := (hgathers.mem_tokens_iff id).mp hid
      obtain rfl := Option.some.inj (hother.symm.trans htoken)
      exact ⟨List.mem_of_getElem? htoken, hkind⟩
    · rintro ⟨hmem, htoken⟩
      obtain ⟨id, hid⟩ := List.mem_iff_getElem?.mp hmem
      exact ⟨id, (hgathers.mem_tokens_iff id).mpr ⟨token, hid, htoken⟩, hid⟩

/-- A kind lists a token under its name just if the index leads from that name to the token. -/
theorem mem_tokensOf_of_name_iff (h : lexicon.Flattens grammar) {kind name : String}
    {token : Token} :
    token ∈ lexicon.tokensOf kind ∧ token.name = name ↔
      ∃ id, lexicon.names[name]? = some ⟨id, false⟩ ∧ lexicon.tokens[id]? = some token ∧
        token.kind = kind := by
  rw [h.mem_tokensOf_iff]
  constructor
  · rintro ⟨⟨hmem, rfl⟩, rfl⟩
    obtain ⟨id, hmeaning, htoken⟩ := h.real_reached _ _ _ ((h.mem_tokens_iff token).mp hmem)
    exact ⟨id, hmeaning, htoken, rfl⟩
  · rintro ⟨id, hmeaning, htoken, rfl⟩
    obtain ⟨entry, other, hother, -, -, -, hname⟩ := h.declares_of_meaning hmeaning
    obtain rfl := Option.some.inj (hother.symm.trans htoken)
    exact ⟨⟨List.mem_of_getElem? htoken, rfl⟩, hname rfl⟩

/-- A kind lists an alias with a token just if the index leads from the alias to the token. -/
theorem mem_aliases_iff (h : lexicon.Flattens grammar) {kind name : String} {token : Token} :
    (name, token) ∈ lexicon.aliases kind ↔
      ∃ id, lexicon.names[name]? = some ⟨id, true⟩ ∧ lexicon.tokens[id]? = some token ∧
        token.kind = kind := by
  rw [aliases, kind?]
  cases hkind : lexicon.kinds[kind]? with
  | none =>
    refine iff_of_false (by simp) ?_
    rintro ⟨id, hmeaning, htoken, rfl⟩
    obtain ⟨entry, other, hother, hdeclares, -⟩ := h.declares_of_meaning hmeaning
    obtain rfl := Option.some.inj (hother.symm.trans htoken)
    obtain ⟨found, hfound⟩ := h.exists_kind_of_declares hdeclares
    rw [hkind] at hfound
    cases hfound
  | some found =>
    have hgathers := h.kinds_gathered kind found hkind
    rw [List.mem_filterMap]
    constructor
    · rintro ⟨⟨other, found⟩, hmem, hpair⟩
      obtain ⟨held, htoken, hpair⟩ := Option.map_eq_some_iff.mp hpair
      obtain ⟨rfl, rfl⟩ := Prod.mk.inj hpair
      have halias := Std.ExtTreeMap.mem_toList_iff_getElem?_eq_some.mp hmem
      obtain ⟨⟨target, hdeclares⟩, hmeaning⟩ := (hgathers.aliases_iff _ _).mp halias
      obtain ⟨_, reached, hsame, hreached, hkind, -⟩ := h.meaning_of_declares hdeclares
      obtain ⟨rfl, -⟩ := Meaning.mk.inj (Option.some.inj (hsame.symm.trans hmeaning))
      obtain rfl := Option.some.inj (hreached.symm.trans htoken)
      exact ⟨_, hmeaning, htoken, hkind⟩
    · rintro ⟨id, hmeaning, htoken, rfl⟩
      obtain ⟨entry, other, hother, hdeclares, halias, -⟩ := h.declares_of_meaning hmeaning
      obtain rfl := Option.some.inj (hother.symm.trans htoken)
      cases entry with
      | real description => cases halias
      | aliasOf target =>
        have hheld := (hgathers.aliases_iff name id).mpr ⟨⟨target, hdeclares⟩, hmeaning⟩
        refine ⟨(name, id), Std.ExtTreeMap.mem_toList_iff_getElem?_eq_some.mpr hheld, ?_⟩
        exact Option.map_eq_some_iff.mpr ⟨other, htoken, rfl⟩

/-- The index leads from a name to a token just if the name resolves to the token. -/
theorem exists_meaning_iff_resolve? (h : lexicon.Flattens grammar) {kind name : String}
    {token : Token} {viaAlias : Bool} :
    (∃ id, lexicon.names[Text.trim name]? = some ⟨id, viaAlias⟩ ∧
        lexicon.tokens[id]? = some token ∧ token.kind = kind) ↔
      ∃ resolved, lexicon.resolve? name = some resolved ∧ resolved.token = token ∧
        resolved.kind.name = kind ∧ resolved.viaAlias = viaAlias := by
  constructor
  · rintro ⟨id, hmeaning, htoken, rfl⟩
    obtain ⟨other, found, hresolved⟩ := h.exists_resolve?_of_meaning hmeaning
    have hother := (resolve?_eq_some_iff.mp hresolved).2.1
    obtain rfl := Option.some.inj (hother.symm.trans htoken)
    exact ⟨_, hresolved, rfl, h.name_kind_of_resolve? hresolved, rfl⟩
  · rintro ⟨resolved, hresolved, rfl, rfl, rfl⟩
    obtain ⟨hmeaning, htoken, -⟩ := resolve?_eq_some_iff.mp hresolved
    exact ⟨_, hmeaning, htoken, (h.name_kind_of_resolve? hresolved).symm⟩

/-- A name leads to the token that the index and the list of tokens have for it. -/
theorem leadsTo_iff (h : lexicon.Flattens grammar) {name : String} {token : Token} :
    grammar.LeadsTo name token ↔
      ∃ meaning, lexicon.names[name]? = some meaning ∧
        lexicon.tokens[meaning.id]? = some token := by
  constructor
  · intro hleads
    cases hleads with
    | real hreal =>
      obtain ⟨id, hmeaning, htoken⟩ := h.real_reached _ _ _ hreal
      exact ⟨_, hmeaning, htoken⟩
    | aliasOf halias htarget =>
      obtain ⟨id, reached, hmeaning, htoken, -, hleads⟩ := h.alias_reached _ _ _ halias
      obtain rfl := (hleads token).mp (.aliasOf halias htarget)
      exact ⟨_, hmeaning, htoken⟩
  · rintro ⟨meaning, hmeaning, htoken⟩
    obtain ⟨entry, other, hother, -, -, hleads, -⟩ := h.declares_of_meaning hmeaning
    obtain rfl := Option.some.inj (hother.symm.trans htoken)
    exact hleads

/-- The ids of tokens are ordered as their kinds, and within a kind as their names. -/
theorem id_lt_iff (h : lexicon.Flattens grammar) {token next : Token} {id other : TokenId}
    (hid : lexicon.tokens[id]? = some token) (hother : lexicon.tokens[other]? = some next) :
    id < other ↔ token.kind < next.kind ∨ token.kind = next.kind ∧ token.name < next.name := by
  have hordered := List.pairwise_iff_getElem.mp h.tokens_ordered
  obtain ⟨hlt, rfl⟩ := List.getElem?_eq_some_iff.mp hid
  obtain ⟨hlt', rfl⟩ := List.getElem?_eq_some_iff.mp hother
  rcases Nat.lt_trichotomy id other with hbefore | rfl | hafter
  · exact iff_of_true hbefore (hordered id other hlt hlt' hbefore)
  · exact iff_of_false (Nat.lt_irrefl id) (by grind)
  · have := hordered other id hlt' hlt hafter
    exact iff_of_false (Nat.lt_asymm hafter) (by grind)

/-- No token has two ids. -/
theorem id_unique (h : lexicon.Flattens grammar) {token : Token} {id other : TokenId}
    (hid : lexicon.tokens[id]? = some token) (hother : lexicon.tokens[other]? = some token) :
    id = other := by
  have hle := h.id_lt_iff hother hid
  have hge := h.id_lt_iff hid hother
  grind

end Flattens

end Concord.Lexicon
