import Concord.Proofs.Grammar.Validity
import Concord.Proofs.Lexicon.Lookup

/-!
# The queries of a lexicon agree

Some queries read the index of names only, others go on to the list of tokens and to the kinds, and
others list what a kind holds. `Lexicon.Coherent` says that they tell one story about every name
and every kind. What a query says about a name follows from how the name resolves
(`standingIn_of_resolve?`), and in the lexicon of a grammar so does what the kinds list
(`Flattens.isReal_iff_listsToken` and `Flattens.isAlias_iff_listsAlias`). The main statement is
`Grammar.coherent_of_compile`: every lexicon that a grammar compiles to is coherent.
-/

set_option autoImplicit false
set_option relaxedAutoImplicit false

namespace Concord

namespace Lexicon

/-- The kind lists a real token of the name. -/
def ListsToken (lexicon : Lexicon) (kind name : String) : Prop :=
  ∃ token ∈ lexicon.tokensOf kind, token.name = name

/-- The kind lists an alias of the name. -/
def ListsAlias (lexicon : Lexicon) (kind name : String) : Prop :=
  ∃ token, (name, token) ∈ lexicon.aliases kind

/-- All queries of the lexicon tell one story about every name and every kind. -/
structure Coherent (lexicon : Lexicon) : Prop where
  isReal_iff (name kind : String) :
    lexicon.isReal name (some kind) ↔ lexicon.ListsToken kind (Text.trim name)
  isAlias_iff (name kind : String) :
    lexicon.isAlias name (some kind) ↔ lexicon.ListsAlias kind (Text.trim name)
  alias_resolves (name kind : String) (token : Token)
    (halias : (Text.trim name, token) ∈ lexicon.aliases kind) :
    ∃ resolved, lexicon.resolve? name = some resolved ∧ resolved.token = token
  not_both (name kind : String) :
    ¬(lexicon.isReal name (some kind) ∧ lexicon.isAlias name (some kind))
  isKnown_iff (name kind : String) :
    lexicon.isKnown name (some kind) ↔
      lexicon.isReal name (some kind) ∨ lexicon.isAlias name (some kind)
  isKnown_iff_isOfKind (name kind : String) :
    lexicon.isKnown name (some kind) ↔ lexicon.isOfKind name kind
  isKnown_iff_kindOf? (name kind : String) :
    lexicon.isKnown name (some kind) ↔ lexicon.kindOf? name = some kind
  isKnown_iff_standingIn (name kind : String) :
    lexicon.isKnown name (some kind) ↔ lexicon.standingIn kind name ≠ .unknown
  /-- No two kinds list one name. -/
  listed_once (name kind other : String)
    (hkind : lexicon.ListsToken kind name ∨ lexicon.ListsAlias kind name)
    (hother : lexicon.ListsToken other name ∨ lexicon.ListsAlias other name) : kind = other
  standing_eq_unknown_iff (name : String) :
    lexicon.standing name = .unknown ↔ lexicon.isKnown name none = false
  isKnown_none_iff (name : String) :
    lexicon.isKnown name none = false ↔ lexicon.resolve? name = none
  standing_eq_standingIn (name : String) (hknown : lexicon.standing name ≠ .unknown) :
    ∃ kind, lexicon.kindOf? name = some kind ∧
      lexicon.standing name = lexicon.standingIn kind name
  resolved_contained (name : String) (resolved : Resolved)
    (hresolved : lexicon.resolve? name = some resolved) : resolved.kind.contains resolved.id
  viaAlias_iff (name : String) (resolved : Resolved)
    (hresolved : lexicon.resolve? name = some resolved) :
    resolved.viaAlias ↔ lexicon.standing name = .aliased
  /-- What a name resolves to is listed by its kind and resolves to itself. -/
  resolved_real (name : String) (resolved : Resolved)
    (hresolved : lexicon.resolve? name = some resolved) :
    resolved.token ∈ lexicon.tokensOf resolved.kind.name ∧
      lexicon.resolve? resolved.token.name = some { resolved with viaAlias := false }
  default_listed (kind : String) (token : Token) (hdefault : lexicon.defaultOf? kind = some token) :
    token ∈ lexicon.tokensOf kind

variable {lexicon : Lexicon} {grammar : Grammar}

/-! ### Queries about a name that resolves -/

/-- A name that resolves stands to the kind that it resolves to as the index of names says, and is
unknown to the others. -/
theorem standingIn_of_resolve? {name : String} {resolved : Resolved}
    (h : lexicon.resolve? name = some resolved) (kind : String) :
    lexicon.standingIn kind name =
      if resolved.kind.name = kind then if resolved.viaAlias then .aliased else .real
      else .unknown := by
  rw [standingIn, isOfKind, kindOf?, h, standing_of_resolve? h]
  simp

/-- A name that does not resolve is unknown to every kind. -/
theorem standingIn_of_resolve?_eq_none {name : String} (h : lexicon.resolve? name = none)
    (kind : String) : lexicon.standingIn kind name = .unknown := by
  rw [standingIn, isOfKind, kindOf?, h]
  rfl

/-- A kind knows a name as a real token, or as an alias, if the name resolves to it in that way. -/
theorem standingIn_eq_iff (kind name : String) (viaAlias : Bool) :
    lexicon.standingIn kind name = (if viaAlias then .aliased else .real) ↔
      ∃ resolved, lexicon.resolve? name = some resolved ∧ resolved.kind.name = kind ∧
        resolved.viaAlias = viaAlias := by
  cases hresolve : lexicon.resolve? name with
  | none =>
    rw [standingIn_of_resolve?_eq_none hresolve]
    cases viaAlias <;> simp
  | some resolved =>
    rw [standingIn_of_resolve? hresolve]
    grind

/-- A name is an alias of a kind if it resolves to the kind, by way of an alias. -/
theorem isAlias_iff_resolve? {name kind : String} :
    lexicon.isAlias name (some kind) ↔
      ∃ resolved, lexicon.resolve? name = some resolved ∧ resolved.kind.name = kind ∧
        resolved.viaAlias = true :=
  decide_eq_true_iff.trans (standingIn_eq_iff kind name true)

/-- A name is of a kind unless it is unknown to the kind. -/
theorem isOfKind_iff_standingIn {name kind : String} :
    lexicon.isOfKind name kind ↔ lexicon.standingIn kind name ≠ .unknown := by
  rw [isOfKind, kindOf?]
  cases hresolve : lexicon.resolve? name with
  | none => simp [standingIn_of_resolve?_eq_none hresolve]
  | some resolved =>
    rw [standingIn_of_resolve? hresolve]
    grind

/-- A name is of a kind as a real token or as an alias, if at all. -/
theorem isOfKind_iff_isReal_or_isAlias {name kind : String} :
    lexicon.isOfKind name kind ↔
      lexicon.isReal name (some kind) ∨ lexicon.isAlias name (some kind) := by
  rw [isOfKind_iff_standingIn, isReal, isAlias, standingIn?]
  cases lexicon.standingIn kind name <;> decide

/-- A name is unknown to the lexicon if the index does not have it. -/
theorem standing_eq_unknown_iff_isKnown {name : String} :
    lexicon.standing name = .unknown ↔ lexicon.isKnown name none = false := by
  rw [standing, isKnown, Std.ExtTreeMap.contains_eq_isSome_getElem?]
  cases lexicon.names[Text.trim name]? with
  | none => simp
  | some meaning => cases hvia : meaning.viaAlias <;> simp [hvia]

/-! ### Queries of the lexicon of a grammar -/

namespace Flattens

/-- A name is a real token of a kind if the kind lists it as one. -/
theorem isReal_iff_listsToken (h : lexicon.Flattens grammar) {name kind : String} :
    lexicon.isReal name (some kind) ↔ lexicon.ListsToken kind (Text.trim name) := by
  have hreal : lexicon.isReal name (some kind) ↔
      ∃ resolved, lexicon.resolve? name = some resolved ∧ resolved.kind.name = kind ∧
        resolved.viaAlias = false :=
    decide_eq_true_iff.trans (standingIn_eq_iff kind name false)
  rw [hreal, ListsToken]
  simp only [h.mem_tokensOf_of_name_iff, h.exists_meaning_iff_resolve?]
  grind

/-- A name is an alias of a kind if the kind lists it as one. -/
theorem isAlias_iff_listsAlias (h : lexicon.Flattens grammar) {name kind : String} :
    lexicon.isAlias name (some kind) ↔ lexicon.ListsAlias kind (Text.trim name) := by
  rw [isAlias_iff_resolve?, ListsAlias]
  simp only [h.mem_aliases_iff, h.exists_meaning_iff_resolve?]
  grind

/-- A name that a kind lists is in the index, with a token of the kind. -/
theorem exists_meaning_of_lists (h : lexicon.Flattens grammar) {kind name : String}
    (hlists : lexicon.ListsToken kind name ∨ lexicon.ListsAlias kind name) :
    ∃ meaning token, lexicon.names[name]? = some meaning ∧
      lexicon.tokens[meaning.id]? = some token ∧ token.kind = kind := by
  rcases hlists with ⟨token, hlisted⟩ | ⟨token, hlisted⟩
  · obtain ⟨id, hmeaning, htoken⟩ := h.mem_tokensOf_of_name_iff.mp hlisted
    exact ⟨_, token, hmeaning, htoken⟩
  · obtain ⟨id, hmeaning, htoken⟩ := h.mem_aliases_iff.mp hlisted
    exact ⟨_, token, hmeaning, htoken⟩

/-- No two kinds list one name. -/
theorem kind_unique (h : lexicon.Flattens grammar) {kind other name : String}
    (hkind : lexicon.ListsToken kind name ∨ lexicon.ListsAlias kind name)
    (hother : lexicon.ListsToken other name ∨ lexicon.ListsAlias other name) : kind = other := by
  obtain ⟨meaning, token, hmeaning, htoken, rfl⟩ := h.exists_meaning_of_lists hkind
  obtain ⟨meaning', token', hmeaning', htoken', rfl⟩ := h.exists_meaning_of_lists hother
  obtain rfl := Option.some.inj (hmeaning.symm.trans hmeaning')
  obtain rfl := Option.some.inj (htoken.symm.trans htoken')
  rfl

/-- A name does not resolve just if it is not in the index. -/
theorem isKnown_eq_false_iff (h : lexicon.Flattens grammar) (name : String) :
    lexicon.isKnown name none = false ↔ lexicon.resolve? name = none := by
  rw [isKnown, ← Option.not_isSome_iff_eq_none, h.isSome_resolve?_iff,
    Std.ExtTreeMap.mem_iff_contains, Bool.not_eq_true]

/-- The kind that a name resolves to holds the id of the token. -/
theorem contains_of_resolve? (h : lexicon.Flattens grammar) {name : String} {resolved : Resolved}
    (hresolved : lexicon.resolve? name = some resolved) : resolved.kind.contains resolved.id := by
  obtain ⟨-, htoken, hkind⟩ := resolve?_eq_some_iff.mp hresolved
  exact List.contains_iff_mem.mpr
    (((h.kinds_gathered _ _ hkind).mem_tokens_iff _).mpr ⟨_, htoken, rfl⟩)

/-- The default token of a kind is one of its tokens. -/
theorem mem_tokensOf_of_defaultOf? (h : lexicon.Flattens grammar) {kind : String} {token : Token}
    (hdefault : lexicon.defaultOf? kind = some token) : token ∈ lexicon.tokensOf kind := by
  obtain ⟨found, hkind, hdefault⟩ := Option.bind_eq_some_iff.mp hdefault
  obtain ⟨id, hid, htoken⟩ := Option.bind_eq_some_iff.mp hdefault
  rw [tokensOf, hkind]
  exact List.mem_filterMap.mpr
    ⟨id, ((h.kinds_gathered _ _ hkind).default?_reached id hid).1, htoken⟩

/-- What a name resolves to is a token that its own name resolves to, if tokens have names without
blanks around them. -/
theorem resolve?_name_of_resolve? (h : lexicon.Flattens grammar)
    (hnames : ∀ token ∈ lexicon.tokens, Text.isName token.name) {name : String}
    {resolved : Resolved} (hresolved : lexicon.resolve? name = some resolved) :
    lexicon.resolve? resolved.token.name = some { resolved with viaAlias := false } := by
  obtain ⟨-, htoken, hkind⟩ := resolve?_eq_some_iff.mp hresolved
  have hmem : resolved.token ∈ lexicon.tokens := List.mem_of_getElem? htoken
  obtain ⟨id, hmeaning, htoken'⟩ := h.real_reached _ _ _ ((h.mem_tokens_iff _).mp hmem)
  obtain rfl := h.id_unique htoken' htoken
  refine resolve?_eq_some_iff.mpr ⟨?_, htoken, hkind⟩
  rw [Text.trim_of_isName (hnames _ hmem)]
  exact hmeaning

/-- A lexicon that flattens a grammar is coherent, if its tokens have names. -/
theorem coherent (h : lexicon.Flattens grammar)
    (hnames : ∀ token ∈ lexicon.tokens, Text.isName token.name) : lexicon.Coherent where
  isReal_iff name kind := h.isReal_iff_listsToken
  isAlias_iff name kind := h.isAlias_iff_listsAlias
  alias_resolves name kind token halias := by
    obtain ⟨resolved, hresolved, htoken, -⟩ :=
      h.exists_meaning_iff_resolve?.mp (h.mem_aliases_iff.mp halias)
    exact ⟨resolved, hresolved, htoken⟩
  not_both name kind := by
    rw [isReal, isAlias]
    grind
  isKnown_iff name kind := isOfKind_iff_isReal_or_isAlias
  isKnown_iff_isOfKind name kind := Iff.rfl
  isKnown_iff_kindOf? name kind := decide_eq_true_iff
  isKnown_iff_standingIn name kind := isOfKind_iff_standingIn
  listed_once name kind other hkind hother := h.kind_unique hkind hother
  standing_eq_unknown_iff name := standing_eq_unknown_iff_isKnown
  isKnown_none_iff name := h.isKnown_eq_false_iff name
  standing_eq_standingIn name hknown := by
    rw [Ne, standing_eq_unknown_iff_isKnown, h.isKnown_eq_false_iff, ← Ne,
      Option.ne_none_iff_exists'] at hknown
    obtain ⟨resolved, hresolved⟩ := hknown
    refine ⟨resolved.kind.name, by rw [kindOf?, hresolved]; rfl, ?_⟩
    rw [standingIn_of_resolve? hresolved, if_pos rfl, standing_of_resolve? hresolved]
  resolved_contained name resolved hresolved := h.contains_of_resolve? hresolved
  viaAlias_iff name resolved hresolved := by
    rw [standing_of_resolve? hresolved]
    cases resolved.viaAlias <;> decide
  resolved_real name resolved hresolved := by
    obtain ⟨-, htoken, -⟩ := resolve?_eq_some_iff.mp hresolved
    have hkind := (h.name_kind_of_resolve? hresolved).symm
    exact ⟨h.mem_tokensOf_iff.mpr ⟨List.mem_of_getElem? htoken, hkind⟩,
      h.resolve?_name_of_resolve? hnames hresolved⟩
  default_listed kind token hdefault := h.mem_tokensOf_of_defaultOf? hdefault

end Flattens

end Lexicon

namespace Grammar

variable {grammar : Grammar} {lexicon : Lexicon}

/-- All queries of the lexicon of a grammar tell one story. -/
theorem coherent_of_compile {isLocale : String → Bool} {locale : String}
    (hcompile : compile isLocale locale grammar = .ok lexicon) : lexicon.Coherent := by
  obtain ⟨-, hfault, aliases, defaults, haliases, hdefaults, rfl⟩ := compile_eq_ok_iff.mp hcompile
  refine (flattens_assemble hfault haliases hdefaults locale).coherent fun token htoken ↦ ?_
  exact (meaningful_of_declares hfault (mem_tokens_iff.mp htoken)).1

theorem coherent_of_compile_persons :
    ∃ lexicon, compile (· = "en") "en" persons = .ok lexicon ∧ lexicon.Coherent ∧
      let f : Token := ⟨"f", "female", "gender"⟩
      lexicon.tokensOf "gender" = [f, ⟨"m", "male", "gender"⟩] ∧
      lexicon.aliases "gender" = [("lady", f), ("woman", f)] ∧
      lexicon.isReal "m" (some "gender") ∧ lexicon.isAlias " lady " (some "gender") ∧
      ¬lexicon.isReal " lady " (some "gender") ∧ lexicon.kindOf? " lady " = some "gender" ∧
      (∃ resolved, lexicon.resolve? " lady " = some resolved ∧ resolved.token = f) ∧
      lexicon.standing "they" = .unknown ∧ lexicon.resolve? "they" = none := by
  have hcheck : (compile (· = "en") "en" persons).toOption.map (fun lexicon ↦
      (lexicon.tokensOf "gender", lexicon.aliases "gender", lexicon.isKnown "they" none)) =
      some ([⟨"f", "female", "gender"⟩, ⟨"m", "male", "gender"⟩],
        [("lady", ⟨"f", "female", "gender"⟩), ("woman", ⟨"f", "female", "gender"⟩)], false) := by
    decide +kernel
  obtain ⟨lexicon, hlexicon, hanswers⟩ := Option.map_eq_some_iff.mp hcheck
  obtain ⟨htokens, hothers⟩ := Prod.mk.inj hanswers
  obtain ⟨haliases, hthey⟩ := Prod.mk.inj hothers
  have hcompile := Traversal.toOption_eq_some_iff.mp hlexicon
  have hcoherent : lexicon.Coherent := coherent_of_compile hcompile
  have htrim : Text.trim " lady " = "lady" := by decide +kernel
  have hlady : (Text.trim " lady ", ⟨"f", "female", "gender"⟩) ∈ lexicon.aliases "gender" := by
    rw [htrim, haliases]
    exact List.mem_cons_self
  have hm : lexicon.isReal "m" (some "gender") := by
    rw [hcoherent.isReal_iff, Lexicon.ListsToken, htokens]
    exact ⟨_, List.mem_cons_of_mem _ List.mem_cons_self, by decide +kernel⟩
  have halias : lexicon.isAlias " lady " (some "gender") :=
    (hcoherent.isAlias_iff _ _).mpr ⟨_, hlady⟩
  have hknown : lexicon.isKnown " lady " (some "gender") :=
    (hcoherent.isKnown_iff _ _).mpr (.inr halias)
  exact ⟨lexicon, hcompile, hcoherent, htokens, haliases, hm, halias,
    fun hreal ↦ hcoherent.not_both _ _ ⟨hreal, halias⟩,
    (hcoherent.isKnown_iff_kindOf? _ _).mp hknown, hcoherent.alias_resolves _ _ _ hlady,
    (hcoherent.standing_eq_unknown_iff _).mpr hthey, (hcoherent.isKnown_none_iff _).mp hthey⟩

end Grammar

end Concord
