import Concord.Proofs.Lexicon.Queries
import Concord.Proofs.Resolution.Requests

/-!
# Defaults asked for and defaults standing in

Where errors are not raised and defaults may stand in, a kind that the options leave out has its
default token in effect. To ask for that token by name comes to the same, although the request is
then a known one and is treated as such: where the pattern does not name the token, the default
stands in for itself (`actsAlike_of_request_eq_default`). So the options may be filled up with the
defaults of any lexicon that a grammar compiles to, by the names of the tokens or by aliases
(`Options.NamesDefaults`). The main statement is `interpolate_of_namesDefaults`.
-/

set_option autoImplicit false
set_option relaxedAutoImplicit false

namespace Concord

/-- For the kind the options have nothing, a blank choice, or what is no name of a token of it. -/
def Options.LeavesOut (options : Options) (lexicon : Lexicon) (kind : String) : Prop :=
  ∀ name, options.get? kind = some (.token name) → lexicon.isOfKind name kind = false

/-- A choice is the token of a name just if that is its text. -/
theorem Choice.toText?_eq_some_iff {choice : Choice} {name : String} :
    choice.toText? = some name ↔ choice = .token name := by
  cases choice <;> simp [toText?]

instance (options : Options) (lexicon : Lexicon) (kind : String) :
    Decidable (options.LeavesOut lexicon kind) :=
  decidable_of_iff
    (∀ name ∈ (options.get? kind).bind Choice.toText?, lexicon.isOfKind name kind = false)
    (by simp [Options.LeavesOut, Option.bind_eq_some_iff, Choice.toText?_eq_some_iff])

/-- The filled options name the default token of every kind that the options leave out, by its name
or by an alias. Apart from these kinds they are the same. -/
structure Options.NamesDefaults (options filled : Options) (lexicon : Lexicon) : Prop where
  named (kind : String) (token : Token) (hdefault : lexicon.defaultOf? kind = some token)
    (hleft : options.LeavesOut lexicon kind) :
    ∃ name, filled.get? kind = some (.token name) ∧
      (name = token.name ∨ (name, token) ∈ lexicon.aliases kind)
  kept (key : String)
    (h : lexicon.defaultOf? key = none ∨ ¬options.LeavesOut lexicon key) :
    filled.get? key = options.get? key

/-- What has a default is a kind of the lexicon. -/
theorem Lexicon.mem_kinds_of_defaultOf? {lexicon : Lexicon} {kind : String} {token : Token}
    (hdefault : lexicon.defaultOf? kind = some token) : kind ∈ lexicon.kinds := by
  obtain ⟨found, hkind, -⟩ := Option.bind_eq_some_iff.mp hdefault
  exact mem_table_iff.mpr ⟨found, hkind⟩

/-- A kind of the lexicon has the default that its id stands for. -/
theorem Lexicon.defaultOf?_of_kind? {lexicon : Lexicon} {name : String} {kind : Kind}
    (hkind : lexicon.kind? name = some kind) :
    lexicon.defaultOf? name = kind.default?.bind lexicon.token? := by
  rw [defaultOf?, hkind]
  rfl

namespace Grammar

variable {isLocale : String → Bool} {grammar : Grammar} {locale : String} {lexicon : Lexicon}

/-- Everything in the index of a lexicon is a name. -/
theorem isName_of_meaning (hcompile : compile isLocale locale grammar = .ok lexicon)
    {name : String} {meaning : Meaning} (hmeaning : lexicon.names[name]? = some meaning) :
    Text.isName name = true := by
  obtain ⟨entry, token, -, hdeclares, -⟩ :=
    (flattens_of_compile hcompile).2.declares_of_meaning hmeaning
  obtain ⟨-, hfault, -⟩ := compile_eq_ok_iff.mp hcompile
  exact (meaningful_of_declares hfault hdeclares).1

/-- A token that a kind lists is what its name and its aliases resolve to. -/
theorem exists_resolve?_of_listed (hcompile : compile isLocale locale grammar = .ok lexicon)
    {kind name : String} {token : Token} (hlisted : token ∈ lexicon.tokensOf kind)
    (hname : name = token.name ∨ (name, token) ∈ lexicon.aliases kind) :
    ∃ resolved, lexicon.resolve? name = some resolved ∧ resolved.token = token ∧
      resolved.kind.name = kind := by
  have hflattens := (flattens_of_compile hcompile).2
  have hindex : ∃ viaAlias id, lexicon.names[name]? = some ⟨id, viaAlias⟩ ∧
      lexicon.tokens[id]? = some token ∧ token.kind = kind := by
    rcases hname with rfl | halias
    · exact ⟨false, hflattens.mem_tokensOf_of_name_iff.mp ⟨hlisted, rfl⟩⟩
    · exact ⟨true, hflattens.mem_aliases_iff.mp halias⟩
  obtain ⟨viaAlias, id, hmeaning, hfound⟩ := hindex
  rw [← Text.trim_of_isName (isName_of_meaning hcompile hmeaning)] at hmeaning
  obtain ⟨resolved, hresolved, htoken, hkind, -⟩ :=
    hflattens.exists_meaning_iff_resolve?.mp ⟨id, hmeaning, hfound⟩
  exact ⟨resolved, hresolved, htoken, hkind⟩

end Grammar

namespace Context

variable {isLocale : String → Bool} {context : Context} {filled : Options} {grammar : Grammar}
  {locale : String}

/-- No token of a kind is asked for just if the options leave the kind out. -/
theorem known?_request_eq_none_iff {kind : Kind} :
    (context.request kind).known? = none ↔
      context.options.LeavesOut context.lexicon kind.name := by
  rw [request, Options.LeavesOut]
  cases hchoice : context.options.get? kind.name with
  | none => simp [Request.known?]
  | some choice =>
    cases choice with
    | blank => simp [Request.known?]
    | token name =>
      have honly : (∀ other, some (Choice.token name) = some (.token other) →
          context.lexicon.isOfKind other kind.name = false) ↔
            context.lexicon.isOfKind name kind.name = false := by
        simp
      rw [honly, Lexicon.isOfKind, Lexicon.kindOf?]
      dsimp only
      cases context.lexicon.resolve? name with
      | none => simp [Request.known?]
      | some resolved =>
        by_cases hkind : resolved.kind.name = kind.name <;> simp [hkind, Request.known?]

/-- A request for the default of a kind acts as no request for a token of it: if the default is not
named in the pattern, it stands in for itself. -/
theorem actsAlike_of_request_eq_default {kind : Kind} {id : TokenId}
    (hraises : context.switches.raises = false)
    (hunknown : context.switches.unknownDefaults = true) (hdefault : kind.default? = some id)
    (hleft : (context.request kind).known? = none)
    (hnamed : (context.withOptions filled).request kind = .known id) :
    context.ActsAlike filled kind := by
  have hbefore : context.inEffect? kind = some id := by
    rw [inEffect?_eq_or, hleft, if_pos hunknown, hdefault, Option.none_or]
  have hafter : (context.withOptions filled).inEffect? kind = some id := by
    rw [inEffect?_eq_or, hnamed, Request.known?, Option.some_or]
  refine ⟨hafter.trans hbefore.symm, ?_, fun hraised ↦ ?_⟩
  · intro candidates position
    rw [standIn?_eq_elim, standIn?_eq_elim, hleft, hnamed, Request.known?, Option.elim_none,
      Option.elim_some, hdefault, Option.some_or, ite_self, hbefore]
  · rw [hraises] at hraised
    cases hraised

/-- Where the filled options name the default of a kind, they ask for it. -/
theorem request_of_namesDefaults
    (hcompile : Grammar.compile isLocale locale grammar = .ok context.lexicon)
    (hfilled : context.options.NamesDefaults filled context.lexicon) {kind : Kind} {id : TokenId}
    {token : Token} (hkind : context.lexicon.kind? kind.name = some kind)
    (hdefault : kind.default? = some id) (htoken : context.lexicon.token? id = some token)
    (hleft : context.options.LeavesOut context.lexicon kind.name) :
    (context.withOptions filled).request kind = .known id := by
  have hflattens := (Grammar.flattens_of_compile hcompile).2
  have hdefaultOf : context.lexicon.defaultOf? kind.name = some token := by
    rw [Lexicon.defaultOf?_of_kind? hkind, hdefault]
    exact htoken
  obtain ⟨name, hchoice, hname⟩ := hfilled.named kind.name token hdefaultOf hleft
  obtain ⟨resolved, hresolved, rfl, hkindName⟩ := Grammar.exists_resolve?_of_listed hcompile
    (hflattens.mem_tokensOf_of_defaultOf? hdefaultOf) hname
  have hid : resolved.id = id :=
    hflattens.id_unique (Lexicon.resolve?_eq_some_iff.mp hresolved).2.1 htoken
  have hrequest : (context.withOptions filled).request kind = .known resolved.id :=
    request_eq_known hchoice hresolved hkindName
  rw [hrequest, hid]

/-- Filled options act as those of the context for every kind of the lexicon. -/
theorem actsAlike_of_namesDefaults
    (hcompile : Grammar.compile isLocale locale grammar = .ok context.lexicon)
    (hraises : context.switches.raises = false)
    (hunknown : context.switches.unknownDefaults = true)
    (hfilled : context.options.NamesDefaults filled context.lexicon) {kind : Kind}
    (hkind : context.lexicon.kind? kind.name = some kind) : context.ActsAlike filled kind := by
  have hkept (h : context.lexicon.defaultOf? kind.name = none ∨
      ¬context.options.LeavesOut context.lexicon kind.name) : context.ActsAlike filled kind := by
    have hrequest : (context.withOptions filled).request kind = context.request kind :=
      request_congr rfl (hfilled.kept kind.name h)
    exact actsAlike_of_visible_eq (congrArg _ hrequest)
  cases hdefault : kind.default? with
  | none =>
    refine hkept (.inl ?_)
    rw [Lexicon.defaultOf?_of_kind? hkind, hdefault, Option.bind_none]
  | some id =>
    by_cases hleft : context.options.LeavesOut context.lexicon kind.name
    · obtain ⟨-, -, token, -, htoken, -⟩ :=
        ((Grammar.flattens_of_compile hcompile).2.kinds_gathered _ kind hkind).default?_reached id
          hdefault
      exact actsAlike_of_request_eq_default hraises hunknown hdefault
        (known?_request_eq_none_iff.mpr hleft)
        (request_of_namesDefaults hcompile hfilled hkind hdefault htoken hleft)
    · exact hkept (.inr hleft)

/-- If errors are not raised and defaults may stand in for missing options, then it makes no
difference whether options leave kinds out or name the defaults of these kinds, directly or by
aliases. -/
theorem interpolate_of_namesDefaults
    (hcompile : Grammar.compile isLocale locale grammar = .ok context.lexicon)
    (hraises : context.switches.raises = false)
    (hunknown : context.switches.unknownDefaults = true)
    (hfilled : context.options.NamesDefaults filled context.lexicon) (text : String) :
    (context.withOptions filled).interpolate text = context.interpolate text := by
  refine interpolate_withOptions ?_
  rintro kind ⟨pattern, -, kinds, hkinds, hmem⟩
  obtain ⟨name, hname⟩ := exists_kind?_of_kindsOf hkinds kind hmem
  obtain rfl := ((Grammar.flattens_of_compile hcompile).2.kinds_gathered name kind hname).name_eq
  exact actsAlike_of_namesDefaults hcompile hraises hunknown hfilled hname

/-- A text about gender, and then about gender and count. Its patterns do not name the token `f`. -/
def address : String :=
  "@gender{m:Sir|Friend}, @gender+count{m+*:his|*+one:alone}"

theorem interpolate_of_namesDefaults_persons :
    ∃ lexicon, Grammar.compile (· = "en") "en" Grammar.persons = .ok lexicon ∧
      let context : Context :=
        ⟨lexicon, .ofList [("gender", .token "nobody")], { excludedDefaults := true }⟩
      let filled := context.options.insert "gender" (.token "lady") |>.insert "count" (.token "one")
      context.options.NamesDefaults filled lexicon ∧
        (context.withOptions filled).interpolate address = context.interpolate address ∧
        (context.interpolate address).toOption = some "Friend, alone" := by
  have hcheck : (Grammar.compile (· = "en") "en" Grammar.persons).toOption.map (fun lexicon ↦
      let context : Context :=
        ⟨lexicon, .ofList [("gender", .token "nobody")], { excludedDefaults := true }⟩
      decide (lexicon.kinds.keys = ["count", "gender"] ∧
        context.options.LeavesOut lexicon "gender" ∧ context.options.LeavesOut lexicon "count" ∧
        (∃ listed ∈ lexicon.aliases "gender", listed.1 = "lady" ∧
          lexicon.defaultOf? "gender" = some listed.2) ∧
        (lexicon.defaultOf? "count").map (·.name) = some "one" ∧
        (context.interpolate address).toOption = some "Friend, alone")) = some true := by
    decide +kernel
  obtain ⟨lexicon, hlexicon, hfacts⟩ := Option.map_eq_some_iff.mp hcheck
  obtain ⟨hkinds, hgenderLeft, hcountLeft, ⟨⟨_, female⟩, halias, rfl, hgender⟩, hcount, htext⟩ :=
    of_decide_eq_true hfacts
  obtain ⟨one, hone, hname⟩ := Option.map_eq_some_iff.mp hcount
  have hcompile := Traversal.toOption_eq_some_iff.mp hlexicon
  refine ⟨lexicon, hcompile, ?_⟩
  intro context filled
  have hfilled : context.options.NamesDefaults filled lexicon := by
    constructor
    · intro kind token hdefault hleft
      have hkind := Std.ExtTreeMap.mem_keys.mpr (Lexicon.mem_kinds_of_defaultOf? hdefault)
      rw [hkinds] at hkind
      rcases List.mem_pair.mp hkind with rfl | rfl
      · obtain rfl := Option.some.inj (hone.symm.trans hdefault)
        exact ⟨"one", by rw [Options.get?_insert, if_pos rfl], .inl hname.symm⟩
      · obtain rfl := Option.some.inj (hgender.symm.trans hdefault)
        refine ⟨"lady", ?_, .inr halias⟩
        rw [Options.get?_insert, if_neg (by decide), Options.get?_insert, if_pos rfl]
    · intro key h
      have hkey : "count" ≠ key ∧ "gender" ≠ key := by
        constructor
        · rintro rfl
          exact h.elim (by simp [hone]) (absurd hcountLeft)
        · rintro rfl
          exact h.elim (by simp [hgender]) (absurd hgenderLeft)
      rw [Options.get?_insert, if_neg hkey.1, Options.get?_insert, if_neg hkey.2]
  exact ⟨hfilled, interpolate_of_namesDefaults hcompile rfl rfl hfilled address, htext⟩

end Context

end Concord
