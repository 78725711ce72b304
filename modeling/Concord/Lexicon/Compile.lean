import Concord.Grammar.Declaration
import Concord.Lexicon

/-!
Lexicons from grammars. `Grammar.compile` checks a grammar and flattens it: the real tokens are
numbered in the order of kinds and names, and every alias and default entry is replaced by the id
of the real token it leads to. A grammar with a fault has no lexicon. Of several faults the first
is reported, in this order: the locale, kind names and declarations, aliases, default entries. Which
texts designate a locale is left open here, and everything that compiles is told by `isLocale`.
-/

set_option autoImplicit false
set_option relaxedAutoImplicit false

namespace Concord

/-- The real token that a declaration introduces, unless it is an alias. -/
def Declaration.token? (declaration : Declaration) : Option Token :=
  match declaration.entry with
  | .real description => some ⟨declaration.name, description, declaration.kind⟩
  | .aliasOf _ => none

/-- An alias with the name of the real token that it leads to. -/
structure SettledAlias where
  kind : String
  name : String
  target : String
  deriving DecidableEq, Repr

/-- The default token of a kind, by the name of the real token. -/
structure SettledDefault where
  kind : String
  target : String
  deriving DecidableEq, Repr

namespace Grammar

/-- The real tokens of a grammar, by kind and then by name. -/
def tokens (grammar : Grammar) : List Token :=
  grammar.declarations.filterMap Declaration.token?

/-- The aliases of a grammar, each followed to its real token. -/
def settledAliases (grammar : Grammar) : Except GrammarError (List SettledAlias) :=
  (grammar.declarations.filter (·.entry.isAlias)).mapM fun declaration ↦
    (declaration.settle grammar.declarations).map fun target ↦
      ⟨declaration.kind, declaration.name, target⟩

/-- The default entries of a grammar, each followed to its real token. -/
def settledDefaults (grammar : Grammar) : Except GrammarError (List SettledDefault) :=
  grammar.defaults.mapM fun default ↦
    (Declaration.settleDefault grammar.declarations default.1 default.2).map fun target ↦
      ⟨default.1, target⟩

end Grammar

/-- The id of the token with the given name. -/
def Token.idOf (tokens : List Token) (name : String) : TokenId :=
  tokens.findIdx (·.name = name)

/-- The kind of the given name, with what the tokens, aliases and defaults hold for it. -/
def Kind.gather (kind : String) (tokens : List Token) (aliases : List SettledAlias)
    (defaults : List SettledDefault) : Kind where
  name := kind
  tokens := (tokens.filter (·.kind = kind)).map fun token ↦ Token.idOf tokens token.name
  aliases := .ofList ((aliases.filter (·.kind = kind)).map fun settled ↦
    (settled.name, Token.idOf tokens settled.target))
  default? := (defaults.find? (·.kind = kind)).map (Token.idOf tokens ·.target)

/-- The index of all names. -/
def Meaning.index (tokens : List Token) (aliases : List SettledAlias) :
    Std.ExtTreeMap String Meaning :=
  .ofList <|
    tokens.map (fun token ↦ (token.name, Meaning.mk (Token.idOf tokens token.name) false)) ++
      aliases.map fun settled ↦ (settled.name, Meaning.mk (Token.idOf tokens settled.target) true)

namespace Grammar

/-- The lexicon of a grammar whose aliases and defaults are settled. -/
def assemble (grammar : Grammar) (locale : String) (aliases : List SettledAlias)
    (defaults : List SettledDefault) : Lexicon where
  locale := locale
  tokens := grammar.tokens
  kinds := grammar.kinds.map fun kind _ ↦ Kind.gather kind grammar.tokens aliases defaults
  names := Meaning.index grammar.tokens aliases

/-- The lexicon of a grammar for a locale, or the first fault found. -/
def compile (isLocale : String → Bool) (locale : String) (grammar : Grammar) :
    Except GrammarError Lexicon :=
  if isLocale locale then
    match grammar.fault? with
    | some fault => .error fault
    | none => do
      let aliases ← grammar.settledAliases
      let defaults ← grammar.settledDefaults
      return grammar.assemble locale aliases defaults
  else .error (.invalidLocale locale)

end Grammar

end Concord
