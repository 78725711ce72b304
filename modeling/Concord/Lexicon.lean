import Concord.Text.Blank
import Std.Data.ExtTreeMap

/-!
Lexicons: the kinds and tokens of a locale in a form that answers questions. Real tokens are listed
once and known by their position, their id. A kind holds the ids of its tokens, the id behind each
of its aliases and the id of its default token, and an index says what every name denotes, so that
no question walks along aliases. Names are looked up without their surrounding blanks.
-/

set_option autoImplicit false
set_option relaxedAutoImplicit false

namespace Concord

/-- The position of a real token in its lexicon. Positions have no bound, so lexicons of more than
`2 ^ 32` tokens are left out: with ids of 32 bits all later tokens would share the greatest id. -/
abbrev TokenId := Nat

/-- A real token. -/
structure Token where
  name : String
  description : String
  kind : String
  deriving DecidableEq, Repr

/-- A category of tokens that exclude each other, such as gender. -/
structure Kind where
  name : String
  /-- The real tokens of the kind, in the order of their names. -/
  tokens : List TokenId
  /-- The real token behind each alias of the kind. -/
  aliases : Std.ExtTreeMap String TokenId
  default? : Option TokenId
  deriving DecidableEq

def Kind.contains (kind : Kind) (id : TokenId) : Bool :=
  kind.tokens.contains id

/-- What a name denotes: a real token, by its own name or through an alias. -/
structure Meaning where
  id : TokenId
  viaAlias : Bool
  deriving DecidableEq, Repr

structure Lexicon where
  locale : String
  /-- The real tokens; the position of a token is its id. -/
  tokens : List Token
  kinds : Std.ExtTreeMap String Kind
  names : Std.ExtTreeMap String Meaning
  deriving DecidableEq

/-- A name looked up: the real token that it denotes, and the kind of that token. -/
structure Resolved where
  id : TokenId
  token : Token
  kind : Kind
  viaAlias : Bool
  deriving DecidableEq

/-- How a name stands to a lexicon, or to one of its kinds. -/
inductive Standing where
  | real
  | aliased
  | unknown
  deriving DecidableEq, Repr

namespace Lexicon

def kind? (lexicon : Lexicon) (kind : String) : Option Kind :=
  lexicon.kinds[kind]?

def token? (lexicon : Lexicon) (id : TokenId) : Option Token :=
  lexicon.tokens[id]?

/-- The token and kind that a name denotes. -/
def resolve? (lexicon : Lexicon) (name : String) : Option Resolved := do
  let meaning ← lexicon.names[Text.trim name]?
  let token ← lexicon.token? meaning.id
  let kind ← lexicon.kind? token.kind
  return ⟨meaning.id, token, kind, meaning.viaAlias⟩

/-- The kind that a token or alias belongs to. -/
def kindOf? (lexicon : Lexicon) (name : String) : Option String :=
  (lexicon.resolve? name).map (·.kind.name)

/-- The name is a token or alias of the kind. -/
def isOfKind (lexicon : Lexicon) (name kind : String) : Bool :=
  lexicon.kindOf? name = some kind

/-- How the name stands to the lexicon. -/
def standing (lexicon : Lexicon) (name : String) : Standing :=
  match lexicon.names[Text.trim name]? with
  | none => .unknown
  | some meaning => if meaning.viaAlias then .aliased else .real

/-- How the name stands to one kind. Names of other kinds are unknown to it. -/
def standingIn (lexicon : Lexicon) (kind name : String) : Standing :=
  if lexicon.isOfKind name kind then lexicon.standing name else .unknown

/-- How the name stands to the kind, or without a kind to the whole lexicon. -/
def standingIn? (lexicon : Lexicon) (kind? : Option String) (name : String) : Standing :=
  match kind? with
  | none => lexicon.standing name
  | some kind => lexicon.standingIn kind name

def isReal (lexicon : Lexicon) (name : String) (kind? : Option String) : Bool :=
  lexicon.standingIn? kind? name = .real

def isAlias (lexicon : Lexicon) (name : String) (kind? : Option String) : Bool :=
  lexicon.standingIn? kind? name = .aliased

/-- The name is known, as a token or as an alias. -/
def isKnown (lexicon : Lexicon) (name : String) (kind? : Option String) : Bool :=
  match kind? with
  | none => lexicon.names.contains (Text.trim name)
  | some kind => lexicon.isOfKind name kind

/-- The real tokens of a kind in the order of their names; none for an unknown kind. -/
def tokensOf (lexicon : Lexicon) (kind : String) : List Token :=
  match lexicon.kind? kind with
  | none => []
  | some found => found.tokens.filterMap lexicon.token?

/-- The aliases of a kind, each with the real token behind it. -/
def aliases (lexicon : Lexicon) (kind : String) : List (String × Token) :=
  match lexicon.kind? kind with
  | none => []
  | some found =>
    found.aliases.toList.filterMap fun entry ↦ (lexicon.token? entry.2).map (entry.1, ·)

def defaultOf? (lexicon : Lexicon) (kind : String) : Option Token := do
  let found ← lexicon.kind? kind
  let id ← found.default?
  lexicon.token? id

/-- The names of all real tokens, in the order of their ids. -/
def tokenNames (lexicon : Lexicon) : List String :=
  lexicon.tokens.map (·.name)

/-- The names of the real tokens of a kind. -/
def tokenNamesOf (lexicon : Lexicon) (kind : String) : List String :=
  (lexicon.tokensOf kind).map (·.name)

def isEmpty (lexicon : Lexicon) : Bool :=
  lexicon.kinds.isEmpty

end Lexicon

end Concord
