import Concord.Text.Blank
import Std.Data.ExtTreeMap

/-!
Grammars as they are declared. The grammar of a locale names its kinds, such as gender or number;
a kind declares real tokens with their descriptions and aliases that point at other tokens. The
entry named `default` is set apart: it declares no token but says which one is the default.

An entry has a written form, in which a leading `@` marks an alias; `Entry.ofText` reads it and
`Entry.toText` writes it. A description may itself begin with `@`, and is then read as an alias.
The written form of a kind or a grammar is a table of such texts.
-/

set_option autoImplicit false
set_option relaxedAutoImplicit false

namespace Concord

/-- What a kind declares under a name. -/
inductive Entry where
  /-- A real token, with its description. -/
  | real (description : String)
  /-- An alias, with the name it points at. -/
  | aliasOf (target : String)
  deriving DecidableEq, Repr

namespace Entry

/-- An alias whose target has no surrounding blanks. -/
def pointingAt (target : String) : Entry :=
  .aliasOf (Text.trim target)

def ofText (text : String) : Entry :=
  match text.toList with
  | '@' :: target => pointingAt (String.ofList target)
  | _ => .real text

def toText : Entry → String
  | .real description => description
  | .aliasOf target => "@" ++ target

/-- The token that a `default` entry means, however it is written: `n` and `@n` mean the same. -/
def referent : Entry → String
  | .real description => Text.trim description
  | .aliasOf target => target

def isAlias : Entry → Bool
  | .real _ => false
  | .aliasOf _ => true

end Entry

/-- The name whose entry says which token is the default. -/
def defaultKey : String := "default"

/-- The entries of one kind by name. -/
structure KindDeclaration where
  entries : Std.ExtTreeMap String Entry := ∅
  deriving DecidableEq

namespace KindDeclaration

/-- The declaration with an entry in place of any of its name. -/
def insert (declaration : KindDeclaration) (name : String) (entry : Entry) : KindDeclaration :=
  ⟨declaration.entries.insert name entry⟩

def insertReal (declaration : KindDeclaration) (name description : String) : KindDeclaration :=
  declaration.insert name (.real description)

def insertAlias (declaration : KindDeclaration) (name target : String) : KindDeclaration :=
  declaration.insert name (.pointingAt target)

def setDefault (declaration : KindDeclaration) (name : String) : KindDeclaration :=
  declaration.insert defaultKey (.pointingAt name)

/-- The entry that says which token is the default. -/
def default? (declaration : KindDeclaration) : Option Entry :=
  declaration.entries[defaultKey]?

/-- All entries but the default, in the order of their names. -/
def members (declaration : KindDeclaration) : List (String × Entry) :=
  declaration.entries.toList.filter fun entry ↦ entry.1 ≠ defaultKey

/-- The kind declares no token, though it may have a default entry. -/
def isEmpty (declaration : KindDeclaration) : Bool :=
  declaration.members.isEmpty

/-- The declaration that texts write, a later text for a name in place of an earlier one. -/
def ofTexts (texts : List (String × String)) : KindDeclaration :=
  ⟨.ofList (texts.map fun text ↦ (text.1, Entry.ofText text.2))⟩

/-- The written forms of all entries, the default among them, in the order of their names. -/
def toTexts (declaration : KindDeclaration) : List (String × String) :=
  declaration.entries.toList.map fun entry ↦ (entry.1, entry.2.toText)

end KindDeclaration

/-- The kinds of a locale by name. -/
structure Grammar where
  kinds : Std.ExtTreeMap String KindDeclaration := ∅
  deriving DecidableEq

namespace Grammar

/-- The grammar with a kind in place of any of its name. -/
def insertKind (grammar : Grammar) (kind : String) (declaration : KindDeclaration) : Grammar :=
  ⟨grammar.kinds.insert kind declaration⟩

def isEmpty (grammar : Grammar) : Bool :=
  grammar.kinds.isEmpty

/-- The grammar whose kinds are written as tables of texts. -/
def ofTexts (texts : List (String × List (String × String))) : Grammar :=
  ⟨.ofList (texts.map fun kind ↦ (kind.1, KindDeclaration.ofTexts kind.2))⟩

/-- The written forms of all kinds in the order of their names. -/
def toTexts (grammar : Grammar) : List (String × List (String × String)) :=
  grammar.kinds.toList.map fun kind ↦ (kind.1, kind.2.toTexts)

end Grammar

end Concord
