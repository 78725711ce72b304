import Concord.Lexicon.Compile

/-!
Catalogs: the templates of each locale by key, and the grammars of the locales. A catalog announces
the locales it has grammars for, in order, unless it has a listing of its own.
-/

set_option autoImplicit false
set_option relaxedAutoImplicit false

namespace Concord

structure Catalog where
  /-- The templates by locale and key. -/
  templates : Std.ExtTreeMap String (Std.ExtTreeMap String String) := ∅
  grammars : Std.ExtTreeMap String Grammar := ∅
  /-- The locales to announce instead of those with a grammar, in any order, repeats included. -/
  listing? : Option (List String) := none
  deriving DecidableEq

namespace Catalog

def template? (catalog : Catalog) (locale key : String) : Option String :=
  catalog.templates[locale]?.bind (·[key]?)

def grammar? (catalog : Catalog) (locale : String) : Option Grammar :=
  catalog.grammars[locale]?

/-- The locales that the catalog announces. -/
def locales (catalog : Catalog) : List String :=
  catalog.listing?.getD catalog.grammars.keys

/-- The catalog with a template in place of any under its key. -/
def storeTemplate (catalog : Catalog) (locale key text : String) : Catalog :=
  let stored := catalog.templates[locale]?.getD ∅
  { catalog with templates := catalog.templates.insert locale (stored.insert key text) }

/-- The catalog with a grammar in place of any of its locale. -/
def storeGrammar (catalog : Catalog) (locale : String) (grammar : Grammar) : Catalog :=
  { catalog with grammars := catalog.grammars.insert locale grammar }

def removeGrammar (catalog : Catalog) (locale : String) : Catalog :=
  { catalog with grammars := catalog.grammars.erase locale }

/-- The lexicon of a locale as its grammar now stands. A locale without a grammar has the lexicon
of the empty one. -/
def compile (isLocale : String → Bool) (catalog : Catalog) (locale : String) :
    Except GrammarError Lexicon :=
  Grammar.compile isLocale locale ((catalog.grammar? locale).getD {})

theorem grammar?_storeGrammar (catalog : Catalog) (locale other : String) (grammar : Grammar) :
    (catalog.storeGrammar locale grammar).grammar? other =
      if locale = other then some grammar else catalog.grammar? other := by
  simp [grammar?, storeGrammar, Std.ExtTreeMap.getElem?_insert]

theorem grammar?_removeGrammar (catalog : Catalog) (locale other : String) :
    (catalog.removeGrammar locale).grammar? other =
      if locale = other then none else catalog.grammar? other := by
  simp [grammar?, removeGrammar, Std.ExtTreeMap.getElem?_erase]

end Catalog

/-- A change of a catalog, or a look at it between changes. -/
inductive Edit where
  | storeGrammar (locale : String) (grammar : Grammar)
  | removeGrammar (locale : String)
  | storeTemplate (locale key text : String)
  | template (locale key : String)
  | locales
  /-- Puts another catalog in place of this one. -/
  | replace (catalog : Catalog)

/-- What an edit gives back. -/
inductive EditAnswer where
  | done
  | removed (grammar? : Option Grammar)
  | template (text? : Option String)
  | locales (names : List String)
  deriving DecidableEq

namespace Catalog

/-- The answer to an edit, and the catalog after it. -/
def edit (catalog : Catalog) : Edit → EditAnswer × Catalog
  | .storeGrammar locale grammar => (.done, catalog.storeGrammar locale grammar)
  | .removeGrammar locale => (.removed (catalog.grammar? locale), catalog.removeGrammar locale)
  | .storeTemplate locale key text => (.done, catalog.storeTemplate locale key text)
  | .template locale key => (.template (catalog.template? locale key), catalog)
  | .locales => (.locales catalog.locales, catalog)
  | .replace other => (.done, other)

/-- The answers to several edits in a row, and the catalog after the last. -/
def editAll (catalog : Catalog) : List Edit → List EditAnswer × Catalog
  | [] => ([], catalog)
  | edit :: rest =>
    let (answer, edited) := catalog.edit edit
    let (answers, final) := edited.editAll rest
    (answer :: answers, final)

end Catalog

end Concord
