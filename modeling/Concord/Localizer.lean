import Concord.Catalog
import Concord.Inquiry

/-!
Localizers. A localizer answers inquiries about the locales of a catalog. It compiles the lexicon
of a locale when it is first needed and keeps it published until it compiles the locale anew; a
grammar with a fault never displaces a published lexicon. Each operation gives its result and the
localizer after it.

`Catalog.consult` is the same service without memory: it compiles the lexicon for each inquiry.
-/

set_option autoImplicit false
set_option relaxedAutoImplicit false

namespace Concord

structure Localizer where
  catalog : Catalog
  /-- The lexicons in use, by locale. -/
  published : Std.ExtTreeMap String Lexicon := ∅
  /-- The switches to use whatever the surroundings say. -/
  pinned? : Option Switches := none
  deriving DecidableEq

/-- The answer to an inquiry from the grammar of the locale as it now stands. -/
def Catalog.consult (isLocale : String → Bool) (catalog : Catalog) (switches : Switches)
    (locale : String) (inquiry : Inquiry) : Except Failure Answer :=
  match catalog.compile isLocale locale with
  | .error error => .error (.grammar error)
  | .ok lexicon => inquiry.answer switches lexicon

namespace Localizer

/-- The switches in effect before a call's own overrides. -/
def switches (localizer : Localizer) (ambient : Switches) : Switches :=
  localizer.pinned?.getD ambient

def publish (localizer : Localizer) (locale : String) (lexicon : Lexicon) : Localizer :=
  { localizer with published := localizer.published.insert locale lexicon }

/-- Compiles a locale anew and publishes its lexicon, unless its grammar has a fault. -/
def recompile (isLocale : String → Bool) (localizer : Localizer) (locale : String) :
    Except GrammarError Lexicon × Localizer :=
  match localizer.catalog.compile isLocale locale with
  | .error error => (.error error, localizer)
  | .ok lexicon => (.ok lexicon, localizer.publish locale lexicon)

/-- The lexicons of several locales, or the first fault among them. -/
def compileAll (isLocale : String → Bool) (catalog : Catalog) (locales : List String) :
    Except GrammarError (List (String × Lexicon)) :=
  locales.mapM fun locale ↦ (catalog.compile isLocale locale).map (locale, ·)

/-- Compiles every locale that the catalog announces and publishes them all, or none if one of
their grammars has a fault. The result is the number of locales announced. -/
def recompileAll (isLocale : String → Bool) (localizer : Localizer) :
    Except GrammarError Nat × Localizer :=
  match compileAll isLocale localizer.catalog localizer.catalog.locales with
  | .error error => (.error error, localizer)
  | .ok compiled =>
    (.ok compiled.length,
      compiled.foldl (fun localizer entry ↦ localizer.publish entry.1 entry.2) localizer)

/-- The lexicon of a locale: the published one, or else a new one, published now. -/
def lexicon (isLocale : String → Bool) (localizer : Localizer) (locale : String) :
    Except GrammarError Lexicon × Localizer :=
  match localizer.published[locale]? with
  | some lexicon => (.ok lexicon, localizer)
  | none => localizer.recompile isLocale locale

/-- The answer of a locale's lexicon to an inquiry. -/
def consult (isLocale : String → Bool) (localizer : Localizer) (ambient : Switches)
    (locale : String) (inquiry : Inquiry) : Except Failure Answer × Localizer :=
  match localizer.lexicon isLocale locale with
  | (.error error, after) => (.error (.grammar error), after)
  | (.ok lexicon, after) => (inquiry.answer (localizer.switches ambient) lexicon, after)

/-- The answer to an inquiry about a stored template. A missing template is reported before the
lexicon is looked for. -/
def consultStored (isLocale : String → Bool) (localizer : Localizer) (ambient : Switches)
    (locale key : String) (inquiry : String → Inquiry) : Except Failure Answer × Localizer :=
  match localizer.catalog.template? locale key with
  | none => (.error (.templateNotFound locale key), localizer)
  | some text => localizer.consult isLocale ambient locale (inquiry text)

/-- The text of a stored template, with its patterns resolved. -/
def localize (isLocale : String → Bool) (localizer : Localizer) (ambient : Switches)
    (locale key : String) (options : Options) (overrides : Overrides) :
    Except Failure Answer × Localizer :=
  localizer.consultStored isLocale ambient locale key fun text ↦ .interpolate text options overrides

/-- The review of a stored template. -/
def reviewStored (isLocale : String → Bool) (localizer : Localizer) (ambient : Switches)
    (locale key : String) : Except Failure Answer × Localizer :=
  localizer.consultStored isLocale ambient locale key .review

/-- Compiles every published locale anew. Where the grammar has a fault, the lexicon stays. -/
def recompilePublished (isLocale : String → Bool) (localizer : Localizer) : Localizer :=
  { localizer with
    published := localizer.published.map fun locale lexicon ↦
      (localizer.catalog.compile isLocale locale).toOption.getD lexicon }

/-- Edits the catalog, then brings the published lexicons up to date. -/
def edit (isLocale : String → Bool) (localizer : Localizer) (edits : List Edit) :
    List EditAnswer × Localizer :=
  let (answers, catalog) := localizer.catalog.editAll edits
  (answers, { localizer with catalog }.recompilePublished isLocale)

/-- Stores a grammar and compiles its locale. A grammar with a fault is stored all the same. -/
def storeGrammar (isLocale : String → Bool) (localizer : Localizer) (locale : String)
    (grammar : Grammar) : Except GrammarError Lexicon × Localizer :=
  { localizer with catalog := localizer.catalog.storeGrammar locale grammar }.recompile
    isLocale locale

/-- The lexicon has the kind, or without a kind has any kind at all. -/
def serves (kind? : Option String) (lexicon : Lexicon) : Bool :=
  match kind? with
  | none => !lexicon.isEmpty
  | some kind => (lexicon.kind? kind).isSome

/-- The locales among the given ones whose lexicons serve, compiling what is not published. -/
def selectServing (isLocale : String → Bool) (kind? : Option String) :
    List String → Localizer → List String × Localizer
  | [], localizer => ([], localizer)
  | locale :: rest, localizer =>
    let (found, after) := localizer.lexicon isLocale locale
    let (selected, final) := selectServing isLocale kind? rest after
    (if found.toOption.any (serves kind?) then locale :: selected else selected, final)

/-- The announced locales that have the kind, or any kind. Those with a fault are left out. -/
def localesWith (isLocale : String → Bool) (localizer : Localizer) (kind? : Option String) :
    List String × Localizer :=
  selectServing isLocale kind? localizer.catalog.locales localizer

/-- The locales with a published lexicon, in order. -/
def publishedLocales (localizer : Localizer) : List String :=
  localizer.published.keys

/-- The kinds of all published lexicons, in order and without repetition. -/
def publishedKinds (localizer : Localizer) : List String :=
  ((localizer.published.values.flatMap (·.kinds.keys)).mergeSort (· ≤ ·)).eraseDups

end Localizer

end Concord
