import Concord.Resolution
import Concord.Template.Scan

/-!
Reviewing templates without options. `Pattern.review` lists what is questionable about a pattern
for a given lexicon: kinds and tokens that can never match, entries that an earlier segment takes
away, and patterns that may come to nothing because no free text and no default catches them.
-/

set_option autoImplicit false
set_option relaxedAutoImplicit false

namespace Concord

inductive Finding where
  | unknownToken (token : String) (suggestions : List String)
  /-- An alias where patterns may not name aliases, with the real token behind it. -/
  | aliasToken (token target : String)
  | wrongKind (token expected actual : String)
  | unknownKind (kind : String)
  | uninferableKind
  /-- An entry that is found in an earlier segment too. -/
  | duplicateEntry (entry : String)
  /-- Neither free text nor the default token of the kind is in the pattern. -/
  | noFallback (kind : String)
  deriving DecidableEq, Repr

/-- A finding together with the pattern it is about, as written. -/
structure Warning where
  pattern : String
  finding : Finding
  deriving DecidableEq, Repr

def Finding.message : Finding → String
  | .unknownToken token suggestions => s!"unknown token '{token}'" ++ suggestionText suggestions
  | .aliasToken token target =>
    s!"'{token}' is an alias of '{target}' and only matches with aliased patterns enabled"
  | .wrongKind token expected actual =>
    s!"token '{token}' belongs to kind '{actual}', expected '{expected}'"
  | .unknownKind kind => s!"unknown kind '{kind}'"
  | .uninferableKind => "no known token to infer the kind from"
  | .duplicateEntry entry =>
    s!"'{entry}' appears in more than one segment; only the first can match"
  | .noFallback kind => s!"no free text and no default token of kind '{kind}' in the pattern"

def Warning.message (warning : Warning) : String :=
  s!"pattern '{warning.pattern}': {warning.finding.message}"

/-- The finding about a name that stands where a token of the kind is expected. -/
def Lexicon.reviewName? (lexicon : Lexicon) (aliasedPatterns : Bool) (kind : Kind)
    (name : String) : Option Finding :=
  match lexicon.standingIn kind.name name with
  | .real => none
  | .aliased =>
    if aliasedPatterns then none
    else some (.aliasToken name ((lexicon.resolve? name).elim "" (·.token.name)))
  | .unknown =>
    match lexicon.kindOf? name with
    | some actual => some (.wrongKind name kind.name actual)
    | none => some (.unknownToken name (suggest name (lexicon.tokenNamesOf kind.name)))

namespace Pattern

/-- The kinds that govern the pattern, or why they cannot be told. -/
def reviewKinds (pattern : Pattern) (lexicon : Lexicon) (aliasedPatterns : Bool) :
    Except (List Finding) (List Kind) :=
  let declared (names : List String) : Except (List Finding) (List Kind) :=
    let missing := names.filter fun name ↦ (lexicon.kind? name).isNone
    if missing.isEmpty then .ok (names.filterMap lexicon.kind?)
    else .error (missing.map .unknownKind)
  match pattern.header with
  | .inferred =>
    match pattern.inferredKind? lexicon aliasedPatterns with
    | some kind => .ok [kind]
    | none => .error [.uninferableKind]
  | .named kind => declared [kind]
  | .complex kinds => declared kinds

/-- The findings about the names in the pattern, in order. -/
def reviewNames (pattern : Pattern) (lexicon : Lexicon) (aliasedPatterns : Bool)
    (kinds : List Kind) : List Finding :=
  pattern.names.filterMap fun name ↦
    kinds[name.1]?.bind fun kind ↦ lexicon.reviewName? aliasedPatterns kind name.2

/-- The keys in the groups that an earlier group has too, or that were seen before. -/
def repeatedKeys (seen : List String) : List (List String) → List String
  | [] => []
  | group :: rest => group.filter (· ∈ seen) ++ repeatedKeys (seen ++ group) rest

/-- The entries that occur in more than one plain segment, each once and as written. Entries are
told apart by what is written. -/
def duplicates (pattern : Pattern) : List String :=
  let plain := pattern.segments.filter (!·.negated)
  (repeatedKeys [] (plain.map (·.group.map entryText))).eraseDups

/-- Some entry covers the default token at the position: by a name of that token, or by a matcher
for any token. -/
def coversDefault (pattern : Pattern) (lexicon : Lexicon) (position : Nat) (kind : Kind) :
    Bool :=
  match lexicon.defaultOf? kind.name with
  | none => false
  | some default =>
    pattern.entries.any fun entry ↦
      match entry[position]? with
      | none => false
      | some .any => true
      | some (.name token) => (lexicon.resolve? token).any (·.token = default)

/-- The kinds for which nothing catches a token that no segment has. -/
def reviewFallback (pattern : Pattern) (lexicon : Lexicon) (kinds : List Kind) : List Finding :=
  if pattern.freeText?.isSome then []
  else
    kinds.zipIdx.filterMap fun kind ↦
      if pattern.coversDefault lexicon kind.2 kind.1 then none
      else some (.noFallback kind.1.name)

/-- Everything questionable about the pattern. If its kinds cannot be told, nothing else is looked
at. -/
def review (pattern : Pattern) (lexicon : Lexicon) (aliasedPatterns : Bool) : List Finding :=
  match pattern.reviewKinds lexicon aliasedPatterns with
  | .error findings => findings
  | .ok kinds =>
    pattern.reviewNames lexicon aliasedPatterns kinds ++
      pattern.duplicates.map .duplicateEntry ++
      pattern.reviewFallback lexicon kinds

end Pattern

/-- The findings about all patterns of a template, in order. -/
def Template.review (template : Template) (lexicon : Lexicon) (aliasedPatterns : Bool) :
    List Warning :=
  template.patterns.flatMap fun pattern ↦
    (pattern.review lexicon aliasedPatterns).map fun finding ↦ ⟨pattern.source, finding⟩

/-- The findings about a template given as text. A malformed pattern is an error. -/
def Lexicon.review (lexicon : Lexicon) (aliasedPatterns : Bool) (text : String) :
    Except PatternError (List Warning) :=
  (Template.parse text).map fun template ↦ template.review lexicon aliasedPatterns

end Concord
