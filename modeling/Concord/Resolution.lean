import Concord.Resolution.Context
import Concord.Resolution.Error
import Concord.Template

/-!
Resolving patterns. `Pattern.resolve` replaces a pattern by text in four steps. It finds the kinds
that govern the pattern, from the header or from the first token that tells. It looks up every
matcher, which makes each segment a `Candidate`. It takes the first candidate that fits the tokens
in effect; failing that, and if the switches say so, the first that fits when defaults stand in for
tokens that the pattern does not name; and failing that the free text, or nothing.

Everything that is wrong on the way goes through `Context.refuse`: it is an error when errors are
raised, and otherwise has a harmless substitute. Whether an option is missing is asked only when
errors are raised.
-/

set_option autoImplicit false
set_option relaxedAutoImplicit false

namespace Concord

/-- A matcher looked up: it asks for one token, for any token, or for what cannot be. -/
inductive Criterion where
  | only (id : TokenId)
  | present
  | impossible
  deriving DecidableEq, Repr

/-- The criterion is met by the token in effect for its kind, if there is one. -/
def Criterion.fits : Criterion → Option TokenId → Bool
  | .only id, token? => token? = some id
  | .present, token? => token?.isSome
  | .impossible, _ => false

/-- A segment whose matchers are looked up. -/
structure Candidate where
  entries : List (List Criterion)
  negated : Bool
  wording : Wording
  deriving DecidableEq, Repr

/-- Every criterion of the entry is met by the token at its position. -/
def entryFits (tokens : List (Option TokenId)) (entry : List Criterion) : Bool :=
  (entry.zip tokens).all fun pair ↦ pair.1.fits pair.2

/-- Some entry fits, or for a negated candidate none does. -/
def Candidate.fits (tokens : List (Option TokenId)) (candidate : Candidate) : Bool :=
  candidate.entries.any (entryFits tokens) != candidate.negated

/-- Some entry, negated or not, asks for just this token at the position. -/
def isNamedAt (candidates : List Candidate) (position : Nat) (id : TokenId) : Bool :=
  candidates.any fun candidate ↦ candidate.entries.any fun entry ↦
    entry[position]? = some (.only id)

/-- The kind of the first name in the pattern that counts: a real token always does, an alias only
where patterns may name aliases. -/
def Pattern.inferredKind? (lexicon : Lexicon) (aliasedPatterns : Bool) (pattern : Pattern) :
    Option Kind :=
  pattern.names.findSome? fun name ↦
    match lexicon.resolve? name.2 with
    | none => none
    | some resolved =>
      if aliasedPatterns || !resolved.viaAlias then some resolved.kind else none

namespace Context

/-- A problem is an error if errors are raised, and otherwise gives way to a substitute. -/
def refuse {α : Type} (context : Context) (problem : Problem) (substitute : α) :
    Except Problem α :=
  if context.switches.raises then .error problem else .ok substitute

/-- The kinds with the given names; none at all if the lexicon lacks one of them. -/
def kindsNamed (context : Context) (names : List String) : Except Problem (Option (List Kind)) :=
  match names.find? fun name ↦ (context.lexicon.kind? name).isNone with
  | some missing => context.refuse (.unknownKind missing) none
  | none => .ok (some (names.filterMap context.lexicon.kind?))

/-- The problem of a pattern from whose names no kind can be inferred. -/
def uninferable (context : Context) (first : String) : Problem :=
  if (context.lexicon.resolve? first).isSome then .aliasInPattern first
  else .unknownToken first (suggest first context.lexicon.tokenNames)

/-- The kinds that govern a pattern; none if they cannot be told. -/
def kindsOf (context : Context) (pattern : Pattern) : Except Problem (Option (List Kind)) :=
  match pattern.header with
  | .inferred =>
    match pattern.inferredKind? context.lexicon context.switches.aliasedPatterns with
    | some kind => .ok (some [kind])
    | none =>
      match pattern.names with
      | [] => .ok none
      | first :: _ => context.refuse (context.uninferable first.2) none
  | .named kind => context.kindsNamed [kind]
  | .complex kinds => context.kindsNamed kinds

/-- What a matcher asks for at a position of the given kind. -/
def criterion (context : Context) (kind : Kind) : Matcher → Except Problem Criterion
  | .any => .ok .present
  | .name token =>
    match context.lexicon.resolve? token with
    | none =>
      let known := context.lexicon.tokenNamesOf kind.name
      context.refuse (.unknownToken token (suggest token known)) .impossible
    | some resolved =>
      if resolved.kind.name ≠ kind.name then
        context.refuse (.wrongKind token kind.name resolved.kind.name) .impossible
      else if resolved.viaAlias && !context.switches.aliasedPatterns then
        context.refuse (.aliasInPattern token) .impossible
      else .ok (.only resolved.id)

def criteria (context : Context) (kinds : List Kind) (entry : List Matcher) :
    Except Problem (List Criterion) :=
  (entry.zip kinds).mapM fun pair ↦ context.criterion pair.2 pair.1

def candidate (context : Context) (kinds : List Kind) (segment : Segment) :
    Except Problem Candidate :=
  (segment.group.mapM (context.criteria kinds)).map fun entries ↦
    ⟨entries, segment.negated, segment.wording⟩

/-- What is missing for a kind: an option that names one of its tokens, or a default that may
stand in and that the pattern names. -/
def unmet? (context : Context) (candidates : List Candidate) (position : Nat) (kind : Kind) :
    Option Problem :=
  let request := context.request kind
  let covered := request.known?.isSome ||
    (context.switches.unknownDefaults && kind.default?.any (isNamedAt candidates position))
  if covered then none
  else
    match request with
    | .unknown name => some (.invalidOption kind.name name)
    | _ => some (.missingOption kind.name)

/-- The first problem of the kinds' options, of interest only if errors are raised. -/
def firstUnmet? (context : Context) (kinds : List Kind) (candidates : List Candidate) :
    Option Problem :=
  if context.switches.raises then
    kinds.zipIdx.findSome? fun kind ↦ context.unmet? candidates kind.2 kind.1
  else none

/-- The token of a kind when its default stands in for a requested token that the pattern does not
name. -/
def standIn? (context : Context) (candidates : List Candidate) (position : Nat) (kind : Kind) :
    Option TokenId :=
  match context.request kind with
  | .known id => if isNamedAt candidates position id then some id else kind.default?.or (some id)
  | _ => context.inEffect? kind

/-- The text of a wording: loud wording gives the descriptions of the tokens. -/
def wordingText (context : Context) (tokens : List (Option TokenId)) : Wording → String
  | .literal text => text
  | .loud =>
    " ".intercalate ((tokens.filterMap (·.bind context.lexicon.token?)).map (·.description))

/-- The text of the free text of a pattern; without free text nothing. -/
def freeText (context : Context) (tokens : List (Option TokenId)) (pattern : Pattern) : String :=
  (pattern.freeText?.map (context.wordingText tokens)).getD ""

/-- The text of a pattern whose segments have become `candidates`, by the rules of precedence. -/
def choose (context : Context) (kinds : List Kind) (candidates : List Candidate)
    (pattern : Pattern) : String :=
  let tokens := kinds.map context.inEffect?
  match candidates.find? (·.fits tokens) with
  | some chosen => context.wordingText tokens chosen.wording
  | none =>
    let standIns := kinds.zipIdx.map fun kind ↦ context.standIn? candidates kind.2 kind.1
    match candidates.find? fun candidate ↦
        context.switches.excludedDefaults && candidate.fits standIns with
    | some chosen => context.wordingText standIns chosen.wording
    | none => context.freeText tokens pattern

/-- The text of a pattern that the given kinds govern. -/
def resolveUnder (context : Context) (kinds : List Kind) (pattern : Pattern) :
    Except Problem String := do
  let candidates ← pattern.segments.mapM (context.candidate kinds)
  match context.firstUnmet? kinds candidates with
  | some problem => .error problem
  | none => return context.choose kinds candidates pattern

/-- The text of a pattern. Without governing kinds it is the free text, with no token in effect. -/
def resolveBody (context : Context) (pattern : Pattern) : Except Problem String := do
  match ← context.kindsOf pattern with
  | none => return context.freeText [] pattern
  | some kinds => context.resolveUnder kinds pattern

end Context

/-- The text that replaces a pattern. -/
def Pattern.resolve (context : Context) (pattern : Pattern) : Except ResolutionError String :=
  (context.resolveBody pattern).mapError fun problem ↦ ⟨pattern.source, problem⟩

def Piece.resolve (context : Context) : Piece → Except ResolutionError String
  | .literal text => .ok text
  | .pattern written => written.resolve context

/-- The text of a template, or the first error in it. -/
def Template.resolve (context : Context) (template : Template) : Except ResolutionError String :=
  (template.pieces.mapM (Piece.resolve context)).map String.join

end Concord
