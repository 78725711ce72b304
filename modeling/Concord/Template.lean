/-!
Templates. A template is literal text with patterns in it. A pattern, written `@{...}`,
`@kind{...}` or `@kind+kind{...}`, offers segments: each pairs a group of token entries with the
wording that replaces the pattern when the group fits the chosen tokens. A last segment without a
group is free text, for the case that no other segment fits.
-/

set_option autoImplicit false
set_option relaxedAutoImplicit false

namespace Concord

/-- What a segment contributes: a text, or loudly the descriptions of the tokens in effect. -/
inductive Wording where
  | literal (text : String)
  | loud
  deriving DecidableEq, Repr

/-- One position of an entry: a token by name, or any token of the kind. -/
inductive Matcher where
  | name (token : String)
  | any
  deriving DecidableEq, Repr

/-- The kinds that a pattern is about: left to its tokens, one kind, or a tuple of kinds. -/
inductive Header where
  | inferred
  | named (kind : String)
  | complex (kinds : List String)
  deriving DecidableEq, Repr

/-- The number of matchers in each entry. -/
def Header.arity : Header → Nat
  | .inferred => 1
  | .named _ => 1
  | .complex kinds => kinds.length

/-- A group with its wording. The group holds alternative entries, each with a matcher for every
kind of the header; a negated segment applies when none of them fits. -/
structure Segment where
  group : List (List Matcher)
  negated : Bool
  wording : Wording
  deriving DecidableEq, Repr

structure Pattern where
  header : Header
  segments : List Segment
  freeText? : Option Wording
  /-- The pattern as it is written in the template. -/
  source : String
  deriving DecidableEq, Repr

inductive Piece where
  | literal (text : String)
  | pattern (written : Pattern)
  deriving DecidableEq, Repr

structure Template where
  pieces : List Piece
  deriving DecidableEq, Repr

def Piece.pattern? : Piece → Option Pattern
  | .literal _ => none
  | .pattern written => some written

/-- The patterns of a template in order. -/
def Template.patterns (template : Template) : List Pattern :=
  template.pieces.filterMap Piece.pattern?

def Matcher.name? : Matcher → Option String
  | .name token => some token
  | .any => none

/-- The names in an entry, each with its position. -/
def namesOfEntry (entry : List Matcher) : List (Nat × String) :=
  entry.zipIdx.filterMap fun matcher ↦ matcher.1.name?.map (matcher.2, ·)

/-- All entries of a pattern in order, those of negated segments included. -/
def Pattern.entries (pattern : Pattern) : List (List Matcher) :=
  pattern.segments.flatMap (·.group)

/-- The names in a pattern in order, each with its position in the entry. -/
def Pattern.names (pattern : Pattern) : List (Nat × String) :=
  pattern.entries.flatMap namesOfEntry

/-- The names in the entries of a pattern are its names. -/
theorem Pattern.mem_names_of_entry {pattern : Pattern} {entry : List Matcher} {position : Nat}
    {name : String} (hentry : entry ∈ pattern.entries)
    (hname : entry[position]? = some (.name name)) : (position, name) ∈ pattern.names :=
  List.mem_flatMap.mpr ⟨entry, hentry,
    List.mem_filterMap.mpr ⟨(.name name, position), List.mem_zipIdx_iff_getElem?.mpr hname, rfl⟩⟩

/-- The written form of an entry. -/
def entryText (entry : List Matcher) : String :=
  "+".intercalate (entry.map fun matcher ↦ matcher.name?.getD "*")

end Concord
