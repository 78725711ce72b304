import Concord.Template.Scan

/-!
Writing templates. `Template.print` gives a text that reads back as the template: in literal text
an `@` that a header follows is escaped, and in wording every character that could have a meaning
there is shielded. `Template.WellFormed` describes the templates that have a written form.
-/

set_option autoImplicit false
set_option relaxedAutoImplicit false

namespace Concord

/-! ### Written forms -/

/-- A character of a body, and whether a backslash shields it. -/
structure Glyph where
  char : Char
  shielded : Bool
  deriving DecidableEq, Repr

namespace Glyph

def plain (c : Char) : Glyph := ⟨c, false⟩

/-- The glyph as it is written. -/
def text (glyph : Glyph) : List Char :=
  if glyph.shielded then ['\\', glyph.char] else [glyph.char]

end Glyph

/-- The characters that have a meaning in the wording of a segment. -/
def wordingMarks : List Char :=
  ['\\', '|', '{', '}', ':', '~']

/-- The character as a glyph of wording: shielded if it could have a meaning there. -/
def Glyph.ofWordingChar (c : Char) : Glyph :=
  ⟨c, wordingMarks.contains c⟩

namespace Wording

def toGlyphs : Wording → List Glyph
  | .literal text => text.toList.map Glyph.ofWordingChar
  | .loud => [.plain '~']

def print (wording : Wording) : String :=
  String.ofList (wording.toGlyphs.flatMap Glyph.text)

end Wording

namespace Segment

/-- The specifier of a segment; in a negated one every entry has its `!`. -/
def specifier (segment : Segment) : String :=
  ",".intercalate <|
    segment.group.map fun entry ↦ (if segment.negated then "!" else "") ++ entryText entry

def print (segment : Segment) : String :=
  segment.specifier ++ ":" ++ segment.wording.print

end Segment

namespace Pattern

/-- The segments and the free text of a pattern, each in written form. -/
def printedParts (pattern : Pattern) : List String :=
  pattern.segments.map Segment.print ++ pattern.freeText?.toList.map Wording.print

def print (pattern : Pattern) : String :=
  "@" ++ pattern.header.text ++ r"{" ++ "|".intercalate pattern.printedParts ++ r"}"

/-- The pattern with its printed form as its source. -/
def withPrintedSource (pattern : Pattern) : Pattern :=
  { pattern with source := pattern.print }

end Pattern

/-- Literal text with every `@` escaped that a header follows. -/
def escapeMarkers : List Char → List Char
  | [] => []
  | c :: rest =>
    if c = '@' && (Header.read? rest).isSome then '\\' :: c :: escapeMarkers rest
    else c :: escapeMarkers rest

namespace Piece

def print : Piece → String
  | .literal text => String.ofList (escapeMarkers text.toList)
  | .pattern written => written.print

def withPrintedSource : Piece → Piece
  | .literal text => .literal text
  | .pattern written => .pattern written.withPrintedSource

end Piece

namespace Template

def print (template : Template) : String :=
  String.join (template.pieces.map Piece.print)

/-- The template with the printed form of each pattern as its source. -/
def withPrintedSources (template : Template) : Template :=
  ⟨template.pieces.map Piece.withPrintedSource⟩

end Template

/-! ### Templates with a written form -/

/-- The kinds of a header are names, and a tuple has two of them or more. -/
def Header.WellFormed : Header → Prop
  | .inferred => True
  | .named kind => Text.isName kind
  | .complex kinds => 2 ≤ kinds.length ∧ ∀ kind ∈ kinds, Text.isName kind

/-- A matcher for any token needs a header that names its kind. -/
def Matcher.WellFormed (header : Header) : Matcher → Prop
  | .name token => Text.isName token
  | .any => header ≠ .inferred

/-- There are entries, and each has a matcher for every kind. -/
def Segment.WellFormed (header : Header) (segment : Segment) : Prop :=
  segment.group ≠ [] ∧
    ∀ entry ∈ segment.group, entry.length = header.arity ∧
      ∀ matcher ∈ entry, matcher.WellFormed header

def Pattern.WellFormed (pattern : Pattern) : Prop :=
  pattern.header.WellFormed ∧ pattern.segments ≠ [] ∧
    ∀ segment ∈ pattern.segments, segment.WellFormed pattern.header

def Piece.WellFormed : Piece → Prop
  | .literal text => text ≠ ""
  | .pattern written => written.WellFormed

/-- The second piece may follow the first: two literals would be one, and a marker at the end of a
literal would change what the pattern after it means. -/
def Piece.MayPrecede : Piece → Piece → Prop
  | .literal _, .literal _ => False
  | .literal text, .pattern _ => ¬ text.toList.getLast?.any Template.isMarker
  | .pattern _, _ => True

/-- Every piece is well formed and may precede the next. -/
def WellFormedPieces : List Piece → Prop
  | [] => True
  | [piece] => piece.WellFormed
  | first :: second :: rest =>
    first.WellFormed ∧ first.MayPrecede second ∧ WellFormedPieces (second :: rest)

def Template.WellFormed (template : Template) : Prop :=
  WellFormedPieces template.pieces

instance : DecidablePred Header.WellFormed
  | .inferred => inferInstanceAs (Decidable True)
  | .named kind => inferInstanceAs (Decidable (Text.isName kind = true))
  | .complex kinds =>
    inferInstanceAs (Decidable (2 ≤ kinds.length ∧ ∀ kind ∈ kinds, Text.isName kind = true))

instance (header : Header) : DecidablePred (Matcher.WellFormed header)
  | .name token => inferInstanceAs (Decidable (Text.isName token = true))
  | .any => inferInstanceAs (Decidable (header ≠ .inferred))

instance (header : Header) : DecidablePred (Segment.WellFormed header) := fun segment ↦
  inferInstanceAs (Decidable (segment.group ≠ [] ∧ ∀ entry ∈ segment.group,
    entry.length = header.arity ∧ ∀ matcher ∈ entry, matcher.WellFormed header))

instance : DecidablePred Pattern.WellFormed := fun pattern ↦
  inferInstanceAs (Decidable (pattern.header.WellFormed ∧ pattern.segments ≠ [] ∧
    ∀ segment ∈ pattern.segments, segment.WellFormed pattern.header))

instance : DecidablePred Piece.WellFormed
  | .literal text => inferInstanceAs (Decidable (text ≠ ""))
  | .pattern written => inferInstanceAs (Decidable written.WellFormed)

instance : DecidableRel Piece.MayPrecede
  | .literal _, .literal _ => inferInstanceAs (Decidable False)
  | .literal text, .pattern _ =>
    inferInstanceAs (Decidable (¬ text.toList.getLast?.any Template.isMarker))
  | .pattern _, .literal _ => inferInstanceAs (Decidable True)
  | .pattern _, .pattern _ => inferInstanceAs (Decidable True)

instance decidableWellFormedPieces : DecidablePred WellFormedPieces
  | [] => inferInstanceAs (Decidable True)
  | [piece] => inferInstanceAs (Decidable piece.WellFormed)
  | first :: second :: rest =>
    have := decidableWellFormedPieces (second :: rest)
    inferInstanceAs (Decidable
      (first.WellFormed ∧ first.MayPrecede second ∧ WellFormedPieces (second :: rest)))

instance : DecidablePred Template.WellFormed := fun template ↦
  inferInstanceAs (Decidable (WellFormedPieces template.pieces))

end Concord
