/-!
Blank characters and trimming. A character is blank when it has the Unicode property
`White_Space`; the table `blankRanges` lists these characters, and `trim` removes them from both
ends of a text. Zero-width characters such as U+200B and U+FEFF lack the property and stay.
-/

set_option autoImplicit false
set_option relaxedAutoImplicit false

namespace Concord.Text

/-- The ranges of characters with the property `White_Space`, ends included. -/
def blankRanges : List (Char × Char) :=
  [('\u0009', '\u000D'), ('\u0020', '\u0020'), ('\u0085', '\u0085'), ('\u00A0', '\u00A0'),
    ('\u1680', '\u1680'), ('\u2000', '\u200A'), ('\u2028', '\u2029'), ('\u202F', '\u202F'),
    ('\u205F', '\u205F'), ('\u3000', '\u3000')]

def isBlank (c : Char) : Bool :=
  blankRanges.any fun range ↦ range.1 ≤ c && c ≤ range.2

def trimStartChars (s : List Char) : List Char :=
  s.dropWhile isBlank

def trimChars (s : List Char) : List Char :=
  (trimStartChars (trimStartChars s).reverse).reverse

/-- The text without the blanks at its two ends. -/
def trim (text : String) : String :=
  String.ofList (trimChars text.toList)

end Concord.Text
