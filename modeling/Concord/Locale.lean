/-!
Locale designators. A designator is a language identifier: subtags joined by `-`, in any letter
case, of which the first is a language, an optional script and an optional region may follow in
this order, and the rest are variants without repetition. Nothing else depends on this: a program
that compiles grammars brings its own reader of designators along, and may bring this one.
-/

set_option autoImplicit false
set_option relaxedAutoImplicit false

namespace Concord.Locale

/-- A language has two or three letters. -/
def isLanguage (subtag : List Char) : Bool :=
  (subtag.length = 2 || subtag.length = 3) && subtag.all Char.isAlpha

def isScript (subtag : List Char) : Bool :=
  subtag.length = 4 && subtag.all Char.isAlpha

/-- A region is a two-letter country code or a three-digit area code. -/
def isRegion (subtag : List Char) : Bool :=
  (subtag.length = 2 && subtag.all Char.isAlpha) || (subtag.length = 3 && subtag.all Char.isDigit)

/-- A variant has five to eight characters, or four of which the first is a digit. -/
def isVariant (subtag : List Char) : Bool :=
  subtag.all Char.isAlphanum &&
    ((5 ≤ subtag.length && subtag.length ≤ 8) ||
      (subtag.length = 4 && subtag.head?.any Char.isDigit))

/-- The subtags after an optional first one of the given sort. -/
def dropOptional (sort : List Char → Bool) : List (List Char) → List (List Char)
  | [] => []
  | subtag :: rest => if sort subtag then rest else subtag :: rest

/-- Variants that differ in letter case only are the same variant. -/
def areVariants (subtags : List (List Char)) : Bool :=
  subtags.all isVariant && (subtags.map fun subtag ↦ subtag.map Char.toLower).Nodup

/-- The text designates a locale. -/
def isValid (locale : String) : Bool :=
  match locale.toList.splitOn '-' with
  | [] => false
  | language :: rest =>
    isLanguage language && areVariants (dropOptional isRegion (dropOptional isScript rest))

end Concord.Locale
