import Concord.Text.Distance

/-!
Corrections for a misspelled name. A candidate qualifies when it differs from the name and lies
within edit distance 1 of a name of at most three characters, or 2 of a longer one; `suggest`
gives the first three that qualify, the closest first and names of one distance in order.
-/

set_option autoImplicit false
set_option relaxedAutoImplicit false

namespace Concord

/-- A name with its edit distance from the misspelled one. -/
structure Correction where
  distance : Nat
  name : String
  deriving DecidableEq, Repr

namespace Correction

/-- Closer corrections come first, and of two at one distance the smaller name. -/
def precedes (first second : Correction) : Bool :=
  first.distance < second.distance ||
    (first.distance = second.distance && first.name ≤ second.name)

/-- The greatest distance at which a name still corrects `misspelled`. -/
def tolerance (misspelled : String) : Nat :=
  if misspelled.length ≤ 3 then 1 else 2

/-- All corrections of `misspelled` among `known`, in no particular order. -/
def candidates (misspelled : String) (known : List String) : List Correction :=
  known.filterMap fun name ↦
    let distance := Text.distance misspelled name
    if name ≠ misspelled ∧ distance ≤ tolerance misspelled then some ⟨distance, name⟩ else none

end Correction

/-- The most names that are suggested at once. -/
def suggestionLimit : Nat := 3

/-- What the writer of `misspelled` may have meant, best first. -/
def suggest (misspelled : String) (known : List String) : List String :=
  (((Correction.candidates misspelled known).mergeSort Correction.precedes).take
    suggestionLimit).map Correction.name

/-- The question that ends a message about an unknown name; empty without suggestions. -/
def suggestionText (suggestions : List String) : String :=
  if suggestions.isEmpty then "" else "; did you mean: " ++ ", ".intercalate suggestions ++ "?"

end Concord
