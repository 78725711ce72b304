/-!
Edit distance: the least number of characters to insert, delete or replace that turns one text
into the other, counted in Unicode scalar values. `distance` fills the usual table row by row, a
row for each initial part of the first text and a cell for each initial part of the second.
-/

set_option autoImplicit false
set_option relaxedAutoImplicit false

namespace Concord.Text

/-- The cells of a row from the one right of `left` on, below the cells `above`, whose first stands
over `left`; `x` is the character that the row adds. -/
def distanceCells (x : Char) (left : Nat) : List Char → List Nat → List Nat
  | y :: ys, diagonal :: up :: above =>
    let cell := min (min (left + 1) (up + 1)) (diagonal + if x = y then 0 else 1)
    cell :: distanceCells x cell ys (up :: above)
  | _, _ => []

def distanceRow (target : List Char) (above : List Nat) (x : Char) : List Nat :=
  let left := above.headD 0 + 1
  left :: distanceCells x left target above

/-- The edit distance of two texts. -/
def distance (source target : String) : Nat :=
  let start := List.range (target.toList.length + 1)
  (source.toList.foldl (distanceRow target.toList) start).getLastD 0

end Concord.Text
