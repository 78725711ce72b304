import Concord.Failure
import Concord.Resolution
import Concord.Template.Scan

/-!
Interpolation reads and resolves a template in one go, piece by piece: of a malformed pattern and
a pattern that cannot be resolved, the one that comes first is reported.
-/

set_option autoImplicit false
set_option relaxedAutoImplicit false

namespace Concord

/-- The text of one item of a scan. -/
def Context.resolveItem (context : Context) : Except PatternError Piece → Except Failure String
  | .error error => .error (.pattern error)
  | .ok piece => (piece.resolve context).mapError .resolution

/-- The text of a template, given as text, or the first failure in it. -/
def Context.interpolate (context : Context) (text : String) : Except Failure String :=
  ((Template.scan text).mapM context.resolveItem).map String.join

end Concord
