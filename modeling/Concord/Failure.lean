import Concord.Grammar.Error
import Concord.Resolution.Error
import Concord.Template.Error

/-!
Failures: everything that can keep a caller from getting a text, with its message.
-/

set_option autoImplicit false
set_option relaxedAutoImplicit false

namespace Concord

inductive Failure where
  | grammar (error : GrammarError)
  | pattern (error : PatternError)
  | resolution (error : ResolutionError)
  | templateNotFound (locale key : String)
  deriving DecidableEq, Repr

def Failure.message : Failure → String
  | .grammar error => error.message
  | .pattern error => error.message
  | .resolution error => error.message
  | .templateNotFound locale key => s!"translation not found: '{key}' in locale '{locale}'"

end Concord
