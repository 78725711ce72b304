import Concord.Suggestion

/-!
Why a pattern cannot be resolved when errors are raised, and the messages that report it.
-/

set_option autoImplicit false
set_option relaxedAutoImplicit false

namespace Concord

inductive Problem where
  | missingOption (kind : String)
  | invalidOption (kind token : String)
  | unknownToken (token : String) (suggestions : List String)
  | aliasInPattern (token : String)
  | wrongKind (token expected actual : String)
  | unknownKind (kind : String)
  deriving DecidableEq, Repr

/-- A problem together with the pattern that has it, as written. -/
structure ResolutionError where
  pattern : String
  problem : Problem
  deriving DecidableEq, Repr

def ResolutionError.message (error : ResolutionError) : String :=
  let pattern := error.pattern
  match error.problem with
  | .missingOption kind => s!"no option given for kind '{kind}' in pattern '{pattern}'"
  | .invalidOption kind token =>
    s!"option '{token}' is not a token of kind '{kind}' in pattern '{pattern}'"
  | .unknownToken token suggestions =>
    s!"unknown token '{token}' in pattern '{pattern}'" ++ suggestionText suggestions
  | .aliasInPattern token =>
    s!"alias '{token}' used in pattern '{pattern}' (aliased patterns are disabled)"
  | .wrongKind token expected actual =>
    s!"token '{token}' of kind '{actual}' used where kind '{expected}' is expected " ++
      s!"in pattern '{pattern}'"
  | .unknownKind kind => s!"unknown kind '{kind}' in pattern '{pattern}'"

end Concord
