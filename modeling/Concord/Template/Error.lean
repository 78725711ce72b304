/-!
Malformed patterns, and the messages that report them.
-/

set_option autoImplicit false
set_option relaxedAutoImplicit false

namespace Concord

/-- What is wrong with a pattern. -/
inductive PatternFault where
  | unclosed
  | nestedBrace
  | emptyToken
  | invalidTokenName (name : String)
  | mixedNegation
  | arityMismatch (expected found : Nat)
  | freeTextNotLast
  | wildcardWithoutKind
  | noSegments
  deriving DecidableEq, Repr

/-- A fault together with the text of the pattern as far as it was read. -/
structure PatternError where
  pattern : String
  fault : PatternFault
  deriving DecidableEq, Repr

def PatternFault.message : PatternFault → String
  | .unclosed => r"missing closing '}'"
  | .nestedBrace => r"unexpected '{' inside the pattern body"
  | .emptyToken => "empty token specifier"
  | .invalidTokenName name => s!"invalid token name '{name}'"
  | .mixedNegation => "negated and plain tokens mixed in one group"
  | .arityMismatch expected found =>
    s!"expected {expected} '+'-joined tokens per entry, found {found}"
  | .freeTextNotLast => "free text must be the last segment"
  | .wildcardWithoutKind => "wildcard '*' needs a named or complex pattern"
  | .noSegments => "pattern has no token segments"

def PatternError.message (error : PatternError) : String :=
  s!"malformed inflection pattern '{error.pattern}': {error.fault.message}"

end Concord
