/-!
Faults of a grammar, and the messages that report them.
-/

set_option autoImplicit false
set_option relaxedAutoImplicit false

namespace Concord

/-- What is wrong with a single entry. -/
inductive EntryFault where
  | notAName
  | blankDescription
  | noTarget
  | noDefaultNamed
  deriving DecidableEq, Repr

def EntryFault.message : EntryFault → String
  | .notAName => "token names may only contain letters, digits and '_'"
  | .blankDescription => "real tokens need a description"
  | .noTarget => "alias has no target"
  | .noDefaultNamed => "default does not name a token"

/-- Why a grammar has no lexicon. -/
inductive GrammarError where
  | invalidLocale (locale : String)
  | malformedKind (kind : String)
  | malformedToken (kind token : String) (fault : EntryFault)
  /-- Two kinds declare one name; `first` comes before `second`. -/
  | duplicateToken (token first second : String)
  | danglingAlias (kind name target : String)
  /-- The names that the walk visited, in order, and last the one it met again. -/
  | aliasCycle (kind : String) (chain : List String)
  | aliasKindMismatch (kind name target targetKind : String)
  | danglingDefault (kind target : String)
  | defaultOutsideKind (kind target targetKind : String)
  deriving DecidableEq, Repr

def GrammarError.message : GrammarError → String
  | .invalidLocale locale => s!"invalid locale '{locale}'"
  | .malformedKind kind => s!"malformed kind name '{kind}'"
  | .malformedToken kind token fault =>
    s!"malformed token '{token}' in kind '{kind}': {fault.message}"
  | .duplicateToken token first second =>
    s!"token '{token}' is defined in both '{first}' and '{second}'"
  | .danglingAlias kind name target =>
    s!"alias '{name}' in kind '{kind}' points to unknown token '{target}'"
  | .aliasCycle kind chain => s!"alias cycle in kind '{kind}': " ++ " -> ".intercalate chain
  | .aliasKindMismatch kind name target targetKind =>
    s!"alias '{name}' in kind '{kind}' points to '{target}' of kind '{targetKind}'"
  | .danglingDefault kind target =>
    s!"default of kind '{kind}' points to unknown token '{target}'"
  | .defaultOutsideKind kind target targetKind =>
    s!"default of kind '{kind}' points to '{target}' of kind '{targetKind}'"

end Concord
