import Concord.Template
import Concord.Template.Error
import Concord.Text.Blank
import Concord.Text.Name

/-!
Token groups. The specifier of a segment lists entries separated by `,`; an entry may begin with
`!` and has a matcher for each kind of the header, joined by `+`. Blanks around entries, around
matchers and after the `!` do not count. Either all entries of a group have the `!` or none has.
-/

set_option autoImplicit false
set_option relaxedAutoImplicit false

namespace Concord

/-- An entry before its matchers are told apart. -/
structure RawEntry where
  negated : Bool
  matchers : List Char
  deriving DecidableEq, Repr

/-- The text of an entry without its `!` and without surrounding blanks. -/
def RawEntry.read (s : List Char) : RawEntry :=
  match Text.trimChars s with
  | [] => ⟨false, []⟩
  | c :: rest => if c = '!' then ⟨true, Text.trimStartChars rest⟩ else ⟨false, c :: rest⟩

/-- A matcher as a pattern with the given header may write it. -/
def Matcher.read (header : Header) (part : List Char) : Except PatternFault Matcher :=
  let name := String.ofList part
  if name = "" then .error .emptyToken
  else if name = "*" then
    if header = .inferred then .error .wildcardWithoutKind else .ok .any
  else if Text.isName name then .ok (.name name)
  else .error (.invalidTokenName name)

/-- The matchers of an entry in a group whose first entry is negated or not, as `negated` says. -/
def RawEntry.read? (header : Header) (negated : Bool) (entry : RawEntry) :
    Except PatternFault (List Matcher) :=
  if entry.matchers = [] then .error .emptyToken
  else if entry.negated ≠ negated then .error .mixedNegation
  else
    let parts := (entry.matchers.splitOn '+').map Text.trimChars
    if parts.length = header.arity then parts.mapM (Matcher.read header)
    else .error (.arityMismatch header.arity parts.length)

/-- The entries of a specifier. -/
def rawEntries (specifier : List Char) : List RawEntry :=
  (specifier.splitOn ',').map RawEntry.read

/-- The group that a specifier writes, and whether it is negated. -/
def readGroup (header : Header) (specifier : List Char) :
    Except PatternFault (List (List Matcher) × Bool) :=
  let entries := rawEntries specifier
  let negated := entries.head?.any (·.negated)
  (entries.mapM (RawEntry.read? header negated)).map (·, negated)

end Concord
