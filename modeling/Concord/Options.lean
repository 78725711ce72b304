import Concord.Text.Blank
import Std.Data.ExtTreeMap

/-!
Options: what the caller of a resolution chose for each kind. A kind may be missing from the
options, be mentioned with a blank choice, or have a token chosen by name. Whether a name means
anything is decided against a lexicon, and options for other keys are never looked at.
-/

set_option autoImplicit false
set_option relaxedAutoImplicit false

namespace Concord

/-- The choice for one kind: left blank, or a token or alias by its name. -/
inductive Choice where
  | blank
  | token (name : String)
  deriving DecidableEq, Repr

namespace Choice

/-- The choice that a text makes: the name in it without surrounding blanks, if there is one. -/
def ofText (text : String) : Choice :=
  let name := Text.trim text
  if name = "" then .blank else .token name

def ofText? : Option String → Choice
  | none => .blank
  | some text => ofText text

def toText? : Choice → Option String
  | .blank => none
  | .token name => some name

end Choice

/-- Choices by kind. -/
structure Options where
  choices : Std.ExtTreeMap String Choice := ∅
  deriving DecidableEq

namespace Options

/-- The options with a choice for `kind` in place of any there was. -/
def insert (options : Options) (kind : String) (choice : Choice) : Options :=
  ⟨options.choices.insert kind choice⟩

def erase (options : Options) (kind : String) : Options :=
  ⟨options.choices.erase kind⟩

/-- The choice for `kind`; none when the options do not mention the kind. -/
def get? (options : Options) (kind : String) : Option Choice :=
  options.choices[kind]?

/-- The options with the given choices, a later one for a kind in place of an earlier one. -/
def ofList (choices : List (String × Choice)) : Options :=
  choices.foldl (fun options choice ↦ options.insert choice.1 choice.2) {}

/-- The choices in the order of their kinds. -/
def toList (options : Options) : List (String × Choice) :=
  options.choices.toList

def size (options : Options) : Nat :=
  options.choices.size

def isEmpty (options : Options) : Bool :=
  options.choices.isEmpty

@[simp] theorem get?_empty (kind : String) : ({} : Options).get? kind = none := by
  simp [get?]

theorem get?_insert (options : Options) (kind other : String) (choice : Choice) :
    (options.insert kind choice).get? other =
      if kind = other then some choice else options.get? other := by
  simp [get?, insert, Std.ExtTreeMap.getElem?_insert]

theorem get?_erase (options : Options) (kind other : String) :
    (options.erase kind).get? other = if kind = other then none else options.get? other := by
  simp [get?, erase, Std.ExtTreeMap.getElem?_erase]

end Options

end Concord
