/-!
Names of kinds and tokens. A name is a text of ASCII letters, ASCII digits and `_`, and is not
empty. Letters and digits of other scripts are refused, so that a name can be told from the
characters around it in a pattern.
-/

set_option autoImplicit false
set_option relaxedAutoImplicit false

namespace Concord.Text

def isNameChar (c : Char) : Bool :=
  c.isAlphanum || c = '_'

/-- The text is a name: not empty, and of name characters only. -/
def isName (text : String) : Bool :=
  !text.toList.isEmpty && text.toList.all isNameChar

end Concord.Text
