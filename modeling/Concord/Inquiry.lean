import Concord.Interpolation
import Concord.Review

/-!
Inquiries: what can be asked about a locale once its lexicon is at hand. Interpolating and
reviewing a template depend on the switches in effect; the other inquiries read the lexicon only.
-/

set_option autoImplicit false
set_option relaxedAutoImplicit false

namespace Concord

inductive Inquiry where
  | interpolate (text : String) (options : Options) (overrides : Overrides)
  | review (text : String)
  | kinds
  | tokensOf (kind : String)
  | aliases (kind : String)
  | defaultOf (kind : String)
  | standing (kind? : Option String) (name : String)
  | isReal (name : String) (kind? : Option String)
  | isAlias (name : String) (kind? : Option String)
  | isKnown (name : String) (kind? : Option String)
  | kindOf (name : String)

/-- What an inquiry or a command gives back. -/
inductive Answer where
  | text (text : String)
  | warnings (warnings : List Warning)
  | names (names : List String)
  /-- Names, each with a text that explains it, in the order of the names. -/
  | table (rows : List (String × String))
  | name (name? : Option String)
  | standing (standing : Standing)
  | truth (holds : Bool)
  | count (count : Nat)
  | lexicon (lexicon? : Option Lexicon)
  | switches (switches : Switches)
  deriving DecidableEq

/-- The answer that a lexicon gives to an inquiry. -/
def Inquiry.answer (switches : Switches) (lexicon : Lexicon) : Inquiry → Except Failure Answer
  | .interpolate text options overrides =>
    (Context.interpolate ⟨lexicon, options, switches.apply overrides⟩ text).map .text
  | .review text =>
    ((lexicon.review switches.aliasedPatterns text).mapError .pattern).map .warnings
  | .kinds => .ok (.names lexicon.kinds.keys)
  | .tokensOf kind =>
    .ok (.table ((lexicon.tokensOf kind).map fun token ↦ (token.name, token.description)))
  | .aliases kind =>
    .ok (.table ((lexicon.aliases kind).map fun entry ↦ (entry.1, entry.2.name)))
  | .defaultOf kind => .ok (.name ((lexicon.defaultOf? kind).map (·.name)))
  | .standing kind? name => .ok (.standing (lexicon.standingIn? kind? name))
  | .isReal name kind? => .ok (.truth (lexicon.isReal name kind?))
  | .isAlias name kind? => .ok (.truth (lexicon.isAlias name kind?))
  | .isKnown name kind? => .ok (.truth (lexicon.isKnown name kind?))
  | .kindOf name => .ok (.name (lexicon.kindOf? name))

end Concord
