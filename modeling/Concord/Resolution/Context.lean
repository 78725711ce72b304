import Concord.Lexicon
import Concord.Options
import Concord.Switches

/-!
What a resolution works with: a lexicon, the caller's options and the switches in effect. For a
kind, `Context.request` says what the caller asked for, and `Context.inEffect?` which token that
comes to once the default of the kind may stand in for it.
-/

set_option autoImplicit false
set_option relaxedAutoImplicit false

namespace Concord

structure Context where
  lexicon : Lexicon
  options : Options
  switches : Switches
  deriving DecidableEq

/-- What the options ask for, for one kind. -/
inductive Request where
  | absent
  | blank
  /-- The option names no token of the kind. -/
  | unknown (name : String)
  /-- The option names this token of the kind, maybe through an alias. -/
  | known (id : TokenId)
  deriving DecidableEq, Repr

def Request.known? : Request → Option TokenId
  | .known id => some id
  | _ => none

namespace Context

def request (context : Context) (kind : Kind) : Request :=
  match context.options.get? kind.name with
  | none => .absent
  | some .blank => .blank
  | some (.token name) =>
    match context.lexicon.resolve? name with
    | none => .unknown name
    | some resolved =>
      if resolved.kind.name = kind.name then .known resolved.id else .unknown name

/-- The token in effect for a kind: the one asked for, or else the default of the kind if the
switches let it stand in. -/
def inEffect? (context : Context) (kind : Kind) : Option TokenId :=
  match context.request kind with
  | .known id => some id
  | _ => if context.switches.unknownDefaults then kind.default? else none

end Context

end Concord
