/-!
Policy switches. Four switches decide how a pattern treats what it cannot use. A call may set
some of them for itself: `Overrides` holds the ones that are set, `Switches.apply` puts them on
top of the switches in effect, and `Overrides.layer` puts one set of overrides on top of another.
-/

set_option autoImplicit false
set_option relaxedAutoImplicit false

namespace Concord

/-- How patterns are resolved.

* `raises`: a missing option, an unusable pattern token or an unknown kind is an error.
* `aliasedPatterns`: a pattern may name a token by one of its aliases.
* `unknownDefaults`: the default token of a kind stands in for an option that is missing or names
  no token of the kind.
* `excludedDefaults`: the default token of a kind stands in for a token that the pattern does not
  mention. -/
structure Switches where
  raises : Bool := false
  aliasedPatterns : Bool := false
  unknownDefaults : Bool := true
  excludedDefaults : Bool := false
  deriving DecidableEq, Repr

/-- Switches that are set, each on its own. -/
structure Overrides where
  raises? : Option Bool := none
  aliasedPatterns? : Option Bool := none
  unknownDefaults? : Option Bool := none
  excludedDefaults? : Option Bool := none
  deriving DecidableEq, Repr

namespace Switches

/-- The switches with those that `overrides` sets replaced. -/
def apply (switches : Switches) (overrides : Overrides) : Switches where
  raises := overrides.raises?.getD switches.raises
  aliasedPatterns := overrides.aliasedPatterns?.getD switches.aliasedPatterns
  unknownDefaults := overrides.unknownDefaults?.getD switches.unknownDefaults
  excludedDefaults := overrides.excludedDefaults?.getD switches.excludedDefaults

/-- The overrides that set every switch to its value here. -/
def toOverrides (switches : Switches) : Overrides where
  raises? := some switches.raises
  aliasedPatterns? := some switches.aliasedPatterns
  unknownDefaults? := some switches.unknownDefaults
  excludedDefaults? := some switches.excludedDefaults

@[simp] theorem apply_empty (switches : Switches) : switches.apply {} = switches := rfl

@[simp] theorem apply_toOverrides (lower higher : Switches) :
    lower.apply higher.toOverrides = higher := rfl

end Switches

namespace Overrides

/-- Overrides on top of others: what `higher` sets wins. -/
def layer (lower higher : Overrides) : Overrides where
  raises? := higher.raises?.or lower.raises?
  aliasedPatterns? := higher.aliasedPatterns?.or lower.aliasedPatterns?
  unknownDefaults? := higher.unknownDefaults?.or lower.unknownDefaults?
  excludedDefaults? := higher.excludedDefaults?.or lower.excludedDefaults?

end Overrides

/-- Layers may be joined before or after they are applied. -/
theorem Switches.apply_layer (switches : Switches) (lower higher : Overrides) :
    switches.apply (lower.layer higher) = (switches.apply lower).apply higher := by
  rcases higher with ⟨_ | _, _ | _, _ | _, _ | _⟩ <;> rfl

end Concord
