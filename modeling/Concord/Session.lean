import Concord.Localizer

/-!
Sessions. A session is a localizer in surroundings whose switches it follows as long as its own are
not pinned. `Session.run` carries out one command and `Session.runAll` several in a row.
-/

set_option autoImplicit false
set_option relaxedAutoImplicit false

namespace Concord

structure Session where
  localizer : Localizer
  /-- The switches of the surroundings. -/
  ambient : Switches := {}
  deriving DecidableEq

inductive Command where
  /-- The text of a stored template. -/
  | localize (locale key : String) (options : Options) (overrides : Overrides)
  /-- The review of a stored template. -/
  | reviewStored (locale key : String)
  | consult (locale : String) (inquiry : Inquiry)
  | recompile (locale : String)
  | recompileAll
  /-- The lexicon of a locale, compiled if it is not published. -/
  | lexicon (locale : String)
  /-- The published lexicon of a locale, if there is one. -/
  | published (locale : String)
  | storeGrammar (locale : String) (grammar : Grammar)
  | edit (edits : List Edit)
  | localesWith (kind? : Option String)
  | publishedKinds
  /-- The switches that the localizer uses. -/
  | switches
  /-- Pins the switches of the localizer, or lets it follow its surroundings again. -/
  | pin (switches? : Option Switches)
  /-- Replaces the switches of the surroundings. -/
  | setAmbient (switches : Switches)
  /-- Changes some switches of the surroundings. -/
  | updateAmbient (overrides : Overrides)

/-- What a command gives back. -/
inductive Outcome where
  | answer (answer : Answer)
  | edited (answers : List EditAnswer)
  | failed (failure : Failure)

namespace Outcome

def ofAnswer : Except Failure Answer → Outcome
  | .ok value => .answer value
  | .error failure => .failed failure

/-- The outcome of an operation that compiles: what it gives, or the fault of the grammar. -/
def ofCompiled {α : Type} (render : α → Answer) : Except GrammarError α → Outcome
  | .ok value => .answer (render value)
  | .error error => .failed (.grammar error)

end Outcome

namespace Session

/-- The switches in effect for the localizer. -/
def switches (session : Session) : Switches :=
  session.localizer.switches session.ambient

/-- The outcome of a command, and the session after it. -/
def run (isLocale : String → Bool) (session : Session) : Command → Outcome × Session
  | .localize locale key options overrides =>
    let (answer, localizer) :=
      session.localizer.localize isLocale session.ambient locale key options overrides
    (.ofAnswer answer, { session with localizer })
  | .reviewStored locale key =>
    let (answer, localizer) := session.localizer.reviewStored isLocale session.ambient locale key
    (.ofAnswer answer, { session with localizer })
  | .consult locale inquiry =>
    let (answer, localizer) := session.localizer.consult isLocale session.ambient locale inquiry
    (.ofAnswer answer, { session with localizer })
  | .recompile locale =>
    let (compiled, localizer) := session.localizer.recompile isLocale locale
    (.ofCompiled (.lexicon ∘ some) compiled, { session with localizer })
  | .recompileAll =>
    let (compiled, localizer) := session.localizer.recompileAll isLocale
    (.ofCompiled .count compiled, { session with localizer })
  | .lexicon locale =>
    let (compiled, localizer) := session.localizer.lexicon isLocale locale
    (.ofCompiled (.lexicon ∘ some) compiled, { session with localizer })
  | .published locale =>
    (.answer (.lexicon session.localizer.published[locale]?), session)
  | .storeGrammar locale grammar =>
    let (compiled, localizer) := session.localizer.storeGrammar isLocale locale grammar
    (.ofCompiled (.lexicon ∘ some) compiled, { session with localizer })
  | .edit edits =>
    let (answers, localizer) := session.localizer.edit isLocale edits
    (.edited answers, { session with localizer })
  | .localesWith kind? =>
    let (names, localizer) := session.localizer.localesWith isLocale kind?
    (.answer (.names names), { session with localizer })
  | .publishedKinds => (.answer (.names session.localizer.publishedKinds), session)
  | .switches => (.answer (.switches session.switches), session)
  | .pin switches? =>
    let after := { session with localizer := { session.localizer with pinned? := switches? } }
    (.answer (.switches after.switches), after)
  | .setAmbient switches => (.answer (.switches switches), { session with ambient := switches })
  | .updateAmbient overrides =>
    let ambient := session.ambient.apply overrides
    (.answer (.switches ambient), { session with ambient })

/-- The session after several commands. -/
def runAll (isLocale : String → Bool) (session : Session) (commands : List Command) : Session :=
  commands.foldl (fun session command ↦ (session.run isLocale command).2) session

end Session

end Concord
