import Concord.Grammar
import Concord.Grammar.Error
import Concord.Text.Name

/-!
Declarations, and where aliases lead. `Grammar.declarations` lists what the kinds of a grammar
declare, in the order of kinds and names, and `Grammar.fault?` finds the first declaration that is
malformed or repeats a name of another kind. `Declaration.settle` follows an alias from target to
target until it meets a real token. The walk ends because it never enters a name twice: each step
visits one more of the declared names, or is refused as a cycle.
-/

set_option autoImplicit false
set_option relaxedAutoImplicit false

namespace Concord

/-- An entry together with its name and the kind that declares it. -/
structure Declaration where
  kind : String
  name : String
  entry : Entry
  deriving DecidableEq, Repr

/-- The declarations of one kind in the order of their names. -/
def KindDeclaration.declarations (declaration : KindDeclaration) (kind : String) :
    List Declaration :=
  declaration.members.map fun member ↦ ⟨kind, member.1, member.2⟩

/-- All declarations of a grammar, by kind and then by name. -/
def Grammar.declarations (grammar : Grammar) : List Declaration :=
  grammar.kinds.toList.flatMap fun kind ↦ kind.2.declarations kind.1

/-- The `default` entries of a grammar with their kinds, in the order of the kinds. -/
def Grammar.defaults (grammar : Grammar) : List (String × Entry) :=
  grammar.kinds.toList.filterMap fun kind ↦ kind.2.default?.map (kind.1, ·)

/-- What is wrong with an entry taken by itself. -/
def Entry.fault? (name : String) (entry : Entry) : Option EntryFault :=
  if Text.isName name then
    match entry with
    | .real description => if Text.trim description = "" then some .blankDescription else none
    | .aliasOf target => if target = "" then some .noTarget else none
  else some .notAName

namespace Declaration

/-- The first declaration of a name. -/
def find? (declared : List Declaration) (name : String) : Option Declaration :=
  List.find? (·.name = name) declared

theorem name_of_find? {declared : List Declaration} {name : String} {found : Declaration}
    (h : find? declared name = some found) : found.name = name := by
  simpa using List.find?_some h

theorem mem_of_find? {declared : List Declaration} {name : String} {found : Declaration}
    (h : find? declared name = some found) : found ∈ declared :=
  List.mem_of_find?_eq_some h

/-- What is wrong with a declaration: its entry, or that an earlier kind declares its name. -/
def fault? (declared : List Declaration) (declaration : Declaration) : Option GrammarError :=
  match declaration.entry.fault? declaration.name with
  | some fault => some (.malformedToken declaration.kind declaration.name fault)
  | none =>
    match find? declared declaration.name with
    | some first =>
      if first.kind = declaration.kind then none
      else some (.duplicateToken declaration.name first.kind declaration.kind)
    | none => none

/-- The number of declarations whose names are not in `trail`. -/
def unvisited (declared : List Declaration) (trail : List String) : Nat :=
  declared.countP (·.name ∉ trail)

theorem unvisited_append_lt {declared : List Declaration} {trail : List String} {name : String}
    {found : Declaration} (hfound : find? declared name = some found) (hnew : name ∉ trail) :
    unvisited declared (trail ++ [name]) < unvisited declared trail := by
  have hname := name_of_find? hfound
  have hmem := mem_of_find? hfound
  clear hfound
  subst hname
  induction declared with
  | nil => cases hmem
  | cons first rest ih =>
    have hle : unvisited rest (trail ++ [found.name]) ≤ unvisited rest trail := by
      refine List.countP_mono_left fun declaration _ h ↦ ?_
      simp at h ⊢
      exact h.1
    rcases List.mem_cons.mp hmem with rfl | hmem
    · simp only [unvisited, List.countP_cons] at hle ⊢
      simp [hnew]
      simpa using Nat.lt_succ_of_le hle
    · have hlt := ih hmem
      simp only [unvisited, List.countP_cons] at hlt ⊢
      split <;> split <;> simp_all
      omega

/-- The name of the real token that the aliases of `kind` lead to from `current`, when the walk
has visited the names in `trail`. -/
def follow (declared : List Declaration) (kind : String) (trail : List String)
    (current : Declaration) : Except GrammarError String :=
  match current.entry with
  | .real _ => .ok current.name
  | .aliasOf target =>
    match hfound : find? declared target with
    | none => .error (.danglingAlias kind current.name target)
    | some next =>
      if next.kind ≠ kind then .error (.aliasKindMismatch kind current.name target next.kind)
      else if hvisited : target ∈ trail then .error (.aliasCycle kind (trail ++ [target]))
      else
        have := unvisited_append_lt hfound hvisited
        follow declared kind (trail ++ [target]) next
termination_by unvisited declared trail

/-- The name of the real token that a declaration stands for: its own, or for an alias the one
that its targets lead to without leaving the kind. -/
def settle (declared : List Declaration) (declaration : Declaration) :
    Except GrammarError String :=
  follow declared declaration.kind [declaration.name] declaration

/-- The name of the real token that the `default` entry of `kind` refers to. -/
def settleDefault (declared : List Declaration) (kind : String) (entry : Entry) :
    Except GrammarError String :=
  if entry.referent = "" then .error (.malformedToken kind defaultKey .noDefaultNamed)
  else
    match find? declared entry.referent with
    | none => .error (.danglingDefault kind entry.referent)
    | some found =>
      if found.kind = kind then settle declared found
      else .error (.defaultOutsideKind kind entry.referent found.kind)

end Declaration

/-- The first fault among the kind names and declarations of a grammar: of each kind first its
name, then its declarations. -/
def Grammar.fault? (grammar : Grammar) : Option GrammarError :=
  grammar.kinds.toList.findSome? fun kind ↦
    if Text.isName kind.1 then
      (kind.2.declarations kind.1).findSome? (Declaration.fault? grammar.declarations)
    else some (.malformedKind kind.1)

end Concord
