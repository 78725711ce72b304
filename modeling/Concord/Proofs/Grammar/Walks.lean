import Concord.Proofs.Lexicon.Flattening
import Mathlib.Data.List.Dedup
import Mathlib.Data.List.Perm.Subperm

/-!
# How the walk along aliases ends

`Declaration.follow` walks from an alias to its target and on, and its termination hides how long it
takes. Here one turn of the walk is a function of its own (`Declaration.turn`), and
`Declaration.walk` takes at most so many of them.

`Declaration.Chain` lists the names from a declaration along its targets, all declared in its kind,
and `Declaration.Ends` names the four ways in which a chain can end: at a real token, or at the
first edge whose target is undeclared, declared in another kind or on the chain already. What a turn
preserves is that the names visited are a chain without repetition (`Chain.of_turn_eq_goesOn`,
`nodup_of_turn_eq_goesOn`). From that a walk ends within as many turns as there are declared
names (`walk_eq_follow`), and in the way its chain does. The main statement is
`Declaration.walk_ends`, for any list of declarations.
-/

set_option autoImplicit false
set_option relaxedAutoImplicit false

namespace Concord

namespace Declaration

/-! ### Turns -/

/-- What a turn of the walk does: it ends the walk, or goes on to the next declaration. -/
inductive Turn where
  | ends (outcome : Except GrammarError String)
  | goesOn (trail : List String) (next : Declaration)
  deriving DecidableEq

/-- One turn of the walk along the aliases of `kind`, at a declaration whose name is the last of
`trail`. The kind of the target is looked at before the trail. -/
def turn (declared : List Declaration) (kind : String) (trail : List String)
    (current : Declaration) : Turn :=
  match current.entry with
  | .real _ => .ends (.ok current.name)
  | .aliasOf target =>
    match find? declared target with
    | none => .ends (.error (.danglingAlias kind current.name target))
    | some next =>
      if next.kind ≠ kind then
        .ends (.error (.aliasKindMismatch kind current.name target next.kind))
      else if target ∈ trail then .ends (.error (.aliasCycle kind (trail ++ [target])))
      else .goesOn (trail ++ [target]) next

/-- The outcome of the walk, if it ends within the given number of turns. -/
def walk (declared : List Declaration) (kind : String) :
    Nat → List String → Declaration → Option (Except GrammarError String)
  | 0, _, _ => none
  | turns + 1, trail, current =>
    match turn declared kind trail current with
    | .ends outcome => some outcome
    | .goesOn trail next => walk declared kind turns trail next

/-- The number of names that are declared, each counted once. -/
def nameCount (declared : List Declaration) : Nat :=
  (declared.map (·.name)).dedup.length

/-- The names from a declaration along its aliases, all declared in its kind, to the declaration of
the last of them. -/
inductive Chain (declared : List Declaration) (start : Declaration) :
    List String → Declaration → Prop
  | start : Chain declared start [start.name] start
  | next {trail : List String} {current next : Declaration} {target : String}
    (hchain : Chain declared start trail current) (halias : current.entry = .aliasOf target)
    (hnext : find? declared target = some next) (hkind : next.kind = start.kind) :
    Chain declared start (trail ++ [target]) next

/-- How the chain from a declaration ends: with the id of the real token that it reaches, or with
the first edge that it cannot take. The edges before that one lead to new names. -/
inductive Ends (declared : List Declaration) (tokens : List Token) (start : Declaration) :
    Except GrammarError TokenId → Prop
  | real {trail : List String} {current : Declaration} {description : String} {id : TokenId}
    {token : Token} (hchain : Chain declared start trail current)
    (hreal : current.entry = .real description) (htoken : tokens[id]? = some token)
    (hname : token.name = current.name) : Ends declared tokens start (.ok id)
  | dangling {trail : List String} {current : Declaration} {target : String}
    (hchain : Chain declared start trail current) (hnodup : trail.Nodup)
    (halias : current.entry = .aliasOf target) (hundeclared : find? declared target = none) :
    Ends declared tokens start (.error (.danglingAlias start.kind current.name target))
  | kindMismatch {trail : List String} {current next : Declaration} {target : String}
    (hchain : Chain declared start trail current) (hnodup : trail.Nodup)
    (halias : current.entry = .aliasOf target) (hnext : find? declared target = some next)
    (hkind : next.kind ≠ start.kind) :
    Ends declared tokens start
      (.error (.aliasKindMismatch start.kind current.name target next.kind))
  | cycle {trail : List String} {current next : Declaration} {target : String}
    (hchain : Chain declared start trail current) (hnodup : trail.Nodup)
    (halias : current.entry = .aliasOf target) (hnext : find? declared target = some next)
    (hkind : next.kind = start.kind) (hvisited : target ∈ trail) :
    Ends declared tokens start (.error (.aliasCycle start.kind (trail ++ [target])))

/-- The names of the tokens are distinct, and every real token that is declared is among them. -/
structure Numbered (declared : List Declaration) (tokens : List Token) : Prop where
  nodup : (tokens.map (·.name)).Nodup
  exists_token : ∀ declaration ∈ declared, declaration.entry.isAlias = false →
    ∃ token ∈ tokens, token.name = declaration.name

variable {declared : List Declaration} {tokens : List Token} {start current next : Declaration}
  {kind : String} {trail visited : List String}

/-- The walk is its first turn, and what that goes on to. -/
theorem follow_eq_turn (declared : List Declaration) (kind : String) (trail : List String)
    (current : Declaration) :
    follow declared kind trail current =
      match turn declared kind trail current with
      | .ends outcome => outcome
      | .goesOn trail next => follow declared kind trail next := by
  fun_cases follow declared kind trail current <;> simp_all [turn]

theorem turn_eq_goesOn_iff : turn declared kind trail current = .goesOn visited next ↔
    ∃ target, current.entry = .aliasOf target ∧ find? declared target = some next ∧
      next.kind = kind ∧ target ∉ trail ∧ visited = trail ++ [target] := by
  unfold turn
  split
  · next hentry => simp [hentry]
  · next target hentry =>
    split
    · next hnone => simp [hentry, hnone]
    · next found hfound =>
      split_ifs with hkind hvisited <;> simp [hentry, hfound] <;> grind

/-! ### What a turn preserves -/

theorem Chain.of_turn_eq_goesOn (h : Chain declared start trail current)
    (hturn : turn declared start.kind trail current = .goesOn visited next) :
    Chain declared start visited next := by
  obtain ⟨target, halias, hnext, hkind, -, rfl⟩ := turn_eq_goesOn_iff.mp hturn
  exact h.next halias hnext hkind

theorem nodup_of_turn_eq_goesOn (h : trail.Nodup)
    (hturn : turn declared kind trail current = .goesOn visited next) : visited.Nodup := by
  obtain ⟨target, -, -, -, hnew, rfl⟩ := turn_eq_goesOn_iff.mp hturn
  exact List.concat_eq_append ▸ h.concat hnew

theorem length_of_turn_eq_goesOn
    (hturn : turn declared kind trail current = .goesOn visited next) :
    visited.length = trail.length + 1 := by
  obtain ⟨target, -, -, -, -, rfl⟩ := turn_eq_goesOn_iff.mp hturn
  simp

/-- The declaration that a chain leads to is declared, if the first is. -/
theorem Chain.find?_eq (h : Chain declared start trail current)
    (hstart : find? declared start.name = some start) :
    find? declared current.name = some current := by
  cases h with
  | start => exact hstart
  | next _ _ hnext _ => rwa [name_of_find? hnext]

/-- The names of a chain are declared, and each ends a chain of its own. -/
theorem Chain.exists_prefix (h : Chain declared start trail current)
    (hstart : find? declared start.name = some start) {name : String} (hname : name ∈ trail) :
    ∃ shorter found, shorter <+: trail ∧ Chain declared start shorter found ∧
      find? declared name = some found := by
  induction h with
  | start =>
    obtain rfl := List.mem_singleton.mp hname
    exact ⟨_, start, List.prefix_rfl, .start, hstart⟩
  | @next trail _ next target hchain halias hnext hkind ih =>
    rcases List.mem_append.mp hname with hmem | hmem
    · obtain ⟨shorter, found, hprefix, hshorter, hfound⟩ := ih hmem
      exact ⟨shorter, found, hprefix.trans (List.prefix_append _ _), hshorter, hfound⟩
    · obtain rfl := List.mem_singleton.mp hmem
      exact ⟨_, next, List.prefix_rfl, hchain.next halias hnext hkind, hnext⟩

/-- What a chain reaches, it reaches without meeting a name twice. -/
theorem Chain.exists_nodup (h : Chain declared start trail current)
    (hstart : find? declared start.name = some start) :
    ∃ distinct, Chain declared start distinct current ∧ distinct.Nodup := by
  induction h with
  | start => exact ⟨_, .start, List.nodup_singleton _⟩
  | @next _ current next target _ halias hnext hkind ih =>
    obtain ⟨distinct, hchain, hnodup⟩ := ih
    by_cases hvisited : target ∈ distinct
    · -- The way back to the target is a detour: the chain was there before.
      obtain ⟨shorter, found, hprefix, hshorter, hfound⟩ := hchain.exists_prefix hstart hvisited
      obtain rfl := Option.some.inj (hnext.symm.trans hfound)
      exact ⟨shorter, hshorter, hnodup.sublist hprefix.sublist⟩
    · exact ⟨distinct ++ [target], hchain.next halias hnext hkind,
        List.concat_eq_append ▸ hnodup.concat hvisited⟩

/-- A chain without repetition is no longer than the list of declared names. -/
theorem Chain.length_le (h : Chain declared start trail current) (hnodup : trail.Nodup)
    (hstart : find? declared start.name = some start) : trail.length ≤ nameCount declared := by
  have hsubset : trail ⊆ (declared.map (·.name)).dedup := by
    intro name hname
    obtain ⟨-, found, -, -, hfound⟩ := h.exists_prefix hstart hname
    rw [List.mem_dedup, ← name_of_find? hfound]
    exact List.mem_map_of_mem (mem_of_find? hfound)
  exact (hnodup.subperm hsubset).length_le

/-! ### Whole walks -/

/-- A walk that has visited a chain without repetition ends within as many turns as there are names
left. -/
theorem walk_eq_follow (hchain : Chain declared start trail current) (hnodup : trail.Nodup)
    (hstart : find? declared start.name = some start) {turns : Nat}
    (hturns : nameCount declared < trail.length + turns) :
    walk declared start.kind turns trail current =
      some (follow declared start.kind trail current) := by
  induction turns generalizing trail current with
  | zero => exact absurd hturns (Nat.not_lt_of_ge (hchain.length_le hnodup hstart))
  | succ turns ih =>
    rw [walk, follow_eq_turn]
    cases hturn : turn declared start.kind trail current with
    | ends outcome => rfl
    | goesOn visited next =>
      refine ih (hchain.of_turn_eq_goesOn hturn) (nodup_of_turn_eq_goesOn hnodup hturn) ?_
      rw [length_of_turn_eq_goesOn hturn]
      omega

/-- The walk passes through every chain without repetition. -/
theorem settle_eq_follow (hchain : Chain declared start trail current) (hnodup : trail.Nodup) :
    settle declared start = follow declared start.kind trail current := by
  induction hchain with
  | start => rfl
  | @next trail current next target hchain halias hnext hkind ih =>
    obtain ⟨hnew, htrail⟩ := (List.nodup_concat trail target).mp (by simpa using hnodup)
    have hturn : turn declared start.kind trail current = .goesOn (trail ++ [target]) next :=
      turn_eq_goesOn_iff.mpr ⟨target, halias, hnext, hkind, hnew, rfl⟩
    rw [ih htrail, follow_eq_turn, hturn]

/-- A walk from the end of a chain without repetition ends in the way the chain goes on. -/
theorem ends_of_follow (hnumbered : Numbered declared tokens)
    (hstart : find? declared start.name = some start)
    (hchain : Chain declared start trail current) (hnodup : trail.Nodup) :
    Ends declared tokens start
      ((follow declared start.kind trail current).map (Token.idOf tokens)) := by
  fun_induction follow declared start.kind trail current with
  | case1 trail current description hreal =>
    have hmem := mem_of_find? (hchain.find?_eq hstart)
    obtain ⟨token, htoken, hname⟩ := hnumbered.exists_token current hmem (by rw [hreal]; rfl)
    have hid := Token.getElem?_idOf hnumbered.nodup htoken
    rw [hname] at hid
    exact .real hchain hreal hid hname
  | case2 trail current target halias hundeclared =>
    exact .dangling hchain hnodup halias hundeclared
  | case3 trail current target halias next hnext hkind =>
    exact .kindMismatch hchain hnodup halias hnext hkind
  | case4 trail current target halias next hnext hkind hvisited =>
    exact .cycle hchain hnodup halias hnext (not_not.mp hkind) hvisited
  | case5 trail current target halias next hnext hkind hnew _ ih =>
    exact ih (hchain.next halias hnext (not_not.mp hkind))
      (List.concat_eq_append ▸ hnodup.concat hnew)

/-- A chain ends in one way, which is the outcome of the walk. -/
theorem Ends.settle_eq {outcome : Except GrammarError TokenId}
    (h : Ends declared tokens start outcome) (hnumbered : Numbered declared tokens)
    (hstart : find? declared start.name = some start) :
    (settle declared start).map (Token.idOf tokens) = outcome := by
  cases h with
  | real hchain hreal htoken hname =>
    obtain ⟨distinct, hdistinct, hnodup⟩ := hchain.exists_nodup hstart
    rw [settle_eq_follow hdistinct hnodup, follow_eq_turn, turn, hreal, ← hname]
    exact congrArg Except.ok (Token.idOf_of_getElem? hnumbered.nodup htoken)
  | dangling hchain hnodup halias hundeclared =>
    simp [settle_eq_follow hchain hnodup, follow_eq_turn, turn, halias, hundeclared, Except.map]
  | kindMismatch hchain hnodup halias hnext hkind =>
    simp [settle_eq_follow hchain hnodup, follow_eq_turn, turn, halias, hnext, hkind, Except.map]
  | cycle hchain hnodup halias hnext hkind hvisited =>
    simp [settle_eq_follow hchain hnodup, follow_eq_turn, turn, halias, hnext, hkind, hvisited,
      Except.map]

/-- Assumes: any list of declarations, tokens with distinct names that include the real tokens
declared, and a start that is the declaration of its name. The walk along its aliases ends within as
many turns as there are declared names. Its outcome is the one way in which the chain of the start
ends, with the id of the real token that the chain reaches within the kind, or with the first edge
that it cannot take. -/
theorem walk_ends (hnumbered : Numbered declared tokens)
    (hstart : find? declared start.name = some start) :
    walk declared start.kind (nameCount declared) [start.name] start =
        some (settle declared start) ∧
      (∃! outcome, Ends declared tokens start outcome) ∧
      ∀ outcome, (settle declared start).map (Token.idOf tokens) = outcome ↔
        Ends declared tokens start outcome := by
  have hends : Ends declared tokens start ((settle declared start).map (Token.idOf tokens)) :=
    ends_of_follow hnumbered hstart .start (List.nodup_singleton _)
  refine ⟨?_, ⟨_, hends, ?_⟩, ?_⟩
  · exact walk_eq_follow .start (List.nodup_singleton _) hstart
      (by rw [List.length_singleton]; omega)
  · exact fun outcome h ↦ (h.settle_eq hnumbered hstart).symm
  · intro outcome
    constructor
    · rintro rfl
      exact hends
    · exact fun h ↦ h.settle_eq hnumbered hstart

/-- Chains of all four ends, one of them into another kind and one around a cycle. -/
def tangled : List Declaration :=
  [⟨"gender", "f", .real "female"⟩, ⟨"gender", "woman", .aliasOf "f"⟩,
    ⟨"gender", "lady", .aliasOf "woman"⟩, ⟨"gender", "duke", .aliasOf "lord"⟩,
    ⟨"gender", "boy", .aliasOf "lad"⟩, ⟨"gender", "lad", .aliasOf "youth"⟩,
    ⟨"gender", "youth", .aliasOf "lad"⟩, ⟨"gender", "pair", .aliasOf "couple"⟩,
    ⟨"count", "couple", .aliasOf "pair"⟩]

theorem walk_ends_tangled :
    Numbered tangled [⟨"one", "singular", "count"⟩, ⟨"f", "female", "gender"⟩] ∧
      nameCount tangled = 9 ∧
      (∀ start ∈ tangled, find? tangled start.name = some start) ∧
      walk tangled "gender" 3 ["lady"] ⟨"gender", "lady", .aliasOf "woman"⟩ = some (.ok "f") ∧
      Ends tangled [⟨"one", "singular", "count"⟩, ⟨"f", "female", "gender"⟩]
        ⟨"gender", "lady", .aliasOf "woman"⟩ (.ok 1) ∧
      Ends tangled [⟨"one", "singular", "count"⟩, ⟨"f", "female", "gender"⟩]
        ⟨"gender", "duke", .aliasOf "lord"⟩ (.error (.danglingAlias "gender" "duke" "lord")) ∧
      Ends tangled [⟨"one", "singular", "count"⟩, ⟨"f", "female", "gender"⟩]
        ⟨"gender", "boy", .aliasOf "lad"⟩
        (.error (.aliasCycle "gender" ["boy", "lad", "youth", "lad"])) ∧
      Ends tangled [⟨"one", "singular", "count"⟩, ⟨"f", "female", "gender"⟩]
        ⟨"gender", "pair", .aliasOf "couple"⟩
        (.error (.aliasKindMismatch "gender" "pair" "couple" "count")) := by
  have hnumbered :
      Numbered tangled [⟨"one", "singular", "count"⟩, ⟨"f", "female", "gender"⟩] :=
    ⟨by decide, by decide⟩
  have hstart : ∀ start ∈ tangled, find? tangled start.name = some start := by decide
  refine ⟨hnumbered, by decide, hstart, by decide, ?_, ?_, ?_, ?_⟩
  all_goals
    exact ((walk_ends hnumbered (hstart _ (by decide))).2.2 _).mp (by decide +kernel)

end Declaration

/-- A grammar without a fault numbers the real tokens that it declares. -/
theorem Grammar.numbered_tokens {grammar : Grammar} (h : grammar.fault? = none) :
    Declaration.Numbered grammar.declarations grammar.tokens where
  nodup := nodup_names_tokens h
  exists_token := by
    intro declaration hmem hreal
    cases hentry : declaration.entry with
    | aliasOf target => simp [hentry, Entry.isAlias] at hreal
    | real description =>
      refine ⟨⟨declaration.name, description, declaration.kind⟩, ?_, rfl⟩
      exact List.mem_filterMap.mpr ⟨declaration, hmem, by rw [Declaration.token?, hentry]⟩

end Concord
