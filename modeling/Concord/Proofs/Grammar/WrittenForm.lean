import Concord.Proofs.Grammar.Aliases
import Concord.Proofs.Text

/-!
# What the written form of a grammar gives back

In writing an alias is told from a description by the `@` it begins with, and nothing shields the
`@` of a description. So a description that begins with it is lost: it comes back as an alias.
Blanks around the target of an alias are lost too, which only matters for an alias that is put into
a declaration as it is, because every other way to add one trims its target.

`Entry.IsLegible` describes the entries that are not lost, and they are all that come back
(`Entry.ofText_toText_eq_iff`). Tables are written and read entry by entry, hence a declaration or a
grammar comes back just if its entries are legible. The main statement is
`Grammar.ofTexts_toTexts_ofAdditions`, about all grammars that are put together by additions. What
has been read once is legible, so that nothing is lost the second time.
-/

set_option autoImplicit false
set_option relaxedAutoImplicit false

namespace Concord

/-! ### Entries -/

namespace Entry

/-- The text of the entry says what the entry is: a description does not begin with `@`, and the
target of an alias has no blanks at its ends. -/
def IsLegible : Entry → Prop
  | .real description => description.toList.head? ≠ some '@'
  | .aliasOf target => Text.IsTrimmed target.toList

/-- The text of an entry gives the entry back just if that is legible. -/
theorem ofText_toText_eq_iff {entry : Entry} : ofText entry.toText = entry ↔ entry.IsLegible := by
  cases entry with
  | real description =>
    rw [IsLegible, toText, ofText]
    split
    · next target hmark => simp [pointingAt, hmark]
    · next hplain =>
      refine iff_of_true rfl fun hhead ↦ ?_
      obtain ⟨target, hmark⟩ := List.head?_eq_some_iff.mp hhead
      exact hplain target hmark
  | aliasOf target =>
    have hmark : (aliasOf target).toText.toList = '@' :: target.toList := by
      rw [toText, String.toList_append]
      rfl
    rw [ofText, hmark, IsLegible, ← Text.trim_eq_self_iff]
    simp [pointingAt]

/-- An alias whose target is trimmed is legible. -/
theorem isLegible_pointingAt (target : String) : (pointingAt target).IsLegible :=
  Text.trim_eq_self_iff.mp (Text.trim_trim target)

/-- What a text is read as is legible. -/
theorem isLegible_ofText (text : String) : (ofText text).IsLegible := by
  rw [ofText]
  split
  · exact isLegible_pointingAt _
  · next hplain =>
    intro hhead
    obtain ⟨target, hmark⟩ := List.head?_eq_some_iff.mp hhead
    exact hplain target hmark

end Entry

/-! ### Tables -/

section Tables

variable {α β : Type} (table : Std.ExtTreeMap String α) (write : α → β) (read : β → α)

/-- What is read from a written table is under each key what is read from its written value. -/
theorem getElem?_ofList_written (key : String) :
    (Std.ExtTreeMap.ofList ((table.toList.map fun entry ↦ (entry.1, write entry.2)).map
      fun text ↦ (text.1, read text.2)))[key]? = table[key]?.map (read ∘ write) := by
  rw [List.map_map]
  have hnodup : ((table.toList.map ((fun text ↦ (text.1, read text.2)) ∘
      fun entry ↦ (entry.1, write entry.2))).map (·.1)).Nodup := by
    rw [List.map_map]
    exact List.pairwise_map.mpr (Std.ExtTreeMap.distinct_keys_toList.imp fun hne heq ↦
      hne (Std.compare_eq_iff_eq.mpr heq))
  ext value
  rw [getElem?_ofList_eq_some_iff hnodup, Option.map_eq_some_iff, List.mem_map]
  constructor
  · rintro ⟨⟨_, source⟩, hsource, hpair⟩
    obtain ⟨rfl, rfl⟩ := Prod.mk.inj hpair
    exact ⟨source, Std.ExtTreeMap.mem_toList_iff_getElem?_eq_some.mp hsource, rfl⟩
  · rintro ⟨source, hsource, rfl⟩
    exact ⟨(key, source), Std.ExtTreeMap.mem_toList_iff_getElem?_eq_some.mpr hsource, rfl⟩

/-- A table comes back from what is written of it just if its values do. -/
theorem ofList_written_eq_iff :
    Std.ExtTreeMap.ofList ((table.toList.map fun entry ↦ (entry.1, write entry.2)).map
        fun text ↦ (text.1, read text.2)) = table ↔
      ∀ (key : String) (value : α), table[key]? = some value → read (write value) = value := by
  constructor
  · intro h key value hvalue
    have hlookup := getElem?_ofList_written table write read key
    rw [h, hvalue] at hlookup
    exact (Option.some.inj hlookup).symm
  · intro h
    refine Std.ExtTreeMap.ext_getElem? fun key ↦ ?_
    rw [getElem?_ofList_written]
    cases hvalue : table[key]? with
    | none => rfl
    | some value => exact congrArg some (h key value hvalue)

end Tables

/-! ### Declarations -/

namespace KindDeclaration

/-- All entries of the declaration are legible, the default among them. -/
def IsLegible (declaration : KindDeclaration) : Prop :=
  ∀ (name : String) (entry : Entry), declaration.entries[name]? = some entry → entry.IsLegible

/-- A declaration comes back from its written form just if its entries are legible. -/
theorem ofTexts_toTexts_eq_iff {declaration : KindDeclaration} :
    ofTexts declaration.toTexts = declaration ↔ declaration.IsLegible := by
  obtain ⟨entries⟩ := declaration
  have hentry (entry : Entry) : Entry.ofText entry.toText = entry ↔ entry.IsLegible :=
    Entry.ofText_toText_eq_iff
  rw [ofTexts, toTexts, KindDeclaration.mk.injEq]
  simp only [IsLegible, ← hentry]
  exact ofList_written_eq_iff entries Entry.toText Entry.ofText

/-- What is read from texts is legible. -/
theorem isLegible_ofTexts (texts : List (String × String)) : (ofTexts texts).IsLegible := by
  intro name entry hentry
  obtain ⟨text, -, hpair⟩ := List.mem_map.mp (mem_of_getElem?_ofList hentry)
  obtain ⟨-, rfl⟩ := Prod.mk.inj hpair
  exact Entry.isLegible_ofText text.2

/-- A declaration has an entry more, in place of any of its name. -/
theorem getElem?_entries_insert (declaration : KindDeclaration) (name other : String)
    (entry : Entry) : (declaration.insert name entry).entries[other]? =
      if name = other then some entry else declaration.entries[other]? := by
  simp [insert, Std.ExtTreeMap.getElem?_insert]

/-- A legible declaration stays so with a legible entry more. -/
theorem IsLegible.insert {declaration : KindDeclaration} (h : declaration.IsLegible)
    (name : String) {entry : Entry} (hentry : entry.IsLegible) :
    (declaration.insert name entry).IsLegible := by
  intro other found hfound
  rw [getElem?_entries_insert] at hfound
  split at hfound
  · obtain rfl := Option.some.inj hfound
    exact hentry
  · exact h other found hfound

/-- A way to put an entry into a declaration: a real token, an alias, the default, an entry as it
is, or an entry in written form. -/
inductive Addition where
  | real (name description : String)
  | aliasOf (name target : String)
  | default (name : String)
  | entry (name : String) (entry : Entry)
  | text (name text : String)
  deriving DecidableEq, Repr

def add (declaration : KindDeclaration) : Addition → KindDeclaration
  | .real name description => declaration.insertReal name description
  | .aliasOf name target => declaration.insertAlias name target
  | .default name => declaration.setDefault name
  | .entry name entry => declaration.insert name entry
  | .text name text => declaration.insert name (.ofText text)

/-- The declaration that additions make, one after the other. -/
def ofAdditions (additions : List Addition) : KindDeclaration :=
  additions.foldl add {}

/-- The addition puts in a legible entry. A real token needs a description that does not begin with
`@`, and only an entry put in as it is can be an alias with blanks around its target. -/
inductive Addition.IsLegible : Addition → Prop
  | real (name : String) {description : String} (h : description.toList.head? ≠ some '@') :
    IsLegible (.real name description)
  | aliasOf (name target : String) : IsLegible (.aliasOf name target)
  | default (name : String) : IsLegible (.default name)
  | entry (name : String) {entry : Entry} (h : entry.IsLegible) : IsLegible (.entry name entry)
  | text (name text : String) : IsLegible (.text name text)

/-- A legible declaration stays so with a legible addition. -/
theorem IsLegible.add {declaration : KindDeclaration} (h : declaration.IsLegible)
    {addition : Addition} (haddition : addition.IsLegible) :
    (declaration.add addition).IsLegible := by
  cases haddition with
  | real name hdescription => exact h.insert name hdescription
  | aliasOf name target => exact h.insert name (Entry.isLegible_pointingAt target)
  | default name => exact h.insert defaultKey (Entry.isLegible_pointingAt name)
  | entry name hentry => exact h.insert name hentry
  | text name text => exact h.insert name (Entry.isLegible_ofText text)

/-- Legible additions make a legible declaration. -/
theorem isLegible_ofAdditions {additions : List Addition}
    (h : ∀ addition ∈ additions, addition.IsLegible) : (ofAdditions additions).IsLegible := by
  refine List.foldlRecOn additions add ?_ fun declaration hdeclaration addition hmem ↦
    hdeclaration.add (h addition hmem)
  intro name entry hentry
  simp at hentry

end KindDeclaration

/-! ### Grammars -/

namespace Grammar

open KindDeclaration (Addition)

/-- All kinds of the grammar are legible. -/
def IsLegible (grammar : Grammar) : Prop :=
  ∀ (kind : String) (declaration : KindDeclaration),
    grammar.kinds[kind]? = some declaration → declaration.IsLegible

/-- A grammar comes back from its written form just if its kinds are legible. -/
theorem ofTexts_toTexts_eq_iff {grammar : Grammar} :
    ofTexts grammar.toTexts = grammar ↔ grammar.IsLegible := by
  obtain ⟨kinds⟩ := grammar
  have hkind (declaration : KindDeclaration) :
      KindDeclaration.ofTexts declaration.toTexts = declaration ↔ declaration.IsLegible :=
    KindDeclaration.ofTexts_toTexts_eq_iff
  rw [ofTexts, toTexts, Grammar.mk.injEq]
  simp only [IsLegible, ← hkind]
  exact ofList_written_eq_iff kinds KindDeclaration.toTexts KindDeclaration.ofTexts

/-- What is read from texts is legible. -/
theorem isLegible_ofTexts (texts : List (String × List (String × String))) :
    (ofTexts texts).IsLegible := by
  intro kind declaration hdeclaration
  obtain ⟨text, -, hpair⟩ := List.mem_map.mp (mem_of_getElem?_ofList hdeclaration)
  obtain ⟨-, rfl⟩ := Prod.mk.inj hpair
  exact KindDeclaration.isLegible_ofTexts text.2

/-- A legible grammar stays so with a legible kind more. -/
theorem IsLegible.insertKind {grammar : Grammar} (h : grammar.IsLegible) (kind : String)
    {declaration : KindDeclaration} (hdeclaration : declaration.IsLegible) :
    (grammar.insertKind kind declaration).IsLegible := by
  intro other found hfound
  rw [Grammar.insertKind, Std.ExtTreeMap.getElem?_insert] at hfound
  split at hfound
  · obtain rfl := Option.some.inj hfound
    exact hdeclaration
  · exact h other found hfound

/-- The grammar of the kinds that additions make, a later kind in place of an earlier one of its
name. -/
def ofAdditions (kinds : List (String × List Addition)) : Grammar :=
  kinds.foldl (fun grammar kind ↦ grammar.insertKind kind.1 (.ofAdditions kind.2)) {}

/-- Legible additions make a legible grammar. -/
theorem isLegible_ofAdditions {kinds : List (String × List Addition)}
    (h : ∀ kind ∈ kinds, ∀ addition ∈ kind.2, addition.IsLegible) :
    (ofAdditions kinds).IsLegible := by
  refine List.foldlRecOn kinds _ ?_ fun grammar hgrammar kind hmem ↦
    hgrammar.insertKind kind.1 (KindDeclaration.isLegible_ofAdditions (h kind hmem))
  intro kind declaration hdeclaration
  simp at hdeclaration

/-- Take any kinds that are put together by additions, and the grammar of these kinds. A kind comes
back from its written form just if its entries are legible, and so does the grammar. Then what comes
back has the same lexicon, or is refused with the same error. Legible additions are enough for that:
no real token with a description that begins with `@`, and no alias put in as it is with blanks
around its target. What has come back once comes back the same. -/
theorem ofTexts_toTexts_ofAdditions (kinds : List (String × List Addition))
    (isLocale : String → Bool) (locale : String) :
    let grammar := ofAdditions kinds
    let copy := ofTexts grammar.toTexts
    (∀ kind ∈ kinds, let declaration := KindDeclaration.ofAdditions kind.2
      (.ofTexts declaration.toTexts = declaration ↔ declaration.IsLegible) ∧
        ((∀ addition ∈ kind.2, addition.IsLegible) → declaration.IsLegible)) ∧
      (copy = grammar ↔ grammar.IsLegible) ∧
      (grammar.IsLegible → compile isLocale locale copy = compile isLocale locale grammar) ∧
      ((∀ kind ∈ kinds, ∀ addition ∈ kind.2, addition.IsLegible) → grammar.IsLegible) ∧
      ofTexts copy.toTexts = copy := by
  refine ⟨fun kind _ ↦ ⟨KindDeclaration.ofTexts_toTexts_eq_iff,
    KindDeclaration.isLegible_ofAdditions⟩, ofTexts_toTexts_eq_iff, fun hlegible ↦ ?_,
    isLegible_ofAdditions, ofTexts_toTexts_eq_iff.mpr (isLegible_ofTexts _)⟩
  rw [ofTexts_toTexts_eq_iff.mpr hlegible]

/-- A kind with an alias to an alias, each written in its own way. -/
def titles : List (String × List Addition) :=
  [("gender", [.real "f" "female", .aliasOf "lady" " f ", .text "madam" "@ lady",
    .entry "m" (.real "male"), .default "madam"])]

theorem ofTexts_toTexts_ofAdditions_titles :
    (∀ kind ∈ titles, ∀ addition ∈ kind.2, addition.IsLegible) ∧
      let grammar := ofAdditions titles
      let copy := ofTexts grammar.toTexts
      grammar.toTexts = [("gender", [("default", "@madam"), ("f", "female"), ("lady", "@f"),
          ("m", "male"), ("madam", "@lady")])] ∧
        copy = grammar ∧
          compile (· = "en") "en" copy = compile (· = "en") "en" grammar ∧
          (compile (· = "en") "en" copy).isOk := by
  have hlegible : ∀ kind ∈ titles, ∀ addition ∈ kind.2, addition.IsLegible := by
    intro kind hkind addition haddition
    obtain rfl := List.mem_singleton.mp hkind
    simp only [List.mem_cons, List.not_mem_nil, or_false] at haddition
    rcases haddition with rfl | rfl | rfl | rfl | rfl
    · exact .real _ (by decide)
    · exact .aliasOf _ _
    · exact .text _ _
    · exact .entry _ (show "male".toList.head? ≠ some '@' by decide)
    · exact .default _
  obtain ⟨-, hcopy, hcompile, hgrammar, -⟩ := ofTexts_toTexts_ofAdditions titles (· = "en") "en"
  refine ⟨hlegible, by decide +kernel, hcopy.mpr (hgrammar hlegible),
    hcompile (hgrammar hlegible), by decide +kernel⟩

/-- A kind with a token whose description begins with `@`. -/
def marked : List (String × List Addition) :=
  [("gender", [.real "f" "female", .real "at" "@f"])]

/-- The token whose description begins with `@` comes back as an alias, so that the lexicon has one
token less. -/
theorem not_ofTexts_toTexts_marked :
    let grammar := ofAdditions marked
    let copy := ofTexts grammar.toTexts
    copy ≠ grammar ∧ grammar.Declares "gender" "at" (.real "@f") ∧
      copy.Declares "gender" "at" (.aliasOf "f") ∧
      (compile (· = "en") "en" grammar).toOption.map (·.tokenNames) = some ["at", "f"] ∧
      (compile (· = "en") "en" copy).toOption.map (·.tokenNames) = some ["f"] := by
  intro grammar copy
  have hat (grammar : Grammar) (entry : Entry)
      (h : (grammar.kinds["gender"]?.bind (·.entries["at"]?)) = some entry) :
      grammar.Declares "gender" "at" entry :=
    ⟨by decide, Option.bind_eq_some_iff.mp h⟩
  have hgrammar : (compile (· = "en") "en" grammar).toOption.map (·.tokenNames) =
      some ["at", "f"] := by
    decide +kernel
  have hcopy : (compile (· = "en") "en" copy).toOption.map (·.tokenNames) = some ["f"] := by
    decide +kernel
  refine ⟨fun heq ↦ ?_, hat grammar _ (by decide +kernel), hat copy _ (by decide +kernel),
    hgrammar, hcopy⟩
  rw [heq, hgrammar] at hcopy
  exact absurd hcopy (by decide)

end Grammar

end Concord
