import Concord.Template.Print
import Mathlib.Data.List.TakeWhile

/-!
# Bodies in one pass

A body can also be read character by character. `Body.read` makes glyphs of it: a backslash and the
character after it are one shielded glyph, which stands for that character and has no meaning of its
own; every other character is a plain glyph. The glyphs end at the first plain brace. Plain `|`
separates the stretches of a body, the first plain `:` of a stretch ends its specifier, and a
stretch of wording that is just a plain `~` is loud.

`Body.WalksTo` says where a text first has a brace that no backslash shields, and with what units
before it. Every text is walked through (`Body.exists_walksTo`), and where the walk stops decides
what `Body.read` gives (`Body.WalksTo.read_eq_closed` and its companions).

Nothing is said here about how segments are read one after the other. That both ways of reading a
body agree is another matter, and the readers of segments are compared with these definitions one
by one.
-/

set_option autoImplicit false
set_option relaxedAutoImplicit false

namespace Concord

/-! ### The glyphs of a body -/

/-- A body that has been read: its glyphs, what ended it, and the text after that. -/
structure Body where
  glyphs : List Glyph
  ending : BodyEnd
  rest : List Char
  deriving DecidableEq, Repr

namespace Body

def cons (glyph : Glyph) (body : Body) : Body :=
  { body with glyphs := glyph :: body.glyphs }

/-- Reads a body whose `{` lies before the text. A lone backslash at the end of the text shields
nothing and leaves the body unclosed. -/
def read : List Char → Body
  | [] => ⟨[], .unclosed, []⟩
  | c :: rest =>
    if c = '}' then ⟨[], .closed, rest⟩
    else if c = '{' then ⟨[], .nested, rest⟩
    else if c = '\\' then
      match rest with
      | [] => ⟨[], .unclosed, []⟩
      | next :: tail => (read tail).cons ⟨next, true⟩
    else (read rest).cons (.plain c)

end Body

/-- A glyph as a body may hold it: a character that would shield, open or close is shielded. -/
def Glyph.WellFormed (glyph : Glyph) : Prop :=
  glyph.shielded = false → glyph.char ∉ ['\\', '{', '}']

instance : DecidablePred Glyph.WellFormed := fun glyph ↦
  inferInstanceAs (Decidable (glyph.shielded = false → glyph.char ∉ ['\\', '{', '}']))

/-- Well-formed glyphs that are written out read back, before what the text after them reads as. -/
theorem Body.read_text_append {glyphs : List Glyph} (h : ∀ glyph ∈ glyphs, glyph.WellFormed)
    (s : List Char) :
    Body.read (glyphs.flatMap Glyph.text ++ s) =
      { Body.read s with glyphs := glyphs ++ (Body.read s).glyphs } := by
  induction glyphs with
  | nil => rfl
  | cons first more ih =>
    obtain ⟨c, shielded⟩ := first
    have hmore := ih fun glyph hglyph ↦ h glyph (List.mem_cons_of_mem _ hglyph)
    rw [List.flatMap_cons, List.append_assoc]
    cases shielded with
    | true =>
      simp only [Glyph.text, if_true, List.cons_append, List.nil_append]
      rw [Body.read.eq_def]
      simp [hmore, Body.cons]
    | false =>
      have hc : c ∉ ['\\', '{', '}'] := h ⟨c, false⟩ List.mem_cons_self rfl
      simp only [List.mem_cons, List.not_mem_nil, or_false, not_or] at hc
      simp only [Glyph.text, Bool.false_eq_true, if_false, List.cons_append, List.nil_append]
      rw [Body.read.eq_def]
      dsimp only
      rw [if_neg hc.2.2, if_neg hc.2.1, if_neg hc.1, hmore]
      rfl

/-- Well-formed glyphs that are written out and closed read back, whatever follows. -/
theorem Body.read_text {glyphs : List Glyph} (h : ∀ glyph ∈ glyphs, glyph.WellFormed)
    (rest : List Char) :
    Body.read (glyphs.flatMap Glyph.text ++ '}' :: rest) = ⟨glyphs, .closed, rest⟩ := by
  rw [read_text_append h, read.eq_def]
  simp

/-! ### Walking through a body -/

namespace Body

/-- The text is walked through, unit by unit, up to a brace that no backslash shields, or to a lone
backslash at its end, or to its end. -/
structure WalksTo (s : List Char) (units : List Glyph) (tail : List Char) : Prop where
  eq_append : s = units.flatMap Glyph.text ++ tail
  units_wellFormed (unit : Glyph) (hunit : unit ∈ units) : unit.WellFormed
  stops : tail = [] ∨ tail = ['\\'] ∨ ∃ rest, tail = '{' :: rest ∨ tail = '}' :: rest

/-- Every text is walked through. -/
theorem exists_walksTo (s : List Char) : ∃ units tail, WalksTo s units tail := by
  fun_induction read s with
  | case1 => exact ⟨[], [], rfl, by simp, .inl rfl⟩
  | case2 rest => exact ⟨[], _, rfl, by simp, .inr (.inr ⟨rest, .inr rfl⟩)⟩
  | case3 rest => exact ⟨[], _, rfl, by simp, .inr (.inr ⟨rest, .inl rfl⟩)⟩
  | case4 => exact ⟨[], _, rfl, by simp, .inr (.inl rfl)⟩
  | case5 next more _ _ ih =>
    obtain ⟨units, tail, rfl, hunits, hstops⟩ := ih
    refine ⟨⟨next, true⟩ :: units, tail, rfl, fun unit hunit ↦ ?_, hstops⟩
    rcases List.mem_cons.mp hunit with rfl | hunit
    · intro hplain
      cases hplain
    · exact hunits unit hunit
  | case6 c more hclose hnested hshield ih =>
    obtain ⟨units, tail, rfl, hunits, hstops⟩ := ih
    refine ⟨.plain c :: units, tail, rfl, fun unit hunit ↦ ?_, hstops⟩
    rcases List.mem_cons.mp hunit with rfl | hunit
    · intro _
      simp [Glyph.plain, hclose, hnested, hshield]
    · exact hunits unit hunit

namespace WalksTo

variable {s rest tail : List Char} {units : List Glyph}

/-- A body without a brace that ends it is not closed. -/
theorem read_eq_unclosed (h : WalksTo s units tail) (htail : tail = [] ∨ tail = ['\\']) :
    read s = ⟨units, .unclosed, []⟩ := by
  rw [h.eq_append, read_text_append h.units_wellFormed]
  rcases htail with rfl | rfl
  · simp [read]
  · simp [read]

/-- A body that another brace would open in is nested. -/
theorem read_eq_nested (h : WalksTo s units ('{' :: rest)) :
    read s = ⟨units, .nested, rest⟩ := by
  rw [h.eq_append, read_text_append h.units_wellFormed, read.eq_def]
  simp

/-- A body is closed by the first brace that may close it. -/
theorem read_eq_closed (h : WalksTo s units ('}' :: rest)) :
    read s = ⟨units, .closed, rest⟩ := by
  rw [h.eq_append, read_text h.units_wellFormed]

end WalksTo

end Body

/-! ### The stretches of a body -/

/-- The parts of a split list are made of its members, the separators left out. -/
theorem mem_of_mem_splitOn {α : Type} [BEq α] [LawfulBEq α] {s part : List α} {separator c : α}
    (hpart : part ∈ s.splitOn separator) (hc : c ∈ part) : c ∈ s ∧ c ≠ separator := by
  induction s generalizing part with
  | nil =>
    rw [List.splitOn_nil, List.mem_singleton] at hpart
    rw [hpart] at hc
    cases hc
  | cons first rest ih =>
    rw [List.splitOn_cons_eq_if_modifyHead] at hpart
    split at hpart
    · rcases List.mem_cons.mp hpart with rfl | hpart
      · cases hc
      · have hmem := ih hpart hc
        exact ⟨List.mem_cons_of_mem _ hmem.1, hmem.2⟩
    · next hfirst =>
      obtain ⟨head, tail, hsplit⟩ := List.exists_cons_of_ne_nil (List.splitOn_ne_nil separator rest)
      rw [hsplit, List.modifyHead_cons] at hpart
      rcases List.mem_cons.mp hpart with rfl | hpart
      · rcases List.mem_cons.mp hc with rfl | hc
        · exact ⟨List.mem_cons_self, by simpa using hfirst⟩
        · have hmem := ih (hsplit ▸ List.mem_cons_self) hc
          exact ⟨List.mem_cons_of_mem _ hmem.1, hmem.2⟩
      · have hmem := ih (hsplit ▸ List.mem_cons_of_mem _ hpart) hc
        exact ⟨List.mem_cons_of_mem _ hmem.1, hmem.2⟩

/-- The parts of a body between its plain `|`. -/
def stretches (glyphs : List Glyph) : List (List Glyph) :=
  glyphs.splitOn (.plain '|')

theorem stretches_ne_nil (glyphs : List Glyph) : stretches glyphs ≠ [] :=
  List.splitOn_ne_nil _ _

/-- The specifier of a stretch and the glyphs after its `:`. A stretch without a plain `:` has no
specifier, nor has one with a shielded glyph before the first. -/
def specifier? (stretch : List Glyph) : Option (List Char × List Glyph) :=
  let before := stretch.takeWhile (· ≠ .plain ':')
  match stretch.dropWhile (· ≠ .plain ':') with
  | [] => none
  | _ :: wording =>
    if before.any (·.shielded) then none else some (before.map (·.char), wording)

def Wording.ofGlyphs (glyphs : List Glyph) : Wording :=
  if glyphs = [.plain '~'] then .loud else .literal (String.ofList (glyphs.map (·.char)))

/-- The stretch begins with a specifier: plain characters, up to the first plain `:`. -/
structure HasSpecifier (stretch : List Glyph) (specifier : List Char) (wording : List Glyph) :
    Prop where
  colon_notMem : ':' ∉ specifier
  eq_append : stretch = specifier.map Glyph.plain ++ .plain ':' :: wording

/-- The specifier of a stretch is what stands before its first plain `:`, if that is plain. -/
theorem specifier?_eq_some_iff {stretch : List Glyph} {specifier : List Char}
    {wording : List Glyph} :
    specifier? stretch = some (specifier, wording) ↔ HasSpecifier stretch specifier wording := by
  constructor
  · intro h
    unfold specifier? at h
    dsimp only at h
    split at h
    · cases h
    · next colon rest hdrop =>
      split at h
      · cases h
      · next hshielded =>
        obtain ⟨rfl, rfl⟩ := Prod.mk.inj (Option.some.inj h)
        have hplain (glyph : Glyph) (hglyph : glyph ∈ stretch.takeWhile (· ≠ .plain ':')) :
            Glyph.plain glyph.char = glyph := by
          have hglyph := fun hshield ↦ hshielded (List.any_eq_true.mpr ⟨glyph, hglyph, hshield⟩)
          rw [Glyph.plain, ← Bool.eq_false_iff.mpr hglyph]
        have hcolon : colon = .plain ':' := by
          have hne : stretch.dropWhile (· ≠ .plain ':') ≠ [] := hdrop ▸ List.cons_ne_nil _ _
          have hhead := List.head_dropWhile_not (· ≠ Glyph.plain ':') hne
          simp only [hdrop, List.head_cons] at hhead
          simpa using hhead
        constructor
        · intro hmem
          obtain ⟨glyph, hglyph, hchar⟩ := List.mem_map.mp hmem
          have hne := List.mem_takeWhile_imp hglyph
          rw [← hplain glyph hglyph, hchar] at hne
          exact of_decide_eq_true hne rfl
        · have hsplit := List.takeWhile_append_dropWhile (p := (· ≠ .plain ':')) (l := stretch)
          rw [hdrop, hcolon] at hsplit
          refine hsplit.symm.trans ?_
          rw [List.map_map]
          exact congrArg (· ++ _) ((List.map_congr_left hplain).trans (List.map_id _)).symm
  · rintro ⟨hcolon, rfl⟩
    have hbefore (glyph : Glyph) (hglyph : glyph ∈ specifier.map Glyph.plain) :
        decide (glyph ≠ .plain ':') = true := by
      obtain ⟨c, hc, rfl⟩ := List.mem_map.mp hglyph
      refine decide_eq_true fun heq ↦ hcolon ?_
      rwa [(Glyph.mk.inj heq).1] at hc
    rw [specifier?, List.takeWhile_append_of_pos hbefore, List.dropWhile_append_of_pos hbefore]
    simp [Glyph.plain, Function.comp_def]

/-- The segment that a stretch writes. -/
def RawSegment.ofGlyphs (stretch : List Glyph) : RawSegment :=
  match Concord.specifier? stretch with
  | none => ⟨none, .ofGlyphs stretch⟩
  | some (specifier, wording) => ⟨some specifier, .ofGlyphs wording⟩

/-- Glyphs joined by a separator are written as their written forms, joined by it. -/
theorem flatMap_text_intercalate (separator : Glyph) (parts : List (List Glyph)) :
    ([separator].intercalate parts).flatMap Glyph.text =
      separator.text.intercalate (parts.map (·.flatMap Glyph.text)) := by
  induction parts with
  | nil => rfl
  | cons first rest ih =>
    cases rest with
    | nil => simp
    | cons second more =>
      rw [List.intercalate_cons_cons, List.map_cons, List.map_cons, List.intercalate_cons_cons,
        ← List.map_cons, ← ih]
      simp

end Concord
