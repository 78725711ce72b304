import Concord.Text.Blank
import Concord.Text.Name
import Mathlib.Data.List.TakeWhile

/-!
# Names and blanks

A name is a text of name characters, none of which is blank (`isBlank_of_isNameChar`). Trimming
removes blanks at both ends of a text, and `Trims` says so without the way it is done: it gives the
one part that neither begins nor ends with a blank and has just blanks around it (`trims_iff`). So
it leaves a name as it is (`trim_of_isName`), takes no notice of blanks put around a text
(`trim_append_blanks`), leaves nothing just of a text of blanks (`trim_eq_empty_iff`), and finds
nothing to do the second time (`trim_trim`).
-/

set_option autoImplicit false
set_option relaxedAutoImplicit false

namespace Concord.Text

/-- Name characters lie between `0` and `z`. -/
theorem toNat_of_isNameChar {c : Char} (h : isNameChar c = true) :
    48 ≤ c.toNat ∧ c.toNat ≤ 122 := by
  change (((decide (c.val ≥ 65 ∧ c.val ≤ 90) || (decide (c.val ≥ 97) && decide (c.val ≤ 122))) ||
    (decide (c.val ≥ 48) && decide (c.val ≤ 57))) || decide (c = '_')) = true at h
  simp only [Bool.or_eq_true, Bool.and_eq_true, decide_eq_true_eq, UInt32.le_iff_toNat_le,
    ge_iff_le] at h
  change (((65 ≤ c.toNat ∧ c.toNat ≤ 90) ∨ (97 ≤ c.toNat ∧ c.toNat ≤ 122)) ∨
    (48 ≤ c.toNat ∧ c.toNat ≤ 57)) ∨ c = '_' at h
  rcases h with ((h | h) | h) | rfl
  · omega
  · omega
  · omega
  · decide

/-- No range of blanks has a name character in it. -/
theorem isBlank_of_isNameChar {c : Char} (h : isNameChar c = true) : isBlank c = false := by
  obtain ⟨hlow, hhigh⟩ := toNat_of_isNameChar h
  rw [isBlank, List.any_eq_false]
  intro range hrange
  have hends : range.2.toNat < 48 ∨ 122 < range.1.toNat := by
    revert range
    decide
  simp only [Bool.and_eq_true, decide_eq_true_eq, Char.le_def, UInt32.le_iff_toNat_le]
  change ¬ (range.1.toNat ≤ c.toNat ∧ c.toNat ≤ range.2.toNat)
  omega

/-- A name has characters, and all of them are name characters. -/
theorem isName_iff {text : String} :
    isName text = true ↔ text.toList ≠ [] ∧ ∀ c ∈ text.toList, isNameChar c = true := by
  simp [isName]

/-! ### Blanks at the ends of a text -/

/-- The text neither begins nor ends with a blank. -/
def IsTrimmed (s : List Char) : Prop :=
  (∀ c ∈ s.head?, isBlank c = false) ∧ ∀ c ∈ s.getLast?, isBlank c = false

/-- The second text is the first without blanks at its ends. -/
structure Trims (s t : List Char) : Prop where
  isTrimmed : IsTrimmed t
  exists_blanks : ∃ before after, s = before ++ t ++ after ∧
    (∀ c ∈ before, isBlank c = true) ∧ ∀ c ∈ after, isBlank c = true

/-- What is left after the blanks at the start of a text does not begin with a blank. -/
theorem isBlank_of_mem_head?_trimStartChars {s : List Char} {c : Char}
    (h : c ∈ (trimStartChars s).head?) : isBlank c = false := by
  obtain ⟨rest, hcons⟩ := List.head?_eq_some_iff.mp h
  have hne : s.dropWhile isBlank ≠ [] := by
    change trimStartChars s ≠ []
    rw [hcons]
    exact List.cons_ne_nil c rest
  have hhead := List.head_dropWhile_not isBlank hne
  have hfirst : (s.dropWhile isBlank).head hne = c := by
    simp only [show s.dropWhile isBlank = c :: rest from hcons, List.head_cons]
  rwa [hfirst] at hhead

/-- A text that does not begin with a blank has none to trim there. -/
theorem trimStartChars_eq_self {s : List Char} (h : ∀ c ∈ s.head?, isBlank c = false) :
    trimStartChars s = s := by
  cases s with
  | nil => rfl
  | cons c rest => exact List.dropWhile_cons_of_neg (by simp [h c rfl])

/-- A text that does not end with a blank is trimmed at its start only. -/
theorem trimChars_of_getLast? {s : List Char} (h : ∀ c ∈ s.getLast?, isBlank c = false) :
    trimChars s = trimStartChars s := by
  have hend : trimStartChars (trimStartChars s).reverse = (trimStartChars s).reverse := by
    refine trimStartChars_eq_self fun c hc ↦ ?_
    rw [List.head?_reverse] at hc
    have hsplit : s.takeWhile isBlank ++ trimStartChars s = s := List.takeWhile_append_dropWhile
    refine h c ?_
    rw [← hsplit, List.getLast?_append, Option.mem_def.mp hc]
    rfl
  rw [trimChars, hend, List.reverse_reverse]

/-- A trimmed text stays as it is. -/
theorem trimChars_of_isTrimmed {s : List Char} (h : IsTrimmed s) : trimChars s = s :=
  (trimChars_of_getLast? h.2).trans (trimStartChars_eq_self h.1)

/-- Nothing is trimmed from a text without blanks. -/
theorem trimChars_eq_self {s : List Char} (h : ∀ c ∈ s, isBlank c = false) : trimChars s = s :=
  trimChars_of_isTrimmed
    ⟨fun c hc ↦ h c (List.mem_of_mem_head? hc), fun c hc ↦ h c (List.mem_of_getLast? hc)⟩

/-- Nothing is trimmed from a name. -/
theorem trim_of_isName {name : String} (h : isName name = true) : trim name = name := by
  have hblank (c : Char) (hc : c ∈ name.toList) : isBlank c = false :=
    isBlank_of_isNameChar ((isName_iff.mp h).2 c hc)
  rw [trim, trimChars_eq_self hblank, String.ofList_toList]

/-- Blanks around a text are trimmed away with those that it has itself. -/
theorem trimChars_append_blanks {before after : List Char}
    (hbefore : ∀ c ∈ before, isBlank c = true) (hafter : ∀ c ∈ after, isBlank c = true)
    (s : List Char) : trimChars (before ++ s ++ after) = trimChars s := by
  have hstart : trimStartChars (before ++ s ++ after) = trimStartChars (s ++ after) := by
    rw [List.append_assoc]
    exact List.dropWhile_append_of_pos hbefore
  have hend (t : List Char) : trimStartChars (t ++ after).reverse = trimStartChars t.reverse := by
    rw [List.reverse_append]
    exact List.dropWhile_append_of_pos fun c hc ↦ hafter c (List.mem_reverse.mp hc)
  rw [trimChars, trimChars, hstart]
  by_cases hblank : ∀ c ∈ s, isBlank c = true
  · have hnone : trimStartChars s = [] := List.dropWhile_eq_nil_iff.mpr hblank
    have hboth : trimStartChars (s ++ after) = [] :=
      (List.dropWhile_append_of_pos hblank).trans (List.dropWhile_eq_nil_iff.mpr hafter)
    rw [hnone, hboth]
  · have hsome : s.dropWhile isBlank ≠ [] := fun hnone ↦
      hblank (List.dropWhile_eq_nil_iff.mp hnone)
    have hboth : trimStartChars (s ++ after) = trimStartChars s ++ after := by
      rw [trimStartChars, List.dropWhile_append, if_neg (by simpa using hsome)]
      rfl
    rw [hboth, hend]

/-- Trimming a text gives the part of it that has just blanks around it. -/
theorem trims_trimChars (s : List Char) : Trims s (trimChars s) := by
  have hstart : s.takeWhile isBlank ++ trimStartChars s = s := List.takeWhile_append_dropWhile
  have hend : (trimStartChars s).reverse.takeWhile isBlank ++ (trimChars s).reverse =
      (trimStartChars s).reverse := by
    rw [trimChars, List.reverse_reverse]
    exact List.takeWhile_append_dropWhile
  have hsplit : trimStartChars s =
      trimChars s ++ ((trimStartChars s).reverse.takeWhile isBlank).reverse := by
    rw [← List.reverse_inj, List.reverse_append, List.reverse_reverse, hend]
  refine ⟨⟨fun c hc ↦ ?_, fun c hc ↦ ?_⟩, s.takeWhile isBlank,
    ((trimStartChars s).reverse.takeWhile isBlank).reverse, ?_, fun c hc ↦ ?_, fun c hc ↦ ?_⟩
  · refine isBlank_of_mem_head?_trimStartChars (s := s) ?_
    rw [hsplit, List.head?_append, Option.mem_def.mp hc]
    rfl
  · refine isBlank_of_mem_head?_trimStartChars (s := (trimStartChars s).reverse) ?_
    rwa [← List.getLast?_reverse]
  · rw [List.append_assoc, ← hsplit, hstart]
  · exact List.mem_takeWhile_imp hc
  · exact List.mem_takeWhile_imp (List.mem_reverse.mp hc)

/-- There is one way to trim a text. -/
theorem trims_iff {s t : List Char} : Trims s t ↔ trimChars s = t := by
  constructor
  · rintro ⟨htrimmed, before, after, rfl, hbefore, hafter⟩
    rw [trimChars_append_blanks hbefore hafter, trimChars_of_isTrimmed htrimmed]
  · rintro rfl
    exact trims_trimChars s

/-- Blanks around a text are trimmed away with those that it has itself. -/
theorem trim_append_blanks {before after : String} (hbefore : ∀ c ∈ before.toList, isBlank c = true)
    (hafter : ∀ c ∈ after.toList, isBlank c = true) (text : String) :
    trim (before ++ text ++ after) = trim text := by
  rw [trim, trim, String.toList_append, String.toList_append,
    trimChars_append_blanks hbefore hafter]

/-- A text is trimmed if there is nothing to trim. -/
theorem trim_eq_self_iff {text : String} : trim text = text ↔ IsTrimmed text.toList := by
  rw [trim, ← String.toList_inj, String.toList_ofList]
  exact ⟨fun h ↦ (trims_iff.mpr h).isTrimmed, trimChars_of_isTrimmed⟩

/-- There is nothing to trim the second time. -/
theorem trim_trim (text : String) : trim (trim text) = trim text := by
  rw [trim_eq_self_iff, trim, String.toList_ofList]
  exact (trims_trimChars text.toList).isTrimmed

/-- Nothing is left of a text of blanks, and something of any other. -/
theorem trim_eq_empty_iff (text : String) : trim text = "" ↔ ∀ c ∈ text.toList, isBlank c := by
  have hchars : trim text = "" ↔ trimChars text.toList = [] := by
    rw [trim, ← String.toList_eq_nil_iff, String.toList_ofList]
  rw [hchars, trimChars, trimStartChars, trimStartChars, List.reverse_eq_nil_iff,
    List.dropWhile_eq_nil_iff]
  constructor
  · intro h c hc
    rw [← List.takeWhile_append_dropWhile (p := isBlank) (l := text.toList)] at hc
    rcases List.mem_append.mp hc with hfirst | hrest
    · exact List.mem_takeWhile_imp hfirst
    · exact h c (List.mem_reverse.mpr hrest)
  · intro h c hc
    exact h c (List.dropWhile_subset _ (List.mem_reverse.mp hc))

end Concord.Text
