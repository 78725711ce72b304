import Concord.Text.Distance
import Mathlib.Order.Bounds.Basic

/-!
# The edit distance

An edit inserts, deletes or replaces one character, wherever it stands. `distance` is the least
number of edits that turn one text into another (`isEditDistance_distance`), although it never looks
at edits: it fills a table whose cells belong to initial parts of the two texts. `leastEdits` gives
the value of a cell, for both parts read backwards, by the three ways to come to the cell. It is
the number of edits that some way takes (`editsTo_leastEdits`), and no way takes fewer since one
edit changes it by one at most (`leastEdits_le_of_edit`).
-/

set_option autoImplicit false
set_option relaxedAutoImplicit false

namespace Concord.Text

/-- One character is inserted, deleted or replaced. -/
inductive Edit : List Char → List Char → Prop
  | insert (before after : List Char) (c : Char) : Edit (before ++ after) (before ++ c :: after)
  | delete (before after : List Char) (c : Char) : Edit (before ++ c :: after) (before ++ after)
  | replace (before after : List Char) (c d : Char) :
    Edit (before ++ c :: after) (before ++ d :: after)

/-- So many edits, one after the other, turn the first text into the second. -/
inductive EditsTo : Nat → List Char → List Char → Prop
  | refl (s : List Char) : EditsTo 0 s s
  | step {count : Nat} {s t u : List Char} (hedit : Edit s t) (hrest : EditsTo count t u) :
    EditsTo (count + 1) s u

/-- The number is the least number of edits that turn the first text into the second. -/
def IsEditDistance (count : Nat) (source target : String) : Prop :=
  IsLeast {edits | EditsTo edits source.toList target.toList} count

/-- The least number of edits between two texts: the first characters are kept or one replaces the
other, or one is inserted in front, or the first is deleted. -/
def leastEdits : List Char → List Char → Nat
  | [], t => t.length
  | s, [] => s.length
  | x :: s, y :: t =>
    min (min (leastEdits (x :: s) t + 1) (leastEdits s (y :: t) + 1))
      (leastEdits s t + if x = y then 0 else 1)
termination_by s t => s.length + t.length

variable {s t u : List Char} {count : Nat}

/-! ### Edits -/

/-- An edit may be made behind another character. -/
theorem Edit.cons (h : Edit s t) (c : Char) : Edit (c :: s) (c :: t) := by
  cases h with
  | insert before after d => exact .insert (c :: before) after d
  | delete before after d => exact .delete (c :: before) after d
  | replace before after d e => exact .replace (c :: before) after d e

/-- An edit may be made from back to front. -/
theorem Edit.reverse (h : Edit s t) : Edit s.reverse t.reverse := by
  cases h with
  | insert before after c => simpa using Edit.insert after.reverse before.reverse c
  | delete before after c => simpa using Edit.delete after.reverse before.reverse c
  | replace before after c d => simpa using Edit.replace after.reverse before.reverse c d

theorem EditsTo.cons (h : EditsTo count s t) (c : Char) : EditsTo count (c :: s) (c :: t) := by
  induction h with
  | refl s => exact .refl (c :: s)
  | step hedit _ ih => exact .step (hedit.cons c) ih

theorem EditsTo.reverse (h : EditsTo count s t) : EditsTo count s.reverse t.reverse := by
  induction h with
  | refl s => exact .refl s.reverse
  | step hedit _ ih => exact .step hedit.reverse ih

theorem editsTo_of_nil (t : List Char) : EditsTo t.length [] t := by
  induction t with
  | nil => exact .refl []
  | cons c t ih => exact .step (.insert [] [] c) (ih.cons c)

theorem editsTo_nil (s : List Char) : EditsTo s.length s [] := by
  induction s with
  | nil => exact .refl []
  | cons c s ih => exact .step (.delete [] s c) ih

/-! ### The least number of edits -/

@[simp] theorem leastEdits_of_nil (t : List Char) : leastEdits [] t = t.length := by
  rw [leastEdits]

@[simp] theorem leastEdits_nil (s : List Char) : leastEdits s [] = s.length := by
  cases s <;> simp [leastEdits]

theorem leastEdits_cons_cons (x y : Char) (s t : List Char) :
    leastEdits (x :: s) (y :: t) =
      min (min (leastEdits (x :: s) t + 1) (leastEdits s (y :: t) + 1))
        (leastEdits s t + if x = y then 0 else 1) := by
  rw [leastEdits]

/-- There is a way that takes no more edits. -/
theorem editsTo_leastEdits (s t : List Char) : EditsTo (leastEdits s t) s t := by
  induction s, t using leastEdits.induct with
  | case1 t =>
    rw [leastEdits_of_nil]
    exact editsTo_of_nil t
  | case2 s =>
    rw [leastEdits_nil]
    exact editsTo_nil s
  | case3 x s y t hinsert hdelete hkeep =>
    have hfirst : EditsTo (leastEdits (x :: s) t + 1) (x :: s) (y :: t) :=
      .step (.insert [] (x :: s) y) (hinsert.cons y)
    have hsecond : EditsTo (leastEdits s (y :: t) + 1) (x :: s) (y :: t) :=
      .step (.delete [] s x) hdelete
    have hthird : EditsTo (leastEdits s t + if x = y then 0 else 1) (x :: s) (y :: t) := by
      by_cases hxy : x = y
      · rw [if_pos hxy, hxy]
        exact hkeep.cons y
      · rw [if_neg hxy]
        exact .step (.replace [] s x y) (hkeep.cons y)
    rw [leastEdits_cons_cons]
    grind

theorem leastEdits_self (s : List Char) : leastEdits s s = 0 := by
  induction s with
  | nil => rw [leastEdits_nil, List.length_nil]
  | cons c s ih =>
    rw [leastEdits_cons_cons, ih, if_pos rfl]
    omega

theorem leastEdits_cons_le (x : Char) (s t : List Char) :
    leastEdits (x :: s) t ≤ leastEdits s t + 1 := by
  cases t with
  | nil => simp
  | cons y t =>
    rw [leastEdits_cons_cons]
    omega

theorem leastEdits_le_cons (s : List Char) (y : Char) (t : List Char) :
    leastEdits s (y :: t) ≤ leastEdits s t + 1 := by
  cases s with
  | nil => simp
  | cons x s =>
    rw [leastEdits_cons_cons]
    omega

theorem leastEdits_cons_cons_le (x y : Char) (s t : List Char) :
    leastEdits (x :: s) (y :: t) ≤ leastEdits s t + 1 := by
  rw [leastEdits_cons_cons]
  split <;> omega

/-- With a character deleted in front, a text is one edit closer at most. -/
theorem leastEdits_le_leastEdits_cons (c : Char) (s u : List Char) :
    leastEdits s u ≤ leastEdits (c :: s) u + 1 := by
  induction u with
  | nil =>
    rw [leastEdits_nil, leastEdits_nil, List.length_cons]
    omega
  | cons y u ih =>
    have hinsert := leastEdits_le_cons s y u
    rw [leastEdits_cons_cons]
    omega

/-- With a character replaced in front, a text is one edit closer at most. -/
theorem leastEdits_cons_le_leastEdits_cons (c d : Char) (s u : List Char) :
    leastEdits (c :: s) u ≤ leastEdits (d :: s) u + 1 := by
  induction u with
  | nil => simp
  | cons y u ih =>
    have hinsert := leastEdits_le_cons (c :: s) y u
    have hdelete := leastEdits_cons_le c s (y :: u)
    have hreplace := leastEdits_cons_cons_le c y s u
    rw [leastEdits_cons_cons d]
    omega

/-- If one edit brings a text closer by one at most, then so it does behind another character. -/
theorem leastEdits_cons_le_of_le (h : ∀ u, leastEdits s u ≤ leastEdits t u + 1) (c : Char)
    (u : List Char) : leastEdits (c :: s) u ≤ leastEdits (c :: t) u + 1 := by
  induction u with
  | nil => simpa using h []
  | cons y u ih =>
    have hdelete := h (y :: u)
    have hkeep := h u
    rw [leastEdits_cons_cons, leastEdits_cons_cons]
    omega

/-- One edit brings a text closer to another by one at most. -/
theorem leastEdits_le_of_edit (h : Edit s t) (u : List Char) :
    leastEdits s u ≤ leastEdits t u + 1 := by
  cases h with
  | insert before after c =>
    induction before generalizing u with
    | nil => exact leastEdits_le_leastEdits_cons c after u
    | cons d before ih => exact leastEdits_cons_le_of_le ih d u
  | delete before after c =>
    induction before generalizing u with
    | nil => exact leastEdits_cons_le c after u
    | cons d before ih => exact leastEdits_cons_le_of_le ih d u
  | replace before after c e =>
    induction before generalizing u with
    | nil => exact leastEdits_cons_le_leastEdits_cons c e after u
    | cons d before ih => exact leastEdits_cons_le_of_le ih d u

/-- No way takes fewer edits. -/
theorem leastEdits_le_of_editsTo (h : EditsTo count s t) : leastEdits s t ≤ count := by
  induction h with
  | refl s => exact Nat.le_of_eq (leastEdits_self s)
  | @step count s t u hedit _ ih =>
    have hstep := leastEdits_le_of_edit hedit u
    omega

/-- To turn one text into another takes as many edits from back to front. -/
theorem leastEdits_reverse (s t : List Char) :
    leastEdits s.reverse t.reverse = leastEdits s t := by
  refine Nat.le_antisymm ?_ ?_
  · exact leastEdits_le_of_editsTo (editsTo_leastEdits s t).reverse
  · have hway := (editsTo_leastEdits s.reverse t.reverse).reverse
    rw [List.reverse_reverse, List.reverse_reverse] at hway
    exact leastEdits_le_of_editsTo hway

/-! ### The table -/

/-- The row of the table for the part `s` of the first text from the cell for the part `t` of the
second on, with `rest` to follow. Both parts are read backwards. -/
def tableRow (s t : List Char) : List Char → List Nat
  | [] => [leastEdits s t]
  | y :: rest => leastEdits s t :: tableRow s (y :: t) rest

theorem tableRow_eq_cons (s t rest : List Char) :
    ∃ more, tableRow s t rest = leastEdits s t :: more := by
  cases rest with
  | nil => exact ⟨[], rfl⟩
  | cons y rest => exact ⟨_, rfl⟩

/-- The first row counts the characters of the second text. -/
theorem tableRow_of_nil (t rest : List Char) :
    tableRow [] t rest = List.range' t.length (rest.length + 1) := by
  induction rest generalizing t with
  | nil => simp [tableRow]
  | cons y rest ih =>
    rw [tableRow, ih, leastEdits_of_nil, List.length_cons, List.length_cons,
      List.range'_succ (n := rest.length + 1)]

/-- A row that is filled from the row above is the next row of the table. -/
theorem distanceCells_tableRow (x : Char) (s t rest : List Char) :
    leastEdits (x :: s) t :: distanceCells x (leastEdits (x :: s) t) rest (tableRow s t rest) =
      tableRow (x :: s) t rest := by
  induction rest generalizing t with
  | nil => rfl
  | cons y rest ih =>
    obtain ⟨more, hmore⟩ := tableRow_eq_cons s (y :: t) rest
    have hrest := ih (y :: t)
    rw [leastEdits_cons_cons, hmore] at hrest
    rw [tableRow, tableRow, hmore, distanceCells, ← hrest]

theorem distanceRow_tableRow (target s : List Char) (x : Char) :
    distanceRow target (tableRow s [] target) x = tableRow (x :: s) [] target := by
  obtain ⟨more, hmore⟩ := tableRow_eq_cons s [] target
  have hhead : (tableRow s [] target).headD 0 + 1 = leastEdits (x :: s) [] := by
    rw [hmore]
    simp
  rw [distanceRow, hhead, distanceCells_tableRow]

/-- The rows that are filled for a text lead to the row of the table for all of it. -/
theorem foldl_distanceRow (target s source : List Char) :
    source.foldl (distanceRow target) (tableRow s [] target) =
      tableRow (source.reverse ++ s) [] target := by
  induction source generalizing s with
  | nil => rfl
  | cons x source ih =>
    rw [List.foldl_cons, distanceRow_tableRow, ih, List.reverse_cons, List.append_assoc]
    rfl

theorem getLastD_tableRow (s t rest : List Char) :
    (tableRow s t rest).getLastD 0 = leastEdits s (rest.reverse ++ t) := by
  induction rest generalizing t with
  | nil => rfl
  | cons y rest ih =>
    obtain ⟨more, hmore⟩ := tableRow_eq_cons s (y :: t) rest
    have hrest := ih (y :: t)
    rw [hmore] at hrest
    rw [tableRow, hmore, List.reverse_cons, List.append_assoc]
    exact hrest

/-- The last cell of the table holds the least number of edits. -/
theorem distance_eq_leastEdits (source target : String) :
    distance source target = leastEdits source.toList target.toList := by
  have hstart : List.range (target.toList.length + 1) = tableRow [] [] target.toList := by
    rw [tableRow_of_nil, List.range_eq_range']
    rfl
  rw [distance, hstart, foldl_distanceRow, getLastD_tableRow, List.append_nil, List.append_nil,
    leastEdits_reverse]

/-- The distance of two texts is the least number of edits from one to the other. -/
theorem isEditDistance_distance (source target : String) :
    IsEditDistance (distance source target) source target := by
  rw [distance_eq_leastEdits]
  exact ⟨editsTo_leastEdits _ _, fun count h ↦ leastEdits_le_of_editsTo h⟩

theorem isEditDistance_iff {source target : String} :
    IsEditDistance count source target ↔ distance source target = count := by
  constructor
  · intro h
    exact (isEditDistance_distance source target).unique h
  · rintro rfl
    exact isEditDistance_distance source target

end Concord.Text
