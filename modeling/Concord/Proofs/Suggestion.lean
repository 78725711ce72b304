import Concord.Suggestion
import Concord.Proofs.Text.EditDistance
import Mathlib.Data.List.Permutation

/-!
# The best corrections

A name corrects a misspelled one if it is another and few edits lead to it (`Corrects`), and of two
corrections the closer one ranks first (`RanksBefore`). All known corrections in this order are the
ranking of the misspelled name, and its suggestions are the first three of it. They are the best
ones (`IsBest`): a correction that they leave out ranks no earlier than any of them. Two rankings
with the same members are equal, so that the order in which the names are known does not matter.
The main statement is `suggest_isBest`.
-/

set_option autoImplicit false
set_option relaxedAutoImplicit false

namespace Concord

/-- The name is another than the misspelled one, and few edits lead to it: one from a name of at
most three characters, two from a longer one. -/
def Corrects (misspelled name : String) : Prop :=
  name ≠ misspelled ∧ ∃ count, Text.IsEditDistance count misspelled name ∧
    count ≤ if misspelled.length ≤ 3 then 1 else 2

/-- The first name takes fewer edits than the second, or as many and is not the greater one. -/
def RanksBefore (misspelled first second : String) : Prop :=
  ∃ near far, Text.IsEditDistance near misspelled first ∧
    Text.IsEditDistance far misspelled second ∧ (near < far ∨ near = far ∧ first ≤ second)

/-- The suggestions are three of the known corrections or, if there are not so many, all of them,
and those that rank before the others. A name may be known more than once, and is then suggested at
most as often. -/
structure IsBest (misspelled : String) (known suggestions : List String) : Prop where
  length_le : suggestions.length ≤ 3
  count_le (name : String) : suggestions.count name ≤ known.count name
  corrects (name : String) (hname : name ∈ suggestions) : Corrects misspelled name
  ordered : suggestions.Pairwise (RanksBefore misspelled)
  best (name : String) (hname : Corrects misspelled name)
    (hleft : suggestions.count name < known.count name) :
    suggestions.length = 3 ∧ ∀ listed ∈ suggestions, RanksBefore misspelled listed name

variable {misspelled : String} {known other : List String}

/-! ### Corrections -/

theorem corrects_iff {name : String} :
    Corrects misspelled name ↔
      name ≠ misspelled ∧ Text.distance misspelled name ≤ Correction.tolerance misspelled := by
  simp only [Corrects, Text.isEditDistance_iff, exists_eq_left', Correction.tolerance]

instance (misspelled : String) : DecidablePred (Corrects misspelled) := fun _ ↦
  decidable_of_iff _ corrects_iff.symm

theorem ranksBefore_iff {first second : String} :
    RanksBefore misspelled first second ↔
      Text.distance misspelled first < Text.distance misspelled second ∨
        Text.distance misspelled first = Text.distance misspelled second ∧ first ≤ second := by
  simp [RanksBefore, Text.isEditDistance_iff]

/-- Of two different names one ranks before the other, but not the other before it. -/
theorem RanksBefore.antisymm {first second : String} (h : RanksBefore misspelled first second)
    (hother : RanksBefore misspelled second first) : first = second := by
  rw [ranksBefore_iff] at h hother
  rcases h with hlt | ⟨heq, hle⟩
  · omega
  · rcases hother with hlt | ⟨-, hge⟩
    · omega
    · exact String.le_antisymm hle hge

namespace Correction

theorem precedes_iff {first second : Correction} :
    precedes first second = true ↔ first.distance < second.distance ∨
      first.distance = second.distance ∧ first.name ≤ second.name := by
  simp [precedes]

theorem precedes_trans (first second third : Correction) (hfirst : precedes first second = true)
    (hsecond : precedes second third = true) : precedes first third = true := by
  rw [precedes_iff] at hfirst hsecond ⊢
  rcases hfirst with hlt | ⟨heq, hle⟩
  · omega
  · rcases hsecond with hlt | ⟨heq', hle'⟩
    · omega
    · exact .inr ⟨heq.trans heq', String.le_trans hle hle'⟩

theorem precedes_total (first second : Correction) :
    (precedes first second || precedes second first) = true := by
  rw [Bool.or_eq_true, precedes_iff, precedes_iff]
  rcases Nat.lt_trichotomy first.distance second.distance with hlt | heq | hlt
  · exact .inl (.inl hlt)
  · rcases String.le_total first.name second.name with hle | hle
    · exact .inl (.inr ⟨heq, hle⟩)
    · exact .inr (.inr ⟨heq.symm, hle⟩)
  · exact .inr (.inl hlt)

/-- The candidates are the known names that correct the misspelled one, with their distances. -/
theorem candidates_eq (misspelled : String) (known : List String) :
    candidates misspelled known =
      (known.filter fun name ↦ Corrects misspelled name).map fun name ↦
        ⟨Text.distance misspelled name, name⟩ := by
  induction known with
  | nil => rfl
  | cons name rest ih =>
    rw [candidates, List.filterMap_cons, ← candidates, ih, List.filter_cons]
    by_cases h : Corrects misspelled name
    · rw [if_pos (corrects_iff.mp h), if_pos (decide_eq_true h)]
      rfl
    · rw [if_neg (mt corrects_iff.mpr h), if_neg (mt of_decide_eq_true h)]

end Correction

/-! ### The ranking -/

/-- The known names that correct the misspelled one, the best first. -/
def ranking (misspelled : String) (known : List String) : List String :=
  ((Correction.candidates misspelled known).mergeSort Correction.precedes).map (·.name)

theorem suggest_eq_take (misspelled : String) (known : List String) :
    suggest misspelled known = (ranking misspelled known).take 3 := by
  rw [suggest, suggestionLimit, List.map_take]
  rfl

/-- The ranking lists the corrections as often as they are known. -/
theorem ranking_perm (misspelled : String) (known : List String) :
    (ranking misspelled known).Perm (known.filter fun name ↦ Corrects misspelled name) := by
  have hperm := (List.mergeSort_perm (Correction.candidates misspelled known)
    Correction.precedes).map (·.name)
  have hnames : (Correction.candidates misspelled known).map (·.name) =
      known.filter fun name ↦ Corrects misspelled name := by
    rw [Correction.candidates_eq, List.map_map]
    exact List.map_id _
  rwa [hnames] at hperm

/-- The ranking goes by the number of edits and then by the names. -/
theorem pairwise_ranking (misspelled : String) (known : List String) :
    (ranking misspelled known).Pairwise (RanksBefore misspelled) := by
  have hdistance : ∀ correction ∈
      (Correction.candidates misspelled known).mergeSort Correction.precedes,
        correction.distance = Text.distance misspelled correction.name := by
    intro correction hcorrection
    have hmem := (List.mergeSort_perm _ _).mem_iff.mp hcorrection
    rw [Correction.candidates_eq] at hmem
    obtain ⟨name, -, rfl⟩ := List.mem_map.mp hmem
    rfl
  have hsorted := List.pairwise_mergeSort Correction.precedes_trans Correction.precedes_total
    (Correction.candidates misspelled known)
  refine List.pairwise_map.mpr (hsorted.imp_of_mem ?_)
  intro first second hfirst hsecond hprecedes
  rw [ranksBefore_iff, ← hdistance first hfirst, ← hdistance second hsecond]
  exact Correction.precedes_iff.mp hprecedes

/-- The order in which the names are known does not matter. -/
theorem ranking_congr (h : other.Perm known) :
    ranking misspelled other = ranking misspelled known := by
  refine List.Perm.eq_of_pairwise (fun _ _ _ _ ↦ RanksBefore.antisymm)
    (pairwise_ranking misspelled other) (pairwise_ranking misspelled known) ?_
  exact (ranking_perm misspelled other).trans
    ((h.filter _).trans (ranking_perm misspelled known).symm)

/-- What is suggested is known, and is a correction. -/
theorem mem_and_corrects_of_mem_suggest {name : String} (h : name ∈ suggest misspelled known) :
    name ∈ known ∧ Corrects misspelled name := by
  rw [suggest_eq_take] at h
  have hmem := (ranking_perm misspelled known).mem_iff.mp (List.mem_of_mem_take h)
  obtain ⟨hknown, hcorrects⟩ := List.mem_filter.mp hmem
  exact ⟨hknown, of_decide_eq_true hcorrects⟩

/-- The ranking lists a correction as often as it is known, and nothing else. -/
theorem count_ranking (misspelled : String) (known : List String) (name : String) :
    (ranking misspelled known).count name =
      if Corrects misspelled name then known.count name else 0 := by
  rw [(ranking_perm misspelled known).count_eq]
  split
  · next h => exact List.count_filter (decide_eq_true h)
  · next h =>
    refine List.count_eq_zero.mpr fun hmem ↦ ?_
    exact h (of_decide_eq_true (List.mem_filter.mp hmem).2)

/-- What is suggested is the best that is known, whatever the order in which it is known. -/
theorem suggest_isBest (misspelled : String) (known : List String) :
    IsBest misspelled known (suggest misspelled known) ∧
      ∀ permuted : List String, permuted.Perm known →
        suggest misspelled permuted = suggest misspelled known := by
  have hsplit := List.take_append_drop 3 (ranking misspelled known)
  have hordered := pairwise_ranking misspelled known
  have hcount (name : String) := congrArg (List.count name) hsplit
  simp only [List.count_append, count_ranking] at hcount
  rw [← hsplit, List.pairwise_append] at hordered
  obtain ⟨hlisted, -, hbest⟩ := hordered
  refine ⟨⟨?_, ?_, fun name hname ↦ (mem_and_corrects_of_mem_suggest hname).2, ?_, ?_⟩, ?_⟩
  · rw [suggest_eq_take]
    exact List.length_take_le 3 _
  · intro name
    have hname := hcount name
    rw [suggest_eq_take]
    split at hname <;> omega
  · rw [suggest_eq_take]
    exact hlisted
  · intro name hname hleft
    have hrest := hcount name
    rw [suggest_eq_take] at hleft ⊢
    rw [if_pos hname] at hrest
    have hmem : name ∈ (ranking misspelled known).drop 3 :=
      List.count_pos_iff.mp (by omega)
    have hlength := List.length_pos_of_mem hmem
    rw [List.length_drop] at hlength
    refine ⟨?_, fun listed hlisted ↦ hbest listed hlisted name hmem⟩
    rw [List.length_take]
    omega
  · intro permuted hpermuted
    rw [suggest_eq_take, suggest_eq_take, ranking_congr hpermuted]

/-- Known names, one of them twice, and among them the one to be corrected. -/
def nouns : List String := ["woman", "man", "women", "womem", "men", "women", "omen"]

theorem suggest_isBest_nouns :
    IsBest "womem" nouns ["women", "women", "omen"] ∧ nouns.reverse.Perm nouns ∧
      suggest "womem" nouns.reverse = ["women", "women", "omen"] := by
  have hsuggest : suggest "womem" nouns = ["women", "women", "omen"] := by cbv
  have hperm : nouns.reverse.Perm nouns := List.reverse_perm nouns
  obtain ⟨hbest, hany⟩ := suggest_isBest "womem" nouns
  rw [hsuggest] at hbest hany
  exact ⟨hbest, hperm, hany nouns.reverse hperm⟩

end Concord
