import Mathlib.Data.List.Forall2

/-!
# Traversals that may fail

Templates, groups and grammars are worked through with `List.mapM` in `Except`: entry by entry, up
to the first fault. Two laws say all there is to say about such a traversal. It succeeds with a
list exactly when it succeeds entry by entry with the entries of that list (`mapM_eq_ok_iff`), and
its fault is the first fault among the entries (`fault?_mapM`). `Agree` compares two computations
that give the same values and may differ in their faults, and `SearchedAlike` two lists in which
every search comes to the same.
-/

set_option autoImplicit false
set_option relaxedAutoImplicit false

namespace Concord.Traversal

variable {ε α β : Type}

/-- The fault of a computation, if it fails. -/
def fault? : Except ε α → Option ε
  | .error fault => some fault
  | .ok _ => none

@[simp] theorem fault?_ok (value : α) : fault? (.ok value : Except ε α) = none := rfl

@[simp] theorem fault?_error (fault : ε) : fault? (.error fault : Except ε α) = some fault := rfl

/-- Mapping the value of a computation keeps its fault. -/
@[simp] theorem fault?_map (f : α → β) (result : Except ε α) :
    fault? (result.map f) = fault? result := by
  cases result <;> rfl

/-- Renaming the fault of a computation renames its fault. -/
@[simp] theorem fault?_mapError {δ : Type} (rename : ε → δ) (result : Except ε α) :
    fault? (result.mapError rename) = (fault? result).map rename := by
  cases result <;> rfl

/-- A computation has a fault exactly when it fails with it. -/
theorem fault?_eq_some_iff {result : Except ε α} {fault : ε} :
    fault? result = some fault ↔ result = .error fault := by
  cases result <;> simp

/-- A computation without a fault succeeds. -/
theorem fault?_eq_none_iff {result : Except ε α} :
    fault? result = none ↔ ∃ value, result = .ok value := by
  cases result <;> simp

/-- A computation with a value succeeds with it. -/
theorem exists_eq_ok_of_isSome_toOption {result : Except ε α}
    (h : result.toOption.isSome = true) : ∃ value, result = .ok value := by
  cases result with
  | error fault => cases h
  | ok value => exact ⟨value, rfl⟩

/-- A computation has a value exactly when it succeeds with it. -/
theorem toOption_eq_some_iff {result : Except ε α} {value : α} :
    result.toOption = some value ↔ result = .ok value := by
  cases result <;> simp [Except.toOption]

/-- A mapped computation succeeds exactly when the computation does. -/
theorem map_eq_ok_iff {f : α → β} {result : Except ε α} {value : β} :
    result.map f = .ok value ↔ ∃ source, result = .ok source ∧ f source = value := by
  cases result <;> simp [Except.map]

/-- A mapped computation fails exactly when the computation does. -/
theorem map_eq_error_iff {f : α → β} {result : Except ε α} {fault : ε} :
    result.map f = .error fault ↔ result = .error fault := by
  cases result <;> simp [Except.map]

/-- A computation with its fault renamed succeeds exactly when the computation does. -/
theorem mapError_eq_ok_iff {δ : Type} {rename : ε → δ} {result : Except ε α} {value : α} :
    result.mapError rename = .ok value ↔ result = .ok value := by
  cases result <;> simp [Except.mapError]

/-- Two computations in a row succeed exactly when both do. -/
theorem bind_eq_ok_iff {first : Except ε α} {next : α → Except ε β} {value : β} :
    first.bind next = .ok value ↔ ∃ source, first = .ok source ∧ next source = .ok value := by
  cases first <;> simp [Except.bind]

/-- Two computations in a row fail if the first does, or if it succeeds and the second fails. -/
theorem bind_eq_error_iff {first : Except ε α} {next : α → Except ε β} {fault : ε} :
    first.bind next = .error fault ↔
      first = .error fault ∨ ∃ source, first = .ok source ∧ next source = .error fault := by
  cases first <;> simp [Except.bind]

/-- Two computations in a row may go on in another way if that comes to the same for the value of
the first. -/
theorem bind_congr {first : Except ε α} {next other : α → Except ε β}
    (h : ∀ value, first = .ok value → next value = other value) :
    first.bind next = first.bind other := by
  cases first with
  | error fault => rfl
  | ok value => exact h value rfl

/-- A traversal treats the first entry and then the others. -/
theorem mapM_cons_eq (f : α → Except ε β) (first : α) (rest : List α) :
    (first :: rest).mapM f =
      (f first).bind fun value ↦ (rest.mapM f).bind fun values ↦ .ok (value :: values) := by
  rw [List.mapM_cons]
  rfl

/-- A traversal succeeds exactly when it succeeds entry by entry. -/
theorem mapM_eq_ok_iff {f : α → Except ε β} {source : List α} {target : List β} :
    source.mapM f = .ok target ↔
      List.Forall₂ (fun first second ↦ f first = .ok second) source target := by
  induction source generalizing target with
  | nil =>
    rw [List.forall₂_nil_left_iff]
    exact ⟨fun h ↦ (Except.ok.inj h).symm, fun h ↦ congrArg Except.ok h.symm⟩
  | cons first rest ih =>
    rw [mapM_cons_eq, bind_eq_ok_iff, List.forall₂_cons_left_iff]
    constructor
    · rintro ⟨value, hvalue, htail⟩
      obtain ⟨values, hvalues, hok⟩ := bind_eq_ok_iff.mp htail
      exact ⟨value, values, hvalue, ih.mp hvalues, (Except.ok.inj hok).symm⟩
    · rintro ⟨value, values, hvalue, hvalues, rfl⟩
      exact ⟨value, hvalue, bind_eq_ok_iff.mpr ⟨values, ih.mpr hvalues, rfl⟩⟩

/-- A traversal that succeeds does so at every position. -/
theorem getElem?_of_mapM_eq_ok {f : α → Except ε β} {source : List α} {target : List β}
    (h : source.mapM f = .ok target) (position : Nat) :
    source[position]?.map f = target[position]?.map .ok := by
  have hforall := mapM_eq_ok_iff.mp h
  clear h
  induction hforall generalizing position with
  | nil => rfl
  | cons hfirst _ ih =>
    cases position with
    | zero => exact congrArg some hfirst
    | succ position => exact ih position

/-- Where the result has a value, the source has an entry for it, and before it the entries for the
values before. -/
theorem exists_append_of_mapM_eq_ok {f : α → Except ε β} {source : List α} {before after : List β}
    {value : β} (h : source.mapM f = .ok (before ++ value :: after)) :
    ∃ front entry rest, source = front ++ entry :: rest ∧ front.mapM f = .ok before ∧
      f entry = .ok value := by
  rw [mapM_eq_ok_iff] at h
  induction before generalizing source with
  | nil =>
    obtain ⟨entry, rest, hentry, -, rfl⟩ := List.forall₂_cons_right_iff.mp h
    exact ⟨[], entry, rest, rfl, rfl, hentry⟩
  | cons first before ih =>
    obtain ⟨head, tail, hhead, htail, rfl⟩ := List.forall₂_cons_right_iff.mp h
    obtain ⟨front, entry, rest, rfl, hfront, hentry⟩ := ih htail
    refine ⟨head :: front, entry, rest, rfl, ?_, hentry⟩
    rw [mapM_cons_eq, hhead, hfront]
    rfl

/-- Of two lists that are related entry by entry, each entry of the second has one in the first. -/
theorem exists_of_mem_of_forall₂ {related : α → β → Prop} {source : List α} {target : List β}
    (h : List.Forall₂ related source target) {value : β} (hvalue : value ∈ target) :
    ∃ entry ∈ source, related entry value := by
  induction h with
  | nil => cases hvalue
  | cons hfirst _ ih =>
    rcases List.mem_cons.mp hvalue with rfl | hvalue
    · exact ⟨_, List.mem_cons_self, hfirst⟩
    · obtain ⟨entry, hentry, hrelated⟩ := ih hvalue
      exact ⟨entry, List.mem_cons_of_mem _ hentry, hrelated⟩

/-- Every entry of the result comes from an entry of the source. -/
theorem exists_of_mem_of_mapM_eq_ok {f : α → Except ε β} {source : List α} {target : List β}
    (h : source.mapM f = .ok target) {value : β} (hvalue : value ∈ target) :
    ∃ entry ∈ source, f entry = .ok value :=
  exists_of_mem_of_forall₂ (mapM_eq_ok_iff.mp h) hvalue

/-- Every entry of the source has its place in the result. -/
theorem exists_mem_of_mapM_eq_ok {f : α → Except ε β} {source : List α} {target : List β}
    (h : source.mapM f = .ok target) {entry : α} (hentry : entry ∈ source) :
    ∃ value ∈ target, f entry = .ok value :=
  exists_of_mem_of_forall₂ (mapM_eq_ok_iff.mp h).flip hentry

/-- Renaming the fault of a traversal is renaming the faults of its entries. -/
theorem mapM_mapError {δ : Type} (f : α → Except ε β) (rename : ε → δ) (source : List α) :
    (source.mapM fun entry ↦ (f entry).mapError rename) = (source.mapM f).mapError rename := by
  induction source with
  | nil => rfl
  | cons first rest ih =>
    rw [mapM_cons_eq, mapM_cons_eq, ih]
    cases f first with
    | error fault => rfl
    | ok value => cases rest.mapM f <;> rfl

/-- A traversal whose entries give the mapped values gives the mapped values. -/
theorem mapM_eq_map_mapM {γ : Type} {f : α → Except ε β} {g : α → Except ε γ} {h : β → γ}
    {source : List α} (hentry : ∀ entry ∈ source, g entry = (f entry).map h) :
    source.mapM g = (source.mapM f).map (List.map h) := by
  induction source with
  | nil => rfl
  | cons first rest ih =>
    rw [mapM_cons_eq, mapM_cons_eq, hentry first List.mem_cons_self,
      ih fun entry hmem ↦ hentry entry (List.mem_cons_of_mem _ hmem)]
    cases f first with
    | error fault => rfl
    | ok value => cases rest.mapM f <;> rfl

/-- A traversal that undoes `g` at every entry undoes mapping by `g`. -/
theorem mapM_map_eq_ok {f : β → Except ε α} {g : α → β} {source : List α}
    (h : ∀ entry ∈ source, f (g entry) = .ok entry) : (source.map g).mapM f = .ok source :=
  mapM_eq_ok_iff.mpr (List.forall₂_map_left_iff.mpr (List.forall₂_same.mpr h))

/-- The fault of a traversal is the first fault among its entries. -/
theorem fault?_mapM (f : α → Except ε β) (source : List α) :
    fault? (source.mapM f) = source.findSome? fun entry ↦ fault? (f entry) := by
  induction source with
  | nil => rfl
  | cons first rest ih =>
    rw [mapM_cons_eq, List.findSome?_cons, ← ih]
    cases f first with
    | error fault => rfl
    | ok value => cases rest.mapM f <;> rfl

/-- A traversal fails with a fault exactly when an entry does and all before it succeed. -/
theorem mapM_eq_error_iff {f : α → Except ε β} {source : List α} {fault : ε} :
    source.mapM f = .error fault ↔
      ∃ before entry after, source = before ++ entry :: after ∧ f entry = .error fault ∧
        ∀ earlier ∈ before, ∃ value, f earlier = .ok value := by
  rw [← fault?_eq_some_iff, fault?_mapM, List.findSome?_eq_some_iff]
  simp only [fault?_eq_some_iff, fault?_eq_none_iff]

/-- A traversal succeeds if every entry does, and only then. -/
theorem exists_mapM_eq_ok_iff {f : α → Except ε β} {source : List α} :
    (∃ target, source.mapM f = .ok target) ↔ ∀ entry ∈ source, ∃ value, f entry = .ok value := by
  rw [← fault?_eq_none_iff, fault?_mapM, List.findSome?_eq_none_iff]
  simp only [fault?_eq_none_iff]

/-! ### Traversals in search of values -/

/-- Entries have the given values one by one just if each has a value, and these are all there
are. -/
theorem forall₂_eq_some_iff {f : α → Option β} {source : List α} {target : List β} :
    List.Forall₂ (fun first second ↦ f first = some second) source target ↔
      (∀ entry ∈ source, f entry ≠ none) ∧ source.filterMap f = target := by
  induction source generalizing target with
  | nil => simp [List.forall₂_nil_left_iff, eq_comm]
  | cons first rest ih =>
    rw [List.forall₂_cons_left_iff, List.forall_mem_cons]
    constructor
    · rintro ⟨value, values, hfirst, hrest, rfl⟩
      obtain ⟨hall, hvalues⟩ := ih.mp hrest
      exact ⟨⟨by simp [hfirst], hall⟩, by rw [List.filterMap_cons_some hfirst, hvalues]⟩
    · rintro ⟨⟨hne, hall⟩, rfl⟩
      obtain ⟨value, hfirst⟩ := Option.ne_none_iff_exists'.mp hne
      exact ⟨value, rest.filterMap f, hfirst, ih.mpr ⟨hall, rfl⟩, List.filterMap_cons_some hfirst⟩

/-- Entries are related one by one to what a function gives for them just if it maps the one list
to the other. -/
theorem forall₂_iff_map_eq {related : α → β → Prop} (f : α → β)
    (h : ∀ first second, related first second ↔ f first = second) {source : List α}
    {target : List β} : List.Forall₂ related source target ↔ source.map f = target := by
  rw [← List.forall₂_eq_eq_eq, List.forall₂_map_left_iff]
  exact ⟨.imp fun first second ↦ (h first second).mp, .imp fun first second ↦ (h first second).mpr⟩

/-- A search through entries with their positions finds nothing just if there is nothing at any
position. -/
theorem findSome?_zipIdx_eq_none_iff {f : Nat → α → Option β} {source : List α} :
    (source.zipIdx.findSome? fun entry ↦ f entry.2 entry.1) = none ↔
      ∀ position entry, source[position]? = some entry → f position entry = none := by
  rw [List.findSome?_eq_none_iff]
  exact ⟨fun h position entry hentry ↦ h _ (List.mk_mem_zipIdx_iff_getElem?.mpr hentry),
    fun h entry hentry ↦ h _ _ (List.mk_mem_zipIdx_iff_getElem?.mp hentry)⟩

/-- A search through entries with their positions finds what there is at the first position that has
anything. -/
theorem findSome?_zipIdx_eq_some_iff {f : Nat → α → Option β} {source : List α} {value : β} :
    (source.zipIdx.findSome? fun entry ↦ f entry.2 entry.1) = some value ↔
      ∃ position entry, source[position]? = some entry ∧ f position entry = some value ∧
        ∀ earlier < position, ∀ other, source[earlier]? = some other → f earlier other = none := by
  -- Positions are unique, so that it is enough to find a first one.
  have hfirst {found : β}
      (h : (source.zipIdx.findSome? fun entry ↦ f entry.2 entry.1) = some found) :
      ∃ position entry, source[position]? = some entry ∧ f position entry = some found ∧
        ∀ earlier < position, ∀ other, source[earlier]? = some other → f earlier other = none := by
    obtain ⟨before, ⟨entry, position⟩, after, hsplit, hfound, hbefore⟩ :=
      List.findSome?_eq_some_iff.mp h
    have hat (index : Nat) : source[index]?.map (·, index) =
        (before ++ (entry, position) :: after)[index]? := by
      rw [← hsplit, List.getElem?_zipIdx, Nat.zero_add]
    have hentry := hat before.length
    rw [List.getElem?_append_right (Nat.le_refl _), Nat.sub_self, List.getElem?_cons_zero,
      Option.map_eq_some_iff] at hentry
    obtain ⟨_, hentry, hpair⟩ := hentry
    obtain ⟨rfl, rfl⟩ := Prod.mk.inj hpair
    refine ⟨before.length, _, hentry, hfound, fun earlier hlt other hother ↦ ?_⟩
    have hearlier := hat earlier
    rw [hother, List.getElem?_append_left hlt] at hearlier
    exact hbefore _ (List.mem_of_getElem? hearlier.symm)
  refine ⟨hfirst, ?_⟩
  rintro ⟨position, entry, hentry, hvalue, hbefore⟩
  cases hsearch : source.zipIdx.findSome? fun entry ↦ f entry.2 entry.1 with
  | none =>
    have hnone := findSome?_zipIdx_eq_none_iff.mp hsearch position entry hentry
    rw [hvalue] at hnone
    cases hnone
  | some found =>
    obtain ⟨index, other, hother, hfound, hearlier⟩ := hfirst hsearch
    rcases Nat.lt_trichotomy index position with hlt | rfl | hlt
    · rw [hbefore index hlt other hother] at hfound
      cases hfound
    · obtain rfl := Option.some.inj (hentry.symm.trans hother)
      exact hfound.symm.trans hvalue
    · rw [hearlier position hlt entry hentry] at hvalue
      cases hvalue

/-- To search what the entries hold is to search them one after the other. -/
theorem findSome?_flatMap {γ : Type} (f : β → Option γ) (held : α → List β) (source : List α) :
    (source.flatMap held).findSome? f = source.findSome? fun entry ↦ (held entry).findSome? f := by
  induction source with
  | nil => rfl
  | cons first rest ih =>
    rw [List.flatMap_cons, List.findSome?_append, ih, List.findSome?_cons]
    cases (held first).findSome? f <;> rfl

/-- A search comes to the same in both lists, whatever it is for. -/
def SearchedAlike (first second : List α) : Prop :=
  ∀ (β : Type) (f : α → Option β), second.findSome? f = first.findSome? f

namespace SearchedAlike

variable {first second : List α}

/-- Lists that are searched alike begin alike. -/
theorem head?_eq (h : SearchedAlike first second) : second.head? = first.head? := by
  have hhead (source : List α) : source.findSome? some = source.head? := by
    cases source <;> rfl
  rw [← hhead, ← hhead]
  exact h α some

/-- Lists that are searched alike have the same members. -/
theorem mem_iff (h : SearchedAlike first second) (entry : α) : entry ∈ second ↔ entry ∈ first := by
  classical
  have hfound (source : List α) :
      (source.findSome? fun other ↦ if other = entry then some () else none).isSome ↔
        entry ∈ source := by
    rw [List.findSome?_isSome_iff]
    simp
  rw [← hfound, ← hfound, h]

/-- What the entries hold is searched alike if the entries are. -/
theorem flatMap (h : SearchedAlike first second) (held : α → List β) :
    SearchedAlike (first.flatMap held) (second.flatMap held) := by
  intro γ f
  rw [findSome?_flatMap, findSome?_flatMap, h]

end SearchedAlike

/-! ### Two computations side by side -/

/-- Two computations give one value, or both fail, with faults that are related. -/
inductive Agree {δ : Type} (related : ε → δ → Prop) : Except ε α → Except δ α → Prop
  | ok (value : α) : Agree related (.ok value) (.ok value)
  | error {fault : ε} {other : δ} (h : related fault other) :
    Agree related (.error fault) (.error other)

namespace Agree

variable {δ : Type} {related : ε → δ → Prop}

/-- A computation agrees with itself. -/
theorem refl {alike : ε → ε → Prop} (halike : ∀ fault, alike fault fault) (result : Except ε α) :
    Agree alike result result := by
  cases result with
  | ok value => exact .ok value
  | error fault => exact .error (halike fault)

/-- Computations that agree still do when their values are mapped. -/
theorem map (f : α → β) {first : Except ε α} {second : Except δ α}
    (h : Agree related first second) : Agree related (first.map f) (second.map f) := by
  cases h with
  | ok value => exact .ok (f value)
  | error hfault => exact .error hfault

/-- Two stages in a row agree if each does. -/
theorem bind {first : Except ε α} {second : Except δ α} {next : α → Except ε β}
    {other : α → Except δ β} (h : Agree related first second)
    (hnext : ∀ value, Agree related (next value) (other value)) :
    Agree related (first.bind next) (second.bind other) := by
  cases h with
  | ok value => exact hnext value
  | error hfault => exact .error hfault

/-- Traversals of related lists agree if they do entry by entry. -/
theorem mapM {source target : Type} {same : source → target → Prop} {f : source → Except ε β}
    {g : target → Except δ β}
    (h : ∀ first second, same first second → Agree related (f first) (g second))
    {firsts : List source} {seconds : List target} (hsame : List.Forall₂ same firsts seconds) :
    Agree related (firsts.mapM f) (seconds.mapM g) := by
  induction hsame with
  | nil => exact .ok []
  | cons hfirst _ ih =>
    rw [mapM_cons_eq, mapM_cons_eq]
    exact (h _ _ hfirst).bind fun value ↦ ih.bind fun values ↦ .ok (value :: values)

end Agree

end Concord.Traversal
