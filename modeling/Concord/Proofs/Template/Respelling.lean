import Concord.Proofs.Template.RoundTrip

/-!
# Writing another name into a pattern

`Pattern.respell` puts another name in the place of one that a pattern has, which is given by its
index among the names, and writes the pattern anew. The names stand in the entries of the segments,
and at each of these levels the part that holds the index is the one that changes (`modifyHolder`).
The main statements are `Pattern.names_respell`, that no other name changes, and
`Pattern.parse_source_respell`, that the result reads back as it is written.
-/

set_option autoImplicit false
set_option relaxedAutoImplicit false

namespace Concord

/-- The list with one element changed: the one that holds the index, where each element holds a list
and the indices run on from one to the next. The change is told the index within its list. -/
def modifyHolder {α β : Type} (held : α → List β) (change : Nat → α → α) : Nat → List α → List α
  | _, [] => []
  | index, first :: rest =>
    if index < (held first).length then change index first :: rest
    else first :: modifyHolder held change (index - (held first).length) rest

/-- The entry with another name in the place of the one at the index. -/
def respellEntry (name : String) : Nat → List Matcher → List Matcher :=
  modifyHolder (·.name?.toList) fun _ _ ↦ .name name

namespace Segment

/-- The names in a segment in order, each with its position in the entry. -/
def names (segment : Segment) : List (Nat × String) :=
  segment.group.flatMap namesOfEntry

/-- The segment with another name in the place of the one at the index. -/
def respell (name : String) (index : Nat) (segment : Segment) : Segment :=
  { segment with group := modifyHolder namesOfEntry (respellEntry name) index segment.group }

end Segment

/-- The pattern with another name in the place of the one at the index, written anew. -/
def Pattern.respell (pattern : Pattern) (index : Nat) (name : String) : Pattern :=
  { pattern with
    segments := modifyHolder Segment.names (Segment.respell name) index pattern.segments
  }.withPrintedSource

/-! ### Changes to a part -/

section Holders

variable {α β : Type} {held : α → List β} {change : Nat → α → α}

/-- A change to an element of two lists in a row is one to the first or one to the second. -/
theorem modify_append (first second : List β) (index : Nat) (f : β → β) :
    (first ++ second).modify index f =
      if index < first.length then first.modify index f ++ second
      else first ++ second.modify (index - first.length) f := by
  refine List.ext_getElem? fun position ↦ ?_
  split <;> grind [List.length_modify]

/-- The first value found is that of the element changed, if none or the same was found before. -/
theorem findSome?_modify {f : α → Option β} {g : α → α} {source : List α} {index : Nat}
    {element : α} {value : β} (helement : source[index]? = some element)
    (hvalue : f (g element) = some value)
    (hsource : ∀ found, source.findSome? f = some found → found = value) :
    (source.modify index g).findSome? f = some value := by
  obtain ⟨before, after, rfl, rfl⟩ : ∃ before after, source = before ++ element :: after ∧
      before.length = index := by
    obtain ⟨hlt, rfl⟩ := List.getElem?_eq_some_iff.mp helement
    exact ⟨source.take index, source.drop (index + 1), by simp, by simp; omega⟩
  rw [modify_append, if_neg (Nat.lt_irrefl _), Nat.sub_self, List.modify_zero_cons,
    List.findSome?_append, List.findSome?_cons, hvalue]
  cases hbefore : before.findSome? f with
  | none => rfl
  | some found =>
    have hfound := hsource found (by rw [List.findSome?_append, hbefore]; rfl)
    rw [hfound]
    rfl

/-- If the element that holds the index changes in it alone, then so does all that is held. -/
theorem flatMap_modifyHolder {f : β → β}
    (hchange : ∀ index element, held (change index element) = (held element).modify index f)
    (index : Nat) (source : List α) :
    (modifyHolder held change index source).flatMap held =
      (source.flatMap held).modify index f := by
  induction source generalizing index with
  | nil => rw [modifyHolder, List.flatMap_nil, List.modify_nil]
  | cons first rest ih =>
    rw [modifyHolder, List.flatMap_cons, modify_append]
    split
    · rw [List.flatMap_cons, hchange]
    · rw [List.flatMap_cons, ih]

theorem length_modifyHolder (index : Nat) (source : List α) :
    (modifyHolder held change index source).length = source.length := by
  induction source generalizing index with
  | nil => rfl
  | cons first rest ih =>
    rw [modifyHolder]
    split
    · rfl
    · rw [List.length_cons, ih, List.length_cons]

/-- What holds of all elements, and of each that is changed, holds of all after the change. -/
theorem forall_mem_modifyHolder {p : α → Prop} {source : List α}
    (hsource : ∀ element ∈ source, p element)
    (hchange : ∀ index element, p element → p (change index element)) (index : Nat) :
    ∀ element ∈ modifyHolder held change index source, p element := by
  induction source generalizing index with
  | nil => exact fun _ hmem ↦ nomatch hmem
  | cons first rest ih =>
    obtain ⟨hfirst, hrest⟩ := List.forall_mem_cons.mp hsource
    rw [modifyHolder]
    split
    · exact List.forall_mem_cons.mpr ⟨hchange index first hfirst, hrest⟩
    · exact List.forall_mem_cons.mpr ⟨hfirst, ih hrest _⟩

end Holders

/-! ### Names -/

/-- In an entry the name at the index changes, and keeps its position. -/
theorem namesOfEntry_respellEntry (name : String) (index : Nat) (entry : List Matcher) :
    namesOfEntry (respellEntry name index entry) =
      (namesOfEntry entry).modify index fun found ↦ (found.1, name) := by
  rw [namesOfEntry, namesOfEntry, respellEntry]
  generalize 0 = start
  induction entry generalizing index start with
  | nil => rw [modifyHolder, List.zipIdx_nil, List.filterMap_nil, List.modify_nil]
  | cons first rest ih =>
    cases first with
    | any =>
      have hrest := ih index (start + 1)
      simpa [modifyHolder, Matcher.name?] using hrest
    | name token =>
      cases index with
      | zero => simp [modifyHolder, Matcher.name?]
      | succ index =>
        have hrest := ih index (start + 1)
        simpa [modifyHolder, Matcher.name?] using hrest

theorem Segment.names_respell (name : String) (index : Nat) (segment : Segment) :
    (segment.respell name index).names =
      segment.names.modify index fun found ↦ (found.1, name) :=
  flatMap_modifyHolder (namesOfEntry_respellEntry name) index segment.group

namespace Pattern

variable {pattern : Pattern} {name : String}

/-- The names of a pattern are those of its segments. -/
theorem names_eq_flatMap (pattern : Pattern) :
    pattern.names = pattern.segments.flatMap Segment.names := by
  rw [names, entries, List.flatMap_assoc]
  rfl

/-- A name of a pattern stands at its position in an entry. -/
theorem exists_entry_of_mem_names {position : Nat} (h : (position, name) ∈ pattern.names) :
    ∃ entry ∈ pattern.entries, entry[position]? = some (.name name) := by
  obtain ⟨entry, hentry, hname⟩ := List.mem_flatMap.mp h
  obtain ⟨⟨matcher, found⟩, hmatcher, hfound⟩ := List.mem_filterMap.mp hname
  obtain ⟨token, htoken, hpair⟩ := Option.map_eq_some_iff.mp hfound
  obtain ⟨rfl, rfl⟩ := Prod.mk.inj hpair
  refine ⟨entry, hentry, ?_⟩
  rw [List.mem_zipIdx_iff_getElem?.mp hmatcher]
  cases matcher with
  | any => cases htoken
  | name other => rw [Option.some.inj htoken]

/-- In a pattern the name at the index changes, and keeps its position. -/
theorem names_respell (pattern : Pattern) (index : Nat) (name : String) :
    (pattern.respell index name).names =
      pattern.names.modify index fun found ↦ (found.1, name) := by
  rw [names_eq_flatMap, names_eq_flatMap]
  exact flatMap_modifyHolder (Segment.names_respell name) index pattern.segments

theorem getElem?_names_respell {index position : Nat} {token : String}
    (h : pattern.names[index]? = some (position, token)) (name : String) :
    (pattern.respell index name).names[index]? = some (position, name) := by
  rw [names_respell, List.getElem?_modify_eq, h]
  rfl

/-! ### Written forms -/

theorem wellFormed_respellEntry {header : Header} (hname : Text.isName name) (index : Nat)
    {entry : List Matcher} (h : ∀ matcher ∈ entry, matcher.WellFormed header) :
    ∀ matcher ∈ respellEntry name index entry, matcher.WellFormed header := by
  have hnamed : (Matcher.name name).WellFormed header := hname
  exact forall_mem_modifyHolder h (fun _ _ _ ↦ hnamed) index

theorem wellFormed_respellSegment {header : Header} (hname : Text.isName name) (index : Nat)
    {segment : Segment} (h : segment.WellFormed header) :
    (segment.respell name index).WellFormed header := by
  obtain ⟨hgroup, hentries⟩ := h
  refine ⟨?_, forall_mem_modifyHolder hentries ?_ index⟩
  · intro hnil
    refine hgroup (List.length_eq_zero_iff.mp ?_)
    rw [← length_modifyHolder index segment.group]
    exact congrArg List.length hnil
  · rintro position entry ⟨hlength, hmatchers⟩
    exact ⟨(length_modifyHolder position entry).trans hlength,
      wellFormed_respellEntry hname position hmatchers⟩

/-- A pattern keeps its form when a name is replaced by a name. -/
theorem wellFormed_respell (h : pattern.WellFormed) (hname : Text.isName name) (index : Nat) :
    (pattern.respell index name).WellFormed := by
  obtain ⟨hheader, hsegments, hwellFormed⟩ := h
  refine ⟨hheader, ?_, ?_⟩
  · intro hnil
    refine hsegments (List.length_eq_zero_iff.mp ?_)
    rw [← length_modifyHolder index pattern.segments]
    exact congrArg List.length hnil
  · exact forall_mem_modifyHolder hwellFormed
      (fun position _ hsegment ↦ wellFormed_respellSegment hname position hsegment) index

/-- A text that is the printed form of a pattern is a template of that pattern alone. -/
theorem parse_print (h : pattern.WellFormed) :
    Template.parse pattern.print = .ok ⟨[.pattern pattern.withPrintedSource]⟩ := by
  have hread := Template.readPieces_print_pattern h []
  rw [List.append_nil, Template.readPieces_nil] at hread
  rw [Template.parse_eq_readPieces, hread]
  rfl

/-- A pattern with a name replaced by a name reads back as it is written. -/
theorem parse_source_respell (h : pattern.WellFormed) (hname : Text.isName name) (index : Nat) :
    Template.parse (pattern.respell index name).source =
      .ok ⟨[.pattern (pattern.respell index name)]⟩ :=
  parse_print (wellFormed_respell h hname index)

end Pattern

end Concord
