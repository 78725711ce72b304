import Concord.Proofs.Template.PatternRoundTrip

/-!
# What a specifier writes

Commas separate the entries of a specifier, and `+` the parts of an entry; blanks around any of
these do not count. `RawEntry.IsWrittenBy` tells the `!` of an entry from the rest,
`RawEntry.Writes` says which matchers that writes, and `RawEntry.HasFault` what may be wrong with
it. Reading an entry agrees with both (`RawEntry.read?_eq_ok_iff`, `RawEntry.read?_eq_error_iff`).

An entry is mixed if it has a `!` and the entry before it has none, or the other way round. Reading
compares it with the first entry instead, which is the same as long as all entries before it are
sound (`AreSound.negated_getLast?`), and after the leftmost fault nothing is compared any more. The
main statement is `readGroup_sound_or_leftmost_fault`.
-/

set_option autoImplicit false
set_option relaxedAutoImplicit false

namespace Concord

variable {header : Header}

/-! ### Parts -/

namespace Matcher

/-- The part writes the matcher: it is a name, or `*` where the header names its kinds. -/
structure IsWrittenBy (header : Header) (matcher : Matcher) (part : List Char) : Prop where
  wellFormed : matcher.WellFormed header
  eq_chars : part = matcher.chars

/-- The fault of a part that writes no matcher. -/
inductive IsFaultOf (header : Header) : PatternFault → List Char → Prop
  | empty : IsFaultOf header .emptyToken []
  | wildcard (hheader : header = .inferred) : IsFaultOf header .wildcardWithoutKind ['*']
  | name {part : List Char} (hempty : part ≠ []) (hany : part ≠ ['*'])
      (hname : Text.isName (String.ofList part) = false) :
      IsFaultOf header (.invalidTokenName (String.ofList part)) part

variable {part : List Char}

/-- A part is read as the matcher that it writes. -/
theorem read_eq_ok_iff {matcher : Matcher} :
    read header part = .ok matcher ↔ matcher.IsWrittenBy header part := by
  constructor
  · intro h
    unfold read at h
    dsimp only at h
    split at h
    · cases h
    · split at h
      · next hany =>
        split at h
        · cases h
        · next hheader =>
          obtain rfl := Except.ok.inj h
          exact ⟨hheader, String.ofList_inj.mp hany⟩
      · split at h
        · next hname =>
          obtain rfl := Except.ok.inj h
          exact ⟨hname, String.toList_ofList.symm⟩
        · cases h
  · rintro ⟨hmatcher, rfl⟩
    exact read_chars hmatcher

/-- A part that writes no matcher fails with its fault. -/
theorem read_eq_error_iff {fault : PatternFault} :
    read header part = .error fault ↔ IsFaultOf header fault part := by
  have hempty : String.ofList part = String.ofList [] ↔ part = [] := String.ofList_inj
  have hany : String.ofList part = String.ofList ['*'] ↔ part = ['*'] := String.ofList_inj
  constructor
  · intro h
    simp only [read, hempty, hany] at h
    split at h
    · next hnone =>
      obtain rfl := Except.error.inj h
      exact hnone ▸ .empty
    · next hsome =>
      split at h
      · next hstar =>
        split at h
        · next hheader =>
          obtain rfl := Except.error.inj h
          exact hstar ▸ .wildcard hheader
        · cases h
      · next hother =>
        split at h
        · cases h
        · next hname =>
          obtain rfl := Except.error.inj h
          exact .name hsome hother (Bool.eq_false_iff.mpr hname)
  · rintro (_ | hheader | ⟨hsome, hother, hname⟩)
    · rfl
    · rw [hheader]
      rfl
    · simp [read, hempty, hany, hsome, hother, hname]

/-- Parts are read as the matchers that they write one by one. -/
theorem mapM_read_eq_ok_iff {parts : List (List Char)} {entry : List Matcher} :
    parts.mapM (read header) = .ok entry ↔
      List.Forall₂ (fun part matcher ↦ IsWrittenBy header matcher part) parts entry := by
  simp only [Traversal.mapM_eq_ok_iff, read_eq_ok_iff]

/-- Parts fail with the fault of the leftmost one that writes no matcher. -/
theorem mapM_read_eq_error_iff {parts : List (List Char)} {fault : PatternFault} :
    parts.mapM (read header) = .error fault ↔
      ∃ before part after, parts = before ++ part :: after ∧ IsFaultOf header fault part ∧
        ∀ earlier ∈ before, ∃ matcher, IsWrittenBy header matcher earlier := by
  simp only [Traversal.mapM_eq_error_iff, read_eq_error_iff, read_eq_ok_iff]

end Matcher

/-! ### Entries -/

namespace RawEntry

/-- The entry stands in the text, with blanks around it. A negated one has a `!` in front, which
blanks may follow. -/
inductive IsWrittenBy : RawEntry → List Char → Prop
  | plain {s matchers : List Char} (htrims : Text.Trims s matchers)
      (hplain : matchers.head? ≠ some '!') : IsWrittenBy ⟨false, matchers⟩ s
  | negated {s blanks matchers : List Char} (htrims : Text.Trims s ('!' :: (blanks ++ matchers)))
      (hblanks : ∀ c ∈ blanks, Text.isBlank c = true)
      (hfirst : ∀ c ∈ matchers.head?, Text.isBlank c = false) : IsWrittenBy ⟨true, matchers⟩ s

/-- The parts of an entry are what `+` separates, without the blanks around it. -/
def HasParts (raw : RawEntry) (parts : List (List Char)) : Prop :=
  List.Forall₂ Text.Trims (raw.matchers.splitOn '+') parts

/-- The entry has a part for every kind of the header, and these write the matchers. -/
structure Writes (header : Header) (raw : RawEntry) (entry : List Matcher) : Prop where
  matchers_ne_nil : raw.matchers ≠ []
  exists_parts : ∃ parts, raw.HasParts parts ∧ parts.length = header.arity ∧
    List.Forall₂ (fun part matcher ↦ matcher.IsWrittenBy header part) parts entry

/-- The fault of an entry that comes after `previous?`: it has nothing but its `!`; or it differs
from the previous entry in having one; or it has too many parts, or too few; or the leftmost of its
parts that write no matcher is at fault. Of several faults the first in this order counts. -/
inductive HasFault (header : Header) (previous? : Option RawEntry) (raw : RawEntry) :
    PatternFault → Prop
  | empty (hempty : raw.matchers = []) : HasFault header previous? raw .emptyToken
  | mixed {previous : RawEntry} (hsome : raw.matchers ≠ []) (hprevious : previous? = some previous)
      (hmixed : previous.negated ≠ raw.negated) : HasFault header previous? raw .mixedNegation
  | arity {parts : List (List Char)} (hsome : raw.matchers ≠ [])
      (halike : ∀ previous ∈ previous?, previous.negated = raw.negated)
      (hparts : raw.HasParts parts) (harity : parts.length ≠ header.arity) :
      HasFault header previous? raw (.arityMismatch header.arity parts.length)
  | part {before after : List (List Char)} {part : List Char} {fault : PatternFault}
      (hsome : raw.matchers ≠ []) (halike : ∀ previous ∈ previous?, previous.negated = raw.negated)
      (hparts : raw.HasParts (before ++ part :: after))
      (harity : (before ++ part :: after).length = header.arity)
      (hbefore : ∀ earlier ∈ before, ∃ matcher : Matcher, matcher.IsWrittenBy header earlier)
      (hfault : Matcher.IsFaultOf header fault part) : HasFault header previous? raw fault

variable {raw : RawEntry}

/-- A text writes one entry, the one that it is read as. -/
theorem isWrittenBy_iff {s : List Char} : raw.IsWrittenBy s ↔ read s = raw := by
  constructor
  · rintro (⟨htrims, hplain⟩ | ⟨htrims, hblanks, hfirst⟩)
    · rw [read, Text.trims_iff.mp htrims]
      split
      · rfl
      · exact if_neg fun hsign ↦ hplain (congrArg some hsign)
    · rw [read, Text.trims_iff.mp htrims]
      dsimp only
      rw [if_pos rfl, Text.trimStartChars, List.dropWhile_append_of_pos hblanks]
      exact congrArg (RawEntry.mk true) (Text.trimStartChars_eq_self hfirst)
  · rintro rfl
    have htrims := Text.trims_trimChars s
    unfold read
    split
    · next hempty => exact .plain (hempty ▸ htrims) (by simp)
    · next c rest hcons =>
      rw [hcons] at htrims
      split
      · next hsign =>
        subst hsign
        refine @IsWrittenBy.negated s (rest.takeWhile Text.isBlank) _ ?_
          (fun c hc ↦ List.mem_takeWhile_imp hc)
          fun c hc ↦ Text.isBlank_of_mem_head?_trimStartChars hc
        rwa [Text.trimStartChars, List.takeWhile_append_dropWhile]
      · next hsign => exact .plain htrims (by simpa using hsign)

theorem hasParts_iff {parts : List (List Char)} :
    raw.HasParts parts ↔ (raw.matchers.splitOn '+').map Text.trimChars = parts :=
  Traversal.forall₂_iff_map_eq Text.trimChars fun _ _ ↦ Text.trims_iff

/-- An entry is read as the matchers that it writes, in a group that is negated as it is. -/
theorem read?_eq_ok_iff {negated : Bool} {entry : List Matcher} :
    read? header negated raw = .ok entry ↔ raw.negated = negated ∧ raw.Writes header entry := by
  constructor
  · intro h
    unfold read? at h
    dsimp only at h
    split at h
    · cases h
    · next hsome =>
      split at h
      · cases h
      · next hsign =>
        split at h
        · next harity =>
          exact ⟨not_not.mp hsign, hsome, _, hasParts_iff.mpr rfl, harity,
            Matcher.mapM_read_eq_ok_iff.mp h⟩
        · cases h
  · rintro ⟨rfl, hsome, parts, hparts, harity, hmatchers⟩
    obtain rfl := hasParts_iff.mp hparts
    rw [read?, if_neg hsome, if_neg (not_not.mpr rfl)]
    dsimp only
    rw [if_pos harity]
    exact Matcher.mapM_read_eq_ok_iff.mpr hmatchers

/-- An entry fails with its fault, in a group that is negated as the entry before it is. -/
theorem read?_eq_error_iff {previous? : Option RawEntry} {negated : Bool} {fault : PatternFault}
    (hnegated : (previous?.getD raw).negated = negated) :
    read? header negated raw = .error fault ↔ raw.HasFault header previous? fault := by
  have hsign : raw.negated = negated ↔ ∀ previous ∈ previous?, previous.negated = raw.negated := by
    cases previous? with
    | none => simpa using hnegated
    | some previous => simp [← hnegated, eq_comm]
  constructor
  · intro h
    unfold read? at h
    dsimp only at h
    split at h
    · next hempty =>
      obtain rfl := Except.error.inj h
      exact .empty hempty
    · next hsome =>
      split at h
      · next hmixed =>
        obtain rfl := Except.error.inj h
        cases previous? with
        | none => exact absurd hnegated hmixed
        | some previous => exact .mixed hsome rfl fun heq ↦ hmixed (heq.symm.trans hnegated)
      · next halike =>
        have halike := hsign.mp (not_not.mp halike)
        split at h
        · next harity =>
          obtain ⟨before, part, after, hparts, hfault, hbefore⟩ :=
            Matcher.mapM_read_eq_error_iff.mp h
          exact .part hsome halike (hasParts_iff.mpr hparts) (hparts ▸ harity) hbefore hfault
        · next harity =>
          obtain rfl := Except.error.inj h
          exact .arity hsome halike (hasParts_iff.mpr rfl) harity
  · rintro (hempty | ⟨hsome, rfl, hmixed⟩ | ⟨hsome, halike, hparts, harity⟩ |
      @⟨before, after, part, _, hsome, halike, hparts, harity, hbefore, hfault⟩)
    · rw [read?, if_pos hempty]
    · have hmixed : raw.negated ≠ negated := fun heq ↦ hmixed (hnegated.trans heq.symm)
      rw [read?, if_neg hsome, if_pos hmixed]
    · obtain rfl := hasParts_iff.mp hparts
      rw [read?, if_neg hsome, if_neg (not_not.mpr (hsign.mpr halike))]
      exact if_neg harity
    · rw [read?, if_neg hsome, if_neg (not_not.mpr (hsign.mpr halike))]
      dsimp only
      rw [hasParts_iff.mp hparts, if_pos harity]
      exact Matcher.mapM_read_eq_error_iff.mpr ⟨before, part, after, rfl, hfault, hbefore⟩

end RawEntry

/-! ### Groups -/

/-- The entries make a group: all of them are negated or none is, and each writes matchers. -/
structure AreSound (header : Header) (raws : List RawEntry) : Prop where
  alike : ∃ negated, ∀ raw ∈ raws, raw.negated = negated
  writes (raw : RawEntry) (hraw : raw ∈ raws) : ∃ entry, raw.Writes header entry

/-- The leftmost entry that is at fault has this fault. -/
def HasLeftmostFault (header : Header) (raws : List RawEntry) (fault : PatternFault) : Prop :=
  ∃ before raw after, raws = before ++ raw :: after ∧ AreSound header before ∧
    raw.HasFault header before.getLast? fault

section Sound

variable {before : List RawEntry}

/-- The last of sound entries is negated as the first is. -/
theorem AreSound.negated_getLast? (h : AreSound header before) (raw : RawEntry) :
    (before.getLast?.getD raw).negated = (before.head?.getD raw).negated := by
  obtain ⟨negated, halike⟩ := h.alike
  cases before with
  | nil => rfl
  | cons first rest =>
    have hlast := halike _ (List.getLast_mem (List.cons_ne_nil first rest))
    rw [List.getLast?_eq_some_getLast (List.cons_ne_nil first rest)]
    exact hlast.trans (halike first List.mem_cons_self).symm

/-- Entries that are read with the sign of the first are sound, and the other way round. -/
theorem areSound_iff (raw : RawEntry) :
    AreSound header before ↔ ∀ earlier ∈ before,
      ∃ entry, RawEntry.read? header (before.head?.getD raw).negated earlier = .ok entry := by
  simp only [RawEntry.read?_eq_ok_iff]
  constructor
  · rintro ⟨⟨negated, halike⟩, hwrites⟩ earlier hearlier
    obtain ⟨entry, hentry⟩ := hwrites earlier hearlier
    refine ⟨entry, ?_, hentry⟩
    cases before with
    | nil => cases hearlier
    | cons first rest =>
      exact (halike earlier hearlier).trans (halike first List.mem_cons_self).symm
  · intro h
    exact ⟨⟨_, fun earlier hearlier ↦ (h earlier hearlier).choose_spec.1⟩,
      fun earlier hearlier ↦ (h earlier hearlier).imp fun _ ↦ And.right⟩

end Sound

section Reading

variable {specifier : List Char} {raws : List RawEntry}

/-- A specifier writes the entries that are read from it. -/
theorem forall₂_isWrittenBy_iff :
    List.Forall₂ (fun s raw ↦ RawEntry.IsWrittenBy raw s) (specifier.splitOn ',') raws ↔
      rawEntries specifier = raws :=
  Traversal.forall₂_iff_map_eq RawEntry.read fun _ _ ↦ RawEntry.isWrittenBy_iff

/-- There is at least one entry. -/
theorem exists_rawEntries_eq_cons (specifier : List Char) :
    ∃ first rest, rawEntries specifier = first :: rest :=
  List.exists_cons_of_ne_nil (by simp [rawEntries, List.splitOn_ne_nil])

/-- The group of a specifier has what its entries write, if they are alike. -/
theorem readGroup_eq_ok_iff {group : List (List Matcher)} {negated : Bool} :
    readGroup header specifier = .ok (group, negated) ↔
      (∀ raw ∈ rawEntries specifier, raw.negated = negated) ∧
        List.Forall₂ (RawEntry.Writes header) (rawEntries specifier) group := by
  obtain ⟨first, rest, hraws⟩ := exists_rawEntries_eq_cons specifier
  rw [readGroup, hraws]
  dsimp only [List.head?_cons, Option.any_some]
  simp only [Traversal.map_eq_ok_iff, Traversal.mapM_eq_ok_iff, RawEntry.read?_eq_ok_iff,
    List.forall₂_and_left, Prod.mk.injEq]
  constructor
  · rintro ⟨_, ⟨halike, hwrites⟩, rfl, rfl⟩
    exact ⟨halike, hwrites⟩
  · rintro ⟨halike, hwrites⟩
    obtain rfl := halike first List.mem_cons_self
    exact ⟨group, ⟨halike, hwrites⟩, rfl, rfl⟩

/-- A specifier is read as a group if its entries are sound. -/
theorem exists_readGroup_eq_ok_iff :
    (∃ read, readGroup header specifier = .ok read) ↔ AreSound header (rawEntries specifier) := by
  obtain ⟨first, rest, hraws⟩ := exists_rawEntries_eq_cons specifier
  rw [readGroup, hraws, areSound_iff first, ← Traversal.exists_mapM_eq_ok_iff]
  dsimp only [List.head?_cons, Option.any_some, Option.getD_some]
  simp only [Traversal.map_eq_ok_iff]
  constructor
  · rintro ⟨_, group, hgroup, -⟩
    exact ⟨group, hgroup⟩
  · rintro ⟨group, hgroup⟩
    exact ⟨_, group, hgroup, rfl⟩

/-- Reading a group fails with the leftmost fault of its entries. -/
theorem readGroup_eq_error_iff {fault : PatternFault} :
    readGroup header specifier = .error fault ↔
      HasLeftmostFault header (rawEntries specifier) fault := by
  have hfirst (before after : List RawEntry) (raw : RawEntry) :
      (before ++ raw :: after).head?.any (·.negated) = (before.head?.getD raw).negated := by
    cases before <;> rfl
  rw [readGroup, Traversal.map_eq_error_iff, Traversal.mapM_eq_error_iff]
  constructor
  · rintro ⟨before, raw, after, hraws, hfault, hbefore⟩
    rw [hraws, hfirst] at hfault hbefore
    have hsound := (areSound_iff raw).mpr hbefore
    exact ⟨before, raw, after, hraws, hsound,
      (RawEntry.read?_eq_error_iff (hsound.negated_getLast? raw)).mp hfault⟩
  · rintro ⟨before, raw, after, hraws, hsound, hfault⟩
    refine ⟨before, raw, after, hraws, ?_⟩
    rw [hraws, hfirst]
    exact ⟨(RawEntry.read?_eq_error_iff (hsound.negated_getLast? raw)).mpr hfault,
      (areSound_iff raw).mp hsound⟩

/-- Take any specifier, and the entries that stand between its commas. It is read as a group just if
the entries are sound. The group has then what they write, in order, and is negated if they are. Any
other specifier fails with the leftmost fault of its entries. -/
theorem readGroup_sound_or_leftmost_fault (header : Header) (specifier : List Char) :
    (∃ raws, List.Forall₂ (fun s raw ↦ RawEntry.IsWrittenBy raw s) (specifier.splitOn ',') raws) ∧
      ∀ raws, List.Forall₂ (fun s raw ↦ RawEntry.IsWrittenBy raw s) (specifier.splitOn ',') raws →
        ((∃ read, readGroup header specifier = .ok read) ↔ AreSound header raws) ∧
        (∀ group negated, readGroup header specifier = .ok (group, negated) ↔
          (∀ raw ∈ raws, raw.negated = negated) ∧
            List.Forall₂ (RawEntry.Writes header) raws group) ∧
        ∀ fault, readGroup header specifier = .error fault ↔
          HasLeftmostFault header raws fault := by
  refine ⟨⟨_, forall₂_isWrittenBy_iff.mpr rfl⟩, fun raws hraws ↦ ?_⟩
  obtain rfl := forall₂_isWrittenBy_iff.mp hraws
  exact ⟨exists_readGroup_eq_ok_iff, fun _ _ ↦ readGroup_eq_ok_iff, fun _ ↦ readGroup_eq_error_iff⟩

end Reading

theorem readGroup_sound_or_leftmost_fault_tuples :
    let header : Header := .complex ["gender", "number"]
    let specifier := " !f + s,! m+*\u00a0".toList
    let raws : List RawEntry := [⟨true, "f + s".toList⟩, ⟨true, "m+*".toList⟩]
    let faulty := "f+s,!m,!".toList
    let faultyRaws : List RawEntry := [⟨false, "f+s".toList⟩, ⟨true, ['m']⟩, ⟨true, []⟩]
    List.Forall₂ (fun s raw ↦ RawEntry.IsWrittenBy raw s) (specifier.splitOn ',') raws ∧
      AreSound header raws ∧
      readGroup header specifier = .ok ([[.name "f", .name "s"], [.name "m", .any]], true) ∧
      List.Forall₂ (fun s raw ↦ RawEntry.IsWrittenBy raw s) (faulty.splitOn ',') faultyRaws ∧
      HasLeftmostFault header faultyRaws .mixedNegation ∧
      readGroup header faulty = .error .mixedNegation := by
  intro header specifier raws faulty faultyRaws
  have hraws : List.Forall₂ (fun s raw ↦ RawEntry.IsWrittenBy raw s) (specifier.splitOn ',') raws :=
    forall₂_isWrittenBy_iff.mpr (by decide +kernel)
  have hfaulty : List.Forall₂ (fun s raw ↦ RawEntry.IsWrittenBy raw s) (faulty.splitOn ',')
      faultyRaws := forall₂_isWrittenBy_iff.mpr (by decide +kernel)
  have hread : readGroup header specifier =
      .ok ([[.name "f", .name "s"], [.name "m", .any]], true) := by
    decide +kernel
  have hfails : readGroup header faulty = .error .mixedNegation := by decide +kernel
  obtain ⟨hsound, -, -⟩ := (readGroup_sound_or_leftmost_fault header specifier).2 raws hraws
  obtain ⟨-, -, hfault⟩ := (readGroup_sound_or_leftmost_fault header faulty).2 faultyRaws hfaulty
  exact ⟨hraws, hsound.mp ⟨_, hread⟩, hread, hfaulty, (hfault _).mp hfails, hfails⟩

end Concord
