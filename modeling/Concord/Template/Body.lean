import Concord.Template

/-!
Pattern bodies. A body is made of segments, `|` between them, and ends in a brace. A segment may
begin with a specifier, which ends in a `:`, and goes on with its wording. Wording is a lone `~`, or
fragments: a backslash and the character after it stand for that character, and a run of characters
without a meaning stands for itself.

Each reader takes what it reads off the front of the text, so that the next begins where it stopped.
One that finds nothing to read leaves the text as it is: a segment whose specifier does not end in
`:` is read over again as wording, and so is a `~` that is not alone. Every reader comes with a
bound on the text that it leaves.
-/

set_option autoImplicit false
set_option relaxedAutoImplicit false

namespace Concord

/-! ### Wording -/

/-- The characters that end a run of wording. -/
def endsFragment (c : Char) : Bool :=
  ['|', '{', '}', '\\'].contains c

/-- The first fragment of wording and the text after it, if there is one. A backslash at the end of
the text is no fragment. -/
def readFragment? (s : List Char) : Option (List Char × List Char) :=
  match s with
  | '\\' :: c :: rest => some ([c], rest)
  | _ =>
    match s.takeWhile (!endsFragment ·) with
    | [] => none
    | run => some (run, s.dropWhile (!endsFragment ·))

theorem length_lt_of_readFragment? {s fragment rest : List Char}
    (h : readFragment? s = some (fragment, rest)) : rest.length < s.length := by
  unfold readFragment? at h
  split at h
  · obtain ⟨-, rfl⟩ := Prod.mk.inj (Option.some.inj h)
    simp only [List.length_cons]
    omega
  · split at h
    · cases h
    · next hrun =>
      obtain ⟨-, rfl⟩ := Prod.mk.inj (Option.some.inj h)
      have hlength := congrArg List.length
        (List.takeWhile_append_dropWhile (p := (!endsFragment ·)) (l := s))
      have hpos := List.length_pos_iff.mpr hrun
      rw [List.length_append] at hlength
      omega

/-- The characters that fragments of wording stand for, and the text after the last fragment. -/
def readFragments (s : List Char) : List Char × List Char :=
  match h : readFragment? s with
  | none => ([], s)
  | some (fragment, rest) =>
    have := length_lt_of_readFragment? h
    let more := readFragments rest
    (fragment ++ more.1, more.2)
termination_by s.length

theorem length_readFragments_le (s : List Char) : (readFragments s).2.length ≤ s.length := by
  fun_induction readFragments s with
  | case1 => exact Nat.le_refl _
  | case2 _ _ _ _ hlt _ ih => exact Nat.le_trans ih (Nat.le_of_lt hlt)

/-- The text after a `~` that is alone before the end of its segment. -/
def afterLoud? : List Char → Option (List Char)
  | '~' :: c :: rest => if c = '|' ∨ c = '}' then some (c :: rest) else none
  | _ => none

theorem length_lt_of_afterLoud? {s rest : List Char} (h : afterLoud? s = some rest) :
    rest.length < s.length := by
  unfold afterLoud? at h
  split at h
  · split at h
    · obtain rfl := Option.some.inj h
      simp
    · cases h
  · cases h

/-- The wording at the front of a text, and the text after it. -/
def Wording.read (s : List Char) : Wording × List Char :=
  match afterLoud? s with
  | some rest => (.loud, rest)
  | none =>
    let fragments := readFragments s
    (.literal (String.ofList fragments.1), fragments.2)

theorem Wording.length_read_le (s : List Char) : (read s).2.length ≤ s.length := by
  unfold read
  split
  · next hloud => exact Nat.le_of_lt (length_lt_of_afterLoud? hloud)
  · exact length_readFragments_le s

/-! ### Segments -/

/-- The characters that end a specifier. -/
def endsSpecifier (c : Char) : Bool :=
  [':', '|', '{', '}', '\\'].contains c

/-- The specifier at the front of a text and the text after its `:`, if it ends in one. -/
def readSpecifier? (s : List Char) : Option (List Char × List Char) :=
  match s.dropWhile (!endsSpecifier ·) with
  | ':' :: rest => some (s.takeWhile (!endsSpecifier ·), rest)
  | _ => none

theorem length_lt_of_readSpecifier? {s specifier rest : List Char}
    (h : readSpecifier? s = some (specifier, rest)) : rest.length < s.length := by
  unfold readSpecifier? at h
  split at h
  · next hdrop =>
    obtain ⟨-, rfl⟩ := Prod.mk.inj (Option.some.inj h)
    have hle := (List.dropWhile_sublist (l := s) (!endsSpecifier ·)).length_le
    rw [hdrop, List.length_cons] at hle
    exact hle
  · cases h

/-- A segment before its specifier is read as a group. -/
structure RawSegment where
  specifier? : Option (List Char)
  wording : Wording
  deriving DecidableEq, Repr

namespace RawSegment

/-- The segment at the front of a text, and the text after it. -/
def read (s : List Char) : RawSegment × List Char :=
  match readSpecifier? s with
  | some (specifier, rest) =>
    let wording := Wording.read rest
    (⟨some specifier, wording.1⟩, wording.2)
  | none =>
    let wording := Wording.read s
    (⟨none, wording.1⟩, wording.2)

theorem length_read_le (s : List Char) : (read s).2.length ≤ s.length := by
  unfold read
  split
  · next rest hspecifier =>
    exact Nat.le_trans (Wording.length_read_le rest)
      (Nat.le_of_lt (length_lt_of_readSpecifier? hspecifier))
  · exact Wording.length_read_le s

/-- The segments at the front of a text, each but the last with a `|` after it, and the text after
the last. -/
def readAll (s : List Char) : List RawSegment × List Char :=
  let first := read s
  match h : first.2 with
  | '|' :: rest =>
    have : rest.length < s.length := by
      have hle := length_read_le s
      rw [h, List.length_cons] at hle
      exact hle
    let others := readAll rest
    (first.1 :: others.1, others.2)
  | rest => ([first.1], rest)
termination_by s.length

theorem length_readAll_le (s : List Char) : (readAll s).2.length ≤ s.length := by
  fun_induction readAll s with
  | case1 _ _ _ _ hlt _ ih => exact Nat.le_trans ih (Nat.le_of_lt hlt)
  | case2 s _ _ => exact length_read_le s

end RawSegment

/-! ### Bodies -/

/-- What ends a body: its closing brace, a brace that would open another one, or the text. -/
inductive BodyEnd where
  | closed
  | nested
  | unclosed
  deriving DecidableEq, Repr

/-- A body that has been read: its segments, what ended it, and the text after that. -/
structure RawBody where
  segments : List RawSegment
  ending : BodyEnd
  rest : List Char
  deriving DecidableEq, Repr

namespace RawBody

/-- Reads a body whose `{` lies before the text. Nothing is left of a text that does not end it. -/
def read (s : List Char) : RawBody :=
  let found := RawSegment.readAll s
  match found.2 with
  | '}' :: rest => ⟨found.1, .closed, rest⟩
  | '{' :: rest => ⟨found.1, .nested, rest⟩
  | _ => ⟨found.1, .unclosed, []⟩

theorem length_rest_read_le (s : List Char) : (read s).rest.length ≤ s.length := by
  have hle := RawSegment.length_readAll_le s
  unfold read
  dsimp only
  split
  · next hrest =>
    rw [hrest, List.length_cons] at hle
    exact Nat.le_of_succ_le hle
  · next hrest =>
    rw [hrest, List.length_cons] at hle
    exact Nat.le_of_succ_le hle
  · exact Nat.zero_le _

end RawBody

end Concord
