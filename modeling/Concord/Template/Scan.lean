import Concord.Template.Body
import Concord.Template.Group
import Concord.Template.Header

/-!
Reading templates. `Template.step?` takes one piece off the front of a text: an escaped marker,
`\@` or `@@` where a header follows, stands for `@`; an `@` that a header follows begins a pattern;
anything else is literal text. Scanning repeats the step until the text or a malformed pattern ends
it, and `Template.parse` joins neighbouring literals of a scan without fault.
-/

set_option autoImplicit false
set_option relaxedAutoImplicit false

namespace Concord

/-- The segments of a body with their specifiers read as groups, and the free text after them. Only
the last may have no specifier: it is the free text. -/
def gatherSegments (header : Header) :
    List RawSegment → Except PatternFault (List Segment × Option Wording)
  | [] => .ok ([], none)
  | first :: rest =>
    match first.specifier? with
    | none => if rest = [] then .ok ([], some first.wording) else .error .freeTextNotLast
    | some specifier =>
      match readGroup header specifier with
      | .error fault => .error fault
      | .ok (group, negated) =>
        match gatherSegments header rest with
        | .error fault => .error fault
        | .ok (segments, freeText?) => .ok (⟨group, negated, first.wording⟩ :: segments, freeText?)

namespace Pattern

/-- The pattern with the given header and segments, of which it needs at least one. -/
def ofRawSegments (header : Header) (segments : List RawSegment) (source : String) :
    Except PatternFault Pattern :=
  match gatherSegments header segments with
  | .error fault => .error fault
  | .ok (segments, freeText?) =>
    if segments = [] then .error .noSegments
    else .ok ⟨header, segments, freeText?, source⟩

/-- The pattern with the given header whose body begins at `s`, and the text after it. Its source is
the text up to there. A body that does not end leaves nothing after it. -/
def read (header : Header) (s : List Char) : Except PatternError Pattern × List Char :=
  let opening := "@" ++ header.text ++ r"{"
  let body := RawBody.read s
  let source := opening ++ String.ofList (s.take (s.length - body.rest.length))
  match body.ending with
  | .unclosed => (.error ⟨opening ++ String.ofList s, .unclosed⟩, [])
  | .nested => (.error ⟨source, .nestedBrace⟩, [])
  | .closed =>
    match ofRawSegments header body.segments source with
    | .error fault => (.error ⟨source, fault⟩, [])
    | .ok pattern => (.ok pattern, body.rest)

theorem length_rest_read_le (header : Header) (s : List Char) :
    (read header s).2.length ≤ s.length := by
  have := RawBody.length_rest_read_le s
  unfold read
  dsimp only
  split
  · simp
  · simp
  · split <;> simp [this]

end Pattern

namespace Template

def isMarker (c : Char) : Bool :=
  c = '@' || c = '\\'

/-- The text after an escaped marker, if the text begins with one. -/
def afterEscape? : List Char → Option (List Char)
  | c :: '@' :: rest => if isMarker c && (Header.read? rest).isSome then some rest else none
  | _ => none

/-- The header and body of the pattern that the text begins with, if it does. -/
def opening? : List Char → Option (Header × List Char)
  | '@' :: rest => Header.read? rest
  | _ => none

/-- The first piece of a text and the text after it; none for the empty text. After a malformed
pattern no text is left. -/
def step? : List Char → Option (Except PatternError Piece × List Char)
  | [] => none
  | c :: rest =>
    match afterEscape? (c :: rest) with
    | some after => some (.ok (.literal "@"), after)
    | none =>
      match opening? (c :: rest) with
      | some (header, body) =>
        let read := Pattern.read header body
        some (read.1.map .pattern, read.2)
      | none =>
        if isMarker c then some (.ok (.literal (String.singleton c)), rest)
        else
          some (.ok (.literal (String.ofList (c :: rest.takeWhile (!isMarker ·)))),
            rest.dropWhile (!isMarker ·))

theorem length_lt_of_step? {s rest : List Char} {item : Except PatternError Piece}
    (h : step? s = some (item, rest)) : rest.length < s.length := by
  match s with
  | [] => cases h
  | c :: tail =>
    rw [step?] at h
    split at h
    · next after hescape =>
      obtain ⟨-, rfl⟩ := Prod.mk.inj (Option.some.inj h)
      unfold afterEscape? at hescape
      split at hescape
      · next heq =>
        split at hescape
        · cases hescape
          rw [heq]
          simp only [List.length_cons]
          omega
        · cases hescape
      · cases hescape
    · split at h
      · next header body hopening =>
        obtain ⟨-, rfl⟩ := Prod.mk.inj (Option.some.inj h)
        have hread := Pattern.length_rest_read_le header body
        unfold opening? at hopening
        split at hopening
        · next heq =>
          have hheader := Header.length_lt_of_read? hopening
          rw [heq]
          simp only [List.length_cons]
          omega
        · cases hopening
      · split at h
        · obtain ⟨-, rfl⟩ := Prod.mk.inj (Option.some.inj h)
          simp
        · obtain ⟨-, rfl⟩ := Prod.mk.inj (Option.some.inj h)
          have := (List.dropWhile_sublist (l := tail) (!isMarker ·)).length_le
          simp only [List.length_cons]
          omega

/-- The pieces of a text in order, each with the text left after it. A malformed pattern is
the last item. -/
def steps (s : List Char) : List (Except PatternError Piece × List Char) :=
  match h : step? s with
  | none => []
  | some (item, rest) =>
    have := length_lt_of_step? h
    (item, rest) :: steps rest
termination_by s.length

/-- The pieces of a text in order; a malformed pattern is the last item. -/
def scan (text : String) : List (Except PatternError Piece) :=
  (steps text.toList).map (·.1)

/-- Neighbouring literals made one. -/
def joinLiterals : List Piece → List Piece
  | [] => []
  | .pattern written :: rest => .pattern written :: joinLiterals rest
  | .literal text :: rest =>
    match joinLiterals rest with
    | .literal next :: more => .literal (text ++ next) :: more
    | more => .literal text :: more

/-- The template that a text writes, or the first malformed pattern in it. -/
def parse (text : String) : Except PatternError Template :=
  ((scan text).mapM id).map fun pieces ↦ ⟨joinLiterals pieces⟩

end Template

end Concord
