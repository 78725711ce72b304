import Concord.Template.Scan
import Concord.Proofs.Traversal

/-!
# Scanning, one step and one character at a time

A step of a scan takes one piece off the front of a text in one of four ways, and `StepsTo` lists
them: an escaped marker, a pattern, a lone marker, or a run of other characters. Every step is one
of these (`stepsTo_of_step?`), and each of them is a step (`StepsTo.step?_eq`).

`readPieces` is the list of pieces that a text reads as, neighbouring literals joined, so that
`parse` wraps it up as a template. `pushPiece` puts one more piece in front of such a list. A step
pushes its piece (`readPieces_of_stepsTo`), and joining makes the length of a run immaterial: a
character that begins neither an escape nor a pattern is pushed by itself
(`readPieces_cons`). Whatever is proved about texts from here on may go character by character.

A scan of a text that parses gives the pieces of its template before they are joined
(`scan_of_parse_ok`), and otherwise it gives pieces and last the malformed pattern
(`scan_of_parse_error`).
-/

set_option autoImplicit false
set_option relaxedAutoImplicit false

namespace Concord

/-- A malformed pattern leaves no text behind it. -/
theorem Pattern.rest_of_read_error {header : Header} {s : List Char} {error : PatternError}
    (h : (read header s).1 = .error error) : (read header s).2 = [] := by
  unfold read at h ⊢
  dsimp only at h ⊢
  split
  · rfl
  · rfl
  · next hclosed =>
    rw [hclosed] at h
    dsimp only at h
    split
    · rfl
    · next hpattern =>
      rw [hpattern] at h
      cases h

namespace Template

/-! ### The ways to take a step -/

/-- A step on a text takes a piece off its front, or fails with a malformed pattern there, and
leaves a rest. -/
inductive StepsTo : List Char → Except PatternError Piece → List Char → Prop
  | escape {c : Char} {rest : List Char} (hmarker : isMarker c = true)
      (hheader : (Header.read? rest).isSome) : StepsTo (c :: '@' :: rest) (.ok (.literal "@")) rest
  | pattern {s body : List Char} {header : Header} (hescape : afterEscape? s = none)
      (hopening : opening? s = some (header, body)) :
      StepsTo s ((Pattern.read header body).1.map .pattern) (Pattern.read header body).2
  | marker {c : Char} {rest : List Char} (hmarker : isMarker c = true)
      (hescape : afterEscape? (c :: rest) = none) (hopening : opening? (c :: rest) = none) :
      StepsTo (c :: rest) (.ok (.literal (String.singleton c))) rest
  | run {c : Char} {tail : List Char} (hmarker : isMarker c = false) :
      StepsTo (c :: tail) (.ok (.literal (String.ofList (c :: tail.takeWhile (!isMarker ·)))))
        (tail.dropWhile (!isMarker ·))

/-- An escape is a marker in front of an `@` that a header follows. -/
theorem afterEscape?_eq_some_iff {s rest : List Char} :
    afterEscape? s = some rest ↔
      ∃ c, isMarker c = true ∧ (Header.read? rest).isSome ∧ s = c :: '@' :: rest := by
  constructor
  · intro h
    unfold afterEscape? at h
    split at h
    · next c tail =>
      split at h
      · next hcond =>
        obtain rfl := Option.some.inj h
        obtain ⟨hmarker, hheader⟩ := Bool.and_eq_true_iff.mp hcond
        exact ⟨c, hmarker, hheader, rfl⟩
      · cases h
    · cases h
  · rintro ⟨c, hmarker, hheader, rfl⟩
    simp [afterEscape?, hmarker, hheader]

/-- A pattern opens with an `@` that a header follows. -/
theorem opening?_eq_some_iff {s body : List Char} {header : Header} :
    opening? s = some (header, body) ↔
      ∃ tail, s = '@' :: tail ∧ Header.read? tail = some (header, body) := by
  constructor
  · intro h
    unfold opening? at h
    split at h
    · next tail => exact ⟨tail, rfl, h⟩
    · cases h
  · rintro ⟨tail, rfl, h⟩
    exact h

/-- Only a marker can begin an escape. -/
theorem afterEscape?_of_not_isMarker {c : Char} (hmarker : isMarker c = false) (s : List Char) :
    afterEscape? (c :: s) = none := by
  rw [Option.eq_none_iff_forall_ne_some]
  intro rest h
  obtain ⟨d, hd, -, hs⟩ := afterEscape?_eq_some_iff.mp h
  obtain rfl := List.head_eq_of_cons_eq hs
  rw [hmarker] at hd
  cases hd

/-- Only `@` can open a pattern. -/
theorem opening?_of_ne {c : Char} (hc : c ≠ '@') (s : List Char) : opening? (c :: s) = none := by
  rw [Option.eq_none_iff_forall_ne_some]
  rintro ⟨header, body⟩ h
  obtain ⟨tail, hs, -⟩ := opening?_eq_some_iff.mp h
  exact hc (List.head_eq_of_cons_eq hs)

/-- A character that is no marker is not `@`. -/
theorem ne_at_of_not_isMarker {c : Char} (hmarker : isMarker c = false) : c ≠ '@' := by
  rintro rfl
  cases hmarker

/-- Every step is taken in one of the four ways. -/
theorem stepsTo_of_step? {s rest : List Char} {item : Except PatternError Piece}
    (h : step? s = some (item, rest)) : StepsTo s item rest := by
  cases s with
  | nil => cases h
  | cons c tail =>
    rw [step?] at h
    split at h
    · next after hescape =>
      obtain ⟨rfl, rfl⟩ := Prod.mk.inj (Option.some.inj h)
      obtain ⟨d, hd, hheader, hs⟩ := afterEscape?_eq_some_iff.mp hescape
      rw [hs]
      exact .escape hd hheader
    · next hescape =>
      split at h
      · next header body hopening =>
        obtain ⟨rfl, rfl⟩ := Prod.mk.inj (Option.some.inj h)
        exact .pattern hescape hopening
      · next hopening =>
        split at h
        · next hmarker =>
          obtain ⟨rfl, rfl⟩ := Prod.mk.inj (Option.some.inj h)
          exact .marker hmarker hescape hopening
        · next hmarker =>
          obtain ⟨rfl, rfl⟩ := Prod.mk.inj (Option.some.inj h)
          exact .run (Bool.eq_false_iff.mpr hmarker)

/-- Each of the four ways is a step. -/
theorem StepsTo.step?_eq {s rest : List Char} {item : Except PatternError Piece}
    (h : StepsTo s item rest) : step? s = some (item, rest) := by
  cases h with
  | @escape c _ hmarker hheader =>
    have hescape : afterEscape? (c :: '@' :: rest) = some rest :=
      afterEscape?_eq_some_iff.mpr ⟨c, hmarker, hheader, rfl⟩
    rw [step?, hescape]
  | pattern hescape hopening =>
    obtain ⟨tail, rfl, -⟩ := opening?_eq_some_iff.mp hopening
    rw [step?, hescape, hopening]
  | marker hmarker hescape hopening =>
    rw [step?, hescape, hopening]
    exact if_pos hmarker
  | @run c tail hmarker =>
    rw [step?, afterEscape?_of_not_isMarker hmarker,
      opening?_of_ne (ne_at_of_not_isMarker hmarker)]
    exact if_neg (by rw [hmarker]; exact Bool.false_ne_true)

/-- A text that is not empty has a first step. -/
theorem exists_stepsTo (c : Char) (s : List Char) :
    ∃ item rest, StepsTo (c :: s) item rest := by
  cases h : step? (c :: s) with
  | some step => exact ⟨step.1, step.2, stepsTo_of_step? h⟩
  | none =>
    rw [step?] at h
    split at h
    · cases h
    · split at h
      · cases h
      · split at h <;> cases h

/-- A step leaves less text than it found. -/
theorem StepsTo.length_lt {s rest : List Char} {item : Except PatternError Piece}
    (h : StepsTo s item rest) : rest.length < s.length :=
  length_lt_of_step? h.step?_eq

/-- A step that fails leaves no text. -/
theorem StepsTo.rest_of_error {s rest : List Char} {error : PatternError}
    (h : StepsTo s (.error error) rest) : rest = [] := by
  generalize hitem : (Except.error error : Except PatternError Piece) = item at h
  cases h with
  | escape => cases hitem
  | marker => cases hitem
  | run => cases hitem
  | pattern =>
    have hfault := congrArg Traversal.fault? hitem
    rw [Traversal.fault?_map] at hfault
    exact Pattern.rest_of_read_error (Traversal.fault?_eq_some_iff.mp hfault.symm)

/-! ### The items of a scan -/

/-- Nothing is left to scan in the empty text. -/
@[simp] theorem steps_nil : steps [] = [] := by
  rw [steps]
  rfl

/-- A scan is a step and the scan of the text left after it. -/
theorem StepsTo.steps_eq {s rest : List Char} {item : Except PatternError Piece}
    (h : StepsTo s item rest) : steps s = (item, rest) :: steps rest := by
  rw [steps]
  split
  · next hnone =>
    rw [h.step?_eq] at hnone
    cases hnone
  · next hsome =>
    rw [h.step?_eq] at hsome
    obtain ⟨rfl, rfl⟩ := Prod.mk.inj (Option.some.inj hsome)
    rfl

/-- Every item of a scan is taken by a step. -/
theorem exists_stepsTo_of_mem_scan {text : String} {item : Except PatternError Piece}
    (h : item ∈ scan text) : ∃ s rest, StepsTo s item rest := by
  obtain ⟨⟨_, rest⟩, hmem, rfl⟩ := List.mem_map.mp h
  clear h
  generalize text.toList = s at hmem
  fun_induction steps s with
  | case1 => cases hmem
  | case2 s first after hstep _ ih =>
    rcases List.mem_cons.mp hmem with heq | hmem
    · obtain ⟨rfl, rfl⟩ := Prod.mk.inj heq
      exact ⟨s, rest, stepsTo_of_step? hstep⟩
    · exact ih hmem

/-- The scan of a text that parses gives pieces only, those of the template before neighbouring
literals are joined. -/
theorem scan_of_parse_ok {text : String} {template : Template}
    (h : parse text = .ok template) :
    ∃ pieces, scan text = pieces.map .ok ∧ template = ⟨joinLiterals pieces⟩ := by
  obtain ⟨pieces, hpieces, rfl⟩ := Traversal.map_eq_ok_iff.mp h
  refine ⟨pieces, ?_, rfl⟩
  rw [← List.forall₂_eq_eq_eq, List.forall₂_map_right_iff]
  exact Traversal.mapM_eq_ok_iff.mp hpieces

/-- The scan of a text that does not parse gives pieces, and last the malformed pattern. -/
theorem scan_of_parse_error {text : String} {error : PatternError}
    (h : parse text = .error error) :
    ∃ pieces : List Piece, scan text = pieces.map .ok ++ [.error error] := by
  have hitems (s : List Char) (hfault : (steps s).findSome? (Traversal.fault? ·.1) = some error) :
      ∃ pieces : List Piece, (steps s).map Prod.fst = pieces.map .ok ++ [.error error] := by
    fun_induction steps s with
    | case1 => cases hfault
    | case2 s item rest hstep _ ih =>
      rw [List.findSome?_cons] at hfault
      cases item with
      | ok piece =>
        obtain ⟨pieces, hpieces⟩ := ih hfault
        exact ⟨piece :: pieces, congrArg (Except.ok piece :: ·) hpieces⟩
      | error found =>
        obtain rfl := Option.some.inj hfault
        obtain rfl := (stepsTo_of_step? hstep).rest_of_error
        exact ⟨[], by rw [steps_nil]; rfl⟩
  have hfault := Traversal.fault?_eq_some_iff.mpr h
  rw [parse, Traversal.fault?_map, Traversal.fault?_mapM, scan, List.findSome?_map] at hfault
  exact hitems text.toList hfault

/-! ### The pieces that a text reads as -/

/-- A piece in front of others: a literal in front of a literal becomes one with it. -/
def pushPiece : Piece → List Piece → List Piece
  | .literal text, .literal next :: more => .literal (text ++ next) :: more
  | first, more => first :: more

/-- The pieces that a text reads as, neighbouring literals joined, or the first malformed pattern
in it. -/
def readPieces (s : List Char) : Except PatternError (List Piece) :=
  ((steps s).mapM Prod.fst).map joinLiterals

/-- A template is what the pieces of its text make. -/
theorem parse_eq_readPieces (text : String) :
    parse text = (readPieces text.toList).map Template.mk := by
  rw [parse, scan, readPieces, List.mapM_map]
  change ((steps text.toList).mapM Prod.fst).map _ = _
  cases (steps text.toList).mapM Prod.fst <;> rfl

/-- Joining literals pushes the first piece in front of the rest. -/
theorem joinLiterals_cons (first : Piece) (rest : List Piece) :
    joinLiterals (first :: rest) = pushPiece first (joinLiterals rest) := by
  cases first with
  | pattern written => rfl
  | literal text =>
    rw [joinLiterals]
    split <;> simp_all [pushPiece]

/-- Pushing two literals is pushing them as one. -/
theorem pushPiece_literal_append (first second : String) (pieces : List Piece) :
    pushPiece (.literal first) (pushPiece (.literal second) pieces) =
      pushPiece (.literal (first ++ second)) pieces := by
  cases pieces with
  | nil => rfl
  | cons next more =>
    cases next with
    | literal text => simp [pushPiece, String.append_assoc]
    | pattern written => rfl

/-- Nothing is read from the empty text. -/
@[simp] theorem readPieces_nil : readPieces [] = .ok [] := by
  rw [readPieces, steps_nil]
  rfl

/-- A text reads as the first piece pushed in front of what the text after it reads as. -/
theorem readPieces_of_stepsTo {s rest : List Char} {piece : Piece}
    (h : StepsTo s (.ok piece) rest) :
    readPieces s = (readPieces rest).map (pushPiece piece) := by
  rw [readPieces, readPieces, h.steps_eq, List.mapM_cons]
  change (do
    let rest ← (steps rest).mapM Prod.fst
    pure (piece :: rest) : Except PatternError (List Piece)).map joinLiterals = _
  cases (steps rest).mapM Prod.fst with
  | error error => rfl
  | ok pieces => exact congrArg Except.ok (joinLiterals_cons piece pieces)

/-- A malformed pattern is all that is read. -/
theorem readPieces_of_stepsTo_error {s rest : List Char} {error : PatternError}
    (h : StepsTo s (.error error) rest) : readPieces s = .error error := by
  rw [readPieces, h.steps_eq]
  rfl

/-- A character that is no marker is pushed by itself, whether or not its run goes on. -/
theorem readPieces_cons_of_not_isMarker {c : Char} (hmarker : isMarker c = false)
    (s : List Char) :
    readPieces (c :: s) = (readPieces s).map (pushPiece (.literal (String.singleton c))) := by
  rw [readPieces_of_stepsTo (.run hmarker)]
  cases s with
  | nil => rfl
  | cons d tail =>
    by_cases hd : isMarker d = true
    · simp [hd]
    · have hd : isMarker d = false := Bool.eq_false_iff.mpr hd
      rw [readPieces_of_stepsTo (.run hd), List.takeWhile_cons_of_pos (by simp [hd]),
        List.dropWhile_cons_of_pos (by simp [hd])]
      cases readPieces (tail.dropWhile (!isMarker ·)) with
      | error error => rfl
      | ok pieces =>
        have hsplit : String.ofList (c :: d :: tail.takeWhile (!isMarker ·)) =
            String.singleton c ++ String.ofList (d :: tail.takeWhile (!isMarker ·)) := by
          rw [String.singleton_eq_ofList, ← String.ofList_append]
          rfl
        rw [hsplit]
        exact congrArg Except.ok (pushPiece_literal_append _ _ _).symm

/-- A character that begins neither an escape nor a pattern is pushed by itself. -/
theorem readPieces_cons {c : Char} {s : List Char} (hescape : afterEscape? (c :: s) = none)
    (hopening : opening? (c :: s) = none) :
    readPieces (c :: s) = (readPieces s).map (pushPiece (.literal (String.singleton c))) := by
  by_cases hmarker : isMarker c = true
  · exact readPieces_of_stepsTo (.marker hmarker hescape hopening)
  · exact readPieces_cons_of_not_isMarker (Bool.eq_false_iff.mpr hmarker) s

end Template

end Concord
