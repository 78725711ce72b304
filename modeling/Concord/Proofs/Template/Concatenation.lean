import Concord.Proofs.Interpolation.OnePass
import Concord.Proofs.Template.Partition

/-!
# Texts cut after a pattern

A text may be cut after the closing brace of a pattern: its parts are scanned on their own as they
are together. A step looks ahead, to see whether a header follows an `@` and how far a run of
literal text goes. It never looks beyond a `{` that is still to come (`StepsTo.append_of_brace`),
and a pattern ends at its own brace whatever follows it (`StepsTo.append_of_pattern`). Every step
of a text that `EndsInPattern` is of one sort or the other, so that more text only adds items to
its scan (`EndsInPattern.steps_append`).

The main statement is `interpolate_append`: the scans of such a text and another are put one after
the other, and so are their interpolations. A text that ends in a literal does not have this
property, as an `@` at its end may find a header in the text that is added.
-/

set_option autoImplicit false
set_option relaxedAutoImplicit false

namespace Concord

/-! ### Headers, bodies and patterns before more text -/

/-- In a text with a `{`, no header is looked for beyond it. -/
theorem Header.read?_append {s : List Char} (hbrace : '{' ∈ s) (t : List Char) :
    read? (s ++ t) = (read? s).map fun found ↦ (found.1, found.2 ++ t) := by
  cases hread : read? s with
  | some found =>
    obtain ⟨header, body⟩ := found
    rw [eq_append_of_read? hread, List.append_assoc, List.cons_append,
      read?_text (wellFormed_of_read? hread)]
    rfl
  | none =>
    rw [Option.map_none, Option.eq_none_iff_forall_ne_some]
    rintro ⟨header, body⟩ hsome
    have hheader := wellFormed_of_read? hsome
    -- The brace after the header is in `s`, since no character of the header is a brace.
    rcases List.append_eq_append_iff.mp (eq_append_of_read? hsome) with
      ⟨word, htext, -⟩ | ⟨word, hword, htail⟩
    · cases isHeaderChar_of_mem_text hheader (htext ▸ List.mem_append_left word hbrace)
    · cases word with
      | nil =>
        rw [hword, List.append_nil] at hbrace
        cases isHeaderChar_of_mem_text hheader hbrace
      | cons c more =>
        obtain ⟨rfl, -⟩ := List.cons.inj htail
        rw [hword, read?_text hheader] at hread
        cases hread

/-- A pattern is the same before more text. -/
theorem Pattern.read_append {header : Header} {s : List Char} {pattern : Pattern}
    (h : (read header s).1 = .ok pattern) (t : List Char) :
    read header (s ++ t) = (.ok pattern, (read header s).2 ++ t) := by
  obtain ⟨units, rest, hwalk, hmade, hrest⟩ := closed_of_read_ok h
  -- The walk stops at the brace and does not look at what follows it.
  have hmore : Body.WalksTo (s ++ t) units ('}' :: (rest ++ t)) := by
    refine ⟨?_, hwalk.units_wellFormed, .inr (.inr ⟨_, .inr rfl⟩)⟩
    rw [hwalk.eq_append, List.append_assoc, List.cons_append]
  rw [hmore.pattern_eq_closed, hmade, hrest]

namespace Template

/-! ### Steps before more text -/

/-- In a text with a `{`, no escape is looked for beyond it. -/
theorem afterEscape?_append {s : List Char} (hbrace : '{' ∈ s) (c : Char) (t : List Char)
    (h : afterEscape? (c :: s) = none) : afterEscape? (c :: (s ++ t)) = none := by
  rw [Option.eq_none_iff_forall_ne_some] at h ⊢
  intro after hafter
  obtain ⟨d, hmarker, hheader, heq⟩ := afterEscape?_eq_some_iff.mp hafter
  obtain ⟨rfl, htail⟩ := List.cons.inj heq
  cases s with
  | nil => cases hbrace
  | cons e tail =>
    obtain ⟨rfl, rfl⟩ : e = '@' ∧ tail ++ t = after := by simpa using htail
    have hmem : '{' ∈ tail := by simpa using hbrace
    rw [Header.read?_append hmem, Option.isSome_map] at hheader
    exact h tail (afterEscape?_eq_some_iff.mpr ⟨c, hmarker, hheader, rfl⟩)

/-- In a text with a `{`, a pattern that begins no later is opened as it is before more text. -/
theorem opening?_append {s : List Char} (hbrace : '{' ∈ s) (c : Char) (t : List Char) :
    opening? (c :: (s ++ t)) =
      (opening? (c :: s)).map fun found ↦ (found.1, found.2 ++ t) := by
  by_cases hc : c = '@'
  · subst hc
    exact Header.read?_append hbrace t
  · rw [opening?_of_ne hc, opening?_of_ne hc]
    rfl

/-- A step that takes a pattern takes the same pattern before more text. -/
theorem StepsTo.append_of_pattern {s rest : List Char} {written : Pattern}
    (h : StepsTo s (.ok (.pattern written)) rest) (t : List Char) :
    StepsTo (s ++ t) (.ok (.pattern written)) (rest ++ t) := by
  generalize hitem : (Except.ok (.pattern written) : Except PatternError Piece) = item at h
  cases h with
  | escape => cases hitem
  | marker => cases hitem
  | run => cases hitem
  | @pattern _ body header hescape hopening =>
    obtain ⟨found, hread, hfound⟩ := Traversal.map_eq_ok_iff.mp hitem.symm
    obtain rfl := Piece.pattern.inj hfound
    obtain ⟨tail, rfl, hheader⟩ := opening?_eq_some_iff.mp hopening
    have hbrace : '{' ∈ tail := by simp [Header.eq_append_of_read? hheader]
    have hopening' := opening?_append hbrace '@' t
    rw [hopening] at hopening'
    have hstep := StepsTo.pattern (afterEscape?_append hbrace '@' t hescape) hopening'
    rw [Pattern.read_append hread] at hstep
    rwa [hread]

/-- A step with a `{` still to come takes the same piece before more text. -/
theorem StepsTo.append_of_brace {s rest : List Char} {piece : Piece}
    (h : StepsTo s (.ok piece) rest) (hbrace : '{' ∈ rest) (t : List Char) :
    StepsTo (s ++ t) (.ok piece) (rest ++ t) := by
  cases piece with
  | pattern written => exact h.append_of_pattern t
  | literal text =>
    generalize hitem : (Except.ok (.literal text) : Except PatternError Piece) = item at h
    cases h with
    | escape hmarker hheader =>
      obtain rfl := Piece.literal.inj (Except.ok.inj hitem)
      have happend : (Header.read? (rest ++ t)).isSome := by
        rwa [Header.read?_append hbrace, Option.isSome_map]
      exact .escape hmarker happend
    | pattern =>
      obtain ⟨found, -, hfound⟩ := Traversal.map_eq_ok_iff.mp hitem.symm
      cases hfound
    | @marker c _ hmarker hescape hopening =>
      obtain rfl := Piece.literal.inj (Except.ok.inj hitem)
      have happend : opening? (c :: (rest ++ t)) = none := by
        rw [opening?_append hbrace, hopening]
        rfl
      exact .marker hmarker (afterEscape?_append hbrace c t hescape) happend
    | @run c tail hmarker =>
      -- The run ends before the text does, since the rest has a character.
      obtain rfl := Piece.literal.inj (Except.ok.inj hitem)
      have hdrop : tail.dropWhile (!isMarker ·) ≠ [] := List.ne_nil_of_mem hbrace
      have hrun : StepsTo (c :: (tail ++ t)) _ _ := .run hmarker
      rw [List.dropWhile_append, if_neg (by simpa using hdrop), List.takeWhile_append,
        if_neg] at hrun
      · exact hrun
      · intro hlength
        have hself := (List.takeWhile_prefix _).eq_of_length hlength
        exact hdrop (List.dropWhile_eq_nil_iff.mpr (List.takeWhile_eq_self_iff.mp hself))

/-! ### Texts that end in a pattern -/

/-- The text scans without a malformed pattern, and the last piece of the scan is a pattern. -/
inductive EndsInPattern : List Char → Prop
  | last {s : List Char} {written : Pattern} (hstep : StepsTo s (.ok (.pattern written)) []) :
      EndsInPattern s
  | step {s rest : List Char} {piece : Piece} (hstep : StepsTo s (.ok piece) rest)
      (hrest : EndsInPattern rest) : EndsInPattern s

/-- A scan that ends in a pattern is that of a text that does. -/
theorem endsInPattern_of_steps {s : List Char} {pieces : List Piece} {written : Pattern}
    (hsteps : (steps s).map Prod.fst = pieces.map .ok)
    (hlast : pieces.getLast? = some (.pattern written)) : EndsInPattern s := by
  fun_induction steps s generalizing pieces with
  | case1 =>
    obtain rfl := List.map_eq_nil_iff.mp hsteps.symm
    cases hlast
  | case2 s item rest hstep _ ih =>
    have hstep := stepsTo_of_step? hstep
    cases pieces with
    | nil => cases hsteps
    | cons first more =>
      obtain ⟨rfl, hmore⟩ := List.cons.inj hsteps
      cases more with
      | nil =>
        obtain rfl := Option.some.inj hlast
        have hnil := List.map_eq_nil_iff.mp hmore
        cases rest with
        | nil => exact .last hstep
        | cons c tail =>
          obtain ⟨_, _, hnext⟩ := exists_stepsTo c tail
          rw [hnext.steps_eq] at hnil
          cases hnil
      | cons second others => exact .step hstep (ih hmore hlast)

namespace EndsInPattern

variable {s : List Char}

/-- A text that ends in a pattern has a `{`. -/
theorem brace_mem (h : EndsInPattern s) : '{' ∈ s := by
  induction h with
  | last hstep =>
    obtain ⟨⟨header, body⟩, hopening⟩ := Option.isSome_iff_exists.mp hstep.wellFormed_of_pattern.2
    simp [eq_of_opening? hopening]
  | step hstep _ ih =>
    obtain ⟨taken, -, rfl, -⟩ := hstep.exists_taken
    exact List.mem_append_right taken ih

/-- More text after a text that ends in a pattern leaves its items as they are, and adds its
own. -/
theorem steps_append (h : EndsInPattern s) (t : List Char) :
    steps (s ++ t) = (steps s).map (fun step ↦ (step.1, step.2 ++ t)) ++ steps t := by
  induction h with
  | last hstep =>
    rw [hstep.steps_eq, (hstep.append_of_pattern t).steps_eq, steps_nil]
    rfl
  | step hstep hrest ih =>
    rw [hstep.steps_eq, (hstep.append_of_brace hrest.brace_mem t).steps_eq, ih]
    rfl

end EndsInPattern

/-- A text that scans without a malformed pattern up to a pattern at its end, and any other text:
together they scan to the items of the first and then those of the second. They interpolate to the
text of the first with that of the second after it, and where one of them fails, to its error, or to
the first one's where both do. -/
theorem interpolate_append {first : String} {pieces : List Piece} {written : Pattern}
    (hscan : scan first = pieces.map .ok) (hlast : pieces.getLast? = some (.pattern written))
    (second : String) :
    scan (first ++ second) = scan first ++ scan second ∧
      ∀ context : Context,
        context.interpolate (first ++ second) = do
          let text ← context.interpolate first
          let more ← context.interpolate second
          return text ++ more := by
  have happend : scan (first ++ second) = scan first ++ scan second := by
    have hends := endsInPattern_of_steps hscan hlast
    rw [scan, scan, scan, String.toList_append, hends.steps_append, List.map_append, List.map_map]
    rfl
  refine ⟨happend, fun context ↦ ?_⟩
  rw [Context.interpolate, Context.interpolate, Context.interpolate, happend, List.mapM_append]
  cases (scan first).mapM context.resolveItem with
  | error failure => rfl
  | ok texts =>
    cases (scan second).mapM context.resolveItem with
    | error failure => rfl
    | ok more => exact congrArg Except.ok String.join_append

open Context in
theorem interpolate_append_letter :
    ∃ (pieces : List Piece) (written : Pattern), scan letter = pieces.map .ok ∧
      pieces.getLast? = some (.pattern written) ∧
      scan (letter ++ torn) = scan letter ++ scan torn ∧
      strict.interpolate (letter ++ letter) = .ok
        "Dear @{reader}, MadamDear @{reader}, Madam" ∧
      strict.interpolate (letter ++ torn) = strict.interpolate torn := by
  let pieces := (scan letter).filterMap Except.toOption
  let written : Pattern :=
    ⟨.named "gender", [⟨[[.name "f"]], false, .literal "Madam"⟩], some (.literal "All"),
      "@gender{f:Madam|All}"⟩
  have hscan : scan letter = pieces.map .ok := by decide +kernel
  have hlast : pieces.getLast? = some (.pattern written) := by decide +kernel
  have hletter : strict.interpolate letter = .ok "Dear @{reader}, Madam" := by decide +kernel
  obtain ⟨-, htwice⟩ := interpolate_append hscan hlast letter
  obtain ⟨happend, hfails⟩ := interpolate_append hscan hlast torn
  have htorn : strict.interpolate torn =
      .error (.resolution ⟨"@number{one:alone}", .unknownKind "number"⟩) := by decide +kernel
  refine ⟨pieces, written, hscan, hlast, happend, ?_, ?_⟩
  · rw [htwice strict, hletter]
    rfl
  · rw [hfails strict, hletter, htorn]
    rfl

/-- The text of a literal at the end may be a part of what follows it. -/
example : scan ("to a@" ++ "{f:her}") ≠ scan "to a@" ++ scan "{f:her}" := by
  decide +kernel

end Template

end Concord
