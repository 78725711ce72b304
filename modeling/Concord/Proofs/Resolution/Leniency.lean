import Concord.Proofs.Interpolation.OnePass

/-!
# Errors raised and not raised

Two interpolations of one text that differ only in whether errors are raised. `Excuses` compares
the results: the one in which errors are not raised gives a value, and the same value as the other
if that gives one at all. Every stage of a resolution is excused by its relaxed counterpart, from a
single refusal (`excuses_refuse`) to a whole template (`excuses_resolve`). The main statement is
`interpolate_of_not_raises`: raising errors takes texts away and changes none, and when errors are
not raised, all that can be wrong with a text is a malformed pattern.
-/

set_option autoImplicit false
set_option relaxedAutoImplicit false

namespace Concord

variable {ε α β : Type}

/-- The lenient computation gives a value, and the strict one gives no other. -/
def Excuses (lenient strict : Except ε α) : Prop :=
  ∃ value, lenient = .ok value ∧ ∀ other, strict = .ok other → other = value

/-! ### Laws of excusing -/

namespace Excuses

theorem ok (value : α) : Excuses (.ok value : Except ε α) (.ok value) :=
  ⟨value, rfl, fun _ h ↦ (Except.ok.inj h).symm⟩

theorem error (value : α) (fault : ε) : Excuses (.ok value) (.error fault) :=
  ⟨value, rfl, fun _ h ↦ nomatch h⟩

theorem map (f : α → β) {lenient strict : Except ε α} (h : Excuses lenient strict) :
    Excuses (lenient.map f) (strict.map f) := by
  obtain ⟨value, rfl, hstrict⟩ := h
  refine ⟨f value, rfl, fun other hother ↦ ?_⟩
  obtain ⟨source, hsource, rfl⟩ := Traversal.map_eq_ok_iff.mp hother
  rw [hstrict source hsource]

theorem mapError {δ : Type} (rename : ε → δ) {lenient strict : Except ε α}
    (h : Excuses lenient strict) : Excuses (lenient.mapError rename) (strict.mapError rename) := by
  obtain ⟨value, rfl, hstrict⟩ := h
  refine ⟨value, rfl, fun other hother ↦ ?_⟩
  cases strict with
  | error fault => cases hother
  | ok found => exact (Except.ok.inj hother).symm.trans (hstrict found rfl)

/-- Two stages in a row are excused one by one. -/
theorem bind {lenient strict : Except ε α} {next other : α → Except ε β}
    (h : Excuses lenient strict) (hnext : ∀ value, Excuses (next value) (other value)) :
    Excuses (lenient.bind next) (strict.bind other) := by
  obtain ⟨value, rfl, hstrict⟩ := h
  obtain ⟨result, hresult, hother⟩ := hnext value
  refine ⟨result, hresult, fun found hfound ↦ ?_⟩
  obtain ⟨source, hsource, hrest⟩ := Traversal.bind_eq_ok_iff.mp hfound
  rw [hstrict source hsource] at hrest
  exact hother found hrest

/-- A traversal is excused entry by entry. -/
theorem mapM {f g : α → Except ε β} (h : ∀ entry, Excuses (f entry) (g entry))
    (source : List α) : Excuses (source.mapM f) (source.mapM g) := by
  induction source with
  | nil => exact ok []
  | cons first rest ih =>
    rw [Traversal.mapM_cons_eq, Traversal.mapM_cons_eq]
    exact (h first).bind fun value ↦ ih.bind fun values ↦ ok (value :: values)

end Excuses

namespace Context

/-- The context in which errors are not raised. -/
def relaxed (context : Context) : Context :=
  { context with switches := { context.switches with raises := false } }

variable (context : Context)

@[simp] theorem lexicon_relaxed : context.relaxed.lexicon = context.lexicon := rfl

@[simp] theorem aliasedPatterns_relaxed :
    context.relaxed.switches.aliasedPatterns = context.switches.aliasedPatterns := rfl

/-! ### The stages of a resolution -/

/-- A refusal is excused by its substitute. -/
theorem excuses_refuse (problem : Problem) (substitute : α) :
    Excuses (context.relaxed.refuse problem substitute) (context.refuse problem substitute) := by
  unfold refuse
  split
  · next hraises => cases hraises
  · split
    · exact .error substitute problem
    · exact .ok substitute

theorem excuses_kindsNamed (names : List String) :
    Excuses (context.relaxed.kindsNamed names) (context.kindsNamed names) := by
  rw [kindsNamed, kindsNamed, lexicon_relaxed]
  cases names.find? fun name ↦ (context.lexicon.kind? name).isNone with
  | none => exact .ok _
  | some missing => exact context.excuses_refuse _ _

theorem excuses_kindsOf (pattern : Pattern) :
    Excuses (context.relaxed.kindsOf pattern) (context.kindsOf pattern) := by
  rw [kindsOf, kindsOf, lexicon_relaxed, aliasedPatterns_relaxed]
  cases pattern.header with
  | named kind => exact context.excuses_kindsNamed [kind]
  | complex kinds => exact context.excuses_kindsNamed kinds
  | inferred =>
    cases pattern.inferredKind? context.lexicon context.switches.aliasedPatterns with
    | some kind => exact .ok _
    | none =>
      cases pattern.names with
      | nil => exact .ok _
      | cons first rest => exact context.excuses_refuse _ _

theorem excuses_criterion (kind : Kind) (matcher : Matcher) :
    Excuses (context.relaxed.criterion kind matcher) (context.criterion kind matcher) := by
  cases matcher with
  | any => exact .ok _
  | name token =>
    rw [criterion, criterion, lexicon_relaxed, aliasedPatterns_relaxed]
    cases context.lexicon.resolve? token with
    | none => exact context.excuses_refuse _ _
    | some resolved =>
      dsimp only
      split
      · exact context.excuses_refuse _ _
      · split
        · exact context.excuses_refuse _ _
        · exact .ok _

theorem excuses_criteria (kinds : List Kind) (entry : List Matcher) :
    Excuses (context.relaxed.criteria kinds entry) (context.criteria kinds entry) :=
  .mapM (fun _ ↦ context.excuses_criterion _ _) _

theorem excuses_candidate (kinds : List Kind) (segment : Segment) :
    Excuses (context.relaxed.candidate kinds segment) (context.candidate kinds segment) :=
  .map _ (.mapM (context.excuses_criteria kinds) segment.group)

/-- When errors are not raised, nothing is asked of the options. -/
theorem firstUnmet?_relaxed (kinds : List Kind) (candidates : List Candidate) :
    context.relaxed.firstUnmet? kinds candidates = none :=
  if_neg Bool.false_ne_true

/-- Once the segments are looked up, the choice among them does not depend on whether errors are
raised. -/
theorem choose_relaxed (kinds : List Kind) (candidates : List Candidate) (pattern : Pattern) :
    context.relaxed.choose kinds candidates pattern = context.choose kinds candidates pattern :=
  rfl

theorem excuses_resolveUnder (kinds : List Kind) (pattern : Pattern) :
    Excuses (context.relaxed.resolveUnder kinds pattern) (context.resolveUnder kinds pattern) := by
  refine .bind (.mapM (context.excuses_candidate kinds) pattern.segments) fun candidates ↦ ?_
  rw [firstUnmet?_relaxed, choose_relaxed]
  cases context.firstUnmet? kinds candidates with
  | none => exact .ok _
  | some problem => exact .error _ problem

theorem excuses_resolveBody (pattern : Pattern) :
    Excuses (context.relaxed.resolveBody pattern) (context.resolveBody pattern) := by
  refine .bind (context.excuses_kindsOf pattern) fun kinds? ↦ ?_
  cases kinds? with
  | none => exact .ok _
  | some kinds => exact context.excuses_resolveUnder kinds pattern

theorem excuses_resolvePiece (piece : Piece) :
    Excuses (piece.resolve context.relaxed) (piece.resolve context) := by
  cases piece with
  | literal text => exact .ok text
  | pattern written => exact .mapError _ (context.excuses_resolveBody written)

/-- A template is excused by its resolution in the relaxed context. -/
theorem excuses_resolve (template : Template) :
    Excuses (template.resolve context.relaxed) (template.resolve context) :=
  .map _ (.mapM context.excuses_resolvePiece template.pieces)

/-! ### Errors not raised -/

section NotRaised

variable {context} (hraises : context.switches.raises = false)

include hraises

theorem relaxed_eq_self : context.relaxed = context := by
  rw [relaxed, ← hraises]

/-- When errors are not raised, segments are looked up without a problem. -/
theorem fault?_candidates_of_not_raises (kinds : List Kind) (segments : List Segment) :
    Traversal.fault? (segments.mapM (context.candidate kinds)) = none := by
  obtain ⟨candidates, hcandidates, -⟩ := Excuses.mapM (context.excuses_candidate kinds) segments
  rw [relaxed_eq_self hraises] at hcandidates
  exact Traversal.fault?_eq_none_iff.mpr ⟨candidates, hcandidates⟩

/-- When errors are not raised, every pattern resolves to some text. -/
theorem exists_resolve_of_not_raises (pattern : Pattern) :
    ∃ text, pattern.resolve context = .ok text := by
  obtain ⟨text, htext, -⟩ := context.excuses_resolvePiece (.pattern pattern)
  rw [relaxed_eq_self hraises] at htext
  exact ⟨text, htext⟩

end NotRaised

/-! ### Interpolation -/

/-- The interpolation of a text that parses is excused by the relaxed one. -/
theorem excuses_interpolate {text : String} {template : Template}
    (h : Template.parse text = .ok template) :
    Excuses (context.relaxed.interpolate text) (context.interpolate text) := by
  obtain ⟨pieces, hscan, -⟩ := Template.scan_of_parse_ok h
  rw [interpolate_of_scan hscan, interpolate_of_scan hscan]
  exact (context.excuses_resolve ⟨pieces⟩).mapError _

/-- When errors are not raised, a text that does not parse fails with its malformed pattern. -/
theorem interpolate_relaxed_of_parse_error {text : String} {error : PatternError}
    (h : Template.parse text = .error error) :
    context.relaxed.interpolate text = .error (.pattern error) := by
  obtain ⟨pieces, hscan⟩ := Template.scan_of_parse_error h
  obtain ⟨value, hvalue, -⟩ := context.excuses_resolve ⟨pieces⟩
  rw [interpolate_of_scan_error hscan, hvalue]
  rfl

/-- Take any text, lexicon and options, and switches that differ only in whether errors are raised.
A text given when errors are raised is given when they are not. When they are not, a pattern that
cannot be resolved is never the error, and there is a text just if the template parses. -/
theorem interpolate_of_not_raises (lexicon : Lexicon) (options : Options) (switches : Switches)
    (text : String) :
    (∀ result,
        interpolate ⟨lexicon, options, { switches with raises := true }⟩ text = .ok result →
          interpolate ⟨lexicon, options, { switches with raises := false }⟩ text = .ok result) ∧
      (∀ error, interpolate ⟨lexicon, options, { switches with raises := false }⟩ text ≠
        .error (.resolution error)) ∧
      ((∃ result,
          interpolate ⟨lexicon, options, { switches with raises := false }⟩ text = .ok result) ↔
        ∃ template, Template.parse text = .ok template) := by
  let context : Context := ⟨lexicon, options, { switches with raises := true }⟩
  change (∀ result, context.interpolate text = .ok result →
      context.relaxed.interpolate text = .ok result) ∧
    (∀ error, context.relaxed.interpolate text ≠ .error (.resolution error)) ∧
    ((∃ result, context.relaxed.interpolate text = .ok result) ↔ _)
  cases hparse : Template.parse text with
  | ok template =>
    obtain ⟨value, hrelaxed, hraised⟩ := context.excuses_interpolate hparse
    rw [hrelaxed]
    refine ⟨?_, ?_, ?_⟩
    · intro result hresult
      rw [hraised result hresult]
    · intro error herror
      cases herror
    · exact ⟨fun _ ↦ ⟨template, rfl⟩, fun _ ↦ ⟨value, rfl⟩⟩
  | error error =>
    obtain ⟨pieces, hscan⟩ := Template.scan_of_parse_error hparse
    rw [context.interpolate_relaxed_of_parse_error hparse, interpolate_of_scan_error hscan]
    refine ⟨?_, ?_, ?_⟩
    · intro result hresult
      cases hresult
    · intro problem hproblem
      cases Except.error.inj hproblem
    · constructor
      · rintro ⟨result, hresult⟩
        cases hresult
      · rintro ⟨template, htemplate⟩
        cases htemplate

/-- A template with a pattern of an unknown kind, and nothing malformed. -/
def census : String := "She lives @number{one:alone|}with @gender{f:her}"

theorem interpolate_of_not_raises_letter :
    (strict.interpolate letter = .ok "Dear @{reader}, Madam" ∧
        strict.relaxed.interpolate letter = .ok "Dear @{reader}, Madam") ∧
      (strict.interpolate census =
          .error (.resolution ⟨"@number{one:alone|}", .unknownKind "number"⟩) ∧
        strict.relaxed.interpolate census = .ok "She lives with her" ∧
          ∃ template, Template.parse census = .ok template) ∧
      strict.interpolate torn =
          .error (.resolution ⟨"@number{one:alone}", .unknownKind "number"⟩) ∧
        strict.relaxed.interpolate torn = .error (.pattern ⟨r"@gender{f:her", .unclosed⟩) ∧
          ∀ error, strict.relaxed.interpolate torn ≠ .error (.resolution error) := by
  have hletter : strict.interpolate letter = .ok "Dear @{reader}, Madam" := by decide +kernel
  have hcensus : strict.relaxed.interpolate census = .ok "She lives with her" := by
    decide +kernel
  obtain ⟨hsame, -, -⟩ := interpolate_of_not_raises strict.lexicon strict.options {} letter
  obtain ⟨-, -, htext⟩ := interpolate_of_not_raises strict.lexicon strict.options {} census
  obtain ⟨-, hnever, -⟩ := interpolate_of_not_raises strict.lexicon strict.options {} torn
  exact ⟨⟨hletter, hsame _ hletter⟩, ⟨by decide +kernel, hcensus, htext.mp ⟨_, hcensus⟩⟩,
    by decide +kernel, by decide +kernel, hnever⟩

end Context

end Concord
