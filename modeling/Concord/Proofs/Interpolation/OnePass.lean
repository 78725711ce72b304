import Concord.Interpolation
import Concord.Proofs.Template.Scanning

/-!
# Interpolating in one pass

Interpolation resolves the items of a scan as they come; parsing first joins neighbouring literals
and gives up at a malformed pattern. The main statement is `interpolate_agrees_with_parse`: the
text or error is the same either way, where a malformed pattern gives way to a pattern before it
that cannot be resolved. Joining literals does not change what a template resolves to
(`resolve_joinLiterals`), and a template fails with the error of its first pattern that cannot be
resolved (`fault?_resolve`).
-/

set_option autoImplicit false
set_option relaxedAutoImplicit false

namespace Concord

/-- The error of the first of the patterns that cannot be resolved, if there is one. -/
def Context.firstError? (context : Context) (patterns : List Pattern) : Option ResolutionError :=
  patterns.findSome? fun pattern ↦ Traversal.fault? (pattern.resolve context)

namespace Template

variable {context : Context}

/-! ### Resolving joined literals -/

/-- The first piece of a template is resolved, then the others. -/
theorem resolve_cons (first : Piece) (rest : List Piece) :
    Template.resolve context ⟨first :: rest⟩ =
      (first.resolve context).bind fun text ↦
        (Template.resolve context ⟨rest⟩).map (text ++ ·) := by
  rw [resolve, resolve, Traversal.mapM_cons_eq]
  cases first.resolve context with
  | error error => rfl
  | ok text =>
    cases rest.mapM (Piece.resolve context) with
    | error error => rfl
    | ok texts => exact congrArg Except.ok String.join_cons

/-- A literal may be joined to the literal after it. -/
theorem resolve_pushPiece (first : Piece) (pieces : List Piece) :
    Template.resolve context ⟨pushPiece first pieces⟩ =
      Template.resolve context ⟨first :: pieces⟩ := by
  unfold pushPiece
  split
  · next text next more =>
    rw [resolve_cons, resolve_cons, resolve_cons]
    cases Template.resolve context ⟨more⟩ with
    | error error => rfl
    | ok rest => exact congrArg Except.ok String.append_assoc
  · rfl

/-- Joined literals resolve to the same text or error. -/
theorem resolve_joinLiterals (pieces : List Piece) :
    Template.resolve context ⟨joinLiterals pieces⟩ = Template.resolve context ⟨pieces⟩ := by
  induction pieces with
  | nil => rfl
  | cons first rest ih => rw [joinLiterals_cons, resolve_pushPiece, resolve_cons, resolve_cons, ih]

/-- A template fails with the error of its first pattern that cannot be resolved. -/
theorem fault?_resolve (template : Template) :
    Traversal.fault? (template.resolve context) = context.firstError? template.patterns := by
  rw [resolve, Traversal.fault?_map, Traversal.fault?_mapM, Context.firstError?, patterns,
    ← List.head?_filterMap, ← List.head?_filterMap, List.filterMap_filterMap]
  congr 2
  funext piece
  cases piece <;> rfl

end Template

namespace Context

variable {context : Context}

/-! ### Interpolating the items of a scan -/

/-- A text interpolates to the same in another context if each of its patterns resolves to the
same there. -/
theorem interpolate_congr {other : Context} {text : String}
    (h : ∀ pattern, .ok (.pattern pattern) ∈ Template.scan text →
      pattern.resolve other = pattern.resolve context) :
    other.interpolate text = context.interpolate text := by
  have hitem : ∀ item ∈ Template.scan text,
      other.resolveItem item = (context.resolveItem item).map id := by
    intro item hmem
    rw [Except.map_id, id]
    cases item with
    | error error => rfl
    | ok piece =>
      cases piece with
      | literal text => rfl
      | pattern pattern => exact congrArg (Except.mapError Failure.resolution) (h pattern hmem)
  have hitems := Traversal.mapM_eq_map_mapM hitem
  rw [List.map_id_fun, Except.map_id, id] at hitems
  rw [interpolate, interpolate, hitems]

/-- The pieces of a scan are resolved one after the other. -/
theorem mapM_resolveItem (pieces : List Piece) :
    (pieces.map .ok).mapM context.resolveItem =
      (pieces.mapM (Piece.resolve context)).mapError .resolution := by
  rw [List.mapM_map, ← Traversal.mapM_mapError]
  rfl

/-- A scan of pieces only interpolates to what the template of these pieces resolves to. -/
theorem interpolate_of_scan {text : String} {pieces : List Piece}
    (h : Template.scan text = pieces.map .ok) :
    context.interpolate text = (Template.resolve context ⟨pieces⟩).mapError .resolution := by
  rw [interpolate, h, mapM_resolveItem, Template.resolve]
  cases pieces.mapM (Piece.resolve context) <;> rfl

/-- A malformed pattern is reported if all patterns before it can be resolved. -/
theorem interpolate_of_scan_error {text : String} {pieces : List Piece} {error : PatternError}
    (h : Template.scan text = pieces.map .ok ++ [.error error]) :
    context.interpolate text =
      .error ((Traversal.fault? (Template.resolve context ⟨pieces⟩)).elim (.pattern error)
        .resolution) := by
  rw [interpolate, h, List.mapM_append, mapM_resolveItem, Template.resolve, Traversal.fault?_map]
  cases pieces.mapM (Piece.resolve context) <;> rfl

/-- A text that parses interpolates to what its template resolves to, be it a text or an error. A
text that does not parse never interpolates to a text: the error is that of the first pattern
before the malformed one that cannot be resolved, and if there is none that of the malformed one. -/
theorem interpolate_agrees_with_parse (context : Context) (text : String) :
    (∀ template, Template.parse text = .ok template →
        context.interpolate text = (template.resolve context).mapError .resolution) ∧
      ∀ error, Template.parse text = .error error →
        ∃ pieces : List Piece, Template.scan text = pieces.map .ok ++ [.error error] ∧
          context.interpolate text =
            .error ((context.firstError? (pieces.filterMap Piece.pattern?)).elim
              (.pattern error) .resolution) := by
  constructor
  · intro template hparse
    obtain ⟨pieces, hscan, rfl⟩ := Template.scan_of_parse_ok hparse
    rw [interpolate_of_scan hscan, Template.resolve_joinLiterals]
  · intro error hparse
    obtain ⟨pieces, hscan⟩ := Template.scan_of_parse_error hparse
    refine ⟨pieces, hscan, ?_⟩
    rw [interpolate_of_scan_error hscan, Template.fault?_resolve]
    rfl

/-- A context with a token of one kind, in which errors are raised. -/
def strict : Context where
  lexicon :=
    { locale := "en"
      tokens := [⟨"f", "female", "gender"⟩]
      kinds := Std.ExtTreeMap.insert ∅ "gender"
        { name := "gender", tokens := [0], aliases := ∅, default? := none }
      names := Std.ExtTreeMap.insert ∅ "f" ⟨0, false⟩ }
  options := Options.insert {} "gender" (.token "f")
  switches := { raises := true }

/-- A template whose scan gives an escaped marker between two literals. -/
def letter : String := "Dear @@{reader}, @gender{f:Madam|All}"

/-- A template with a pattern of an unknown kind in front of one that does not end. -/
def torn : String := r"It is @number{one:alone} with @gender{f:her"

theorem interpolate_agrees_with_parse_letter :
    (∃ template, Template.parse letter = .ok template ∧
        strict.interpolate letter = (template.resolve strict).mapError .resolution ∧
        (strict.interpolate letter).toOption = some "Dear @{reader}, Madam") ∧
      ∃ error, Template.parse torn = .error error ∧
        (∃ pieces : List Piece, Template.scan torn = pieces.map .ok ++ [.error error] ∧
          strict.interpolate torn =
            .error ((strict.firstError? (pieces.filterMap Piece.pattern?)).elim
              (.pattern error) .resolution)) ∧
        Traversal.fault? (strict.interpolate torn) =
          some (.resolution ⟨"@number{one:alone}", .unknownKind "number"⟩) := by
  have hletter : (Template.parse letter).toOption.isSome = true := by decide +kernel
  have htorn : Traversal.fault? (Template.parse torn) = some ⟨r"@gender{f:her", .unclosed⟩ := by
    decide +kernel
  obtain ⟨template, htemplate⟩ := Traversal.exists_eq_ok_of_isSome_toOption hletter
  have herror := Traversal.fault?_eq_some_iff.mp htorn
  constructor
  · exact ⟨template, htemplate, (interpolate_agrees_with_parse strict letter).1 template htemplate,
      by decide +kernel⟩
  · exact ⟨_, herror, (interpolate_agrees_with_parse strict torn).2 _ herror, by decide +kernel⟩

end Context

end Concord
