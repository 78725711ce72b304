import Concord.Proofs.Grammar.Validity
import Concord.Proofs.Lexicon.Extension
import Concord.Proofs.Resolution.Requests

/-!
# Resolving under new ids

A resolution reads ids off a lexicon, compares them with each other and turns them into
descriptions in the end; which numbers they are never matters. So a lexicon may give way to a larger
one that it is embedded in (`Lexicon.EmbedsBy`): every stage of the resolution gives what it gave,
with the new ids for the old (`kindsOf_withLexicon`, `candidate_withLexicon`), and the text or error
is the same (`resolve_withLexicon`). This holds for patterns whose kinds and names the smaller
lexicon has (`Pattern.KnownTo`); the caller's options may name anything. The main statement is
`Grammar.ExtendedBy.preserves_interpolate`: adding kinds to a grammar changes neither what the
lexicon says about the old kinds nor the text of any template about them.
-/

set_option autoImplicit false
set_option relaxedAutoImplicit false

namespace Concord

/-! ### Renumbered candidates -/

/-- The criterion with a new id for the id that it asks for. -/
def Criterion.renumber (rename : TokenId → TokenId) : Criterion → Criterion
  | .only id => .only (rename id)
  | .present => .present
  | .impossible => .impossible

/-- The candidate with new ids in its criteria. -/
def Candidate.renumber (rename : TokenId → TokenId) (candidate : Candidate) : Candidate :=
  { candidate with entries := candidate.entries.map (List.map (Criterion.renumber rename)) }

/-- The request with a new id for the token that it asks for. -/
def Request.renumber (rename : TokenId → TokenId) : Request → Request
  | .known id => .known (rename id)
  | request => request

@[simp] theorem Request.known?_renumber (rename : TokenId → TokenId) (request : Request) :
    (request.renumber rename).known? = request.known?.map rename := by
  cases request <;> rfl

section Fits

variable {rename : TokenId → TokenId} (hrename : Function.Injective rename)

include hrename

/-- A criterion is met under new ids if it was under the old ones. -/
theorem Criterion.fits_renumber (criterion : Criterion) (token? : Option TokenId) :
    (criterion.renumber rename).fits (token?.map rename) = criterion.fits token? := by
  cases criterion with
  | only id => cases token? <;> simp [renumber, fits, hrename.eq_iff]
  | present => exact Option.isSome_map
  | impossible => rfl

/-- An entry fits under new ids if it did under the old ones. -/
theorem entryFits_renumber (tokens : List (Option TokenId)) (entry : List Criterion) :
    entryFits (tokens.map (Option.map rename)) (entry.map (Criterion.renumber rename)) =
      entryFits tokens entry := by
  rw [entryFits, List.zip_map, List.all_map]
  exact congrArg _ (funext fun pair ↦ pair.1.fits_renumber hrename pair.2)

/-- A candidate fits under new ids if it did under the old ones. -/
theorem Candidate.fits_renumber (tokens : List (Option TokenId)) (candidate : Candidate) :
    (candidate.renumber rename).fits (tokens.map (Option.map rename)) =
      candidate.fits tokens := by
  rw [fits, renumber, List.any_map, fits]
  congr 2
  exact funext (entryFits_renumber hrename tokens)

/-- A token is named under its new id if it was under the old one. -/
theorem isNamedAt_renumber (candidates : List Candidate) (position : Nat) (id : TokenId) :
    isNamedAt (candidates.map (Candidate.renumber rename)) position (rename id) =
      isNamedAt candidates position id := by
  have hcriterion (criterion : Criterion) :
      criterion.renumber rename = .only (rename id) ↔ criterion = .only id := by
    cases criterion <;> simp [Criterion.renumber, hrename.eq_iff]
  rw [isNamedAt, List.any_map, isNamedAt]
  refine List.any_congr rfl fun candidate ↦ ?_
  rw [Function.comp_apply, Candidate.renumber, List.any_map]
  refine List.any_congr rfl fun entry ↦ ?_
  rw [Function.comp_apply, List.getElem?_map, decide_eq_decide]
  cases entry[position]? with
  | none => simp
  | some criterion => simp [hcriterion]

end Fits

/-! ### Patterns that a lexicon knows -/

/-- The names in the matchers of a pattern are its names. -/
theorem Pattern.exists_mem_names {pattern : Pattern} {segment : Segment} {entry : List Matcher}
    {token : String} (hsegment : segment ∈ pattern.segments) (hentry : entry ∈ segment.group)
    (htoken : .name token ∈ entry) : ∃ position, (position, token) ∈ pattern.names := by
  obtain ⟨position, hposition⟩ := List.mem_iff_getElem?.mp htoken
  exact ⟨position, mem_names_of_entry (List.mem_flatMap.mpr ⟨segment, hsegment, hentry⟩) hposition⟩

/-- The lexicon has all the kinds and names of the pattern. -/
structure Pattern.KnownTo (pattern : Pattern) (lexicon : Lexicon) : Prop where
  kinds_known (kind : String) (hkind : kind ∈ pattern.header.kinds) : kind ∈ lexicon.kinds
  names_known (name : Nat × String) (hname : name ∈ pattern.names) :
    (lexicon.resolve? name.2).isSome

/-- The lexicon has the name in every matcher. -/
theorem Pattern.KnownTo.isSome_resolve? {pattern : Pattern} {lexicon : Lexicon}
    (hpattern : pattern.KnownTo lexicon) {segment : Segment} (hsegment : segment ∈ pattern.segments)
    {entry : List Matcher} (hentry : entry ∈ segment.group) {token : String}
    (htoken : .name token ∈ entry) : (lexicon.resolve? token).isSome := by
  obtain ⟨position, hname⟩ := exists_mem_names hsegment hentry htoken
  exact hpattern.names_known (position, token) hname

namespace Context

/-! ### The kinds that a lexicon gives -/

/-- Names of kinds of the lexicon give these kinds. -/
theorem kindsNamed_eq_ok {context : Context} {names : List String}
    (hnames : ∀ name ∈ names, name ∈ context.lexicon.kinds) :
    context.kindsNamed names = .ok (some (names.filterMap context.lexicon.kind?)) := by
  have hfind : (names.find? fun name ↦ (context.lexicon.kind? name).isNone) = none := by
    refine List.find?_eq_none.mpr fun name hname ↦ ?_
    obtain ⟨found, hfound⟩ := mem_table_iff.mp (hnames name hname)
    rw [Lexicon.kind?, hfound]
    exact Bool.false_ne_true
  rw [kindsNamed, hfind]

/-! ### Contexts with another lexicon -/

/-- The context with another lexicon. -/
def withLexicon (context : Context) (lexicon : Lexicon) : Context :=
  { context with lexicon := lexicon }

@[simp] theorem lexicon_withLexicon (context : Context) (lexicon : Lexicon) :
    (context.withLexicon lexicon).lexicon = lexicon := rfl

@[simp] theorem options_withLexicon (context : Context) (lexicon : Lexicon) :
    (context.withLexicon lexicon).options = context.options := rfl

@[simp] theorem switches_withLexicon (context : Context) (lexicon : Lexicon) :
    (context.withLexicon lexicon).switches = context.switches := rfl

/-- Mapping what comes of a refusal is mapping the substitute. -/
theorem map_refuse {α β : Type} (context : Context) (problem : Problem) (substitute : α)
    (f : α → β) :
    (context.refuse problem substitute).map f = context.refuse problem (f substitute) := by
  unfold refuse
  split <;> rfl

variable {context : Context} {large : Lexicon} {rename : TokenId → TokenId}
  (h : context.lexicon.EmbedsBy large rename)

include h

/-! ### Tokens in effect -/

/-- The options ask for the same tokens, under new ids. -/
theorem request_withLexicon {kind : Kind} (hkind : kind.name ∈ context.lexicon.kinds) :
    (context.withLexicon large).request (kind.renumber rename) =
      (context.request kind).renumber rename := by
  simp only [request, lexicon_withLexicon, options_withLexicon, Kind.name_renumber]
  cases context.options.get? kind.name with
  | none => rfl
  | some choice =>
    cases choice with
    | blank => rfl
    | token name =>
      dsimp only
      cases hresolve : context.lexicon.resolve? name with
      | some resolved =>
        rw [h.resolve?_renumber name resolved hresolve]
        by_cases heq : resolved.kind.name = kind.name
        · simp [Resolved.renumber, Request.renumber, heq]
        · simp [Resolved.renumber, Request.renumber, heq]
      | none =>
        -- The larger lexicon may have the name, but then for a kind that the smaller one lacks.
        cases hlarge : large.resolve? name with
        | none => rfl
        | some found =>
          have hne : found.kind.name ≠ kind.name := by
            intro heq
            have hsome := h.isSome_resolve? name found hlarge (heq ▸ hkind)
            rw [hresolve] at hsome
            cases hsome
          simp [hne, Request.renumber]

/-- The same tokens are in effect, under new ids. -/
theorem inEffect?_withLexicon {kind : Kind} (hkind : kind.name ∈ context.lexicon.kinds) :
    (context.withLexicon large).inEffect? (kind.renumber rename) =
      (context.inEffect? kind).map rename := by
  rw [inEffect?, inEffect?, request_withLexicon h hkind]
  cases context.request kind with
  | known id => rfl
  | absent | blank | unknown =>
    cases hdefaults : context.switches.unknownDefaults with
    | false => simp [Request.renumber, hdefaults]
    | true => simp [Request.renumber, hdefaults]

/-- The same tokens stand in, under new ids. -/
theorem standIn?_withLexicon (candidates : List Candidate) (position : Nat) {kind : Kind}
    (hkind : kind.name ∈ context.lexicon.kinds) :
    (context.withLexicon large).standIn? (candidates.map (Candidate.renumber rename)) position
        (kind.renumber rename) =
      (context.standIn? candidates position kind).map rename := by
  have heffect := inEffect?_withLexicon h hkind
  rw [standIn?, standIn?, request_withLexicon h hkind]
  cases context.request kind with
  | known id =>
    dsimp only [Request.renumber]
    rw [isNamedAt_renumber h.injective]
    split
    · rfl
    · rw [Kind.default?_renumber]
      cases kind.default? <;> rfl
  | absent | blank | unknown => exact heffect

/-- The same is missing for a kind. -/
theorem unmet?_withLexicon (candidates : List Candidate) (position : Nat) {kind : Kind}
    (hkind : kind.name ∈ context.lexicon.kinds) :
    (context.withLexicon large).unmet? (candidates.map (Candidate.renumber rename)) position
        (kind.renumber rename) =
      context.unmet? candidates position kind := by
  have hnamed : (kind.default?.map rename).any
      (isNamedAt (candidates.map (Candidate.renumber rename)) position) =
        kind.default?.any (isNamedAt candidates position) := by
    cases kind.default? with
    | none => rfl
    | some id => exact isNamedAt_renumber h.injective candidates position id
  simp only [unmet?, request_withLexicon h hkind, Request.known?_renumber, Option.isSome_map,
    switches_withLexicon, Kind.default?_renumber, hnamed, Kind.name_renumber]
  cases context.request kind <;> rfl

/-! ### The choice among candidates -/

/-- A wording gives the same text, since the tokens have the same descriptions. -/
theorem wordingText_withLexicon (tokens : List (Option TokenId)) (wording : Wording) :
    (context.withLexicon large).wordingText (tokens.map (Option.map rename)) wording =
      context.wordingText tokens wording := by
  cases wording with
  | literal text => rfl
  | loud =>
    have htokens : (tokens.map (Option.map rename)).filterMap (·.bind large.token?) =
        tokens.filterMap (·.bind context.lexicon.token?) := by
      rw [List.filterMap_map]
      refine List.filterMap_congr fun token? _ ↦ ?_
      rw [Function.comp_apply, Option.bind_map]
      exact congrArg token?.bind (funext h.token?_rename)
    exact congrArg (fun found ↦ " ".intercalate (found.map Token.description)) htokens

/-- The free text is the same. -/
theorem freeText_withLexicon (tokens : List (Option TokenId)) (pattern : Pattern) :
    (context.withLexicon large).freeText (tokens.map (Option.map rename)) pattern =
      context.freeText tokens pattern := by
  rw [freeText, freeText]
  congr 2
  exact funext (wordingText_withLexicon h tokens)

/-- The first candidate that fits, if any may, is the same. -/
theorem find?_fits_renumber (allowed : Bool) (candidates : List Candidate)
    (tokens : List (Option TokenId)) :
    ((candidates.map (Candidate.renumber rename)).find? fun candidate ↦
        allowed && candidate.fits (tokens.map (Option.map rename))) =
      (candidates.find? fun candidate ↦ allowed && candidate.fits tokens).map
        (Candidate.renumber rename) := by
  rw [List.find?_map]
  congr 2
  exact funext fun candidate ↦ congrArg _ (candidate.fits_renumber h.injective tokens)

section Choice

variable {kinds : List Kind} (hkinds : ∀ kind ∈ kinds, kind.name ∈ context.lexicon.kinds)

include hkinds

/-- The same is missing first. -/
theorem firstUnmet?_withLexicon (candidates : List Candidate) :
    (context.withLexicon large).firstUnmet? (kinds.map (Kind.renumber rename))
        (candidates.map (Candidate.renumber rename)) =
      context.firstUnmet? kinds candidates := by
  rw [firstUnmet?, firstUnmet?, switches_withLexicon, List.zipIdx_map, ← List.head?_filterMap,
    ← List.head?_filterMap, List.filterMap_map]
  refine if_congr Iff.rfl (congrArg _ (List.filterMap_congr fun kind hkind ↦ ?_)) rfl
  exact unmet?_withLexicon h candidates kind.2 (hkinds kind.1 (List.fst_mem_of_mem_zipIdx hkind))

/-- The same tokens are in effect for the kinds, under new ids. -/
theorem map_inEffect?_withLexicon :
    (kinds.map (Kind.renumber rename)).map (context.withLexicon large).inEffect? =
      (kinds.map context.inEffect?).map (Option.map rename) := by
  rw [List.map_map, List.map_map]
  exact List.map_congr_left fun kind hkind ↦ inEffect?_withLexicon h (hkinds kind hkind)

/-- The same tokens stand in for the kinds, under new ids. -/
theorem map_standIn?_withLexicon (candidates : List Candidate) :
    ((kinds.map (Kind.renumber rename)).zipIdx.map fun kind ↦
        (context.withLexicon large).standIn? (candidates.map (Candidate.renumber rename)) kind.2
          kind.1) =
      (kinds.zipIdx.map fun kind ↦ context.standIn? candidates kind.2 kind.1).map
        (Option.map rename) := by
  rw [List.zipIdx_map, List.map_map, List.map_map]
  refine List.map_congr_left fun kind hkind ↦ ?_
  exact standIn?_withLexicon h candidates kind.2 (hkinds kind.1 (List.fst_mem_of_mem_zipIdx hkind))

/-- The same is chosen. -/
theorem choose_withLexicon (candidates : List Candidate) (pattern : Pattern) :
    (context.withLexicon large).choose (kinds.map (Kind.renumber rename))
        (candidates.map (Candidate.renumber rename)) pattern =
      context.choose kinds candidates pattern := by
  have hfits := find?_fits_renumber h true candidates (kinds.map context.inEffect?)
  simp only [Bool.true_and] at hfits
  simp only [choose, map_inEffect?_withLexicon h hkinds, map_standIn?_withLexicon h hkinds,
    switches_withLexicon, find?_fits_renumber h, hfits]
  cases candidates.find? (·.fits (kinds.map context.inEffect?)) with
  | some chosen => exact wordingText_withLexicon h _ _
  | none =>
    dsimp only [Option.map_none]
    cases candidates.find? fun candidate ↦ context.switches.excludedDefaults &&
        candidate.fits (kinds.zipIdx.map fun kind ↦ context.standIn? candidates kind.2 kind.1) with
    | some chosen => exact wordingText_withLexicon h _ _
    | none => exact freeText_withLexicon h _ _

end Choice

/-! ### The kinds of a pattern -/

/-- Kinds of the smaller lexicon are found in the larger one, under new ids. -/
theorem kindsNamed_withLexicon {names : List String}
    (hnames : ∀ name ∈ names, name ∈ context.lexicon.kinds) :
    (context.withLexicon large).kindsNamed names =
      (context.kindsNamed names).map (Option.map (List.map (Kind.renumber rename))) := by
  have hlarge (name : String) (hname : name ∈ names) :
      large.kind? name = (context.lexicon.kind? name).map (Kind.renumber rename) := by
    obtain ⟨found, hfound, hrenumbered⟩ := h.exists_kind? (hnames name hname)
    rw [hrenumbered, hfound, Option.map_some]
  have hnamed (name : String) (hname : name ∈ names) : name ∈ large.kinds :=
    h.mem_kinds (hnames name hname)
  rw [kindsNamed_eq_ok hnames, kindsNamed_eq_ok hnamed, lexicon_withLexicon,
    List.filterMap_congr hlarge, ← List.map_filterMap]
  rfl

/-- The same kind is inferred from names of the smaller lexicon. -/
theorem inferredKind?_withLexicon (aliasedPatterns : Bool) {pattern : Pattern}
    (hnames : ∀ name ∈ pattern.names, (context.lexicon.resolve? name.2).isSome) :
    pattern.inferredKind? large aliasedPatterns =
      (pattern.inferredKind? context.lexicon aliasedPatterns).map (Kind.renumber rename) := by
  rw [Pattern.inferredKind?, Pattern.inferredKind?, ← List.head?_filterMap,
    ← List.head?_filterMap, ← List.head?_map, List.map_filterMap]
  refine congrArg _ (List.filterMap_congr fun name hname ↦ ?_)
  obtain ⟨resolved, hresolved⟩ := Option.isSome_iff_exists.mp (hnames name hname)
  rw [h.resolve?_renumber name.2 resolved hresolved, hresolved]
  show (if aliasedPatterns || !resolved.viaAlias then some (resolved.kind.renumber rename)
      else none) =
    (if aliasedPatterns || !resolved.viaAlias then some resolved.kind else none).map
      (Kind.renumber rename)
  split <;> rfl

/-- The same kinds govern a pattern, under new ids. -/
theorem kindsOf_withLexicon {pattern : Pattern} (hpattern : pattern.KnownTo context.lexicon) :
    (context.withLexicon large).kindsOf pattern =
      (context.kindsOf pattern).map (Option.map (List.map (Kind.renumber rename))) := by
  have hkinds := hpattern.kinds_known
  rw [kindsOf, kindsOf]
  cases hheader : pattern.header with
  | named kind => exact kindsNamed_withLexicon h fun name hname ↦ hkinds name (hheader ▸ hname)
  | complex kinds => exact kindsNamed_withLexicon h fun name hname ↦ hkinds name (hheader ▸ hname)
  | inferred =>
    dsimp only [lexicon_withLexicon, switches_withLexicon]
    rw [inferredKind?_withLexicon h _ hpattern.names_known]
    cases pattern.inferredKind? context.lexicon context.switches.aliasedPatterns with
    | some kind => rfl
    | none =>
      cases hnames : pattern.names with
      | nil => rfl
      | cons first rest =>
        -- The first name is known, so that it is an alias where none may stand.
        obtain ⟨resolved, hresolved⟩ := Option.isSome_iff_exists.mp
          (hpattern.names_known first (hnames ▸ List.mem_cons_self))
        have hlarge := h.resolve?_renumber first.2 resolved hresolved
        dsimp only [Option.map_none]
        rw [map_refuse]
        simp [uninferable, hresolved, hlarge, refuse]

/-- The kinds that govern a pattern are kinds of the lexicon. -/
theorem mem_kinds_of_kindsOf {pattern : Pattern} {kinds : List Kind}
    (hkinds : context.kindsOf pattern = .ok (some kinds)) :
    ∀ kind ∈ kinds, kind.name ∈ context.lexicon.kinds := by
  intro kind hkind
  obtain ⟨name, hname⟩ := exists_kind?_of_kindsOf hkinds kind hkind
  rw [h.name_eq name kind hname]
  exact mem_table_iff.mpr ⟨kind, hname⟩

/-! ### Matchers and patterns -/

/-- A matcher asks for the same token, under its new id. -/
theorem criterion_withLexicon (kind : Kind) {matcher : Matcher}
    (hmatcher : ∀ token, matcher = .name token → (context.lexicon.resolve? token).isSome) :
    (context.withLexicon large).criterion (kind.renumber rename) matcher =
      (context.criterion kind matcher).map (Criterion.renumber rename) := by
  cases matcher with
  | any => rfl
  | name token =>
    obtain ⟨resolved, hresolved⟩ := Option.isSome_iff_exists.mp (hmatcher token rfl)
    rw [criterion, criterion, lexicon_withLexicon, h.resolve?_renumber token resolved hresolved,
      hresolved]
    show (if resolved.kind.name ≠ kind.name then
          context.refuse (.wrongKind token kind.name resolved.kind.name) Criterion.impossible
        else if resolved.viaAlias && !context.switches.aliasedPatterns then
          context.refuse (.aliasInPattern token) Criterion.impossible
        else .ok (Criterion.only (rename resolved.id))) = _
    rw [apply_ite (Except.map _), apply_ite (Except.map _), map_refuse, map_refuse]
    rfl

/-- An entry asks for the same tokens, under their new ids. -/
theorem criteria_withLexicon (kinds : List Kind) {entry : List Matcher}
    (hentry : ∀ token, .name token ∈ entry → (context.lexicon.resolve? token).isSome) :
    (context.withLexicon large).criteria (kinds.map (Kind.renumber rename)) entry =
      (context.criteria kinds entry).map (List.map (Criterion.renumber rename)) := by
  rw [criteria, criteria, List.zip_map_right, List.mapM_map]
  refine Traversal.mapM_eq_map_mapM fun pair hpair ↦ ?_
  refine criterion_withLexicon h pair.2 fun token htoken ↦ hentry token ?_
  exact htoken ▸ (List.of_mem_zip hpair).1

/-- A segment becomes the same candidate, under new ids. -/
theorem candidate_withLexicon (kinds : List Kind) {segment : Segment}
    (hsegment : ∀ entry ∈ segment.group, ∀ token, .name token ∈ entry →
      (context.lexicon.resolve? token).isSome) :
    (context.withLexicon large).candidate (kinds.map (Kind.renumber rename)) segment =
      (context.candidate kinds segment).map (Candidate.renumber rename) := by
  have hentries := Traversal.mapM_eq_map_mapM fun entry hentry ↦
    criteria_withLexicon h kinds (hsegment entry hentry)
  rw [candidate, candidate, hentries]
  cases segment.group.mapM (context.criteria kinds) <;> rfl

/-- A pattern resolves to the same text or problem under given kinds. -/
theorem resolveUnder_withLexicon {pattern : Pattern} (hpattern : pattern.KnownTo context.lexicon)
    {kinds : List Kind} (hkinds : ∀ kind ∈ kinds, kind.name ∈ context.lexicon.kinds) :
    (context.withLexicon large).resolveUnder (kinds.map (Kind.renumber rename)) pattern =
      context.resolveUnder kinds pattern := by
  have hsegments : pattern.segments.mapM
      ((context.withLexicon large).candidate (kinds.map (Kind.renumber rename))) =
        (pattern.segments.mapM (context.candidate kinds)).map
          (List.map (Candidate.renumber rename)) := by
    refine Traversal.mapM_eq_map_mapM fun segment hsegment ↦ candidate_withLexicon h kinds ?_
    exact fun entry hentry token htoken ↦ hpattern.isSome_resolve? hsegment hentry htoken
  rw [resolveUnder, resolveUnder, hsegments]
  cases pattern.segments.mapM (context.candidate kinds) with
  | error problem => rfl
  | ok candidates =>
    simp only [Except.map, bind, Except.bind, firstUnmet?_withLexicon h hkinds,
      choose_withLexicon h hkinds]

/-- A pattern resolves to the same text or error. -/
theorem resolve_withLexicon {pattern : Pattern} (hpattern : pattern.KnownTo context.lexicon) :
    pattern.resolve (context.withLexicon large) = pattern.resolve context := by
  have hbody : (context.withLexicon large).resolveBody pattern = context.resolveBody pattern := by
    rw [resolveBody, resolveBody, kindsOf_withLexicon h hpattern]
    cases hkinds : context.kindsOf pattern with
    | error problem => rfl
    | ok kinds? =>
      cases kinds? with
      | none => exact congrArg Except.ok (freeText_withLexicon h [] pattern)
      | some kinds => exact resolveUnder_withLexicon h hpattern (mem_kinds_of_kindsOf h hkinds)
  rw [Pattern.resolve, Pattern.resolve, hbody]

/-- A text interpolates to the same text or failure. -/
theorem interpolate_withLexicon {text : String}
    (htext : ∀ pattern, .ok (.pattern pattern) ∈ Template.scan text →
      pattern.KnownTo context.lexicon) :
    (context.withLexicon large).interpolate text = context.interpolate text :=
  interpolate_congr fun pattern hpattern ↦ resolve_withLexicon h (htext pattern hpattern)

end Context

/-! ### Adding kinds to a grammar -/

namespace Grammar

/-- Adding kinds changes nothing about the old ones. The larger lexicon resolves every name of the
smaller one to the same token, and the old kinds keep their tokens, aliases and defaults. So a text
gives the same result with both, if its patterns are about old kinds and name tokens and aliases of
the smaller lexicon. -/
theorem ExtendedBy.preserves_interpolate {small large : Grammar} (h : small.ExtendedBy large)
    {isLocale : String → Bool} {locale : String} {lexicon extended : Lexicon}
    (hsmall : compile isLocale locale small = .ok lexicon)
    (hlarge : compile isLocale locale large = .ok extended) :
    (∀ name resolved, lexicon.resolve? name = some resolved →
        ∃ found, extended.resolve? name = some found ∧ found.token = resolved.token ∧
          found.kind.name = resolved.kind.name ∧ found.viaAlias = resolved.viaAlias) ∧
      (∀ kind ∈ small.kinds, kind ∈ extended.kinds ∧
        extended.tokensOf kind = lexicon.tokensOf kind ∧
          extended.aliases kind = lexicon.aliases kind ∧
            extended.defaultOf? kind = lexicon.defaultOf? kind) ∧
        ∀ text options switches,
          (∀ pattern, .ok (.pattern pattern) ∈ Template.scan text →
            (∀ kind ∈ pattern.header.kinds, kind ∈ small.kinds) ∧
              ∀ name ∈ pattern.names, lexicon.isKnown name.2 none) →
          Context.interpolate ⟨extended, options, switches⟩ text =
            Context.interpolate ⟨lexicon, options, switches⟩ text := by
  have hflattens {grammar : Grammar} {compiled : Lexicon}
      (hcompile : compile isLocale locale grammar = .ok compiled) : compiled.Flattens grammar := by
    obtain ⟨-, hfault, aliases, defaults, haliases, hdefaults, rfl⟩ :=
      compile_eq_ok_iff.mp hcompile
    exact flattens_assemble hfault haliases hdefaults locale
  have hlexicon := hflattens hsmall
  have hembeds := hlexicon.embedsBy (hflattens hlarge) h
  refine ⟨fun name resolved hresolved ↦ ?_, fun kind hkind ↦ ?_, ?_⟩
  · exact ⟨_, hembeds.resolve?_renumber name resolved hresolved, rfl, rfl, rfl⟩
  · rw [← hlexicon.mem_kinds_iff] at hkind
    exact ⟨hembeds.mem_kinds hkind, hembeds.tokensOf_eq hkind, hembeds.aliases_eq hkind,
      hembeds.defaultOf?_eq hkind⟩
  · intro text options switches htext
    have hknown (pattern : Pattern) (hpattern : .ok (.pattern pattern) ∈ Template.scan text) :
        pattern.KnownTo lexicon := by
      obtain ⟨hkinds, hnames⟩ := htext pattern hpattern
      refine ⟨fun kind hkind ↦ (hlexicon.mem_kinds_iff kind).mpr (hkinds kind hkind), ?_⟩
      intro name hname
      rw [hlexicon.isSome_resolve?_iff, Std.ExtTreeMap.mem_iff_contains]
      exact hnames name hname
    let context : Context := ⟨lexicon, options, switches⟩
    show (context.withLexicon extended).interpolate text = context.interpolate text
    exact Context.interpolate_withLexicon hembeds hknown

/-- The grammar `persons` with a kind whose tokens come before all others. -/
def agedPersons : Grammar :=
  persons.insertKind "age" (KindDeclaration.mk ∅ |>.insertReal "adult" "grown"
    |>.insertReal "child" "young")

theorem ExtendedBy.preserves_interpolate_persons :
    ∃ lexicon extended, compile (· = "en") "en" persons = .ok lexicon ∧
      compile (· = "en") "en" agedPersons = .ok extended ∧ persons.ExtendedBy agedPersons ∧
      (lexicon.resolve? "f").map (·.id) = some 1 ∧ (extended.resolve? "f").map (·.id) = some 3 ∧
      (∃ found, extended.resolve? "lady" = some found ∧ found.token = ⟨"f", "female", "gender"⟩ ∧
        found.kind.name = "gender" ∧ found.viaAlias = true) ∧
      lexicon.tokensOf "gender" = [⟨"f", "female", "gender"⟩, ⟨"m", "male", "gender"⟩] ∧
      extended.tokensOf "gender" = lexicon.tokensOf "gender" ∧
      extended.defaultOf? "gender" = some ⟨"f", "female", "gender"⟩ ∧
      (∀ options switches, Context.interpolate ⟨extended, options, switches⟩ Context.letter =
        Context.interpolate ⟨lexicon, options, switches⟩ Context.letter) ∧
      Context.interpolate ⟨extended, {}, {}⟩ Context.letter = .ok "Dear @{reader}, Madam" ∧
      Context.interpolate ⟨extended, .ofList [("gender", .token "m")], {}⟩ Context.letter =
        .ok "Dear @{reader}, All" := by
  have hsmall : (compile (· = "en") "en" persons).toOption.map (fun lexicon ↦
      decide ((lexicon.resolve? "f").map (·.id) = some 1 ∧ lexicon.isKnown "f" none ∧
        (lexicon.resolve? "lady").map (fun found ↦ (found.token, found.kind.name, found.viaAlias)) =
          some (⟨"f", "female", "gender"⟩, "gender", true) ∧
        lexicon.tokensOf "gender" = [⟨"f", "female", "gender"⟩, ⟨"m", "male", "gender"⟩] ∧
        lexicon.defaultOf? "gender" = some ⟨"f", "female", "gender"⟩ ∧
        Context.interpolate ⟨lexicon, {}, {}⟩ Context.letter = .ok "Dear @{reader}, Madam" ∧
        Context.interpolate ⟨lexicon, .ofList [("gender", .token "m")], {}⟩ Context.letter =
          .ok "Dear @{reader}, All")) = some true := by
    decide +kernel
  have hlarge : (compile (· = "en") "en" agedPersons).toOption.map
      (fun extended ↦ (extended.resolve? "f").map (·.id)) = some (some 3) := by decide +kernel
  obtain ⟨lexicon, hlexicon, hfacts⟩ := Option.map_eq_some_iff.mp hsmall
  obtain ⟨extended, hextended, hnew⟩ := Option.map_eq_some_iff.mp hlarge
  obtain ⟨hold, hknown, hlady, htokens, hdefault, hmadam, hall⟩ := of_decide_eq_true hfacts
  obtain ⟨resolved, hresolved, hlady⟩ := Option.map_eq_some_iff.mp hlady
  obtain ⟨htoken, hrest⟩ := Prod.mk.inj hlady
  obtain ⟨hkindName, hviaAlias⟩ := Prod.mk.inj hrest
  rw [Traversal.toOption_eq_some_iff] at hlexicon hextended
  have hextends : persons.ExtendedBy agedPersons := .insertKind (by decide +kernel) _
  have hgender : "gender" ∈ persons.kinds := by decide +kernel
  have hletter : ((Template.scan Context.letter).filterMap fun item ↦
      (item.toOption.bind Piece.pattern?).map fun pattern ↦
        (pattern.header.kinds, pattern.names)) = [(["gender"], [(0, "f")])] := by decide +kernel
  obtain ⟨hnames, hkinds, htexts⟩ := hextends.preserves_interpolate hlexicon hextended
  obtain ⟨-, htokensOf, -, hdefaultOf⟩ := hkinds _ hgender
  obtain ⟨found, hfound, hfoundToken, hfoundKind, hfoundAlias⟩ := hnames "lady" resolved hresolved
  have hsame (options : Options) (switches : Switches) :
      Context.interpolate ⟨extended, options, switches⟩ Context.letter =
        Context.interpolate ⟨lexicon, options, switches⟩ Context.letter := by
    refine htexts _ options switches fun pattern hpattern ↦ ?_
    have hmem : (pattern.header.kinds, pattern.names) ∈ [(["gender"], [(0, "f")])] := by
      rw [← hletter]
      exact List.mem_filterMap.mpr ⟨_, hpattern, rfl⟩
    obtain ⟨hheader, hpatternNames⟩ := Prod.mk.inj (List.mem_singleton.mp hmem)
    rw [hheader, hpatternNames]
    simpa using ⟨hgender, hknown⟩
  exact ⟨lexicon, extended, hlexicon, hextended, hextends, hold, hnew,
    ⟨found, hfound, hfoundToken.trans htoken, hfoundKind.trans hkindName,
      hfoundAlias.trans hviaAlias⟩,
    htokens, htokensOf, hdefaultOf.trans hdefault, hsame,
    (hsame {} {}).trans hmadam, (hsame _ {}).trans hall⟩

end Grammar

end Concord
