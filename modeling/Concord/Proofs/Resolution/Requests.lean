import Concord.Proofs.Interpolation.OnePass
import Concord.Proofs.Lexicon.Lookup
import Concord.Proofs.Resolution.Faults
import Concord.Proofs.Text

/-!
# What a resolution reads of the options

The caller's options are read through the requests that they make for the kinds that govern a
pattern, and for nothing else: which kinds these are, and what the matchers ask for, does not depend
on them. Options may therefore give way to others that act alike for the governing kinds
(`ActsAlike`): they have the same tokens in effect and standing in, and miss the same. Every later
stage of the resolution is then the same (`choose_withOptions`, `resolveUnder_withOptions`), and so
is the interpolation (`interpolate_withOptions`).

Requests that look alike act alike (`actsAlike_of_visible_eq`). No request is told from others by
more than the token that it asks for, and when errors are raised by the name that means nothing. The
main statement is `interpolate_depends_on_requests`.
-/

set_option autoImplicit false
set_option relaxedAutoImplicit false

namespace Concord

/-- What can be seen of a request in a result: a blank option is like an absent one, and if errors
are not raised so is one that names no token of the kind. -/
def Request.visible (raises : Bool) : Request → Request
  | .known id => .known id
  | .unknown name => if raises then .unknown name else .absent
  | .blank => .absent
  | .absent => .absent

@[simp] theorem Request.known?_visible (raises : Bool) (request : Request) :
    (request.visible raises).known? = request.known? := by
  cases request with
  | unknown name => cases raises <;> rfl
  | absent | blank | known => rfl

namespace Context

/-! ### The kinds that govern a pattern -/

/-- The kind is one of those that govern the pattern. -/
def Governs (context : Context) (kind : Kind) (pattern : Pattern) : Prop :=
  ∃ kinds, context.kindsOf pattern = .ok (some kinds) ∧ kind ∈ kinds

/-- The kind governs a pattern of the text. -/
def GovernsIn (context : Context) (kind : Kind) (text : String) : Prop :=
  ∃ pattern, .ok (.pattern pattern) ∈ Template.scan text ∧ context.Governs kind pattern

/-- The kinds found by their names are kinds of the lexicon. -/
theorem exists_kind?_of_kindsNamed {context : Context} {names : List String} {kinds : List Kind}
    (hkinds : context.kindsNamed names = .ok (some kinds)) :
    ∀ kind ∈ kinds, ∃ name, context.lexicon.kind? name = some kind := by
  rw [kindsNamed] at hkinds
  split at hkinds
  · cases eq_of_refuse hkinds
  · obtain rfl := Option.some.inj (Except.ok.inj hkinds)
    intro kind hkind
    obtain ⟨name, -, hname⟩ := List.mem_filterMap.mp hkind
    exact ⟨name, hname⟩

/-- The kind inferred from a pattern is a kind of the lexicon. -/
theorem exists_kind?_of_inferredKind? {lexicon : Lexicon} {aliasedPatterns : Bool}
    {pattern : Pattern} {kind : Kind}
    (hkind : pattern.inferredKind? lexicon aliasedPatterns = some kind) :
    ∃ name, lexicon.kind? name = some kind := by
  obtain ⟨name, -, hname⟩ := List.exists_of_findSome?_eq_some hkind
  split at hname
  · cases hname
  · next resolved hresolved =>
    split at hname
    · obtain rfl := Option.some.inj hname
      exact ⟨_, (Lexicon.resolve?_eq_some_iff.mp hresolved).2.2⟩
    · cases hname

/-- The kinds that govern a pattern are kinds of the lexicon. -/
theorem exists_kind?_of_kindsOf {context : Context} {pattern : Pattern} {kinds : List Kind}
    (hkinds : context.kindsOf pattern = .ok (some kinds)) :
    ∀ kind ∈ kinds, ∃ name, context.lexicon.kind? name = some kind := by
  rw [kindsOf] at hkinds
  split at hkinds
  · split at hkinds
    · next kind hinferred =>
      obtain rfl := Option.some.inj (Except.ok.inj hkinds)
      intro other hother
      obtain rfl := List.mem_singleton.mp hother
      exact exists_kind?_of_inferredKind? hinferred
    · split at hkinds
      · cases hkinds
      · cases eq_of_refuse hkinds
  · exact exists_kind?_of_kindsNamed hkinds
  · exact exists_kind?_of_kindsNamed hkinds

/-! ### Contexts with other options -/

/-- The context with other options. -/
def withOptions (context : Context) (options : Options) : Context :=
  { context with options := options }

@[simp] theorem options_withOptions (context : Context) (options : Options) :
    (context.withOptions options).options = options := rfl

@[simp] theorem switches_withOptions (context : Context) (options : Options) :
    (context.withOptions options).switches = context.switches := rfl

/-- The options act for the kind as those of the context do: the same token is in effect, and the
same stands in for it, and if errors are raised the same is missing. -/
structure ActsAlike (context : Context) (options : Options) (kind : Kind) : Prop where
  inEffect?_eq : (context.withOptions options).inEffect? kind = context.inEffect? kind
  standIn?_eq (candidates : List Candidate) (position : Nat) :
    (context.withOptions options).standIn? candidates position kind =
      context.standIn? candidates position kind
  unmet?_eq (hraises : context.switches.raises = true) (candidates : List Candidate)
      (position : Nat) :
    (context.withOptions options).unmet? candidates position kind =
      context.unmet? candidates position kind

variable {context : Context} {options : Options}

section Choice

variable {kinds : List Kind} (h : ∀ kind ∈ kinds, context.ActsAlike options kind)

include h

/-- The same is missing first. -/
theorem firstUnmet?_withOptions (candidates : List Candidate) :
    (context.withOptions options).firstUnmet? kinds candidates =
      context.firstUnmet? kinds candidates := by
  rw [firstUnmet?, firstUnmet?]
  refine if_ctx_congr Iff.rfl (fun hraises ↦ ?_) fun _ ↦ rfl
  rw [← List.head?_filterMap, ← List.head?_filterMap]
  refine congrArg _ (List.filterMap_congr fun kind hkind ↦ ?_)
  exact (h kind.1 (List.fst_mem_of_mem_zipIdx hkind)).unmet?_eq hraises candidates kind.2

/-- The same is chosen. -/
theorem choose_withOptions (candidates : List Candidate) (pattern : Pattern) :
    (context.withOptions options).choose kinds candidates pattern =
      context.choose kinds candidates pattern := by
  have htokens : kinds.map (context.withOptions options).inEffect? =
      kinds.map context.inEffect? :=
    List.map_congr_left fun kind hkind ↦ (h kind hkind).inEffect?_eq
  have hstandIns : (kinds.zipIdx.map fun kind ↦
      (context.withOptions options).standIn? candidates kind.2 kind.1) =
        kinds.zipIdx.map fun kind ↦ context.standIn? candidates kind.2 kind.1 :=
    List.map_congr_left fun kind hkind ↦
      (h kind.1 (List.fst_mem_of_mem_zipIdx hkind)).standIn?_eq candidates kind.2
  rw [choose, choose, htokens, hstandIns]
  rfl

/-- A pattern resolves to the same text or problem under given kinds. -/
theorem resolveUnder_withOptions (pattern : Pattern) :
    (context.withOptions options).resolveUnder kinds pattern =
      context.resolveUnder kinds pattern := by
  refine congrArg (Except.bind _) (funext fun candidates ↦ ?_)
  rw [firstUnmet?_withOptions h, choose_withOptions h]

end Choice

/-- A pattern resolves to the same text or error. -/
theorem resolve_withOptions {pattern : Pattern}
    (h : ∀ kind, context.Governs kind pattern → context.ActsAlike options kind) :
    pattern.resolve (context.withOptions options) = pattern.resolve context := by
  have hbody : (context.withOptions options).resolveBody pattern = context.resolveBody pattern := by
    refine Traversal.bind_congr fun kinds? hgoverning ↦ ?_
    cases kinds? with
    | none => rfl
    | some kinds =>
      exact resolveUnder_withOptions (fun kind hkind ↦ h kind ⟨kinds, hgoverning, hkind⟩) pattern
  rw [Pattern.resolve, Pattern.resolve, hbody]

/-- A text interpolates to the same text or failure. -/
theorem interpolate_withOptions {text : String}
    (h : ∀ kind, context.GovernsIn kind text → context.ActsAlike options kind) :
    (context.withOptions options).interpolate text = context.interpolate text :=
  interpolate_congr fun pattern hpattern ↦
    resolve_withOptions fun kind hkind ↦ h kind ⟨pattern, hpattern, hkind⟩

/-! ### What is read of a request -/

/-- The token in effect depends on the token that is asked for. -/
theorem inEffect?_eq_or (context : Context) (kind : Kind) :
    context.inEffect? kind = (context.request kind).known?.or
      (if context.switches.unknownDefaults then kind.default? else none) := by
  rw [inEffect?]
  cases context.request kind <;> simp [Request.known?]

/-- The token that stands in depends on the token that is asked for. -/
theorem standIn?_eq_elim (context : Context) (candidates : List Candidate) (position : Nat)
    (kind : Kind) :
    context.standIn? candidates position kind =
      (context.request kind).known?.elim (context.inEffect? kind) fun id ↦
        if isNamedAt candidates position id then some id else kind.default?.or (some id) := by
  rw [standIn?]
  cases context.request kind <;> rfl

/-- What is missing depends on what can be seen of the request. -/
theorem unmet?_eq_visible (context : Context) (candidates : List Candidate) (position : Nat)
    (kind : Kind) :
    context.unmet? candidates position kind =
      let request := (context.request kind).visible true
      if request.known?.isSome ||
          (context.switches.unknownDefaults &&
            kind.default?.any (isNamedAt candidates position)) then
        none
      else
        match request with
        | .unknown name => some (.invalidOption kind.name name)
        | _ => some (.missingOption kind.name) := by
  rw [unmet?]
  cases context.request kind <;> rfl

/-- Requests that look alike act alike. -/
theorem actsAlike_of_visible_eq {kind : Kind}
    (h : ((context.withOptions options).request kind).visible context.switches.raises =
      (context.request kind).visible context.switches.raises) : context.ActsAlike options kind := by
  have hknown : ((context.withOptions options).request kind).known? =
      (context.request kind).known? := by
    rw [← Request.known?_visible context.switches.raises, h, Request.known?_visible]
  have heffect : (context.withOptions options).inEffect? kind = context.inEffect? kind := by
    rw [inEffect?_eq_or, inEffect?_eq_or, hknown, switches_withOptions]
  refine ⟨heffect, fun candidates position ↦ ?_, fun hraises candidates position ↦ ?_⟩
  · rw [standIn?_eq_elim, standIn?_eq_elim, hknown, heffect]
  · rw [hraises] at h
    rw [unmet?_eq_visible, unmet?_eq_visible, h, switches_withOptions]

/-- The same choice for a kind makes the same request. -/
theorem request_congr {other : Context} {kind : Kind} (hlexicon : other.lexicon = context.lexicon)
    (hchoice : other.options.get? kind.name = context.options.get? kind.name) :
    other.request kind = context.request kind := by
  rw [request, request, hlexicon, hchoice]

/-- A name of a token of the kind makes a request for the token. -/
theorem request_eq_known {kind : Kind} {name : String} {resolved : Resolved}
    (hchoice : context.options.get? kind.name = some (.token name))
    (hresolved : context.lexicon.resolve? name = some resolved)
    (hkind : resolved.kind.name = kind.name) : context.request kind = .known resolved.id := by
  rw [request, hchoice]
  dsimp only
  rw [hresolved]
  exact if_pos hkind

/-- Options that differ in one key act alike if their requests for the kind of that key look
alike. -/
theorem interpolate_of_get?_eq (key : String) {text : String} {first second : Options}
    (hother : ∀ other ≠ key, second.get? other = first.get? other)
    (hkey : ∀ kind, context.GovernsIn kind text → kind.name = key →
      ((context.withOptions second).request kind).visible context.switches.raises =
        ((context.withOptions first).request kind).visible context.switches.raises) :
    (context.withOptions second).interpolate text =
      (context.withOptions first).interpolate text := by
  show ((context.withOptions first).withOptions second).interpolate text = _
  refine interpolate_withOptions fun kind hkind ↦ actsAlike_of_visible_eq ?_
  by_cases hname : kind.name = key
  · exact hkey kind hkind hname
  · have hrequest : (context.withOptions second).request kind =
        (context.withOptions first).request kind := request_congr rfl (hother kind.name hname)
    exact congrArg _ hrequest

/-- Options give the same result for a text as those of the context if their requests look alike for
every kind that governs one of its patterns. So it does not matter what the options have for other
keys, what blanks stand around a name, which name of a token of its kind an option gives, or whether
an option is blank or absent. -/
theorem interpolate_depends_on_requests (context : Context) (text : String) :
    (∀ options,
        (∀ kind, context.GovernsIn kind text →
          ((context.withOptions options).request kind).visible context.switches.raises =
            (context.request kind).visible context.switches.raises) →
          (context.withOptions options).interpolate text = context.interpolate text) ∧
      (∀ key, (∀ kind, context.GovernsIn kind text → kind.name ≠ key) →
        (∀ choice, (context.withOptions (context.options.insert key choice)).interpolate text =
          context.interpolate text) ∧
        (context.withOptions (context.options.erase key)).interpolate text =
          context.interpolate text) ∧
      (∀ key name before after, (∀ c ∈ before.toList, Text.isBlank c = true) →
        (∀ c ∈ after.toList, Text.isBlank c = true) →
          (context.withOptions (context.options.insert key
              (.ofText (before ++ name ++ after)))).interpolate text =
            (context.withOptions (context.options.insert key (.ofText name))).interpolate text) ∧
      (∀ key name other resolved found, context.lexicon.resolve? name = some resolved →
        resolved.kind.name = key → context.lexicon.resolve? other = some found →
          found.id = resolved.id →
            (context.withOptions (context.options.insert key (.token other))).interpolate text =
              (context.withOptions (context.options.insert key (.token name))).interpolate text) ∧
      ∀ key, (context.withOptions (context.options.insert key .blank)).interpolate text =
        (context.withOptions (context.options.erase key)).interpolate text := by
  refine ⟨?_, ?_, ?_, ?_, ?_⟩
  · intro options h
    exact interpolate_withOptions fun kind hkind ↦ actsAlike_of_visible_eq (h kind hkind)
  · intro key hkey
    have hchange (options : Options)
        (hother : ∀ other ≠ key, options.get? other = context.options.get? other) :
        (context.withOptions options).interpolate text = context.interpolate text :=
      interpolate_of_get?_eq key hother fun kind hkind hname ↦ absurd hname (hkey kind hkind)
    constructor
    · intro choice
      refine hchange _ fun other hother ↦ ?_
      rw [Options.get?_insert, if_neg hother.symm]
    · refine hchange _ fun other hother ↦ ?_
      rw [Options.get?_erase, if_neg hother.symm]
  · intro key name before after hbefore hafter
    rw [Choice.ofText, Choice.ofText, Text.trim_append_blanks hbefore hafter]
  · intro key name other resolved found hresolved hkey hfound hid
    refine interpolate_of_get?_eq key (fun _ hother ↦ ?_) ?_
    · rw [Options.get?_insert, Options.get?_insert, if_neg hother.symm, if_neg hother.symm]
    · rintro kind - rfl
      have hrequest (chosen : String) (meant : Resolved)
          (hchosen : context.lexicon.resolve? chosen = some meant)
          (hkind : meant.kind.name = kind.name) :
          (context.withOptions (context.options.insert kind.name (.token chosen))).request kind =
            .known meant.id := by
        refine request_eq_known ?_ hchosen hkind
        rw [options_withOptions, Options.get?_insert, if_pos rfl]
      have hkind : found.kind.name = kind.name :=
        Lexicon.kind_eq_of_id_eq hresolved hfound hid ▸ hkey
      rw [hrequest name resolved hresolved hkey, hrequest other found hfound hkind, hid]
  · intro key
    refine interpolate_of_get?_eq key (fun other hother ↦ ?_) ?_
    · rw [Options.get?_insert, Options.get?_erase, if_neg hother.symm, if_neg hother.symm]
    · rintro kind - rfl
      rw [request, request, options_withOptions, options_withOptions, Options.get?_insert,
        Options.get?_erase, if_pos rfl, if_pos rfl]
      rfl

/-- A template about one kind and then about two. -/
def couple : String :=
  "Dear @gender{f:Madam|m:Sir}, @gender+count{f+one:she|m+one:he}"

theorem interpolate_depends_on_requests_persons :
    ∃ lexicon, Grammar.compile (· = "en") "en" Grammar.persons = .ok lexicon ∧
      let context : Context := ⟨lexicon, .ofList [("gender", .token "f")], { raises := true }⟩
      let options : Options :=
        .ofList [("gender", .token "lady"), ("count", .blank), ("color", .token "red")]
      (∀ kind, context.GovernsIn kind couple →
          ((context.withOptions options).request kind).visible context.switches.raises =
            (context.request kind).visible context.switches.raises) ∧
        (context.withOptions options).interpolate couple = context.interpolate couple ∧
        (context.interpolate couple).toOption = some "Dear Madam, she" := by
  have hcheck : (Grammar.compile (· = "en") "en" Grammar.persons).toOption.map (fun lexicon ↦
      let context : Context := ⟨lexicon, .ofList [("gender", .token "f")], { raises := true }⟩
      let options : Options :=
        .ofList [("gender", .token "lady"), ("count", .blank), ("color", .token "red")]
      (((Template.scan couple).all fun item ↦ (item.toOption.bind Piece.pattern?).all fun pattern ↦
          (context.kindsOf pattern).toOption.join.all fun kinds ↦ kinds.all fun kind ↦
            ((context.withOptions options).request kind).visible context.switches.raises =
              (context.request kind).visible context.switches.raises),
        (context.interpolate couple).toOption)) = some (true, some "Dear Madam, she") := by
    decide +kernel
  obtain ⟨lexicon, hlexicon, hfacts⟩ := Option.map_eq_some_iff.mp hcheck
  obtain ⟨hall, htext⟩ := Prod.mk.inj hfacts
  refine ⟨lexicon, Traversal.toOption_eq_some_iff.mp hlexicon, ?_⟩
  intro context options
  have hlook : ∀ kind, context.GovernsIn kind couple →
      ((context.withOptions options).request kind).visible context.switches.raises =
        (context.request kind).visible context.switches.raises := by
    rintro kind ⟨pattern, hpattern, kinds, hkinds, hmem⟩
    have hkind := List.all_eq_true.mp hall _ hpattern
    rw [Except.toOption, Option.bind_some, Piece.pattern?, Option.all_some, hkinds] at hkind
    exact of_decide_eq_true (List.all_eq_true.mp hkind kind hmem)
  exact ⟨hlook, (interpolate_depends_on_requests context couple).1 options hlook, htext⟩

end Context

end Concord
