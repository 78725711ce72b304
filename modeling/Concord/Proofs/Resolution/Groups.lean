import Concord.Proofs.Resolution.Likeness
import Concord.Proofs.Resolution.Problems

/-!
# Groups of entries

A plain group is for what one of its entries matches, and a negated group for everything else. So a
plain group of several entries is short for as many segments with one entry each
(`gives_spread_append_iff`), and where nothing depends on which name comes first, the order of the
entries does not matter, nor does repeating them: `resolve_regrouped`. And a plain group at the end
of a pattern can be negated if its wording and the free text change places: `resolve_complemented`.
Defaults must not stand in for tokens that are not named there, since the first segments are tried
once more with them before it comes to the free text.
-/

set_option autoImplicit false
set_option relaxedAutoImplicit false

namespace Concord

open Traversal

/-- Each entry of the segment in a segment of its own. -/
def Segment.spread (segment : Segment) : List Segment :=
  segment.group.map fun entry ↦ { segment with group := [entry] }

/-- The segments have the same entries, in any order and any number of times, and are otherwise the
same. -/
structure Segment.SameEntries (first second : Segment) : Prop where
  mem_group_iff (entry : List Matcher) : entry ∈ second.group ↔ entry ∈ first.group
  negated_eq : second.negated = first.negated
  wording_eq : second.wording = first.wording

/-- The pattern that ends in a segment for the group and has a free text after it. -/
def Pattern.endingIn (header : Header) (leading : List Segment) (last : Segment) (free : Wording)
    (source : String) : Pattern :=
  ⟨header, leading ++ [last], some free, source⟩

/-- Segments that have the same entries one by one have the same entries together. -/
theorem mem_entries_iff_of_sameEntries {first second : Pattern}
    (h : List.Forall₂ Segment.SameEntries first.segments second.segments) (entry : List Matcher) :
    entry ∈ second.entries ↔ entry ∈ first.entries := by
  rw [Pattern.entries, Pattern.entries]
  generalize first.segments = segments at h ⊢
  generalize second.segments = others at h ⊢
  induction h with
  | nil => rfl
  | cons hsegment _ ih =>
    rw [List.flatMap_cons, List.flatMap_cons, List.mem_append, List.mem_append,
      hsegment.mem_group_iff, ih]

namespace Context

variable {context : Context} {kinds : List Kind} {tokens : List (Option TokenId)}
  {segment : Segment}

/-! ### Segments and their entries -/

/-- A negated segment fits what the plain one of the same group does not. -/
theorem fits_negated_iff {group : List (List Matcher)} (wording : Wording) {other : Wording} :
    context.Fits kinds tokens ⟨group, true, other⟩ ↔
      ¬context.Fits kinds tokens ⟨group, false, wording⟩ := by
  have hplain : (Segment.mk group false wording).negated = false := rfl
  rw [fits_plain_iff hplain, Fits]
  exact iff_false_right Bool.noConfusion

theorem fits_of_sameEntries {first second : Segment} (h : first.SameEntries second) :
    context.Fits kinds tokens second ↔ context.Fits kinds tokens first := by
  simp only [Fits, h.mem_group_iff, h.negated_eq]

/-- The entries of a plain segment, each in a segment of its own, give its wording just if it
fits. -/
theorem gives_spread_iff (hplain : segment.negated = false) {wording : Wording} :
    context.Gives kinds tokens segment.spread wording ↔
      context.Fits kinds tokens segment ∧ segment.wording = wording := by
  rw [fits_plain_iff hplain, Segment.spread]
  induction segment.group with
  | nil => exact iff_of_false nofun (by simp)
  | cons entry rest ih =>
    have hentry : context.Fits kinds tokens { segment with group := [entry] } ↔
        context.Matches kinds tokens entry := by
      have hsingle : { segment with group := [entry] }.negated = false := hplain
      rw [fits_plain_iff hsingle]
      simp
    rw [List.map_cons, gives_cons_iff, ih, hentry, List.exists_mem_cons_iff]
    tauto

/-- Among other segments, it does not matter whether the entries of a plain segment stand together
or each in a segment of its own. -/
theorem gives_spread_append_iff (hplain : segment.negated = false) {before after : List Segment}
    {wording : Wording} :
    context.Gives kinds tokens (before ++ segment.spread ++ after) wording ↔
      context.Gives kinds tokens (before ++ segment :: after) wording := by
  have hnone : (∀ single ∈ segment.spread, ¬context.Fits kinds tokens single) ↔
      ¬context.Fits kinds tokens segment := by
    rw [← not_iff_not, not_not]
    push Not
    rw [← exists_gives_iff]
    simp [gives_spread_iff hplain]
  rw [List.append_assoc, gives_append_iff, gives_append_iff, gives_append_iff, gives_cons_iff,
    gives_spread_iff hplain, hnone]

/-- Take any pattern. The entries of a plain segment may each be put into a segment of its own, next
to each other and with the same wording. And where the kinds are named and errors are not raised,
the entries of any segments may be listed in another order, and repeated or not. The pattern
resolves as before. -/
theorem resolve_regrouped (context : Context) (pattern : Pattern) :
    (∀ before segment after source, pattern.segments = before ++ segment :: after →
        segment.negated = false →
          context.ResolvesAlike pattern
            { pattern with segments := before ++ segment.spread ++ after, source }) ∧
      (pattern.header ≠ .inferred → context.switches.raises = false → ∀ segments source,
        List.Forall₂ Segment.SameEntries pattern.segments segments →
          ∃ text, pattern.resolve context = .ok text ∧
            { pattern with segments, source }.resolve context = .ok text) := by
  constructor
  · intro before segment after source hsegments hplain
    have hentries : ({ pattern with segments := before ++ segment.spread ++ after, source } :
        Pattern).entries = pattern.entries := by
      simp [Pattern.entries, hsegments, Segment.spread, List.flatMap_map]
    refine resolvesAlike_of_searchedAlike rfl ?_ ?_ rfl
    · intro β f
      rw [hentries]
    · intro kinds tokens wording
      rw [hsegments]
      exact gives_spread_append_iff hplain
  · intro hheader hraises segments source hsame
    have halike : context.ResolvesAlike pattern { pattern with segments, source } := by
      refine resolvesAlike_of_gives ?_ ?_ (mem_entries_iff_of_sameEntries hsame) ?_ rfl
      · rw [kindsOf_of_declared hheader]
        exact kindsOf_of_declared hheader
      · intro kinds
        rw [fault?_candidates_of_not_raises hraises, fault?_candidates_of_not_raises hraises]
      · intro kinds tokens wording
        refine gives_of_forall₂ (hsame.imp fun first second h ↦ ?_)
        exact ⟨h.wording_eq, fits_of_sameEntries h⟩
    obtain ⟨text, htext⟩ := exists_resolve_of_not_raises hraises pattern
    exact ⟨text, htext, halike.resolve_eq_ok htext⟩

/-- A pattern with a plain and a negated group of two entries, and a name of another kind. -/
def salutation : Pattern where
  header := .complex ["gender", "count"]
  segments := [⟨[[.name "f", .name "one"], [.name "one", .any]], false, .literal "Madam"⟩,
    ⟨[[.name "m", .any], [.any, .name "one"]], true, .loud⟩]
  freeText? := some (.literal "Sir")
  source := "@gender+count{f+one,one+*:Madam|!m+*,!*+one:~|Sir}"

/-- The pattern with the entries of its plain group in segments of their own. -/
def salutationApart : Pattern where
  header := .complex ["gender", "count"]
  segments := [⟨[[.name "f", .name "one"]], false, .literal "Madam"⟩,
    ⟨[[.name "one", .any]], false, .literal "Madam"⟩,
    ⟨[[.name "m", .any], [.any, .name "one"]], true, .loud⟩]
  freeText? := some (.literal "Sir")
  source := "@gender+count{f+one:Madam|one+*:Madam|!m+*,!*+one:~|Sir}"

/-- The pattern with the entries of its groups in another order, and one of them twice. -/
def salutationReordered : Pattern where
  header := .complex ["gender", "count"]
  segments := [⟨[[.name "one", .any], [.name "f", .name "one"]], false, .literal "Madam"⟩,
    ⟨[[.any, .name "one"], [.name "m", .any], [.any, .name "one"]], true, .loud⟩]
  freeText? := some (.literal "Sir")
  source := "@gender+count{one+*,f+one:Madam|!*+one,!m+*,!*+one:~|Sir}"

theorem resolve_regrouped_persons :
    (∀ pattern ∈ [salutation, salutationApart, salutationReordered],
        Template.scan pattern.source = [.ok (.pattern pattern)]) ∧
      ∃ lexicon, Grammar.compile (· = "en") "en" Grammar.persons = .ok lexicon ∧
        let female : Context := ⟨lexicon, .ofList [("gender", .token "f")], {}⟩
        let male : Context := ⟨lexicon, .ofList [("gender", .token "m")], {}⟩
        let strict : Context :=
          { male with switches := { raises := true, excludedDefaults := true } }
        (salutation.resolve female = .ok "Madam" ∧ salutationApart.resolve female = .ok "Madam" ∧
          salutationReordered.resolve female = .ok "Madam") ∧
        (salutation.resolve male = .ok "Sir" ∧ salutationApart.resolve male = .ok "Sir" ∧
          salutationReordered.resolve male = .ok "Sir") ∧
        strict.ResolvesAlike salutation salutationApart ∧
        salutation.resolve strict = .error ⟨salutation.source, .wrongKind "one" "gender" "count"⟩ ∧
        salutationApart.resolve strict =
          .error ⟨salutationApart.source, .wrongKind "one" "gender" "count"⟩ := by
  have hcheck : (Grammar.compile (· = "en") "en" Grammar.persons).toOption.map (fun lexicon ↦
      let male : Context := ⟨lexicon, .ofList [("gender", .token "m")], {}⟩
      (salutation.resolve ⟨lexicon, .ofList [("gender", .token "f")], {}⟩, salutation.resolve male,
        salutation.resolve
          { male with switches := { raises := true, excludedDefaults := true } })) =
      some (.ok "Madam", .ok "Sir",
        .error ⟨salutation.source, .wrongKind "one" "gender" "count"⟩) := by
    decide +kernel
  obtain ⟨lexicon, hcompile, hanswers⟩ := Option.map_eq_some_iff.mp hcheck
  obtain ⟨hfemale, hothers⟩ := Prod.mk.inj hanswers
  obtain ⟨hmale, hstrict⟩ := Prod.mk.inj hothers
  refine ⟨by decide +kernel, lexicon, toOption_eq_some_iff.mp hcompile, ?_⟩
  intro female male strict
  have hsame : List.Forall₂ Segment.SameEntries salutation.segments
      salutationReordered.segments :=
    .cons ⟨by simp [or_comm], rfl, rfl⟩ (.cons ⟨by simp, rfl, rfl⟩ .nil)
  have hapart (context : Context) : context.ResolvesAlike salutation salutationApart :=
    (resolve_regrouped context salutation).1 [] _ _ _ rfl rfl
  have hreordered (context : Context) (hraises : context.switches.raises = false) {text : String}
      (htext : salutation.resolve context = .ok text) :
      salutationReordered.resolve context = .ok text := by
    obtain ⟨other, hother, hsecond⟩ :=
      (resolve_regrouped context salutation).2 nofun hraises _ salutationReordered.source hsame
    rw [← htext, hother]
    exact hsecond
  exact ⟨⟨hfemale, (hapart female).resolve_eq_ok hfemale, hreordered female rfl hfemale⟩,
    ⟨hmale, (hapart male).resolve_eq_ok hmale, hreordered male rfl hmale⟩,
    hapart strict, hstrict, (hapart strict).resolve_eq_error hstrict⟩

/-! ### Negated groups -/

section Complement

variable {leading : List Segment} {group : List (List Matcher)} {wording free : Wording}
  {candidates others : List Candidate}

/-- The candidates of a pattern that ends in a plain group, or else its free text, have the wording
that those of a pattern that ends in the negated group have, where the last wording and the free
text have changed places. -/
theorem getD_wordingFor?_complement
    (hplain : List.mapM (context.candidate kinds) (leading ++ [⟨group, false, wording⟩]) =
      .ok candidates)
    (hnegated : List.mapM (context.candidate kinds) (leading ++ [⟨group, true, free⟩]) =
      .ok others) :
    (wordingFor? others tokens).getD wording = (wordingFor? candidates tokens).getD free := by
  -- If no segment before the group fits, the group does in just one of the patterns, and what it
  -- gives there is the free text of the other.
  by_cases hleading : ∃ segment ∈ leading, context.Fits kinds tokens segment
  · obtain ⟨given, hgiven⟩ := exists_gives_iff.mpr hleading
    rw [(wordingFor?_eq_some_iff hplain).mpr (gives_append_iff.mpr (.inl hgiven)),
      (wordingFor?_eq_some_iff hnegated).mpr (gives_append_iff.mpr (.inl hgiven))]
    rfl
  · push Not at hleading
    by_cases hfits : context.Fits kinds tokens ⟨group, false, wording⟩
    · have hgiven : wordingFor? candidates tokens = some wording :=
        (wordingFor?_eq_some_iff hplain).mpr (gives_append_iff.mpr (.inr ⟨hleading, .here hfits⟩))
      have hnone : wordingFor? others tokens = none := by
        rw [wordingFor?_eq_none_iff hnegated, List.forall_mem_append]
        refine ⟨hleading, ?_⟩
        simpa [fits_negated_iff wording] using hfits
      rw [hgiven, hnone]
      rfl
    · have hgiven : wordingFor? others tokens = some free :=
        (wordingFor?_eq_some_iff hnegated).mpr
          (gives_append_iff.mpr (.inr ⟨hleading, .here ((fits_negated_iff wording).mpr hfits)⟩))
      have hnone : wordingFor? candidates tokens = none := by
        rw [wordingFor?_eq_none_iff hplain, List.forall_mem_append]
        refine ⟨hleading, ?_⟩
        simpa using hfits
      rw [hgiven, hnone]
      rfl

end Complement

/-- Where defaults do not stand in for tokens that are not named, the text of a pattern with free
text has the wording of the first candidate that fits, or else that of the free text. -/
theorem choose_of_not_excludedDefaults (hexcluded : context.switches.excludedDefaults = false)
    {pattern : Pattern} {free : Wording} (hfree : pattern.freeText? = some free)
    (candidates : List Candidate) :
    context.choose kinds candidates pattern =
      let tokens := kinds.map context.inEffect?
      context.wordingText tokens ((wordingFor? candidates tokens).getD free) := by
  rw [choose_eq, hexcluded]
  simp only [freeText, hfree]
  cases wordingFor? candidates (kinds.map context.inEffect?) <;> rfl

/-- Assumes: kinds that govern the pattern, and that defaults do not stand in for tokens that are
not named. A pattern that ends in a plain group with one wording, and has another as its free text,
resolves like the pattern that ends in the negated group with the other wording, and has the one as
its free text. -/
theorem resolve_complemented (context : Context)
    (hexcluded : context.switches.excludedDefaults = false) (header : Header)
    (leading : List Segment) (group : List (List Matcher)) (wording free : Wording)
    (source other : String) {kinds : List Kind}
    (hkinds : context.Govern
      (.endingIn header leading ⟨group, false, wording⟩ free source) kinds) :
    context.ResolvesAlike (.endingIn header leading ⟨group, false, wording⟩ free source)
      (.endingIn header leading ⟨group, true, free⟩ wording other) := by
  have hentries :
      (Pattern.endingIn header leading ⟨group, true, free⟩ wording other).entries =
        (Pattern.endingIn header leading ⟨group, false, wording⟩ free source).entries := by
    simp [Pattern.endingIn, Pattern.entries]
  have hnames : SearchedAlike
      (Pattern.endingIn header leading ⟨group, false, wording⟩ free source).names
      (Pattern.endingIn header leading ⟨group, true, free⟩ wording other).names := by
    intro β f
    rw [Pattern.names, hentries, ← Pattern.names]
  have hplainKinds := kindsOf_eq_ok_iff.mpr hkinds
  have hnegatedKinds : context.kindsOf
      (.endingIn header leading ⟨group, true, free⟩ wording other) = .ok (some kinds) := by
    rw [← hplainKinds]
    exact kindsOf_of_searchedAlike rfl hnames
  refine resolvesAlike_of_eq ?_
  rw [resolveBody, resolveBody, hplainKinds, hnegatedKinds]
  refine resolveUnder_congr (fault?_candidates_of_searchedAlike hnames kinds)
    (fun entry ↦ by rw [hentries]) fun candidates others hplain hnegated ↦ ?_
  rw [choose_of_not_excludedDefaults hexcluded rfl, choose_of_not_excludedDefaults hexcluded rfl]
  dsimp only
  rw [getD_wordingFor?_complement hplain hnegated]

/-- A pattern with an unknown name, and last a group with names of two kinds. -/
def forSome : Pattern :=
  .endingIn .inferred [⟨[[.name "x"]], false, .literal "it"⟩]
    ⟨[[.name "f"], [.name "one"]], false, .literal "she"⟩ .loud "@{x:it|f,one:she|~}"

/-- The pattern with that group negated. -/
def forOthers : Pattern :=
  .endingIn .inferred [⟨[[.name "x"]], false, .literal "it"⟩]
    ⟨[[.name "f"], [.name "one"]], true, .loud⟩ (.literal "she") "@{x:it|!f,!one:~|she}"

theorem resolve_complemented_persons :
    Template.scan forSome.source = [.ok (.pattern forSome)] ∧
      Template.scan forOthers.source = [.ok (.pattern forOthers)] ∧
      ∃ lexicon kinds, Grammar.compile (· = "en") "en" Grammar.persons = .ok lexicon ∧
        kinds.map (·.name) = ["gender"] ∧
        let female : Context := ⟨lexicon, .ofList [("gender", .token "f")], {}⟩
        let male : Context := ⟨lexicon, .ofList [("gender", .token "m")], {}⟩
        (female.Govern forSome kinds ∧ female.ResolvesAlike forSome forOthers ∧
          forSome.resolve female = .ok "she" ∧ forOthers.resolve female = .ok "she") ∧
        male.Govern forSome kinds ∧ male.ResolvesAlike forSome forOthers ∧
          forSome.resolve male = .ok "male" ∧ forOthers.resolve male = .ok "male" := by
  refine ⟨by decide +kernel, by decide +kernel, ?_⟩
  have hcheck : (Grammar.compile (· = "en") "en" Grammar.persons).toOption.map (fun lexicon ↦
      let female : Context := ⟨lexicon, .ofList [("gender", .token "f")], {}⟩
      let male : Context := ⟨lexicon, .ofList [("gender", .token "m")], {}⟩
      ((forSome.inferredKind? lexicon false).map (·.name), forSome.resolve female,
        forSome.resolve male)) = some (some "gender", .ok "she", .ok "male") := by
    decide +kernel
  obtain ⟨lexicon, hcompile, hanswers⟩ := Option.map_eq_some_iff.mp hcheck
  obtain ⟨hgender, htexts⟩ := Prod.mk.inj hanswers
  obtain ⟨hfemale, hmale⟩ := Prod.mk.inj htexts
  obtain ⟨kind, hkind, hname⟩ := Option.map_eq_some_iff.mp hgender
  refine ⟨lexicon, [kind], toOption_eq_some_iff.mp hcompile, by rw [List.map_singleton, hname], ?_⟩
  intro female male
  have hgovern (options : Options) : Govern ⟨lexicon, options, {}⟩ forSome [kind] := by
    have hheader : forSome.header = .inferred := rfl
    refine kindsOf_eq_ok_iff.mp ?_
    rw [kindsOf, hheader]
    dsimp only
    rw [hkind]
  have halike (options : Options) :
      ResolvesAlike ⟨lexicon, options, {}⟩ forSome forOthers :=
    resolve_complemented _ rfl _ _ _ _ _ _ _ (hgovern options)
  exact ⟨⟨hgovern _, halike _, hfemale, (halike _).resolve_eq_ok hfemale⟩, hgovern _, halike _,
    hmale, (halike _).resolve_eq_ok hmale⟩

end Context

end Concord
