import Concord.Proofs.Lexicon.Flattening
import Concord.Proofs.Resolution.Matching
import Concord.Template.Scan

/-!
# Defaults that stand in for what is not named

If no segment fits the tokens in effect, a token that is asked for but not named in the pattern may
give way to the default of its kind (`GivesWay`), and the segments are tried once more. The second
try is no more than a search for these defaults. What matched before still matches, since only a
matcher for any token can have matched a token that is not named (`StandsIn.matches_of_matches`). So
no negated segment comes to fit, and an entry that comes to match names a default that stands in
(`StandsIn.namesStandIn_of_matches`). The main statement is `excludedDefaults_select_named`.
-/

set_option autoImplicit false
set_option relaxedAutoImplicit false

namespace Concord.Context

/-- A token is asked for that the pattern does not name at the position, and may give way to the
default of the kind there. -/
def GivesWay (context : Context) (kinds : List Kind) (pattern : Pattern) (position : Nat)
    (kind : Kind) (default : TokenId) : Prop :=
  kinds[position]? = some kind ∧ kind.default? = some default ∧
    ∃ id, context.request kind = .known id ∧ ¬context.NamedAt kinds pattern position id

/-- The tokens are those in effect, but with defaults where tokens give way to them. -/
structure StandsIn (context : Context) (kinds : List Kind) (pattern : Pattern)
    (tokens : List (Option TokenId)) : Prop where
  length_eq : tokens.length = kinds.length
  given (position : Nat) (kind : Kind) (default : TokenId)
    (h : context.GivesWay kinds pattern position kind default) :
    tokens[position]? = some (some default)
  kept (position : Nat) (kind : Kind) (hkind : kinds[position]? = some kind)
    (h : ∀ default, ¬context.GivesWay kinds pattern position kind default) :
    tokens[position]? = some (context.inEffect? kind)

/-- At the position of a kind the entry names a default that a token gives way to there. -/
def NamesStandIn (context : Context) (kinds : List Kind) (pattern : Pattern)
    (entry : List Matcher) : Prop :=
  ∃ position kind default name, context.GivesWay kinds pattern position kind default ∧
    entry[position]? = some (.name name) ∧ context.Names kind name default

variable {context : Context} {kinds : List Kind} {pattern : Pattern}
  {tokens : List (Option TokenId)} {entry : List Matcher}

/-- A known request has its token in effect. -/
theorem inEffect?_of_request {kind : Kind} {id : TokenId}
    (hrequest : context.request kind = .known id) : context.inEffect? kind = some id := by
  rw [inEffect?, hrequest]

/-- An entry matches the tokens in effect just if it accepts each of them. -/
theorem matches_inEffect_iff :
    context.Matches kinds (kinds.map context.inEffect?) entry ↔
      ∀ (position : Nat) (matcher : Matcher) (kind : Kind), entry[position]? = some matcher →
        kinds[position]? = some kind →
          context.Accepts kind (context.inEffect? kind) matcher := by
  constructor
  · intro hmatches position matcher kind hmatcher hkind
    refine hmatches position matcher kind _ hmatcher hkind ?_
    rw [List.getElem?_map, hkind]
    rfl
  · intro haccepts position matcher kind token? hmatcher hkind htoken
    rw [List.getElem?_map, hkind] at htoken
    obtain rfl := Option.some.inj htoken
    exact haccepts position matcher kind hmatcher hkind

namespace StandsIn

variable (h : context.StandsIn kinds pattern tokens)

include h

/-- At each position there is a default that stands in, or the token in effect. -/
theorem cases_at {position : Nat} {kind : Kind} (hkind : kinds[position]? = some kind) :
    (∃ default, context.GivesWay kinds pattern position kind default ∧
        tokens[position]? = some (some default)) ∨
      tokens[position]? = some (context.inEffect? kind) := by
  by_cases hgives : ∃ default, context.GivesWay kinds pattern position kind default
  · obtain ⟨default, hgives⟩ := hgives
    exact .inl ⟨default, hgives, h.given position kind default hgives⟩
  · exact .inr (h.kept position kind hkind (not_exists.mp hgives))

/-- Where no token gives way, the tokens in effect stay. -/
theorem eq_inEffect
    (hstay : ∀ position kind default, ¬context.GivesWay kinds pattern position kind default) :
    tokens = kinds.map context.inEffect? := by
  refine List.ext_getElem? fun position ↦ ?_
  rw [List.getElem?_map]
  cases hkind : kinds[position]? with
  | none =>
    rw [List.getElem?_eq_none_iff, ← h.length_eq] at hkind
    exact List.getElem?_eq_none_iff.mpr hkind
  | some kind => exact h.kept position kind hkind (hstay position kind)

/-- What matches the tokens in effect still matches when defaults stand in: where a token gives way,
no entry of the pattern names it. -/
theorem matches_of_matches (hentry : entry ∈ pattern.entries)
    (hmatches : context.Matches kinds (kinds.map context.inEffect?) entry) :
    context.Matches kinds tokens entry := by
  intro position matcher kind token? hmatcher hkind htoken
  have haccepts := matches_inEffect_iff.mp hmatches position matcher kind hmatcher hkind
  rcases h.cases_at hkind with ⟨default, ⟨-, -, id, hrequest, hunnamed⟩, hdefault⟩ | hkept
  · obtain rfl := Option.some.inj (hdefault.symm.trans htoken)
    rw [inEffect?_of_request hrequest] at haccepts
    cases matcher with
    | any => rfl
    | name name =>
      obtain ⟨_, hsame, hname⟩ := haccepts
      obtain rfl := Option.some.inj hsame
      exact absurd ⟨entry, hentry, name, kind, hmatcher, hkind, hname⟩ hunnamed
  · obtain rfl := Option.some.inj (hkept.symm.trans htoken)
    exact haccepts

/-- What matches only when defaults stand in names one of them. -/
theorem namesStandIn_of_matches (hmatches : context.Matches kinds tokens entry)
    (hbefore : ¬context.Matches kinds (kinds.map context.inEffect?) entry) :
    context.NamesStandIn kinds pattern entry := by
  rw [matches_inEffect_iff] at hbefore
  push Not at hbefore
  obtain ⟨position, matcher, kind, hmatcher, hkind, hrefuses⟩ := hbefore
  rcases h.cases_at hkind with ⟨default, hgives, hdefault⟩ | hkept
  · have haccepts := hmatches position matcher kind _ hmatcher hkind hdefault
    cases matcher with
    | any =>
      obtain ⟨-, -, id, hrequest, -⟩ := hgives
      rw [inEffect?_of_request hrequest] at hrefuses
      exact absurd rfl hrefuses
    | name name =>
      obtain ⟨_, hsame, hname⟩ := haccepts
      obtain rfl := Option.some.inj hsame
      exact ⟨position, kind, default, name, hgives, hmatcher, hname⟩
  · exact absurd (hmatches position matcher kind _ hmatcher hkind hkept) hrefuses

/-- A segment that comes to fit when defaults stand in is not negated, and has an entry that
matches and names one of them. -/
theorem named_of_fits {segment : Segment} (hsegment : segment ∈ pattern.segments)
    (hbefore : ¬context.Fits kinds (kinds.map context.inEffect?) segment)
    (hfits : context.Fits kinds tokens segment) :
    segment.negated = false ∧ ∃ entry ∈ segment.group, context.Matches kinds tokens entry ∧
      context.NamesStandIn kinds pattern entry := by
  have hentries : ∀ entry ∈ segment.group, entry ∈ pattern.entries := fun entry hentry ↦
    List.mem_flatMap.mpr ⟨segment, hsegment, hentry⟩
  have hnegated : segment.negated = false := by
    by_contra hnegated
    -- no entry matches when defaults stand in, so none matched before
    have hnone : ¬∃ entry ∈ segment.group, context.Matches kinds tokens entry :=
      mt hfits.mp hnegated
    refine hbefore (iff_of_false ?_ hnegated)
    rintro ⟨entry, hentry, hmatches⟩
    exact hnone ⟨entry, hentry, h.matches_of_matches (hentries entry hentry) hmatches⟩
  obtain ⟨entry, hentry, hmatches⟩ := hfits.mpr hnegated
  have hnot : ¬context.Matches kinds (kinds.map context.inEffect?) entry := fun hmatched ↦
    hbefore (iff_of_true ⟨entry, hentry, hmatched⟩ hnegated)
  exact ⟨hnegated, entry, hentry, hmatches, h.namesStandIn_of_matches hmatches hnot⟩

end StandsIn

/-! ### The second try -/

section Candidates

variable {candidates : List Candidate}
  (h : pattern.segments.mapM (context.candidate kinds) = .ok candidates)

include h

/-- The tokens of the second try are those with defaults standing in. -/
theorem standsIn_standIn? :
    context.StandsIn kinds pattern
      (kinds.zipIdx.map fun kind ↦ context.standIn? candidates kind.2 kind.1) := by
  have hat {position : Nat} {kind : Kind} (hkind : kinds[position]? = some kind) :
      (kinds.zipIdx.map fun kind ↦ context.standIn? candidates kind.2 kind.1)[position]? =
        some (context.standIn? candidates position kind) := by
    rw [List.getElem?_map, List.getElem?_zipIdx, hkind, Nat.zero_add]
    rfl
  refine ⟨by rw [List.length_map, List.length_zipIdx], ?_, ?_⟩
  · rintro position kind default ⟨hkind, hdefault, id, hrequest, hunnamed⟩
    have hnot : isNamedAt candidates position id = false :=
      Bool.eq_false_iff.mpr (mt (isNamedAt_iff h position id).mp hunnamed)
    rw [hat hkind, standIn?, hrequest]
    dsimp only
    rw [hnot, hdefault]
    rfl
  · intro position kind hkind hkept
    rw [hat hkind, standIn?, inEffect?]
    cases hrequest : context.request kind with
    | absent | blank | unknown => rfl
    | known id =>
      dsimp only
      split
      · rfl
      · next hnot =>
        have hunnamed := mt (isNamedAt_iff h position id).mpr hnot
        cases hdefault : kind.default? with
        | none => rfl
        | some default => exact absurd ⟨hkind, hdefault, id, hrequest, hunnamed⟩ (hkept default)

/-- If no segment fits the tokens in effect, the text comes from the first to fit when defaults
stand in, or else is the free text. -/
theorem choose_of_not_fits (hexcluded : context.switches.excludedDefaults = true)
    (hnone : ∀ segment ∈ pattern.segments,
      ¬context.Fits kinds (kinds.map context.inEffect?) segment) :
    ∃ tokens, context.StandsIn kinds pattern tokens ∧
      ((∃ segment, context.Selects kinds tokens pattern segment ∧
          context.choose kinds candidates pattern =
            context.wordingText tokens segment.wording) ∨
        (∀ segment ∈ pattern.segments, ¬context.Fits kinds tokens segment) ∧
          context.choose kinds candidates pattern =
            context.freeText (kinds.map context.inEffect?) pattern) := by
  refine ⟨_, standsIn_standIn? h, ?_⟩
  rw [choose, (find?_eq_none_iff h).mpr hnone]
  simp only [hexcluded, Bool.true_and]
  cases hfound : candidates.find? (·.fits
      (kinds.zipIdx.map fun kind ↦ context.standIn? candidates kind.2 kind.1)) with
  | none => exact .inr ⟨(find?_eq_none_iff h).mp hfound, rfl⟩
  | some chosen =>
    obtain ⟨segment, hselects, hwording⟩ := selects_of_find? h hfound
    exact .inl ⟨segment, hselects, by rw [← hwording]⟩

/-- If no token gives way, the text comes from the first segment to fit the tokens in effect, or
else is the free text. -/
theorem choose_of_not_givesWay
    (hstay : ∀ position kind default, ¬context.GivesWay kinds pattern position kind default) :
    context.choose kinds candidates pattern =
      match candidates.find? (·.fits (kinds.map context.inEffect?)) with
      | some chosen => context.wordingText (kinds.map context.inEffect?) chosen.wording
      | none => context.freeText (kinds.map context.inEffect?) pattern := by
  rw [choose, (standsIn_standIn? h).eq_inEffect hstay]
  cases hfound : candidates.find? (·.fits (kinds.map context.inEffect?)) with
  | some chosen => rfl
  | none =>
    have hsecond : (candidates.find? fun candidate ↦ context.switches.excludedDefaults &&
        candidate.fits (kinds.map context.inEffect?)) = none := by
      rw [List.find?_eq_none] at hfound ⊢
      intro candidate hcandidate
      simp [hfound candidate hcandidate]
    dsimp only
    rw [hsecond]

end Candidates

/-- The context with defaults standing in for what is not named, or not. -/
def withExcludedDefaults (context : Context) (excluded : Bool) : Context :=
  { context with switches := { context.switches with excludedDefaults := excluded } }

/-- Under given kinds, if no token gives way, it does not matter whether it may. -/
theorem resolveUnder_withExcludedDefaults
    (hstay : ∀ position kind default, ¬context.GivesWay kinds pattern position kind default)
    (excluded : Bool) :
    (context.withExcludedDefaults excluded).resolveUnder kinds pattern =
      context.resolveUnder kinds pattern := by
  refine Traversal.bind_congr fun candidates hcandidates ↦ ?_
  have hunmet : (context.withExcludedDefaults excluded).firstUnmet? kinds candidates =
      context.firstUnmet? kinds candidates := rfl
  have hchoose : (context.withExcludedDefaults excluded).choose kinds candidates pattern =
      context.choose kinds candidates pattern := by
    have hbefore : context.choose kinds candidates pattern = _ :=
      choose_of_not_givesWay hcandidates hstay
    rw [choose_of_not_givesWay hcandidates hstay, hbefore]
    rfl
  rw [hunmet, hchoose]

/-- If no token gives way, it does not matter whether it may. -/
theorem resolve_withExcludedDefaults
    (hstay : ∀ kinds, context.kindsOf pattern = .ok (some kinds) → ∀ position kind default,
      ¬context.GivesWay kinds pattern position kind default) (excluded : Bool) :
    pattern.resolve (context.withExcludedDefaults excluded) = pattern.resolve context := by
  have hbody : (context.withExcludedDefaults excluded).resolveBody pattern =
      context.resolveBody pattern := by
    refine Traversal.bind_congr fun kinds? hkinds ↦ ?_
    cases kinds? with
    | none => rfl
    | some kinds => exact resolveUnder_withExcludedDefaults (hstay kinds hkinds) excluded
  rw [Pattern.resolve, Pattern.resolve, hbody]

/-- A pattern that resolves to a text has its segments looked up and one of them chosen. -/
theorem exists_candidates_of_resolve (hkinds : context.kindsOf pattern = .ok (some kinds))
    {text : String} (htext : pattern.resolve context = .ok text) :
    ∃ candidates, pattern.segments.mapM (context.candidate kinds) = .ok candidates ∧
      context.choose kinds candidates pattern = text := by
  have hbody : context.resolveBody pattern = .ok text := Traversal.mapError_eq_ok_iff.mp htext
  rw [resolveBody, hkinds] at hbody
  have hunder : context.resolveUnder kinds pattern = .ok text := hbody
  obtain ⟨candidates, hcandidates, hchosen⟩ := Traversal.bind_eq_ok_iff.mp hunder
  refine ⟨candidates, hcandidates, ?_⟩
  split at hchosen
  · cases hchosen
  · exact Except.ok.inj hchosen

/-- Take a pattern in which no segment fits the tokens in effect, and let defaults stand in for
tokens that are asked for and not named. Then only a segment that is not negated can come to fit,
and one of its entries names a default that stands in. If defaults may stand in, such a segment
gives the text, or else the free text does. But if every token asked for is named in the pattern,
at the position of its kind, then the result is the same whether defaults may stand in or not. -/
theorem excludedDefaults_select_named (context : Context) (pattern : Pattern) :
    (∀ kinds, context.kindsOf pattern = .ok (some kinds) →
      (∀ segment ∈ pattern.segments,
        ¬context.Fits kinds (kinds.map context.inEffect?) segment) →
        (∀ tokens segment, context.StandsIn kinds pattern tokens →
          context.Selects kinds tokens pattern segment →
            segment.negated = false ∧
              ∃ entry ∈ segment.group, context.Matches kinds tokens entry ∧
                context.NamesStandIn kinds pattern entry) ∧
        (context.switches.excludedDefaults = true → ∀ text, pattern.resolve context = .ok text →
          ∃ tokens, context.StandsIn kinds pattern tokens ∧
            ((∃ segment, context.Selects kinds tokens pattern segment ∧
                text = context.wordingText tokens segment.wording) ∨
              (∀ segment ∈ pattern.segments, ¬context.Fits kinds tokens segment) ∧
                text = context.freeText (kinds.map context.inEffect?) pattern))) ∧
      ((∀ kinds, context.kindsOf pattern = .ok (some kinds) →
        ∀ position kind id, kinds[position]? = some kind → context.request kind = .known id →
          context.NamedAt kinds pattern position id) →
        ∀ excluded, pattern.resolve (context.withExcludedDefaults excluded) =
          pattern.resolve context) := by
  refine ⟨fun kinds hkinds hnone ↦ ⟨?_, ?_⟩, ?_⟩
  · rintro tokens segment hstands ⟨before, after, hsegments, hfits, -⟩
    have hsegment : segment ∈ pattern.segments := by
      rw [hsegments]
      exact List.mem_append_right before List.mem_cons_self
    exact hstands.named_of_fits hsegment (hnone segment hsegment) hfits
  · rintro hexcluded text htext
    obtain ⟨candidates, hcandidates, rfl⟩ := exists_candidates_of_resolve hkinds htext
    exact choose_of_not_fits hcandidates hexcluded hnone
  · intro hnamed
    refine resolve_withExcludedDefaults fun kinds hkinds position kind default hgives ↦ ?_
    obtain ⟨hkind, -, id, hrequest, hunnamed⟩ := hgives
    exact hunnamed (hnamed kinds hkinds position kind id hkind hrequest)

/-- A pattern with the token `one` in a negated segment, and the default `f` under an alias. -/
def pronoun : Pattern where
  header := .complex ["gender", "count"]
  segments := [⟨[[.any, .name "one"]], true, .literal "others"⟩,
    ⟨[[.name "lady", .any]], false, .literal "she"⟩]
  freeText? := some (.literal "they")
  source := "@gender+count{!*+one:others|lady+*:she|they}"

theorem excludedDefaults_select_named_persons :
    Template.scan pronoun.source = [.ok (.pattern pronoun)] ∧
      ∃ lexicon kinds, Grammar.compile (· = "en") "en" Grammar.persons = .ok lexicon ∧
        let switches : Switches := { aliasedPatterns := true, excludedDefaults := true }
        let unnamed : Context :=
          ⟨lexicon, .ofList [("gender", .token "m"), ("count", .token "one")], switches⟩
        let named : Context :=
          ⟨lexicon, .ofList [("gender", .token "woman"), ("count", .token "one")], switches⟩
        (∃ tokens segment, unnamed.StandsIn kinds pronoun tokens ∧
          unnamed.Selects kinds tokens pronoun segment ∧
            "she" = unnamed.wordingText tokens segment.wording ∧ segment.negated = false ∧
            ∃ entry ∈ segment.group, unnamed.Matches kinds tokens entry ∧
              unnamed.NamesStandIn kinds pronoun entry) ∧
        ∀ excluded, pronoun.resolve (named.withExcludedDefaults excluded) =
          pronoun.resolve named := by
  refine ⟨by decide +kernel, ?_⟩
  have hcheck : ((Grammar.compile (· = "en") "en" Grammar.persons).toOption.bind fun lexicon ↦
      let switches : Switches := { aliasedPatterns := true, excludedDefaults := true }
      let unnamed : Context :=
        ⟨lexicon, .ofList [("gender", .token "m"), ("count", .token "one")], switches⟩
      let named : Context :=
        ⟨lexicon, .ofList [("gender", .token "woman"), ("count", .token "one")], switches⟩
      (unnamed.kindsOf pronoun).toOption.join.bind fun kinds ↦
        (pronoun.segments.mapM (unnamed.candidate kinds)).toOption.map fun candidates ↦
          decide (candidates.find? (·.fits (kinds.map unnamed.inEffect?)) = none ∧
            (pronoun.resolve unnamed).toOption = some "she" ∧
            ∀ kind ∈ kinds.zipIdx, ∀ id ∈ (named.request kind.1).known?,
              isNamedAt candidates kind.2 id = true)) = some true := by
    decide +kernel
  obtain ⟨lexicon, hlexicon, hkindsOf⟩ := Option.bind_eq_some_iff.mp hcheck
  obtain ⟨kinds, hkinds, hlookup⟩ := Option.bind_eq_some_iff.mp hkindsOf
  obtain ⟨candidates, hcandidates, hfacts⟩ := Option.map_eq_some_iff.mp hlookup
  obtain ⟨hnone, htext, hnamed⟩ := of_decide_eq_true hfacts
  rw [Traversal.toOption_eq_some_iff] at hlexicon hcandidates htext
  refine ⟨lexicon, kinds, hlexicon, ?_⟩
  intro switches unnamed named
  have hgoverning : unnamed.kindsOf pronoun = .ok (some kinds) :=
    Traversal.toOption_eq_some_iff.mp (Option.join_eq_some_iff.mp hkinds)
  constructor
  · obtain ⟨hselect, hresolve⟩ := (excludedDefaults_select_named unnamed pronoun).1 kinds hgoverning
      ((find?_eq_none_iff hcandidates).mp hnone)
    obtain ⟨tokens, hstands, ⟨segment, hselects, hshe⟩ | ⟨-, hthey⟩⟩ := hresolve rfl "she" htext
    · exact ⟨tokens, segment, hstands, hselects, hshe, hselect tokens segment hstands hselects⟩
    · have hthey : "she" = "they" := hthey
      exact absurd hthey (by decide)
  · refine (excludedDefaults_select_named named pronoun).2 ?_
    intro kinds' hkinds' position kind id hkind hrequest
    obtain rfl : kinds = kinds' :=
      Option.some.inj (Except.ok.inj (hgoverning.symm.trans hkinds'))
    have hmem : (kind, position) ∈ kinds.zipIdx := List.mk_mem_zipIdx_iff_getElem?.mpr hkind
    have hknown : (named.request kind).known? = some id := by
      rw [hrequest]
      rfl
    exact (isNamedAt_iff hcandidates position id).mp (hnamed _ hmem id hknown)

end Concord.Context
