import Concord.Proofs.Resolution.Faults

/-!
# Which segments fit

To a resolution a segment is a candidate, with its names looked up and turned into criteria. Here is
what that comes to for the segment as it is written: which tokens a name stands for (`Names`), which
a matcher accepts (`Accepts`), which tuples of tokens a whole segment fits (`Fits`), which segment
is the first to fit (`Selects`), and which tokens a pattern names at a position (`NamedAt`). If the
lookups succeed, the candidates say just that: one by one (`fits_candidate_iff`), as a list of which
the first that fits is taken (`selects_of_find?`, `find?_eq_none_iff`), and as to what they name
(`isNamedAt_iff`).
-/

set_option autoImplicit false
set_option relaxedAutoImplicit false

namespace Concord

namespace Context

/-- Where the pattern expects a token of the kind, the name stands for this one. An alias does so
only if patterns may name aliases. -/
def Names (context : Context) (kind : Kind) (name : String) (id : TokenId) : Prop :=
  ∃ resolved, context.lexicon.resolve? name = some resolved ∧ resolved.id = id ∧
    resolved.kind.name = kind.name ∧
      (resolved.viaAlias = true → context.switches.aliasedPatterns = true)

/-- The matcher accepts what is in effect for the kind, be it a token or none. -/
def Accepts (context : Context) (kind : Kind) (token? : Option TokenId) : Matcher → Prop
  | .any => token?.isSome
  | .name name => ∃ id, token? = some id ∧ context.Names kind name id

/-- Every matcher of the entry accepts the token at its position. -/
def Matches (context : Context) (kinds : List Kind) (tokens : List (Option TokenId))
    (entry : List Matcher) : Prop :=
  ∀ (position : Nat) (matcher : Matcher) (kind : Kind) (token? : Option TokenId),
    entry[position]? = some matcher → kinds[position]? = some kind →
      tokens[position]? = some token? → context.Accepts kind token? matcher

/-- Some entry of the segment matches the tokens, or for a negated segment none does. -/
def Fits (context : Context) (kinds : List Kind) (tokens : List (Option TokenId))
    (segment : Segment) : Prop :=
  (∃ entry ∈ segment.group, context.Matches kinds tokens entry) ↔ segment.negated = false

/-- The segment is the first of the pattern that fits the tokens. -/
def Selects (context : Context) (kinds : List Kind) (tokens : List (Option TokenId))
    (pattern : Pattern) (segment : Segment) : Prop :=
  ∃ before after, pattern.segments = before ++ segment :: after ∧
    context.Fits kinds tokens segment ∧ ∀ earlier ∈ before, ¬context.Fits kinds tokens earlier

/-- A segment that is selected is one of the pattern and fits. -/
theorem Selects.mem_and_fits {context : Context} {kinds : List Kind}
    {tokens : List (Option TokenId)} {pattern : Pattern} {segment : Segment}
    (h : context.Selects kinds tokens pattern segment) :
    segment ∈ pattern.segments ∧ context.Fits kinds tokens segment := by
  obtain ⟨before, after, hsegments, hfits, -⟩ := h
  rw [hsegments]
  exact ⟨List.mem_append_right before List.mem_cons_self, hfits⟩

/-- Some entry of the pattern, negated or not, names the token at the position. -/
def NamedAt (context : Context) (kinds : List Kind) (pattern : Pattern) (position : Nat)
    (id : TokenId) : Prop :=
  ∃ entry ∈ pattern.entries, ∃ name kind, entry[position]? = some (.name name) ∧
    kinds[position]? = some kind ∧ context.Names kind name id

variable {context : Context} {kinds : List Kind}

/-! ### Criteria -/

/-- A name becomes a criterion for the token that it stands for, or if it stands for none, for what
cannot be. -/
theorem criterion_name_cases {kind : Kind} {name : String} {criterion : Criterion}
    (h : context.criterion kind (.name name) = .ok criterion) :
    (∃ id, criterion = .only id ∧ ∀ other, context.Names kind name other ↔ id = other) ∨
      criterion = .impossible ∧ ∀ id, ¬context.Names kind name id := by
  unfold Context.criterion at h
  dsimp only at h
  cases hresolved : context.lexicon.resolve? name with
  | none =>
    rw [hresolved] at h
    refine .inr ⟨eq_of_refuse h, ?_⟩
    rintro id ⟨resolved, hsome, -⟩
    rw [hresolved] at hsome
    cases hsome
  | some resolved =>
    have hnames (id : TokenId) : context.Names kind name id ↔ resolved.id = id ∧
        resolved.kind.name = kind.name ∧
          (resolved.viaAlias && !context.switches.aliasedPatterns) = false := by
      simp [Names, hresolved]
    rw [hresolved] at h
    dsimp only at h
    split at h
    · next hkind =>
      exact .inr ⟨eq_of_refuse h, fun id hname ↦ hkind ((hnames id).mp hname).2.1⟩
    · next hkind =>
      split at h
      · next halias =>
        refine .inr ⟨eq_of_refuse h, fun id hname ↦ ?_⟩
        rw [((hnames id).mp hname).2.2] at halias
        cases halias
      · next halias =>
        refine .inl ⟨resolved.id, (Except.ok.inj h).symm, fun other ↦ ?_⟩
        rw [hnames]
        exact and_iff_left ⟨not_not.mp hkind, Bool.eq_false_iff.mpr halias⟩

/-- The criterion of a matcher asks for a token alone just if the matcher names it. -/
theorem criterion_eq_only_iff {kind : Kind} {matcher : Matcher} {criterion : Criterion}
    (h : context.criterion kind matcher = .ok criterion) (id : TokenId) :
    criterion = .only id ↔ ∃ name, matcher = .name name ∧ context.Names kind name id := by
  cases matcher with
  | any =>
    obtain rfl := Except.ok.inj h
    simp
  | name name =>
    rcases criterion_name_cases h with ⟨named, rfl, hnames⟩ | ⟨rfl, hnone⟩
    · simp [hnames]
    · simp [hnone]

/-- The criterion of a matcher is met by what the matcher accepts. -/
theorem fits_criterion_iff {kind : Kind} {matcher : Matcher} {criterion : Criterion}
    (h : context.criterion kind matcher = .ok criterion) (token? : Option TokenId) :
    criterion.fits token? = true ↔ context.Accepts kind token? matcher := by
  cases matcher with
  | any =>
    obtain rfl := Except.ok.inj h
    exact Iff.rfl
  | name name =>
    rw [Accepts]
    rcases criterion_name_cases h with ⟨named, rfl, hnames⟩ | ⟨rfl, hnone⟩
    · simp [Criterion.fits, hnames]
    · simp [Criterion.fits, hnone]

/-! ### Entries -/

/-- An entry has a criterion for each of its matchers that a kind governs. -/
theorem exists_criterion_of_matcher {entry : List Matcher} {criteria : List Criterion}
    (h : context.criteria kinds entry = .ok criteria) {position : Nat} {matcher : Matcher}
    {kind : Kind} (hmatcher : entry[position]? = some matcher)
    (hkind : kinds[position]? = some kind) :
    ∃ criterion, criteria[position]? = some criterion ∧
      context.criterion kind matcher = .ok criterion := by
  have hpair : (entry.zip kinds)[position]? = some (matcher, kind) :=
    List.getElem?_zip_eq_some.mpr ⟨hmatcher, hkind⟩
  have hposition := Traversal.getElem?_of_mapM_eq_ok h position
  rw [hpair, Option.map_some, eq_comm, Option.map_eq_some_iff] at hposition
  obtain ⟨criterion, hcriterion, hlookup⟩ := hposition
  exact ⟨criterion, hcriterion, hlookup.symm⟩

/-- An entry has no other criteria than those of its matchers. -/
theorem exists_matcher_of_criterion {entry : List Matcher} {criteria : List Criterion}
    (h : context.criteria kinds entry = .ok criteria) {position : Nat} {criterion : Criterion}
    (hcriterion : criteria[position]? = some criterion) :
    ∃ matcher kind, entry[position]? = some matcher ∧ kinds[position]? = some kind ∧
      context.criterion kind matcher = .ok criterion := by
  have hposition := Traversal.getElem?_of_mapM_eq_ok h position
  rw [hcriterion, Option.map_some, Option.map_eq_some_iff] at hposition
  obtain ⟨⟨matcher, kind⟩, hpair, hlookup⟩ := hposition
  obtain ⟨hmatcher, hkind⟩ := List.getElem?_zip_eq_some.mp hpair
  exact ⟨matcher, kind, hmatcher, hkind, hlookup⟩

/-- The criteria of an entry ask for a token alone just where the entry names it. -/
theorem getElem?_criteria_eq_only_iff {entry : List Matcher} {criteria : List Criterion}
    (h : context.criteria kinds entry = .ok criteria) {position : Nat} {id : TokenId} :
    criteria[position]? = some (.only id) ↔ ∃ name kind, entry[position]? = some (.name name) ∧
      kinds[position]? = some kind ∧ context.Names kind name id := by
  constructor
  · intro hcriterion
    obtain ⟨matcher, kind, hmatcher, hkind, hlookup⟩ := exists_matcher_of_criterion h hcriterion
    obtain ⟨name, rfl, hname⟩ := (criterion_eq_only_iff hlookup id).mp rfl
    exact ⟨name, kind, hmatcher, hkind, hname⟩
  · rintro ⟨name, kind, hmatcher, hkind, hname⟩
    obtain ⟨criterion, hcriterion, hlookup⟩ := exists_criterion_of_matcher h hmatcher hkind
    rw [hcriterion, (criterion_eq_only_iff hlookup id).mpr ⟨name, rfl, hname⟩]

/-- All criteria of an entry are met by the tokens just if the entry matches them. -/
theorem entryFits_criteria_iff {entry : List Matcher} {criteria : List Criterion}
    (h : context.criteria kinds entry = .ok criteria) (tokens : List (Option TokenId)) :
    entryFits tokens criteria = true ↔ context.Matches kinds tokens entry := by
  rw [entryFits, List.all_eq_true]
  constructor
  · intro hall position matcher kind token? hmatcher hkind htoken
    obtain ⟨criterion, hcriterion, hlookup⟩ := exists_criterion_of_matcher h hmatcher hkind
    have hpair : (criteria.zip tokens)[position]? = some (criterion, token?) :=
      List.getElem?_zip_eq_some.mpr ⟨hcriterion, htoken⟩
    exact (fits_criterion_iff hlookup token?).mp (hall _ (List.mem_of_getElem? hpair))
  · intro hmatches pair hpair
    obtain ⟨position, hposition⟩ := List.mem_iff_getElem?.mp hpair
    obtain ⟨hcriterion, htoken⟩ := List.getElem?_zip_eq_some.mp hposition
    obtain ⟨matcher, kind, hmatcher, hkind, hlookup⟩ := exists_matcher_of_criterion h hcriterion
    exact (fits_criterion_iff hlookup pair.2).mpr
      (hmatches position matcher kind pair.2 hmatcher hkind htoken)

/-! ### Segments -/

/-- A segment looked up has its entries looked up and is otherwise as it was. -/
theorem candidate_eq_ok_iff {segment : Segment} {candidate : Candidate} :
    context.candidate kinds segment = .ok candidate ↔
      segment.group.mapM (context.criteria kinds) = .ok candidate.entries ∧
        candidate.negated = segment.negated ∧ candidate.wording = segment.wording := by
  rw [Context.candidate, Traversal.map_eq_ok_iff]
  constructor
  · rintro ⟨entries, hentries, rfl⟩
    exact ⟨hentries, rfl, rfl⟩
  · rintro ⟨hentries, hnegated, hwording⟩
    exact ⟨candidate.entries, hentries, by rw [← hnegated, ← hwording]⟩

/-- A segment looked up fits the tokens that the segment fits. -/
theorem fits_candidate_iff {segment : Segment} {candidate : Candidate}
    (h : context.candidate kinds segment = .ok candidate) (tokens : List (Option TokenId)) :
    candidate.fits tokens = true ↔ context.Fits kinds tokens segment := by
  obtain ⟨hentries, hnegated, -⟩ := candidate_eq_ok_iff.mp h
  have hany : candidate.entries.any (entryFits tokens) = true ↔
      ∃ entry ∈ segment.group, context.Matches kinds tokens entry := by
    rw [List.any_eq_true]
    constructor
    · rintro ⟨criteria, hcriteria, hfits⟩
      obtain ⟨entry, hentry, hlookup⟩ := Traversal.exists_of_mem_of_mapM_eq_ok hentries hcriteria
      exact ⟨entry, hentry, (entryFits_criteria_iff hlookup tokens).mp hfits⟩
    · rintro ⟨entry, hentry, hmatches⟩
      obtain ⟨criteria, hcriteria, hlookup⟩ := Traversal.exists_mem_of_mapM_eq_ok hentries hentry
      exact ⟨criteria, hcriteria, (entryFits_criteria_iff hlookup tokens).mpr hmatches⟩
  rw [Candidate.fits, Fits, ← hany, hnegated]
  cases candidate.entries.any (entryFits tokens) <;> cases segment.negated <;> decide

/-! ### Patterns -/

variable {pattern : Pattern} {candidates : List Candidate}

/-- None of the segments looked up fits just if no segment does. -/
theorem find?_eq_none_iff (h : pattern.segments.mapM (context.candidate kinds) = .ok candidates)
    {tokens : List (Option TokenId)} :
    candidates.find? (·.fits tokens) = none ↔
      ∀ segment ∈ pattern.segments, ¬context.Fits kinds tokens segment := by
  rw [List.find?_eq_none]
  constructor
  · intro hnone segment hsegment hfits
    obtain ⟨candidate, hcandidate, hlookup⟩ := Traversal.exists_mem_of_mapM_eq_ok h hsegment
    exact hnone candidate hcandidate ((fits_candidate_iff hlookup tokens).mpr hfits)
  · intro hnone candidate hcandidate hfits
    obtain ⟨segment, hsegment, hlookup⟩ := Traversal.exists_of_mem_of_mapM_eq_ok h hcandidate
    exact hnone segment hsegment ((fits_candidate_iff hlookup tokens).mp hfits)

/-- The first of the segments looked up to fit comes from the first segment to fit. -/
theorem selects_of_find? (h : pattern.segments.mapM (context.candidate kinds) = .ok candidates)
    {tokens : List (Option TokenId)} {chosen : Candidate}
    (hchosen : candidates.find? (·.fits tokens) = some chosen) :
    ∃ segment, context.Selects kinds tokens pattern segment ∧
      chosen.wording = segment.wording := by
  obtain ⟨hfits, before, after, rfl, hbefore⟩ := List.find?_eq_some_iff_append.mp hchosen
  obtain ⟨front, segment, rest, hsegments, hfront, hlookup⟩ :=
    Traversal.exists_append_of_mapM_eq_ok h
  refine ⟨segment, ⟨front, rest, hsegments, (fits_candidate_iff hlookup tokens).mp hfits, ?_⟩,
    (candidate_eq_ok_iff.mp hlookup).2.2⟩
  intro earlier hearlier hfitsEarlier
  obtain ⟨candidate, hcandidate, hlookup⟩ := Traversal.exists_mem_of_mapM_eq_ok hfront hearlier
  have hnot := hbefore candidate hcandidate
  rw [(fits_candidate_iff hlookup tokens).mpr hfitsEarlier] at hnot
  cases hnot

/-- The segments looked up ask for a token alone just where the pattern names it. -/
theorem isNamedAt_iff (h : pattern.segments.mapM (context.candidate kinds) = .ok candidates)
    (position : Nat) (id : TokenId) :
    isNamedAt candidates position id = true ↔ context.NamedAt kinds pattern position id := by
  simp only [isNamedAt, List.any_eq_true, decide_eq_true_eq, NamedAt, Pattern.entries,
    List.mem_flatMap]
  constructor
  · rintro ⟨candidate, hcandidate, criteria, hcriteria, hnamed⟩
    obtain ⟨segment, hsegment, hlookup⟩ := Traversal.exists_of_mem_of_mapM_eq_ok h hcandidate
    obtain ⟨hentries, -⟩ := candidate_eq_ok_iff.mp hlookup
    obtain ⟨entry, hmem, hlookup⟩ := Traversal.exists_of_mem_of_mapM_eq_ok hentries hcriteria
    exact ⟨entry, ⟨segment, hsegment, hmem⟩, (getElem?_criteria_eq_only_iff hlookup).mp hnamed⟩
  · rintro ⟨entry, ⟨segment, hsegment, hmem⟩, hnamed⟩
    obtain ⟨candidate, hcandidate, hlookup⟩ := Traversal.exists_mem_of_mapM_eq_ok h hsegment
    obtain ⟨hentries, -⟩ := candidate_eq_ok_iff.mp hlookup
    obtain ⟨criteria, hcriteria, hlookup⟩ := Traversal.exists_mem_of_mapM_eq_ok hentries hmem
    exact ⟨candidate, hcandidate, criteria, hcriteria,
      (getElem?_criteria_eq_only_iff hlookup).mpr hnamed⟩

end Context

end Concord
