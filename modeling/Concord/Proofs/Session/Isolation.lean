import Concord.Proofs.Session.Transparency

/-!
# Faults and other locales leave published lexicons alone

A command publishes a lexicon only for a locale that it rebuilds, and a grammar with a fault
displaces none. The main statement is `run_isolates`. It says so for single commands, says that a
command which fails because of a grammar publishes nothing at all, and spells out the two commands
that rebuild many locales: `recompileAll` publishes all or nothing, while an edit brings the
published lexicons up to date one by one, as `Localizer.recompileEach` does.
-/

set_option autoImplicit false
set_option relaxedAutoImplicit false

namespace Concord

/-! ### Failures -/

/-- Interpolation fails because of a pattern, never because of a grammar. -/
theorem Context.interpolate_ne_grammar (context : Context) (text : String) (fault : GrammarError) :
    context.interpolate text ≠ .error (.grammar fault) := by
  intro h
  rw [← Traversal.fault?_eq_some_iff, interpolate, Traversal.fault?_map, Traversal.fault?_mapM] at h
  obtain ⟨item, -, hitem⟩ := List.exists_of_findSome?_eq_some h
  cases item with
  | error error => cases Option.some.inj hitem
  | ok piece =>
    rw [resolveItem, Traversal.fault?_mapError] at hitem
    obtain ⟨error, -, herror⟩ := Option.map_eq_some_iff.mp hitem
    cases herror

/-- A lexicon at hand leaves no fault of a grammar to report. -/
theorem Inquiry.answer_ne_grammar (switches : Switches) (lexicon : Lexicon) (inquiry : Inquiry)
    (fault : GrammarError) : inquiry.answer switches lexicon ≠ .error (.grammar fault) := by
  intro h
  rw [← Traversal.fault?_eq_some_iff] at h
  cases inquiry with
  | interpolate text options overrides =>
    rw [answer, Traversal.fault?_map, Traversal.fault?_eq_some_iff] at h
    exact Context.interpolate_ne_grammar _ text fault h
  | review text =>
    rw [answer, Traversal.fault?_map, Traversal.fault?_mapError] at h
    obtain ⟨error, -, herror⟩ := Option.map_eq_some_iff.mp h
    cases herror
  | _ => cases h

namespace Outcome

theorem ofAnswer_eq_failed_iff {result : Except Failure Answer} {failure : Failure} :
    ofAnswer result = .failed failure ↔ result = .error failure := by
  cases result <;> simp [ofAnswer]

theorem ofCompiled_eq_failed_iff {α : Type} {render : α → Answer} {result : Except GrammarError α}
    {fault : GrammarError} :
    ofCompiled render result = .failed (.grammar fault) ↔ result = .error fault := by
  cases result <;> simp [ofCompiled]

end Outcome

namespace Localizer

variable {isLocale : String → Bool} {localizer : Localizer} {fault : GrammarError}

theorem recompile_of_fault {locale : String}
    (h : (localizer.recompile isLocale locale).1 = .error fault) :
    (localizer.recompile isLocale locale).2 = localizer := by
  unfold recompile at h ⊢
  split
  · rfl
  · next hcompile =>
    rw [hcompile] at h
    cases h

theorem lexicon_of_fault {locale : String}
    (h : (localizer.lexicon isLocale locale).1 = .error fault) :
    (localizer.lexicon isLocale locale).2 = localizer := by
  unfold lexicon at h ⊢
  split
  · rfl
  · next hnone =>
    rw [hnone] at h
    exact recompile_of_fault h

theorem consult_of_fault {ambient : Switches} {locale : String} {inquiry : Inquiry}
    (h : (localizer.consult isLocale ambient locale inquiry).1 = .error (.grammar fault)) :
    (localizer.consult isLocale ambient locale inquiry).2 = localizer := by
  rw [snd_consult]
  unfold consult at h
  split at h
  · next error after hlexicon =>
    have hfound : (localizer.lexicon isLocale locale).1 = .error error := congrArg Prod.fst hlexicon
    exact lexicon_of_fault hfound
  · exact absurd h (inquiry.answer_ne_grammar _ _ fault)

theorem consultStored_of_fault {ambient : Switches} {locale key : String}
    {inquiry : String → Inquiry}
    (h : (localizer.consultStored isLocale ambient locale key inquiry).1 =
      .error (.grammar fault)) :
    (localizer.consultStored isLocale ambient locale key inquiry).2 = localizer := by
  unfold consultStored at h ⊢
  cases htemplate : localizer.catalog.template? locale key with
  | none => rfl
  | some text =>
    rw [htemplate] at h
    exact consult_of_fault h

theorem recompileAll_of_fault (h : (localizer.recompileAll isLocale).1 = .error fault) :
    (localizer.recompileAll isLocale).2 = localizer := by
  unfold recompileAll at h ⊢
  split
  · rfl
  · next hcompiled =>
    rw [hcompiled] at h
    cases h

/-- A grammar with a fault is stored, but publishes nothing. -/
theorem published_storeGrammar_of_fault {locale : String} {grammar : Grammar}
    (h : (localizer.storeGrammar isLocale locale grammar).1 = .error fault) :
    (localizer.storeGrammar isLocale locale grammar).2.published = localizer.published := by
  unfold storeGrammar at h ⊢
  rw [recompile_of_fault h]

/-! ### Many locales -/

/-- Recompiles locales one after the other; a fault does not keep the others from it. -/
def recompileEach (isLocale : String → Bool) (localizer : Localizer) (locales : List String) :
    Localizer :=
  locales.foldl (fun localizer locale ↦ (localizer.recompile isLocale locale).2) localizer

@[simp] theorem pinned?_recompile (localizer : Localizer) (locale : String) :
    (localizer.recompile isLocale locale).2.pinned? = localizer.pinned? := by
  unfold recompile
  split <;> rfl

/-- Recompiling locales one by one changes the published lexicons only. -/
theorem recompileEach_eq (localizer : Localizer) (locales : List String) :
    localizer.recompileEach isLocale locales =
      { localizer with published := (localizer.recompileEach isLocale locales).published } := by
  induction locales generalizing localizer with
  | nil => rfl
  | cons locale rest ih =>
    refine (ih (localizer.recompile isLocale locale).2).trans ?_
    rw [catalog_recompile, pinned?_recompile]
    rfl

/-- Of the locales that are recompiled one by one, each gets the lexicon it would get alone. -/
theorem published_recompileEach (localizer : Localizer) (locales : List String) (other : String) :
    (localizer.recompileEach isLocale locales).published[other]? =
      (localizer.catalog.rebuilt? isLocale locales other).or localizer.published[other]? := by
  induction locales generalizing localizer with
  | nil => rw [Catalog.rebuilt?_of_notMem _ List.not_mem_nil, Option.none_or]; rfl
  | cons locale rest ih =>
    refine (ih (localizer.recompile isLocale locale).2).trans ?_
    have hall : other ∈ locale :: rest ↔ other ∈ rest ∨ other ∈ [locale] := by
      rw [List.mem_cons, List.mem_singleton, or_comm]
    rw [catalog_recompile, published_recompile, ← Option.or_assoc, Catalog.rebuilt?_or _ hall]

/-- To bring the published lexicons up to date is to recompile their locales one by one. -/
theorem recompilePublished_eq (localizer : Localizer) :
    localizer.recompilePublished isLocale =
      localizer.recompileEach isLocale localizer.publishedLocales := by
  have hpublished : (localizer.recompilePublished isLocale).published =
      (localizer.recompileEach isLocale localizer.publishedLocales).published := by
    refine Std.ExtTreeMap.ext_getElem? fun {locale} ↦ ?_
    rw [published_recompilePublished, published_recompileEach]
  calc localizer.recompilePublished isLocale
      = { localizer with published := (localizer.recompilePublished isLocale).published } := rfl
    _ = { localizer with published :=
            (localizer.recompileEach isLocale localizer.publishedLocales).published } := by
        rw [hpublished]
    _ = localizer.recompileEach isLocale localizer.publishedLocales := (recompileEach_eq _ _).symm

/-- The lexicon that a locale has after it is compiled anew, if it had one before. -/
def refreshed (kept : Lexicon) : Except GrammarError Lexicon → Lexicon
  | .error _ => kept
  | .ok compiled => compiled

/-- A locale that is brought up to date gets the lexicon of its present grammar, and keeps the one
it has if that grammar has a fault. -/
theorem published_recompilePublished_eq_map (localizer : Localizer) (locale : String) :
    (localizer.recompilePublished isLocale).published[locale]? =
      localizer.published[locale]?.map fun kept ↦
        refreshed kept (localizer.catalog.compile isLocale locale) := by
  rw [recompilePublished, Std.ExtTreeMap.getElem?_map]
  cases localizer.catalog.compile isLocale locale <;> rfl

/-- Recompiling all announced locales publishes a lexicon for each of them and for no other, or
gives the fault of the first that has one and changes nothing. -/
theorem recompileAll_cases (localizer : Localizer) :
    ((localizer.recompileAll isLocale).1 = .ok localizer.catalog.locales.length ∧
        (∀ locale ∈ localizer.catalog.locales, ∃ lexicon,
          localizer.catalog.compile isLocale locale = .ok lexicon ∧
            (localizer.recompileAll isLocale).2.published[locale]? = some lexicon) ∧
        ∀ locale ∉ localizer.catalog.locales,
          (localizer.recompileAll isLocale).2.published[locale]? = localizer.published[locale]?) ∨
      ∃ earlier locale later fault,
        localizer.catalog.locales = earlier ++ locale :: later ∧
          (∀ other ∈ earlier, ∃ lexicon, localizer.catalog.compile isLocale other = .ok lexicon) ∧
          localizer.catalog.compile isLocale locale = .error fault ∧
          localizer.recompileAll isLocale = (.error fault, localizer) := by
  rw [recompileAll]
  cases hall : compileAll isLocale localizer.catalog localizer.catalog.locales with
  | error fault =>
    right
    obtain ⟨earlier, locale, later, hlocales, hfault, hearlier⟩ := exists_first_of_compileAll hall
    exact ⟨earlier, locale, later, fault, hlocales, hearlier, hfault, rfl⟩
  | ok compiled =>
    left
    obtain ⟨hlocales, hcompiled⟩ := forall_compile_of_compileAll hall
    dsimp only
    simp only [published_foldl_publish hcompiled, hlocales]
    refine ⟨?_, fun locale hlocale ↦ ?_, fun locale hlocale ↦ ?_⟩
    · rw [← hlocales, List.length_map]
    · rw [← hlocales] at hlocale
      obtain ⟨entry, hentry, rfl⟩ := List.mem_map.mp hlocale
      rw [hlocales] at hlocale
      refine ⟨entry.2, hcompiled entry hentry, ?_⟩
      rw [Catalog.rebuilt?_of_mem _ hlocale, hcompiled entry hentry]
      rfl
    · rw [Catalog.rebuilt?_of_notMem _ hlocale, Option.none_or]

end Localizer

namespace Session

variable {isLocale : String → Bool}

/-! ### Single commands -/

/-- A command that changes what is published for a locale has rebuilt the locale, with success. -/
theorem rebuilt_of_published_ne (session : Session) (command : Command) (locale : String)
    (h : (session.run isLocale command).2.localizer.published[locale]? ≠
      session.localizer.published[locale]?) :
    locale ∈ session.rebuilds isLocale command ∧
      ∃ lexicon,
        (session.run isLocale command).2.localizer.catalog.compile isLocale locale = .ok lexicon ∧
        (session.run isLocale command).2.localizer.published[locale]? = some lexicon := by
  rw [(session.rebuilds_run command).published] at h ⊢
  by_cases hlocale : locale ∈ session.rebuilds isLocale command
  · rw [Catalog.rebuilt?_of_mem _ hlocale] at h ⊢
    refine ⟨hlocale, ?_⟩
    cases hcompile : (session.run isLocale command).2.localizer.catalog.compile isLocale locale with
    | error fault =>
      rw [hcompile] at h
      exact absurd (Option.none_or) h
    | ok lexicon => exact ⟨lexicon, rfl, rfl⟩
  · rw [Catalog.rebuilt?_of_notMem _ hlocale, Option.none_or] at h
    exact absurd rfl h

/-- A command that fails because of a grammar leaves the published lexicons as they were. -/
theorem published_run_of_fault (session : Session) (command : Command) (fault : GrammarError)
    (h : (session.run isLocale command).1 = .failed (.grammar fault)) :
    (session.run isLocale command).2.localizer.published = session.localizer.published := by
  cases command with
  | localize locale key options overrides =>
    exact congrArg _ (Localizer.consultStored_of_fault (Outcome.ofAnswer_eq_failed_iff.mp h))
  | reviewStored locale key =>
    exact congrArg _ (Localizer.consultStored_of_fault (Outcome.ofAnswer_eq_failed_iff.mp h))
  | consult locale inquiry =>
    exact congrArg _ (Localizer.consult_of_fault (Outcome.ofAnswer_eq_failed_iff.mp h))
  | recompile locale =>
    exact congrArg _ (Localizer.recompile_of_fault (Outcome.ofCompiled_eq_failed_iff.mp h))
  | recompileAll =>
    exact congrArg _ (Localizer.recompileAll_of_fault (Outcome.ofCompiled_eq_failed_iff.mp h))
  | lexicon locale =>
    exact congrArg _ (Localizer.lexicon_of_fault (Outcome.ofCompiled_eq_failed_iff.mp h))
  | storeGrammar locale grammar =>
    exact Localizer.published_storeGrammar_of_fault (Outcome.ofCompiled_eq_failed_iff.mp h)
  | edit edits => cases h
  | localesWith kind? => cases h
  | published locale => cases h
  | publishedKinds => cases h
  | switches => cases h
  | pin switches? => cases h
  | setAmbient switches => cases h
  | updateAmbient overrides => cases h

/-! ### Commands that rebuild many locales -/

/-- To recompile all locales gives their number. It publishes the lexicon of each announced locale,
and of no other. -/
structure PublishesAll (isLocale : String → Bool) (session : Session) : Prop where
  outcome_eq : (session.run isLocale .recompileAll).1 =
    .answer (.count session.localizer.catalog.locales.length)
  announced (locale : String) (hlocale : locale ∈ session.localizer.catalog.locales) :
    ∃ lexicon, session.localizer.catalog.compile isLocale locale = .ok lexicon ∧
      (session.run isLocale .recompileAll).2.localizer.published[locale]? = some lexicon
  others (locale : String) (hlocale : locale ∉ session.localizer.catalog.locales) :
    (session.run isLocale .recompileAll).2.localizer.published[locale]? =
      session.localizer.published[locale]?

/-- To recompile all locales fails with the fault of the first announced one that has a fault, and
changes nothing. -/
def PublishesNone (isLocale : String → Bool) (session : Session) : Prop :=
  ∃ earlier locale later fault,
    session.localizer.catalog.locales = earlier ++ locale :: later ∧
      (∀ other ∈ earlier, ∃ lexicon,
        session.localizer.catalog.compile isLocale other = .ok lexicon) ∧
      session.localizer.catalog.compile isLocale locale = .error fault ∧
      session.run isLocale .recompileAll = (.failed (.grammar fault), session)

/-- After the edits the published locales are recompiled one by one. Each gets the lexicon of its
new grammar, or keeps its own if that has a fault; no other locale gets one. -/
structure RefreshesEach (isLocale : String → Bool) (session : Session) (edits : List Edit) :
    Prop where
  one_by_one : (session.run isLocale (.edit edits)).2.localizer =
    Localizer.recompileEach isLocale
      { session.localizer with catalog := (session.localizer.catalog.editAll edits).2 }
      session.localizer.publishedLocales
  published_eq (locale : String) :
    (session.run isLocale (.edit edits)).2.localizer.published[locale]? =
      session.localizer.published[locale]?.map fun kept ↦
        Localizer.refreshed kept
          ((session.localizer.catalog.editAll edits).2.compile isLocale locale)

/-- Whatever list the catalog announces, all its locales are published or none is. -/
theorem publishesAll_or_publishesNone (session : Session) :
    session.PublishesAll isLocale ∨ session.PublishesNone isLocale := by
  rcases session.localizer.recompileAll_cases with
    ⟨hcount, hannounced, hothers⟩ |
      ⟨earlier, locale, later, fault, hlocales, hearlier, hfault, hall⟩
  · exact Or.inl ⟨congrArg (Outcome.ofCompiled Answer.count) hcount, hannounced, hothers⟩
  · refine Or.inr ⟨earlier, locale, later, fault, hlocales, hearlier, hfault, ?_⟩
    rw [run, hall]
    rfl

theorem refreshesEach (session : Session) (edits : List Edit) :
    session.RefreshesEach isLocale edits :=
  ⟨Localizer.recompilePublished_eq _, Localizer.published_recompilePublished_eq_map _⟩

/-- In any session: what is published for a locale changes only if the command has rebuilt this
locale with success; a command that fails because of a grammar changes nothing that is published;
recompiling all locales publishes all or none, whatever list the catalog announces; and edits
refresh each published locale by itself. -/
theorem run_isolates (isLocale : String → Bool) (session : Session) :
    (∀ command locale,
        (session.run isLocale command).2.localizer.published[locale]? ≠
            session.localizer.published[locale]? →
          locale ∈ session.rebuilds isLocale command ∧
            ∃ lexicon, (session.run isLocale command).2.localizer.catalog.compile isLocale locale =
                .ok lexicon ∧
              (session.run isLocale command).2.localizer.published[locale]? = some lexicon) ∧
      (∀ command fault, (session.run isLocale command).1 = .failed (.grammar fault) →
        (session.run isLocale command).2.localizer.published = session.localizer.published) ∧
      (session.PublishesAll isLocale ∨ session.PublishesNone isLocale) ∧
      ∀ edits, session.RefreshesEach isLocale edits :=
  ⟨session.rebuilt_of_published_ne, session.published_run_of_fault,
    session.publishesAll_or_publishesNone, session.refreshesEach⟩

/-- A session that announces one locale twice and, between, another whose grammar has a fault. The
lexicon of the first is published. -/
def bilingual : Session :=
  let catalog := Catalog.mk ∅ ∅ (some ["en", "de", "en"])
    |>.storeGrammar "en" (single "f")
    |>.storeGrammar "de" dangling
  Session.runAll isExampleLocale { localizer := { catalog } } [.lexicon "en"]

theorem run_isolates_bilingual :
    let recompiled := bilingual.run isExampleLocale .recompileAll
    let edited := bilingual.run isExampleLocale (.edit [.storeGrammar "en" (single "m")])
    (∃ fault, recompiled.1 = .failed (.grammar fault) ∧
        recompiled.2.localizer.published = bilingual.localizer.published) ∧
      edited.2.localizer.published["en"]? ≠ bilingual.localizer.published["en"]? ∧
        "en" ∈ bilingual.rebuilds isExampleLocale (.edit [.storeGrammar "en" (single "m")]) := by
  intro recompiled edited
  have hfault : Traversal.fault? (bilingual.localizer.recompileAll isExampleLocale).1 =
      some (.danglingAlias "gender" "lady" "f") := by
    decide +kernel
  have hfailed : recompiled.1 =
      .failed (.grammar (.danglingAlias "gender" "lady" "f")) :=
    Outcome.ofCompiled_eq_failed_iff.mpr (Traversal.fault?_eq_some_iff.mp hfault)
  have hnames : edited.2.localizer.published["en"]?.map Lexicon.tokenNames ≠
      bilingual.localizer.published["en"]?.map Lexicon.tokenNames := by
    decide +kernel
  have hchanged := mt (congrArg (Option.map Lexicon.tokenNames)) hnames
  obtain ⟨hrebuilt, hkept, -, -⟩ := run_isolates isExampleLocale bilingual
  exact ⟨⟨_, hfailed, hkept _ _ hfailed⟩, hchanged, (hrebuilt _ _ hchanged).1⟩

end Session

end Concord
