import Concord.Localizer
import Concord.Proofs.Traversal

/-!
# What the operations of a localizer rebuild

Each operation compiles the lexicons of some locales anew and leaves the others alone.
`Localizer.Rebuilds` says so for given locales, and there is one lemma for each operation that
names the locales it rebuilds. Whatever an operation rebuilds, it keeps the published lexicons up
to date (`Rebuilds.upToDate`), and an up-to-date localizer answers like its catalog
(`fst_consult_of_upToDate`).
-/

set_option autoImplicit false
set_option relaxedAutoImplicit false

namespace Concord

/-- The lexicon that a locale gets when the given locales are rebuilt. It gets none if it is not
among them, or if its grammar has a fault. -/
def Catalog.rebuilt? (isLocale : String → Bool) (catalog : Catalog) (locales : List String)
    (locale : String) : Option Lexicon :=
  if locale ∈ locales then (catalog.compile isLocale locale).toOption else none

variable {isLocale : String → Bool}

theorem Catalog.rebuilt?_of_mem (catalog : Catalog) {locales : List String} {locale : String}
    (h : locale ∈ locales) :
    catalog.rebuilt? isLocale locales locale = (catalog.compile isLocale locale).toOption :=
  if_pos h

theorem Catalog.rebuilt?_of_notMem (catalog : Catalog) {locales : List String} {locale : String}
    (h : locale ∉ locales) : catalog.rebuilt? isLocale locales locale = none :=
  if_neg h

/-- Locales may be rebuilt in two parts, and in any order. -/
theorem Catalog.rebuilt?_or (catalog : Catalog) {first second all : List String} {locale : String}
    (h : locale ∈ all ↔ locale ∈ first ∨ locale ∈ second) :
    (catalog.rebuilt? isLocale first locale).or (catalog.rebuilt? isLocale second locale) =
      catalog.rebuilt? isLocale all locale := by
  by_cases hfirst : locale ∈ first
  · rw [rebuilt?_of_mem _ hfirst, rebuilt?_of_mem _ (h.mpr (Or.inl hfirst)), rebuilt?]
    split
    · rw [Option.or_self]
    · rw [Option.or_none]
  · rw [rebuilt?_of_notMem _ hfirst, Option.none_or, rebuilt?, rebuilt?]
    simp only [h, hfirst, false_or]

namespace Localizer

/-- The given locales whose lexicons are not published. -/
def unpublished (localizer : Localizer) (locales : List String) : List String :=
  locales.filter fun locale ↦ !localizer.published.contains locale

/-- An operation rebuilds the given locales from the catalog that it leaves behind. What it
rebuilds is published, what was published stays so, and nothing changes about a published locale
that is not rebuilt. -/
structure Rebuilds (isLocale : String → Bool) (before : Localizer) (locales : List String)
    (after : Localizer) : Prop where
  published (locale : String) :
    after.published[locale]? =
      (after.catalog.rebuilt? isLocale locales locale).or before.published[locale]?
  unchanged (locale : String) (hpublished : locale ∈ before.published)
    (hother : locale ∉ locales) :
    after.catalog.compile isLocale locale = before.catalog.compile isLocale locale

/-- Every published lexicon is the one that the grammar of its locale has now, unless that grammar
has a fault. -/
def UpToDate (isLocale : String → Bool) (localizer : Localizer) : Prop :=
  ∀ (locale : String) (lexicon compiled : Lexicon),
    localizer.published[locale]? = some lexicon →
      localizer.catalog.compile isLocale locale = .ok compiled → lexicon = compiled

variable {before after localizer : Localizer}

/-! ### Laws of rebuilding -/

/-- An operation that touches neither catalog nor published lexicons rebuilds nothing. -/
theorem Rebuilds.of_eq (hcatalog : after.catalog = before.catalog)
    (hpublished : after.published = before.published) : before.Rebuilds isLocale [] after := by
  constructor
  · intro locale
    rw [Catalog.rebuilt?_of_notMem _ List.not_mem_nil, hpublished, Option.none_or]
  · intro locale _ _
    rw [hcatalog]

/-- Rebuilding keeps the published lexicons up to date. -/
theorem Rebuilds.upToDate {locales : List String} (h : before.Rebuilds isLocale locales after)
    (hbefore : before.UpToDate isLocale) : after.UpToDate isLocale := by
  intro locale lexicon compiled hlexicon hcompiled
  rw [h.published] at hlexicon
  by_cases hlocale : locale ∈ locales
  · rw [Catalog.rebuilt?_of_mem _ hlocale, hcompiled] at hlexicon
    exact (Option.some.inj hlexicon).symm
  · rw [Catalog.rebuilt?_of_notMem _ hlocale, Option.none_or] at hlexicon
    have hmem : locale ∈ before.published := by
      rw [Std.ExtTreeMap.mem_iff_isSome_getElem?, hlexicon]
      rfl
    rw [h.unchanged locale hmem hlocale] at hcompiled
    exact hbefore locale lexicon compiled hlexicon hcompiled

/-- Rebuilding unpublishes nothing. -/
theorem Rebuilds.mem_published {locales : List String}
    (h : before.Rebuilds isLocale locales after) {locale : String}
    (hlocale : locale ∈ before.published) : locale ∈ after.published := by
  rw [Std.ExtTreeMap.mem_iff_isSome_getElem?] at hlocale ⊢
  rw [h.published, Option.isSome_or, hlocale, Bool.or_true]

/-- Filling in a locale that is not published is rebuilding it. -/
theorem rebuilt?_unpublished_or (localizer : Localizer) (locales : List String) (locale : String) :
    (localizer.catalog.rebuilt? isLocale (localizer.unpublished locales) locale).or
        localizer.published[locale]? =
      localizer.published[locale]?.or (localizer.catalog.rebuilt? isLocale locales locale) := by
  by_cases hlocale : locale ∈ localizer.unpublished locales
  · obtain ⟨hmem, hpublished⟩ := List.mem_filter.mp hlocale
    rw [Std.ExtTreeMap.contains_eq_isSome_getElem?, Bool.not_eq_true', Option.isSome_eq_false_iff,
      Option.isNone_iff_eq_none] at hpublished
    rw [Catalog.rebuilt?_of_mem _ hlocale, Catalog.rebuilt?_of_mem _ hmem, hpublished,
      Option.or_none, Option.none_or]
  · rw [Catalog.rebuilt?_of_notMem _ hlocale, Option.none_or]
    by_cases hmem : locale ∈ locales
    · cases hpublished : localizer.published[locale]? with
      | some lexicon => rfl
      | none =>
        refine absurd (List.mem_filter.mpr ⟨hmem, ?_⟩) hlocale
        rw [Std.ExtTreeMap.contains_eq_isSome_getElem?, hpublished]
        rfl
    · rw [Catalog.rebuilt?_of_notMem _ hmem, Option.or_none]

/-! ### Single locales -/

@[simp] theorem catalog_recompile (localizer : Localizer) (locale : String) :
    (localizer.recompile isLocale locale).2.catalog = localizer.catalog := by
  unfold recompile
  split <;> rfl

/-- To publish the lexicon that a catalog has for a locale is to rebuild the locale. -/
theorem published_publish {catalog : Catalog} {locale : String} {lexicon : Lexicon}
    (h : catalog.compile isLocale locale = .ok lexicon) (localizer : Localizer) (other : String) :
    (localizer.publish locale lexicon).published[other]? =
      (catalog.rebuilt? isLocale [locale] other).or localizer.published[other]? := by
  rw [publish, Std.ExtTreeMap.getElem?_insert]
  by_cases hother : other = locale
  · subst hother
    rw [Catalog.rebuilt?_of_mem _ List.mem_cons_self, h, if_pos Std.compare_self]
    rfl
  · rw [Catalog.rebuilt?_of_notMem _ (mt List.mem_singleton.mp hother), Option.none_or, if_neg]
    intro heq
    exact hother (Std.compare_eq_iff_eq.mp heq).symm

/-- Recompiling a locale publishes its new lexicon, if there is one. -/
theorem published_recompile (localizer : Localizer) (locale other : String) :
    (localizer.recompile isLocale locale).2.published[other]? =
      (localizer.catalog.rebuilt? isLocale [locale] other).or localizer.published[other]? := by
  unfold recompile
  split
  · next hcompile =>
    rw [Catalog.rebuilt?]
    split
    · next hother =>
      rw [List.mem_singleton.mp hother, hcompile]
      rfl
    · rw [Option.none_or]
  · next hcompile => exact published_publish hcompile localizer other

theorem rebuilds_recompile (localizer : Localizer) (locale : String) :
    localizer.Rebuilds isLocale [locale] (localizer.recompile isLocale locale).2 := by
  constructor
  · intro other
    rw [catalog_recompile, published_recompile]
  · intro other _ _
    rw [catalog_recompile]

@[simp] theorem catalog_lexicon (localizer : Localizer) (locale : String) :
    (localizer.lexicon isLocale locale).2.catalog = localizer.catalog := by
  unfold lexicon
  split
  · rfl
  · exact catalog_recompile localizer locale

/-- Looking for a lexicon publishes it, unless one is published already. -/
theorem published_lexicon (localizer : Localizer) (locale other : String) :
    (localizer.lexicon isLocale locale).2.published[other]? =
      localizer.published[other]?.or (localizer.catalog.rebuilt? isLocale [locale] other) := by
  unfold lexicon
  split
  · next found hfound =>
    by_cases hother : other = locale
    · subst hother
      rw [hfound]
      rfl
    · rw [Catalog.rebuilt?_of_notMem _ (mt List.mem_singleton.mp hother), Option.or_none]
  · next hnone =>
    rw [published_recompile]
    by_cases hother : other = locale
    · subst hother
      rw [hnone, Option.or_none, Option.none_or]
    · rw [Catalog.rebuilt?_of_notMem _ (mt List.mem_singleton.mp hother), Option.or_none,
        Option.none_or]

theorem rebuilds_lexicon (localizer : Localizer) (locale : String) :
    localizer.Rebuilds isLocale (localizer.unpublished [locale])
      (localizer.lexicon isLocale locale).2 := by
  constructor
  · intro other
    rw [catalog_lexicon, rebuilt?_unpublished_or, published_lexicon]
  · intro other _ _
    rw [catalog_lexicon]

/-- An inquiry changes a localizer as looking for the lexicon does. -/
theorem snd_consult (localizer : Localizer) (ambient : Switches) (locale : String)
    (inquiry : Inquiry) :
    (localizer.consult isLocale ambient locale inquiry).2 =
      (localizer.lexicon isLocale locale).2 := by
  unfold consult
  split <;> simp_all

theorem rebuilds_consultStored (localizer : Localizer) (ambient : Switches) (locale key : String)
    (inquiry : String → Inquiry) :
    localizer.Rebuilds isLocale
      (if (localizer.catalog.template? locale key).isSome then localizer.unpublished [locale]
        else [])
      (localizer.consultStored isLocale ambient locale key inquiry).2 := by
  unfold consultStored
  cases localizer.catalog.template? locale key with
  | none => exact .of_eq rfl rfl
  | some text =>
    dsimp only [Option.isSome_some]
    rw [if_pos rfl, snd_consult]
    exact rebuilds_lexicon localizer locale

theorem rebuilds_storeGrammar (localizer : Localizer) (locale : String) (grammar : Grammar) :
    localizer.Rebuilds isLocale [locale] (localizer.storeGrammar isLocale locale grammar).2 := by
  constructor
  · intro other
    rw [storeGrammar, catalog_recompile, published_recompile]
  · intro other _ hother
    rw [storeGrammar, catalog_recompile, Catalog.compile, Catalog.compile,
      Catalog.grammar?_storeGrammar, if_neg]
    rintro rfl
    exact hother List.mem_cons_self

/-! ### Several locales -/

/-- Lexicons compiled from a catalog, published one after the other, are those that their locales
get when they are rebuilt. -/
theorem published_foldl_publish {catalog : Catalog} {compiled : List (String × Lexicon)}
    (hcompiled : ∀ entry ∈ compiled, catalog.compile isLocale entry.1 = .ok entry.2)
    (localizer : Localizer) (locale : String) :
    (compiled.foldl (fun localizer entry ↦ localizer.publish entry.1 entry.2)
        localizer).published[locale]? =
      (catalog.rebuilt? isLocale (compiled.map (·.1)) locale).or localizer.published[locale]? := by
  induction compiled generalizing localizer with
  | nil => rw [List.map_nil, Catalog.rebuilt?_of_notMem _ List.not_mem_nil]; rfl
  | cons first rest ih =>
    have hfirst := hcompiled first List.mem_cons_self
    rw [List.foldl_cons, ih fun entry hentry ↦ hcompiled entry (List.mem_cons_of_mem _ hentry),
      published_publish hfirst, ← Option.or_assoc]
    have hall : locale ∈ (first :: rest).map (·.1) ↔
        locale ∈ rest.map (·.1) ∨ locale ∈ [first.1] := by
      rw [List.map_cons, List.mem_cons, List.mem_singleton, or_comm]
    rw [Catalog.rebuilt?_or _ hall]

/-- The locales that are rebuilt together: all that the catalog announces, or none if the grammar
of one of them has a fault. -/
def rebuiltTogether (isLocale : String → Bool) (catalog : Catalog) : List String :=
  if ∀ locale ∈ catalog.locales, (catalog.compile isLocale locale).toOption.isSome then
    catalog.locales
  else []

/-- Locales compile together exactly if each of them compiles. -/
theorem forall_compile_of_compileAll {catalog : Catalog} {locales : List String}
    {compiled : List (String × Lexicon)} (h : compileAll isLocale catalog locales = .ok compiled) :
    compiled.map (·.1) = locales ∧
      ∀ entry ∈ compiled, catalog.compile isLocale entry.1 = .ok entry.2 := by
  constructor
  · rw [← List.forall₂_eq_eq_eq, List.forall₂_map_left_iff]
    refine (Traversal.mapM_eq_ok_iff.mp h).flip.imp fun entry locale hok ↦ ?_
    obtain ⟨lexicon, -, rfl⟩ := Traversal.map_eq_ok_iff.mp hok
    rfl
  · intro entry hentry
    obtain ⟨locale, -, hok⟩ := Traversal.exists_of_mem_of_mapM_eq_ok h hentry
    obtain ⟨lexicon, hlexicon, rfl⟩ := Traversal.map_eq_ok_iff.mp hok
    exact hlexicon

/-- Locales that do not compile together have a first one among them that does not compile. -/
theorem exists_first_of_compileAll {catalog : Catalog} {locales : List String}
    {fault : GrammarError} (h : compileAll isLocale catalog locales = .error fault) :
    ∃ before locale after, locales = before ++ locale :: after ∧
      catalog.compile isLocale locale = .error fault ∧
        ∀ earlier ∈ before, ∃ lexicon, catalog.compile isLocale earlier = .ok lexicon := by
  obtain ⟨before, locale, after, hlocales, hfault, hbefore⟩ := Traversal.mapM_eq_error_iff.mp h
  refine ⟨before, locale, after, hlocales, ?_, fun earlier hearlier ↦ ?_⟩
  · rw [← Traversal.fault?_eq_some_iff, Traversal.fault?_map] at hfault
    exact Traversal.fault?_eq_some_iff.mp hfault
  · obtain ⟨entry, hentry⟩ := hbefore earlier hearlier
    obtain ⟨lexicon, hlexicon, -⟩ := Traversal.map_eq_ok_iff.mp hentry
    exact ⟨lexicon, hlexicon⟩

@[simp] theorem catalog_foldl_publish (compiled : List (String × Lexicon))
    (localizer : Localizer) :
    (compiled.foldl (fun localizer entry ↦ localizer.publish entry.1 entry.2) localizer).catalog =
      localizer.catalog := by
  induction compiled generalizing localizer with
  | nil => rfl
  | cons first rest ih => exact ih (localizer.publish first.1 first.2)

theorem rebuilds_recompileAll (localizer : Localizer) :
    localizer.Rebuilds isLocale (rebuiltTogether isLocale localizer.catalog)
      (localizer.recompileAll isLocale).2 := by
  rw [recompileAll, rebuiltTogether]
  cases hall : compileAll isLocale localizer.catalog localizer.catalog.locales with
  | error fault =>
    obtain ⟨before, locale, rest, hlocales, hfault, -⟩ := exists_first_of_compileAll hall
    rw [if_neg]
    · exact .of_eq rfl rfl
    · intro hsome
      have hlocale : locale ∈ localizer.catalog.locales := by
        rw [hlocales]
        exact List.mem_append_right before List.mem_cons_self
      obtain ⟨lexicon, hlexicon⟩ := Traversal.exists_eq_ok_of_isSome_toOption (hsome locale hlocale)
      rw [hfault] at hlexicon
      cases hlexicon
  | ok compiled =>
    obtain ⟨hlocales, hcompiled⟩ := forall_compile_of_compileAll hall
    rw [if_pos]
    · constructor
      · intro locale
        rw [catalog_foldl_publish, published_foldl_publish hcompiled, hlocales]
      · intro locale _ _
        rw [catalog_foldl_publish]
    · intro locale hlocale
      rw [← hlocales] at hlocale
      obtain ⟨entry, hentry, rfl⟩ := List.mem_map.mp hlocale
      rw [hcompiled entry hentry]
      rfl

theorem mem_publishedLocales_iff {locale : String} :
    locale ∈ localizer.publishedLocales ↔ locale ∈ localizer.published :=
  Std.ExtTreeMap.mem_keys

/-- Bringing the published lexicons up to date is rebuilding all published locales. -/
theorem published_recompilePublished (localizer : Localizer) (locale : String) :
    (localizer.recompilePublished isLocale).published[locale]? =
      (localizer.catalog.rebuilt? isLocale localizer.publishedLocales locale).or
        localizer.published[locale]? := by
  rw [recompilePublished, Std.ExtTreeMap.getElem?_map]
  by_cases hlocale : locale ∈ localizer.published
  · rw [Catalog.rebuilt?_of_mem _ (mem_publishedLocales_iff.mpr hlocale)]
    obtain ⟨lexicon, hlexicon⟩ :=
      Option.isSome_iff_exists.mp (Std.ExtTreeMap.mem_iff_isSome_getElem?.mp hlocale)
    rw [hlexicon]
    cases (localizer.catalog.compile isLocale locale).toOption <;> rfl
  · rw [Catalog.rebuilt?_of_notMem _ (mt mem_publishedLocales_iff.mp hlocale), Option.none_or,
      Std.ExtTreeMap.getElem?_eq_none hlocale]
    rfl

/-- Edits, however many at a time, rebuild all published locales. -/
theorem rebuilds_edit (localizer : Localizer) (edits : List Edit) :
    localizer.Rebuilds isLocale localizer.publishedLocales (localizer.edit isLocale edits).2 := by
  constructor
  · intro locale
    exact published_recompilePublished _ locale
  · intro locale hpublished hother
    exact absurd (mem_publishedLocales_iff.mpr hpublished) hother

@[simp] theorem catalog_selectServing (kind? : Option String) (locales : List String)
    (localizer : Localizer) :
    (selectServing isLocale kind? locales localizer).2.catalog = localizer.catalog := by
  induction locales generalizing localizer with
  | nil => rfl
  | cons locale rest ih =>
    rw [selectServing]
    exact (ih _).trans (catalog_lexicon localizer locale)

/-- Selecting locales publishes those that are not published. -/
theorem published_selectServing (kind? : Option String) (locales : List String)
    (localizer : Localizer) (other : String) :
    (selectServing isLocale kind? locales localizer).2.published[other]? =
      localizer.published[other]?.or (localizer.catalog.rebuilt? isLocale locales other) := by
  induction locales generalizing localizer with
  | nil => rw [Catalog.rebuilt?_of_notMem _ List.not_mem_nil, Option.or_none]; rfl
  | cons locale rest ih =>
    rw [selectServing]
    refine (ih (localizer.lexicon isLocale locale).2).trans ?_
    have hall : other ∈ locale :: rest ↔ other ∈ [locale] ∨ other ∈ rest := by
      rw [List.mem_cons, List.mem_singleton]
    rw [catalog_lexicon, published_lexicon, Option.or_assoc, Catalog.rebuilt?_or _ hall]

theorem rebuilds_localesWith (localizer : Localizer) (kind? : Option String) :
    localizer.Rebuilds isLocale (localizer.unpublished localizer.catalog.locales)
      (localizer.localesWith isLocale kind?).2 := by
  constructor
  · intro other
    rw [localesWith, catalog_selectServing, rebuilt?_unpublished_or, published_selectServing]
  · intro other _ _
    rw [localesWith, catalog_selectServing]

/-! ### Answers -/

/-- An up-to-date localizer finds the lexicon that the grammar of a locale has now. -/
theorem fst_lexicon_of_upToDate (h : localizer.UpToDate isLocale) {locale : String}
    {compiled : Lexicon} (hcompiled : localizer.catalog.compile isLocale locale = .ok compiled) :
    (localizer.lexicon isLocale locale).1 = .ok compiled := by
  unfold lexicon
  split
  · next lexicon hlexicon => rw [h locale lexicon compiled hlexicon hcompiled]
  · rw [recompile, hcompiled]

/-- An up-to-date localizer answers an inquiry like its catalog. -/
theorem fst_consult_of_upToDate (h : localizer.UpToDate isLocale) {locale : String}
    {compiled : Lexicon} (hcompiled : localizer.catalog.compile isLocale locale = .ok compiled)
    (ambient : Switches) (inquiry : Inquiry) :
    (localizer.consult isLocale ambient locale inquiry).1 =
      localizer.catalog.consult isLocale (localizer.switches ambient) locale inquiry := by
  have hlexicon := fst_lexicon_of_upToDate h hcompiled
  rw [Catalog.consult, hcompiled]
  unfold consult
  split
  · next fault after hfound =>
    rw [hfound] at hlexicon
    cases hlexicon
  · next lexicon after hfound =>
    rw [hfound] at hlexicon
    obtain rfl := Except.ok.inj hlexicon
    rfl

end Localizer

end Concord
