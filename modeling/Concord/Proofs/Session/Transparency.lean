import Concord.Session
import Concord.Proofs.Localizer.Rebuilding

/-!
# Published lexicons are invisible

A session that starts without a published lexicon compiles lexicons as it goes and keeps them.
`Session.rebuilds` lists the locales that a command rebuilds, and `Session.lastRebuilt?` is the
lexicon that a locale got when it was last rebuilt with success. The main statement is
`runAll_transparent`: after any commands a published lexicon is the one last rebuilt, it is the one
of the present grammar unless that has a fault, and it has not been lost since it was first
published; so the answers for a locale whose grammar has no fault are those of a session without
memory (`Session.AnswersAfresh`).
-/

set_option autoImplicit false
set_option relaxedAutoImplicit false

namespace Concord

/-- The answer to an inquiry about a stored template, from the grammar of the locale as it now
stands. -/
def Catalog.consultStored (isLocale : String → Bool) (catalog : Catalog) (switches : Switches)
    (locale key : String) (inquiry : String → Inquiry) : Except Failure Answer :=
  match catalog.template? locale key with
  | none => .error (.templateNotFound locale key)
  | some text => catalog.consult isLocale switches locale (inquiry text)

namespace Session

/-- The locales that a command rebuilds. -/
def rebuilds (isLocale : String → Bool) (session : Session) : Command → List String
  | .localize locale key _ _ | .reviewStored locale key =>
    if (session.localizer.catalog.template? locale key).isSome then
      session.localizer.unpublished [locale]
    else []
  | .consult locale _ | .lexicon locale => session.localizer.unpublished [locale]
  | .recompile locale | .storeGrammar locale _ => [locale]
  | .recompileAll => Localizer.rebuiltTogether isLocale session.localizer.catalog
  | .edit _ => session.localizer.publishedLocales
  | .localesWith _ => session.localizer.unpublished session.localizer.catalog.locales
  | .published _ | .publishedKinds | .switches | .pin _ | .setAmbient _ | .updateAmbient _ => []

/-- The lexicon that the locale got when the commands last rebuilt it with a grammar without a
fault. -/
def lastRebuilt? (isLocale : String → Bool) (locale : String) :
    Session → List Command → Option Lexicon
  | _, [] => none
  | session, command :: rest =>
    let after := (session.run isLocale command).2
    (lastRebuilt? isLocale locale after rest).or
      (after.localizer.catalog.rebuilt? isLocale (session.rebuilds isLocale command) locale)

/-- The session answers for the locale as if it compiled the present grammar for each answer. -/
structure AnswersAfresh (isLocale : String → Bool) (session : Session) (locale : String) :
    Prop where
  consult (inquiry : Inquiry) :
    (session.run isLocale (.consult locale inquiry)).1 =
      .ofAnswer (session.localizer.catalog.consult isLocale session.switches locale inquiry)
  localize (key : String) (options : Options) (overrides : Overrides) :
    (session.run isLocale (.localize locale key options overrides)).1 =
      .ofAnswer (session.localizer.catalog.consultStored isLocale session.switches locale key
        fun text ↦ .interpolate text options overrides)
  reviewStored (key : String) :
    (session.run isLocale (.reviewStored locale key)).1 =
      .ofAnswer
        (session.localizer.catalog.consultStored isLocale session.switches locale key .review)
  lexicon :
    (session.run isLocale (.lexicon locale)).1 =
      .ofCompiled (.lexicon ∘ some) (session.localizer.catalog.compile isLocale locale)

variable {isLocale : String → Bool} {session : Session}

/-! ### Single commands -/

/-- Every command rebuilds the locales that it is said to rebuild. -/
theorem rebuilds_run (session : Session) (command : Command) :
    session.localizer.Rebuilds isLocale (session.rebuilds isLocale command)
      (session.run isLocale command).2.localizer := by
  cases command with
  | localize locale key options overrides =>
    exact session.localizer.rebuilds_consultStored session.ambient locale key _
  | reviewStored locale key =>
    exact session.localizer.rebuilds_consultStored session.ambient locale key _
  | consult locale inquiry =>
    rw [rebuilds, run]
    dsimp only
    rw [Localizer.snd_consult]
    exact session.localizer.rebuilds_lexicon locale
  | recompile locale => exact session.localizer.rebuilds_recompile locale
  | recompileAll => exact session.localizer.rebuilds_recompileAll
  | lexicon locale => exact session.localizer.rebuilds_lexicon locale
  | storeGrammar locale grammar => exact session.localizer.rebuilds_storeGrammar locale grammar
  | edit edits => exact session.localizer.rebuilds_edit edits
  | localesWith kind? => exact session.localizer.rebuilds_localesWith kind?
  | published locale => exact .of_eq rfl rfl
  | publishedKinds => exact .of_eq rfl rfl
  | switches => exact .of_eq rfl rfl
  | pin switches? => exact .of_eq rfl rfl
  | setAmbient switches => exact .of_eq rfl rfl
  | updateAmbient overrides => exact .of_eq rfl rfl

/-- An up-to-date session answers for a stored template like its catalog. -/
theorem fst_consultStored_of_upToDate (h : session.localizer.UpToDate isLocale) {locale : String}
    {compiled : Lexicon}
    (hcompiled : session.localizer.catalog.compile isLocale locale = .ok compiled)
    (key : String) (inquiry : String → Inquiry) :
    (session.localizer.consultStored isLocale session.ambient locale key inquiry).1 =
      session.localizer.catalog.consultStored isLocale session.switches locale key inquiry := by
  rw [Localizer.consultStored, Catalog.consultStored]
  cases session.localizer.catalog.template? locale key with
  | none => rfl
  | some text => exact Localizer.fst_consult_of_upToDate h hcompiled session.ambient (inquiry text)

/-- An up-to-date session answers afresh for a locale whose grammar has no fault. -/
theorem answersAfresh_of_upToDate (h : session.localizer.UpToDate isLocale) {locale : String}
    {compiled : Lexicon}
    (hcompiled : session.localizer.catalog.compile isLocale locale = .ok compiled) :
    session.AnswersAfresh isLocale locale := by
  refine ⟨?_, ?_, ?_, ?_⟩
  · intro inquiry
    exact congrArg Outcome.ofAnswer
      (Localizer.fst_consult_of_upToDate h hcompiled session.ambient inquiry)
  · intro key options overrides
    exact congrArg Outcome.ofAnswer (fst_consultStored_of_upToDate h hcompiled key _)
  · intro key
    exact congrArg Outcome.ofAnswer (fst_consultStored_of_upToDate h hcompiled key _)
  · rw [hcompiled, ← Localizer.fst_lexicon_of_upToDate h hcompiled]
    rfl

/-! ### Runs -/

theorem runAll_cons (session : Session) (command : Command) (rest : List Command) :
    session.runAll isLocale (command :: rest) =
      (session.run isLocale command).2.runAll isLocale rest :=
  rfl

/-- Commands keep a session up to date. -/
theorem upToDate_runAll (h : session.localizer.UpToDate isLocale) (commands : List Command) :
    (session.runAll isLocale commands).localizer.UpToDate isLocale := by
  induction commands generalizing session with
  | nil => exact h
  | cons command rest ih =>
    rw [runAll_cons]
    exact ih ((session.rebuilds_run command).upToDate h)

/-- After several commands each locale has the lexicon that they last rebuilt, or else the one that
was published before. -/
theorem published_runAll (session : Session) (commands : List Command) (locale : String) :
    (session.runAll isLocale commands).localizer.published[locale]? =
      (session.lastRebuilt? isLocale locale commands).or session.localizer.published[locale]? := by
  induction commands generalizing session with
  | nil => rw [lastRebuilt?, Option.none_or]; rfl
  | cons command rest ih =>
    rw [runAll_cons, ih, (session.rebuilds_run command).published, lastRebuilt?, Option.or_assoc]

/-- Commands unpublish nothing. -/
theorem mem_published_runAll {locale : String} (h : locale ∈ session.localizer.published)
    (commands : List Command) :
    locale ∈ (session.runAll isLocale commands).localizer.published := by
  induction commands generalizing session with
  | nil => exact h
  | cons command rest ih =>
    rw [runAll_cons]
    exact ih ((session.rebuilds_run command).mem_published h)

/-- Assumes: a session without published lexicons. After any commands, the published lexicon of a
locale is that of its present grammar, unless this has a fault; it is the one that was last rebuilt
with success; a locale published at any time still is; and where the present grammar has no fault,
the session answers as if it had no memory. -/
theorem runAll_transparent (isLocale : String → Bool) {start : Session}
    (hstart : start.localizer.published = ∅) (commands : List Command) (locale : String) :
    (∀ lexicon compiled : Lexicon,
        (start.runAll isLocale commands).localizer.published[locale]? = some lexicon →
          (start.runAll isLocale commands).localizer.catalog.compile isLocale locale =
              .ok compiled →
            lexicon = compiled) ∧
      (start.runAll isLocale commands).localizer.published[locale]? =
        start.lastRebuilt? isLocale locale commands ∧
      (∀ earlier, earlier <+: commands →
        locale ∈ (start.runAll isLocale earlier).localizer.published →
          locale ∈ (start.runAll isLocale commands).localizer.published) ∧
      ∀ compiled,
        (start.runAll isLocale commands).localizer.catalog.compile isLocale locale =
            .ok compiled →
          (start.runAll isLocale commands).AnswersAfresh isLocale locale := by
  have hupToDate : start.localizer.UpToDate isLocale := by
    intro locale lexicon compiled hlexicon
    rw [hstart, Std.ExtTreeMap.getElem?_empty] at hlexicon
    cases hlexicon
  have hfinal := upToDate_runAll hupToDate commands
  refine ⟨hfinal locale, ?_, ?_, ?_⟩
  · rw [published_runAll, hstart, Std.ExtTreeMap.getElem?_empty, Option.or_none]
  · rintro earlier ⟨later, rfl⟩ hlocale
    have happend : start.runAll isLocale (earlier ++ later) =
        (start.runAll isLocale earlier).runAll isLocale later := List.foldl_append
    rw [happend]
    exact mem_published_runAll hlocale later
  · intro compiled hcompiled
    exact answersAfresh_of_upToDate hfinal hcompiled

/-- A grammar with one kind and one token. -/
def single (name : String) : Grammar :=
  Grammar.mk ∅ |>.insertKind "gender" (KindDeclaration.mk ∅ |>.insertReal name "a token")

/-- A grammar whose alias leads nowhere. -/
def dangling : Grammar :=
  Grammar.mk ∅ |>.insertKind "gender" (KindDeclaration.mk ∅ |>.insertAlias "lady" "f")

/-- A session with one template, for which no lexicon is compiled yet. -/
def notices : Session where
  localizer :=
    { catalog := Catalog.mk ∅ ∅ none
        |>.storeTemplate "en" "welcome" "Dear @gender{f:Madam}"
        |>.storeGrammar "en" (single "f") }

/-- Commands that compile a lexicon, store a grammar with a fault, and then edit it away. -/
def repair : List Command :=
  [.localize "en" "welcome" {} {}, .storeGrammar "en" dangling, .consult "en" .kinds,
    .edit [.removeGrammar "en", .storeGrammar "en" (single "m")]]

/-- The locales of the examples. -/
def isExampleLocale (locale : String) : Bool :=
  ["en", "de"].contains locale

theorem runAll_transparent_notices :
    let torn := notices.runAll isExampleLocale (repair.take 3)
    let mended := notices.runAll isExampleLocale repair
    (∃ kept, torn.localizer.published["en"]? = some kept ∧
        (torn.localizer.catalog.compile isExampleLocale "en").toOption = none ∧
        notices.lastRebuilt? isExampleLocale "en" (repair.take 3) = some kept) ∧
      ∃ lexicon, mended.localizer.published["en"]? = some lexicon ∧
        mended.localizer.catalog.compile isExampleLocale "en" = .ok lexicon ∧
        "en" ∈ torn.localizer.published ∧ mended.AnswersAfresh isExampleLocale "en" := by
  intro torn mended
  have hkept : torn.localizer.published["en"]?.isSome = true := by
    decide +kernel
  have hcompiled :
      (mended.localizer.catalog.compile isExampleLocale "en").toOption.isSome = true := by
    decide +kernel
  have hmem : "en" ∈ torn.localizer.published :=
    Std.ExtTreeMap.mem_iff_isSome_getElem?.mpr hkept
  have hstart : notices.localizer.published = ∅ := rfl
  obtain ⟨-, hlast, -, -⟩ := runAll_transparent isExampleLocale hstart (repair.take 3) "en"
  obtain ⟨hlexicon, -, hstays, hanswers⟩ := runAll_transparent isExampleLocale hstart repair "en"
  constructor
  · obtain ⟨kept, hfound⟩ := Option.isSome_iff_exists.mp hkept
    exact ⟨kept, hfound, by decide +kernel, hlast.symm.trans hfound⟩
  · have hpublished := hstays _ (List.take_prefix 3 repair) hmem
    obtain ⟨lexicon, hfound⟩ :=
      Option.isSome_iff_exists.mp (Std.ExtTreeMap.mem_iff_isSome_getElem?.mp hpublished)
    obtain ⟨compiled, hcompile⟩ := Traversal.exists_eq_ok_of_isSome_toOption hcompiled
    obtain rfl := hlexicon lexicon compiled hfound hcompile
    exact ⟨lexicon, hfound, hcompile, hmem, hanswers lexicon hcompile⟩

end Session

end Concord
