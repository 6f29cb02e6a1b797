import BranchingInterview.Proofs.Calendar.DateText
import BranchingInterview.Proofs.Text.Spelling

/-!
Settings from the environment. The variables are looked at one after the other, and the first one
with a value that is not allowed is reported. Settings that are valid come back from the texts of
their parts; blanks around a date or a policy and capitals in a policy do not matter.
-/

namespace BranchingInterview

open Calendar Text

/-- The year, the month and the day that a text writes are those of a date in range. -/
def Calendar.IsPlainDate (chars : List Char) (date : Date) : Prop :=
  ∃ parts, Form.dateItems.Reads chars parts ∧ parts.Name date

theorem Calendar.readDate_eq_some_iff {chars : List Char} {date : Date} :
    readDate chars = some date ↔ IsPlainDate chars date := by
  rw [readDate, Option.map_eq_some_iff]
  constructor
  · rintro ⟨instant, hread, rfl⟩
    obtain ⟨parts, hreads, hinstant⟩ := Form.read_eq_some_iff.1 hread
    obtain ⟨date, hname, rfl, -⟩ := Parts.instant?_eq_some_iff.1 hinstant
    exact ⟨parts, hreads, by rwa [hname.day_instantOn]⟩
  · rintro ⟨parts, hreads, hname⟩
    have hlocal : ∀ item ∈ Form.dateItems, item.isLocal = true := by decide
    have hinstant := hname.instant?_eq (hreads.offset_of_isLocal hlocal)
    exact ⟨_, Form.read_eq_some_iff.2 ⟨parts, hreads, hinstant⟩, hname.day_instantOn⟩

theorem Calendar.isPlainDate_text {date : Date} (hrange : date.InRange) :
    IsPlainDate date.text.toList date := by
  refine ⟨dateParts date, ?_, name_dateParts hrange⟩
  rw [toList_text]
  exact Parts.reads_dateItems date.month_lt date.day_lt

theorem Date.isBlank_of_mem_text {date : Date} : ∀ c ∈ date.text.toList, isBlank c = false := by
  rw [toList_text]
  exact fun _ => Parts.isBlank_of_mem_dateChars

theorem ScreenPolicy.isLower_name (policy : ScreenPolicy) :
    ∀ letter ∈ policy.name.toList, letter.isLower = true := by
  have hall : policy.name.toList.all Char.isLower = true := by cases policy <;> decide
  exact List.all_eq_true.1 hall

namespace Settings

theorem isLower_logLevel : ∀ level ∈ logLevels, ∀ letter ∈ level.toList,
    letter.isLower = true := by
  have hall : logLevels.all (fun level => level.toList.all Char.isLower) = true := by decide
  intro level hlevel
  exact List.all_eq_true.1 (List.all_eq_true.1 hall level hlevel)

/-- The variables that settings are loaded from. -/
inductive Variable
  | nullDate
  | screenPolicy
  | logLevel
deriving DecidableEq

namespace Variable

/-- The order in which the variables are looked at. -/
def all : List Variable := [nullDate, screenPolicy, logLevel]

/-- The error for a value that is not allowed. -/
def refusal : Variable → SettingsError
  | nullDate => ⟨"INTERVIEW_NULL_DATE", "must be an ISO date (YYYY-MM-DD)"⟩
  | screenPolicy => ⟨"INTERVIEW_SCREEN_POLICY", "must be 'strict' or 'lenient'"⟩
  | logLevel => ⟨"LOG_LEVEL", "must be one of error, warn, info, debug, trace"⟩

def name (source : Variable) : String := source.refusal.name

def Allows : Variable → String → Prop
  | nullDate, text => ∃ date, IsPlainDate (trimmed text.toList) date
  | screenPolicy, text => ∃ policy : ScreenPolicy, Spells (trimmed text.toList) policy.name
  | logLevel, text => ∃ level ∈ logLevels, Spells text.toList level

/-- It is set to a value that is not allowed. -/
def Offends (value? : String → Option String) (source : Variable) : Prop :=
  ∃ text, value? source.name = some text ∧ ¬source.Allows text

end Variable

theorem parseNullDate_eq_ok_iff {text : String} {date : Date} :
    parseNullDate text = .ok date ↔ IsPlainDate (trimmed text.toList) date := by
  rw [← readDate_eq_some_iff, parseNullDate]
  cases readDate (trimmed text.toList) <;> simp

theorem parseNullDate_of_not_allows {text : String} (hrefused : ¬Variable.nullDate.Allows text) :
    parseNullDate text = .error Variable.nullDate.refusal := by
  have hnone : readDate (trimmed text.toList) = none := by
    rw [Option.eq_none_iff_forall_ne_some]
    exact fun date hdate => hrefused ⟨date, readDate_eq_some_iff.1 hdate⟩
  rw [parseNullDate, hnone]
  rfl

theorem parsePolicy_eq_ok_iff {text : String} {policy : ScreenPolicy} :
    ScreenPolicy.parse text = .ok policy ↔ Spells (trimmed text.toList) policy.name := by
  have hspells (policy : ScreenPolicy) :
      Spells (trimmed text.toList) policy.name ↔ lowerAscii (trim text) = policy.name := by
    rw [lowerAscii_eq_iff policy.isLower_name, trim, String.toList_ofList]
  rw [hspells, ScreenPolicy.parse]
  constructor
  · intro hparse
    split_ifs at hparse with hlenient hstrict
    · cases hparse
      exact hlenient
    · cases hparse
      exact hstrict
  · intro hword
    simp only [hword]
    cases policy <;> decide

theorem parsePolicy_of_not_allows {text : String}
    (hrefused : ¬Variable.screenPolicy.Allows text) :
    ScreenPolicy.parse text = .error Variable.screenPolicy.refusal := by
  cases hparse : ScreenPolicy.parse text with
  | ok policy => exact absurd ⟨policy, parsePolicy_eq_ok_iff.1 hparse⟩ hrefused
  | error error =>
      rw [ScreenPolicy.parse] at hparse
      split_ifs at hparse
      exact hparse.symm

theorem validate_eq_ok_iff {settings : Settings} :
    settings.validate = .ok () ↔ Variable.logLevel.Allows settings.logLevel := by
  have hknown : lowerAscii settings.logLevel ∈ logLevels ↔
      Variable.logLevel.Allows settings.logLevel := by
    constructor
    · intro hmem
      exact ⟨_, hmem, (lowerAscii_eq_iff (isLower_logLevel _ hmem)).1 rfl⟩
    · rintro ⟨level, hlevel, hspells⟩
      rwa [(lowerAscii_eq_iff (isLower_logLevel level hlevel)).2 hspells]
  rw [← hknown, validate]
  by_cases hmem : lowerAscii settings.logLevel ∈ logLevels <;> simp [hmem]

theorem validate_of_not_allows {settings : Settings}
    (hrefused : ¬Variable.logLevel.Allows settings.logLevel) :
    settings.validate = .error Variable.logLevel.refusal := by
  rw [← validate_eq_ok_iff, validate] at hrefused
  rw [validate]
  split_ifs at hrefused ⊢
  · exact absurd rfl hrefused
  · decide

/-- What a variable gives: the meaning of its text, or its default if it is not set. -/
def load {α : Type} (default : α) (parse : String → Except SettingsError α) :
    Option String → Except SettingsError α
  | some text => parse text
  | none => .ok default

theorem ofEnvironment_eq (value? : String → Option String) :
    ofEnvironment value? = do
      let nullDate ← load .epoch parseNullDate (value? Variable.nullDate.name)
      let screenPolicy ← load .lenient ScreenPolicy.parse (value? Variable.screenPolicy.name)
      let settings : Settings :=
        { nullDate, screenPolicy, logLevel := (value? Variable.logLevel.name).getD "info" }
      settings.validate
      return settings := by
  have hdate : Variable.nullDate.name = nullDateVariable := rfl
  have hpolicy : Variable.screenPolicy.name = ScreenPolicy.variableName := rfl
  have hlevel : Variable.logLevel.name = logLevelVariable := rfl
  rw [ofEnvironment, hdate, hpolicy, hlevel]
  cases value? nullDateVariable <;> cases value? ScreenPolicy.variableName <;> simp only [load]

/-- Reading a variable succeeds just on the values that are allowed. -/
structure Variable.ReadBy {α : Type} (source : Variable)
    (parse : String → Except SettingsError α) : Prop where
  ok : ∀ text, source.Allows text → ∃ found, parse text = .ok found
  refused : ∀ text, ¬source.Allows text → parse text = .error source.refusal

namespace Variable

theorem nullDate_readBy : nullDate.ReadBy parseNullDate where
  ok := fun _ ⟨date, hdate⟩ => ⟨date, parseNullDate_eq_ok_iff.2 hdate⟩
  refused := fun _ => parseNullDate_of_not_allows

theorem screenPolicy_readBy : screenPolicy.ReadBy ScreenPolicy.parse where
  ok := fun _ ⟨policy, hpolicy⟩ => ⟨policy, parsePolicy_eq_ok_iff.2 hpolicy⟩
  refused := fun _ => parsePolicy_of_not_allows

variable {α : Type} {source : Variable} {parse : String → Except SettingsError α} {default : α}
  {value? : String → Option String}

theorem ReadBy.load_of_offends (hread : source.ReadBy parse) (hoffends : source.Offends value?) :
    load default parse (value? source.name) = .error source.refusal := by
  obtain ⟨text, hvalue, hrefused⟩ := hoffends
  rw [hvalue, load, hread.refused text hrefused]

theorem ReadBy.exists_load (hread : source.ReadBy parse) (hallowed : ¬source.Offends value?)
    (default : α) : ∃ found, load default parse (value? source.name) = .ok found := by
  cases hvalue : value? source.name with
  | none => exact ⟨default, rfl⟩
  | some text =>
      refine hread.ok text (not_not.1 fun hrefused => ?_)
      exact hallowed ⟨text, hvalue, hrefused⟩

theorem allows_logLevel_iff :
    logLevel.Allows ((value? logLevel.name).getD "info") ↔ ¬logLevel.Offends value? := by
  have hdefault : logLevel.Allows "info" :=
    validate_eq_ok_iff.1 (by decide : ({} : Settings).validate = .ok ())
  cases hvalue : value? logLevel.name with
  | none => simpa [Offends, hvalue] using hdefault
  | some text => simp [Offends, hvalue]

end Variable

section

variable {value? : String → Option String} {settings : Settings}

/-- Once the date and the policy are loaded, it is up to the log level. -/
theorem ofEnvironment_of_loaded
    (hdate : load .epoch parseNullDate (value? Variable.nullDate.name) = .ok settings.nullDate)
    (hpolicy : load .lenient ScreenPolicy.parse (value? Variable.screenPolicy.name) =
      .ok settings.screenPolicy)
    (hlevel : (value? Variable.logLevel.name).getD "info" = settings.logLevel) :
    ofEnvironment value? = settings.validate.map fun _ => settings := by
  rw [ofEnvironment_eq, hdate, hpolicy, hlevel]
  rfl

theorem ofEnvironment_of_nullDate (hdate : Variable.nullDate.Offends value?) :
    ofEnvironment value? = .error Variable.nullDate.refusal := by
  rw [ofEnvironment_eq, Variable.nullDate_readBy.load_of_offends hdate]
  rfl

theorem ofEnvironment_of_screenPolicy (hdate : ¬Variable.nullDate.Offends value?)
    (hpolicy : Variable.screenPolicy.Offends value?) :
    ofEnvironment value? = .error Variable.screenPolicy.refusal := by
  obtain ⟨nullDate, hload⟩ := Variable.nullDate_readBy.exists_load hdate .epoch
  rw [ofEnvironment_eq, hload, Variable.screenPolicy_readBy.load_of_offends hpolicy]
  rfl

theorem exists_ofEnvironment_eq (hdate : ¬Variable.nullDate.Offends value?)
    (hpolicy : ¬Variable.screenPolicy.Offends value?) :
    ∃ settings : Settings, settings.logLevel = (value? Variable.logLevel.name).getD "info" ∧
      ofEnvironment value? = settings.validate.map fun _ => settings := by
  obtain ⟨nullDate, hloadDate⟩ := Variable.nullDate_readBy.exists_load hdate .epoch
  obtain ⟨screenPolicy, hloadPolicy⟩ := Variable.screenPolicy_readBy.exists_load hpolicy .lenient
  exact ⟨{ nullDate, screenPolicy, logLevel := (value? Variable.logLevel.name).getD "info" }, rfl,
    ofEnvironment_of_loaded hloadDate hloadPolicy rfl⟩

theorem ofEnvironment_of_logLevel (hdate : ¬Variable.nullDate.Offends value?)
    (hpolicy : ¬Variable.screenPolicy.Offends value?) (hlevel : Variable.logLevel.Offends value?) :
    ofEnvironment value? = .error Variable.logLevel.refusal := by
  obtain ⟨settings, hsettings, hload⟩ := exists_ofEnvironment_eq hdate hpolicy
  rw [hload, validate_of_not_allows]
  · rfl
  · rw [hsettings, Variable.allows_logLevel_iff]
    exact not_not.2 hlevel

theorem exists_ofEnvironment_of_allowed (hallowed : ∀ source : Variable, ¬source.Offends value?) :
    ∃ settings, ofEnvironment value? = .ok settings ∧ settings.validate = .ok () := by
  obtain ⟨settings, hsettings, hload⟩ := exists_ofEnvironment_eq (hallowed _) (hallowed _)
  have hvalid : settings.validate = .ok () := by
    rw [validate_eq_ok_iff, hsettings, Variable.allows_logLevel_iff]
    exact hallowed _
  exact ⟨settings, by rw [hload, hvalid]; rfl, hvalid⟩

end

/-- Settings that are valid are loaded from the texts of their parts, whatever blanks stand around
the date and the policy and whichever letters of the policy are capitals. Whatever the variables are
set to, what is loaded is valid, or else the first variable that offends is reported. -/
theorem ofEnvironment_written_or_refused :
    (∀ (settings : Settings) (value? : String → Option String) (date policy : String)
        (word : List Char),
        settings.validate = .ok () → settings.nullDate.InRange →
        value? "INTERVIEW_NULL_DATE" = some date → Holds date settings.nullDate.text.toList →
        value? "INTERVIEW_SCREEN_POLICY" = some policy → Holds policy word →
        Spells word settings.screenPolicy.name →
        value? "LOG_LEVEL" = some settings.logLevel →
        ofEnvironment value? = .ok settings) ∧
      ∀ value? : String → Option String,
        ((∀ source : Variable, ¬source.Offends value?) →
          ∃ settings, ofEnvironment value? = .ok settings ∧ settings.validate = .ok ()) ∧
        ∀ (before : List Variable) (source : Variable) (after : List Variable),
          Variable.all = before ++ source :: after →
          (∀ earlier ∈ before, ¬earlier.Offends value?) → source.Offends value? →
          ofEnvironment value? = .error source.refusal := by
  refine ⟨?_, fun value? => ⟨exists_ofEnvironment_of_allowed, ?_⟩⟩
  · intro settings value? date policy word hvalid hrange hdate hholdsDate hpolicy hholdsPolicy
      hspells hlevel
    have hdateSet : value? Variable.nullDate.name = some date := hdate
    have hpolicySet : value? Variable.screenPolicy.name = some policy := hpolicy
    have hlevelSet : value? Variable.logLevel.name = some settings.logLevel := hlevel
    have hblank := hspells.not_blank settings.screenPolicy.isLower_name
    rw [ofEnvironment_of_loaded, hvalid]
    · rfl
    · rw [hdateSet, load, parseNullDate_eq_ok_iff, hholdsDate.trimmed_eq Date.isBlank_of_mem_text]
      exact isPlainDate_text hrange
    · rw [hpolicySet, load, parsePolicy_eq_ok_iff, hholdsPolicy.trimmed_eq hblank]
      exact hspells
    · rw [hlevelSet, Option.getD_some]
  · intro before source after hsplit hbefore hoffends
    rw [Variable.all] at hsplit
    match before with
    | [] =>
        obtain ⟨rfl, -⟩ := List.cons.inj hsplit
        exact ofEnvironment_of_nullDate hoffends
    | [first] =>
        obtain ⟨rfl, hrest⟩ := List.cons.inj hsplit
        obtain ⟨rfl, -⟩ := List.cons.inj hrest
        exact ofEnvironment_of_screenPolicy (hbefore _ (by simp)) hoffends
    | [first, second] =>
        simp only [List.cons_append, List.nil_append, List.cons.injEq] at hsplit
        obtain ⟨rfl, rfl, rfl, -⟩ := hsplit
        exact ofEnvironment_of_logLevel (hbefore _ (by simp)) (hbefore _ (by simp)) hoffends
    | first :: second :: third :: before => simp at hsplit

theorem ofEnvironment_written_or_refused_year_before_zero :
    ofEnvironment (KeyMap.ofList
        [("INTERVIEW_NULL_DATE", " \u3000-0044-03-15\n"), ("INTERVIEW_SCREEN_POLICY", "\tsTRICT "),
          ("LOG_LEVEL", "dEBUG")]).get? =
      .ok ⟨⟨-44, 3, 15, by decide, by decide, by decide, by decide⟩, .strict, "dEBUG"⟩ ∧
      ofEnvironment (KeyMap.ofList
        [("INTERVIEW_SCREEN_POLICY", "none"), ("LOG_LEVEL", " info")]).get? =
      .error ⟨"INTERVIEW_SCREEN_POLICY", "must be 'strict' or 'lenient'"⟩ := by
  refine ⟨?_, ?_⟩
  · refine ofEnvironment_written_or_refused.1 _ _ " \u3000-0044-03-15\n" "\tsTRICT "
      ['s', 'T', 'R', 'I', 'C', 'T'] (by decide) (by decide) rfl ?_ rfl ?_ ?_ rfl
    · exact ⟨[' ', '\u3000'], ['\n'], List.all_eq_true.1 rfl, List.all_eq_true.1 rfl, by decide⟩
    · exact ⟨['\t'], [' '], List.all_eq_true.1 rfl, List.all_eq_true.1 rfl, by decide⟩
    · simp [Spells, ScreenPolicy.name]
  · refine (ofEnvironment_written_or_refused.2 _).2 [.nullDate] .screenPolicy [.logLevel] rfl ?_ ?_
    · intro earlier hearlier
      cases List.mem_singleton.1 hearlier
      rintro ⟨text, hvalue, -⟩
      cases hvalue
    · refine ⟨"none", rfl, ?_⟩
      rintro ⟨policy, hspells⟩
      have hlength := hspells.length_eq
      revert hlength
      cases policy <;> decide

end Settings

end BranchingInterview
