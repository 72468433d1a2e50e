import PostureAudit.ConfigFile.Basic
import PostureAudit.Proofs.Extension
import PostureAudit.Proofs.NamedRules

set_option autoImplicit false

/-! # What a configuration file leads to

A configuration file is refused for its base, for its extension, or for a name in its table, in this
order, or it leads to settings; `ConfigFile.LeadsTo` says which, without regard to how they are
worked out. The base makes no difference: a rule that it adds to the table is held as it is held
without it (`settings_exact`).

An extension is stored as what is left of it. That is the extension in its normal form unless a
blank follows the dots in front (`extension_normal_iff`). -/

namespace PostureAudit

/-! ## Bases -/

namespace RuleTable

variable {t : RuleTable}

theorem get?_recommended_name (r : Rule) : recommended.get? r.name = some (.short .error) := by
  cases r <;> decide +kernel

theorem get?_recommended_eq_none {name : Text} (h : ∀ r : Rule, name ≠ r.name) :
    recommended.get? name = none := by
  have hrules : ∀ e ∈ recommended.entries, ∃ r : Rule, r ∈ Rule.all ∧ e.1 = r.name := by
    decide +kernel
  rw [get?, entryFor?, List.find?_eq_none.mpr, Option.map_none]
  intro e he hname
  obtain ⟨r, -, hr⟩ := hrules e he
  exact h r ((of_decide_eq_true hname).symm.trans hr)

/-- Of the names that are no rules, the base lists none. -/
theorem lists_withBase_iff {name : Text} (h : ∀ r : Rule, name ≠ r.name) :
    (t.withBase recommended).Lists name ↔ t.Lists name := by
  rw [Lists, get?_withBase, get?_recommended_eq_none h, Option.or_none, Lists]

theorem firstUnknown_withBase {name : Text} (h : t.FirstUnknown name) :
    (t.withBase recommended).FirstUnknown name where
  lists := (lists_withBase_iff h.unknown).mpr h.lists
  unknown := h.unknown
  first other hother hunknown := h.first other ((lists_withBase_iff hunknown).mp hother) hunknown

/-- Settings that hold every rule as an error do not see what the base adds to a table. -/
theorem withNamedRules_withBase {s : Settings} (hs : ∀ r, s.severity r = .error) (t : RuleTable) :
    s.withNamedRules (t.withBase recommended).severities = s.withNamedRules t.severities := by
  by_cases h : ∃ name, t.FirstUnknown name
  · obtain ⟨name, hname⟩ := h
    rw [withNamedRules_of_firstUnknown s hname,
      withNamedRules_of_firstUnknown s (firstUnknown_withBase hname)]
  · have hknown : ∀ name, t.Lists name → ∃ r : Rule, name = r.name := by
      simpa [exists_firstUnknown_iff] using h
    have hknown' : ∀ name, (t.withBase recommended).Lists name → ∃ r : Rule, name = r.name := by
      intro name hname
      by_contra hnone
      exact hnone (hknown name ((lists_withBase_iff (not_exists.mp hnone)).mp hname))
    have hseverity (r : Rule) :
        (((t.withBase recommended).get? r.name).map (·.severity)).getD (s.severity r) =
          ((t.get? r.name).map (·.severity)).getD (s.severity r) := by
      rw [get?_withBase, get?_recommended_name, hs]
      cases t.get? r.name <;> rfl
    simp only [withNamedRules_of_known s hknown, withNamedRules_of_known s hknown', hseverity]

end RuleTable

namespace ConfigFile

/-- The file extends nothing, or the base that there is. -/
def BaseKnown (c : ConfigFile) : Prop := ∀ name ∈ c.base, name = "posture:recommended".toList

/-- The rules of the file together with those of its base. -/
def effectiveRules (c : ConfigFile) : RuleTable :=
  if c.base.isSome then c.rules.withBase .recommended else c.rules

theorem extended_of_baseKnown {c : ConfigFile} (h : c.BaseKnown) :
    c.extended = .ok { c with base := none, rules := c.effectiveRules } := by
  obtain ⟨base, extension, resolution, rules⟩ := c
  cases base with
  | none => rfl
  | some name => exact if_pos (h name rfl)

theorem extended_of_unknownBase {c : ConfigFile} {name : Text} (hbase : c.base = some name)
    (hname : name ≠ "posture:recommended".toList) :
    c.extended = .error (.unknownBase name) := by
  rw [extended, hbase]
  exact if_neg hname

theorem baseKnown_of_extended {c d : ConfigFile} (h : c.extended = .ok d) : c.BaseKnown := by
  intro name hbase
  by_contra hname
  rw [extended_of_unknownBase hbase hname] at h
  cases h

/-- The file has its own rules, and those of the base where it has none. -/
theorem get?_effectiveRules (c : ConfigFile) (name : Text) :
    c.effectiveRules.get? name = (c.rules.get? name).or
      (if c.base.isSome then RuleTable.recommended.get? name else none) := by
  rw [effectiveRules]
  split
  · exact RuleTable.get?_withBase c.rules _ name
  · exact Option.or_none.symm

/-- Settings that hold every rule as an error do not see the base of a file. -/
theorem withNamedRules_effectiveRules {s : Settings} (hs : ∀ r, s.severity r = .error)
    (c : ConfigFile) :
    s.withNamedRules c.effectiveRules.severities = s.withNamedRules c.rules.severities := by
  rw [effectiveRules]
  split
  · exact RuleTable.withNamedRules_withBase hs c.rules
  · rfl

/-! ## Extensions -/

/-- The extension by which the file selects: what is left of the one that it gives, if it gives
    one. -/
def SelectsBy (c : ConfigFile) (extension : Text) : Prop :=
  match c.extension with
  | none => extension = "tf".toList
  | some written => Strips written extension ∧ extension ≠ []

/-- The file selects by some extension, or it gives one of which nothing is left. -/
theorem selectsBy_or_nothing (c : ConfigFile) :
    (∃ extension, c.SelectsBy extension) ∨
      ∃ written, c.extension = some written ∧ Strips written [] := by
  cases hextension : c.extension with
  | none =>
    refine Or.inl ⟨"tf".toList, ?_⟩
    rw [SelectsBy, hextension]
  | some written =>
    by_cases hnothing : Settings.dropDots (Text.trim written) = []
    · exact Or.inr ⟨written, rfl, Settings.strips_iff.mp hnothing⟩
    · refine Or.inl ⟨Settings.dropDots (Text.trim written), ?_⟩
      rw [SelectsBy, hextension]
      exact ⟨Settings.strips_iff.mp rfl, hnothing⟩

theorem applyExtension_of_selectsBy {c : ConfigFile} {extension : Text}
    (h : c.SelectsBy extension) :
    applyExtension .default c.extension = .ok { Settings.default with extension } := by
  unfold SelectsBy at h
  cases hextension : c.extension with
  | none =>
    rw [hextension] at h
    rw [h]
    rfl
  | some written =>
    rw [hextension] at h
    obtain ⟨hstrips, hne⟩ := h
    rw [applyExtension, Settings.strips_iff.mpr hstrips]
    dsimp only
    rw [if_neg hne, Settings.withExtension, Settings.dropDots_eq_self hstrips.head?_ne_dot]

theorem applyExtension_of_nothing {written : Text} (h : Strips written []) (s : Settings) :
    applyExtension s (some written) = .error (.invalidExtension written) := by
  rw [applyExtension, Settings.strips_iff.mpr h]
  exact if_pos rfl

/-! ## Outcomes -/

/-- What the file leads to. Of several causes to refuse it, the base comes first and the table
    last. -/
inductive LeadsTo (c : ConfigFile) : Except LintError Settings → Prop
  | unknownBase {name : Text} (hbase : c.base = some name)
      (hname : name ≠ "posture:recommended".toList) : LeadsTo c (.error (.unknownBase name))
  | invalidExtension {written : Text} (hbase : c.BaseKnown)
      (hextension : c.extension = some written) (hnothing : Strips written []) :
      LeadsTo c (.error (.settings (.invalidExtension written)))
  | unknownRule {extension name : Text} (hbase : c.BaseKnown) (hextension : c.SelectsBy extension)
      (hname : c.rules.FirstUnknown name) : LeadsTo c (.error (.settings (.unknownRule name)))
  | accepted {extension : Text} (hbase : c.BaseKnown) (hextension : c.SelectsBy extension)
      (hrules : ∀ name, c.rules.Lists name → ∃ r : Rule, name = r.name) :
      LeadsTo c (.ok
        { extension
          lineResolution := c.lineResolution.getD .offset
          severity := fun r => ((c.rules.get? r.name).map (·.severity)).getD .error })

section

variable {c : ConfigFile}

theorem settings_of_selectsBy {extension : Text} (hbase : c.BaseKnown)
    (hextension : c.SelectsBy extension) :
    c.settings = ((Settings.mk extension (c.lineResolution.getD .offset)
      fun _ => .error).withNamedRules c.rules.severities).mapError .settings := by
  rw [settings, extended_of_baseKnown hbase]
  dsimp only
  rw [applyTo, applyExtension_of_selectsBy hextension, ← withNamedRules_effectiveRules fun _ => rfl]
  cases c.lineResolution <;> rfl

theorem LeadsTo.eq {outcome : Except LintError Settings} (h : c.LeadsTo outcome) :
    c.settings = outcome := by
  cases h with
  | unknownBase hbase hname => rw [settings, extended_of_unknownBase hbase hname]
  | invalidExtension hbase hextension hnothing =>
    rw [settings, extended_of_baseKnown hbase]
    dsimp only
    rw [applyTo, hextension, applyExtension_of_nothing hnothing]
    rfl
  | unknownRule hbase hextension hname =>
    rw [settings_of_selectsBy hbase hextension, RuleTable.withNamedRules_of_firstUnknown _ hname]
    rfl
  | accepted hbase hextension hrules =>
    rw [settings_of_selectsBy hbase hextension, RuleTable.withNamedRules_of_known _ hrules]
    rfl

theorem exists_leadsTo (c : ConfigFile) : ∃ outcome, c.LeadsTo outcome := by
  by_cases hbase : c.BaseKnown
  · rcases c.selectsBy_or_nothing with ⟨extension, hextension⟩ | ⟨written, hextension, hnothing⟩
    · by_cases hrules : ∃ name, c.rules.FirstUnknown name
      · obtain ⟨name, hname⟩ := hrules
        exact ⟨_, .unknownRule hbase hextension hname⟩
      · refine ⟨_, .accepted hbase hextension ?_⟩
        simpa [RuleTable.exists_firstUnknown_iff] using hrules
    · exact ⟨_, .invalidExtension hbase hextension hnothing⟩
  · obtain ⟨name, hname, hne⟩ : ∃ name ∈ c.base, name ≠ "posture:recommended".toList := by
      simpa [BaseKnown] using hbase
    exact ⟨_, .unknownBase hname hne⟩

theorem leadsTo_settings (c : ConfigFile) : c.LeadsTo c.settings := by
  obtain ⟨outcome, h⟩ := c.exists_leadsTo
  rwa [h.eq]

/-- A file that extends the base leads to what it leads to without one. -/
theorem settings_recommended (c : ConfigFile) :
    { c with base := some "posture:recommended".toList }.settings =
      { c with base := none }.settings := by
  have hknown : BaseKnown { c with base := some "posture:recommended".toList } := by
    rintro _ ⟨⟩
    rfl
  obtain ⟨outcome, h⟩ := exists_leadsTo { c with base := none }
  rw [h.eq]
  refine LeadsTo.eq ?_
  cases h with
  | unknownBase hbase _ => cases hbase
  | invalidExtension _ hextension hnothing => exact .invalidExtension hknown hextension hnothing
  | unknownRule _ hextension hname => exact .unknownRule hknown hextension hname
  | accepted _ hextension hrules => exact .accepted hknown hextension hrules

end

/-- A file leads to its settings, or to its refusal, and to nothing else. Extending the base makes
    no difference to it, and extending a file a second time makes none to the file: it has its own
    rules, and those of the base where it has none. -/
theorem settings_exact (c : ConfigFile) :
    (∀ outcome, c.settings = outcome ↔ c.LeadsTo outcome) ∧
    { c with base := some "posture:recommended".toList }.settings =
      { c with base := none }.settings ∧
    c.extended.bind extended = c.extended ∧
    ∀ d, c.extended = .ok d → ∀ name,
      d.rules.get? name = (c.rules.get? name).or
        (if c.base.isSome then RuleTable.recommended.get? name else none) := by
  refine ⟨fun outcome => ⟨fun h => h ▸ c.leadsTo_settings, LeadsTo.eq⟩, c.settings_recommended,
    ?_, ?_⟩
  · cases h : c.extended with
    | error e => rfl
    | ok d => exact extended_idempotent h
  · intro d hd name
    rw [extended_of_baseKnown (baseKnown_of_extended hd)] at hd
    cases hd
    exact c.get?_effectiveRules name

/-! ## Extensions in normal form -/

theorem settings_eq_ok_iff {c : ConfigFile} {s : Settings} :
    c.settings = .ok s ↔ c.BaseKnown ∧ c.SelectsBy s.extension ∧
      (∀ name, c.rules.Lists name → ∃ r : Rule, name = r.name) ∧
      s.lineResolution = c.lineResolution.getD .offset ∧
      s.severity = fun r => ((c.rules.get? r.name).map (·.severity)).getD .error := by
  constructor
  · intro h
    have hleads := c.leadsTo_settings
    rw [h] at hleads
    cases hleads with
    | accepted hbase hextension hrules => exact ⟨hbase, hextension, hrules, rfl, rfl⟩
  · rintro ⟨hbase, hextension, hrules, hresolution, hseverity⟩
    obtain ⟨extension, resolution, severity⟩ := s
    subst hresolution hseverity
    exact (LeadsTo.accepted hbase hextension hrules).eq

/-- An extension that is accepted is stored without blanks at its end and without dots in front, and
    something of it is stored. If it does not start with a blank, and only then, a file that gives
    it as it is stored leads to the same settings. It starts with a blank if one follows the dots
    in front of what is written, blanks at the ends aside. -/
theorem extension_normal_iff {c : ConfigFile} {s : Settings} {written : Text}
    (hs : c.settings = .ok s) (hwritten : c.extension = some written) :
    s.extension ≠ [] ∧ s.extension.head? ≠ some '.' ∧
    (∀ b ∈ s.extension.getLast?, isBlank b = false) ∧
    ({ c with extension := some s.extension }.settings = .ok s ↔
      ∀ b ∈ s.extension.head?, isBlank b = false) ∧
    ((∃ b ∈ s.extension.head?, isBlank b = true) ↔
      ∃ dots b rest, Text.Trimmed written ('.' :: dots ++ b :: rest) ∧ (∀ d ∈ dots, d = '.') ∧
        isBlank b = true) := by
  obtain ⟨hbase, hextension, hrules, hresolution, hseverity⟩ := settings_eq_ok_iff.mp hs
  rw [SelectsBy, hwritten] at hextension
  obtain ⟨hstrips, hne⟩ := hextension
  refine ⟨hne, hstrips.head?_ne_dot, hstrips.finish, ?_, hstrips.exists_blank_iff⟩
  rw [← hstrips.self_iff, settings_eq_ok_iff]
  exact ⟨fun h => h.2.1.1, fun h => ⟨hbase, ⟨h, hne⟩, hrules, hresolution, hseverity⟩⟩

/-- Dots and blanks around an extension are not stored. -/
theorem extension_normal_iff_dotsAndBlanks :
    ∃ s, settings { empty with extension := some "\t..tf ".toList } = .ok s ∧
      s.extension = "tf".toList ∧
      settings { empty with extension := some s.extension } = .ok s := by
  have hextension : SelectsBy { empty with extension := some "\t..tf ".toList } "tf".toList :=
    ⟨Settings.strips_iff.mp (by decide), by decide⟩
  have hs := (LeadsTo.accepted (c := { empty with extension := some "\t..tf ".toList }) nofun
    hextension nofun).eq
  have hstart : ∀ b ∈ "tf".toList.head?, isBlank b = false := by
    rintro b ⟨⟩
    rfl
  exact ⟨_, hs, rfl, (extension_normal_iff hs rfl).2.2.2.1.mpr hstart⟩

/-- A blank after the dot in front is stored, and a file that gives the extension as it is stored
    leads to another one. -/
theorem extension_not_normal_blankAfterDot :
    ∃ s s', settings { empty with extension := some ". tf".toList } = .ok s ∧
      s.extension = " tf".toList ∧
      settings { empty with extension := some s.extension } = .ok s' ∧
      s'.extension = "tf".toList :=
  ⟨_, _, rfl, rfl, rfl, rfl⟩

end ConfigFile

end PostureAudit
