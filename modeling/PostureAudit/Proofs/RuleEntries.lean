import PostureAudit.Proofs.DecodedLines
import PostureAudit.Proofs.JsonReport

set_option autoImplicit false

/-! # What a JSON report says of its rules

The JSON report has an entry for every rule that reported, and the entry of a rule of a format has
the pattern of that format. The pattern is looked up by the rule, while a message quotes the
pattern of the field that was checked. Both are the same (`ofFormatRule?_eq_some_iff`), so a
message about a value ends in the very pattern that is listed for its rule, and the value does not
match it (`ruleEntries_agree`). -/

namespace PostureAudit

/-! ## Entries -/

def Json.members? : Json → Option (List (Text × Json))
  | object members => some members
  | _ => none

/-- The pattern that the entry of a rule gives. -/
def Json.pattern? (entry : Json) : Option Text := do (← entry.member? "pattern".toList).string?

/-- The entries of the rules in a JSON report, each with the name of its rule. -/
def ruleEntries? (report : Text) : Option (List (Text × Json)) := do
  (← (← Json.ofText? report).member? "rules".toList).members?

theorem Field.ofFormatRule?_eq_some_iff {r : Rule} {f : Field} :
    ofFormatRule? r = some f ↔ r = .ofField f := by
  constructor
  · intro h
    have hrule := List.find?_some (show all.find? (·.formatRule = r) = some f from h)
    exact (of_decide_eq_true hrule).symm
  · rintro rfl
    exact f.ofFormatRule?_formatRule

theorem Rule.pattern?_toJson (r : Rule) :
    r.toJson.pattern? = (Field.ofFormatRule? r).map Field.formatPattern := by
  unfold toJson
  cases Field.ofFormatRule? r <;> rfl

/-- An entry has a pattern exactly if its rule is that of a field. -/
theorem Rule.isSome_member?_pattern_iff (r : Rule) :
    (r.toJson.member? "pattern".toList).isSome = true ↔ ∃ f : Field, r = .ofField f := by
  simp only [← Field.ofFormatRule?_eq_some_iff, ← Option.isSome_iff_exists]
  unfold toJson
  cases Field.ofFormatRule? r <;> rfl

namespace Outcome

variable (o : Outcome)

/-- The entries of a report are read back from it. -/
theorem ruleEntries?_jsonReport :
    ruleEntries? o.jsonReport = some (o.rules.map fun r => (r.name, r.toJson)) := by
  have hfeed : ∀ c ∈ ['\n'], Json.isSpace c = true := List.forall_mem_singleton.mpr (by decide)
  have hrules : o.toJson.member? "rules".toList =
      some (.object (o.rules.map fun r => (r.name, r.toJson))) := rfl
  rw [ruleEntries?, jsonReport, Json.ofText?_text _ ['\n'] hfeed]
  simp only [Option.bind_eq_bind, Option.bind_some, hrules, Json.members?]

theorem nodup_rules : o.rules.Nodup :=
  (by decide : Rule.byName.Nodup).filter _

theorem names_ruleEntries :
    (o.rules.map fun r => (r.name, r.toJson)).map (·.1) = o.rules.map Rule.name := by
  rw [List.map_map]
  rfl

end Outcome

/-! ## Messages about values -/

/-- A message about a value ends in the pattern of the field. -/
theorem Fault.exists_documented_eq (file : Text) (f : Field) (value : Text) (line : LineNumber) :
    ∃ front, (invalidValue f value).documented file line =
      front ++ "Must match '".toList ++ f.formatPattern ++ "'.".toList := by
  have hlead : ". Must match '".toList = ". ".toList ++ "Must match '".toList := by decide
  have hregroup (a : Text) : a ++ ". Must match '".toList ++ f.formatPattern ++ "'.".toList =
      (a ++ ". ".toList) ++ "Must match '".toList ++ f.formatPattern ++ "'.".toList := by
    rw [hlead, ← List.append_assoc a]
  cases line with
  | known n => exact ⟨_, hregroup _⟩
  | unknown => exact ⟨_, hregroup _⟩

/-- The report agrees with a diagnostic about the value of a field: the message ends in the pattern
    that the entry of the rule gives, and that is a pattern which the value does not match. -/
def Diagnostic.AgreesOn (report : Text) (f : Field) (value : Text) (d : Diagnostic) : Prop :=
  ∃ entries entry pattern front p,
    ruleEntries? report = some entries ∧ (d.rule.name, entry) ∈ entries ∧
    entry.pattern? = some pattern ∧
    d.message = front ++ "Must match '".toList ++ pattern ++ "'.".toList ∧
    d.message = (Fault.invalidValue f value).documented d.file d.line ∧
    f.violation? value = some ⟨f, d.rule, pattern⟩ ∧
    Pattern.parse? pattern = some p ∧ p.occursIn value = false

/-- The diagnostic is about a value of the field in the text, and the report agrees with it. -/
def Diagnostic.AgreesWith (report content : Text) (f : Field) (d : Diagnostic) : Prop :=
  ∃ site ∈ assignments f content, d.AgreesOn report f site.value

theorem Complaint.rule_invalidValue (f : Field) (site : Site Text) :
    (invalidValue f site).rule = .ofField f := by
  cases f <;> rfl

/-- A complaint under the rule of a field is about a value of that field. -/
theorem Complaint.exists_site_of_rule {c : Complaint} {f : Field} (h : c.rule = .ofField f) :
    ∃ site, c = .invalidValue f site := by
  cases c with
  | declarationCount found => cases f <;> cases h
  | missingId declaration => cases f <;> cases h
  | invalidValue g site =>
    rw [rule_invalidValue] at h
    exact ⟨site, by rw [Rule.ofField_injective h]⟩

/-- The report of every outcome that has a diagnostic about a value agrees with it. -/
theorem Complaint.Reports.agreesOn {s : Settings} {content file : Text} {f : Field}
    {site : Site Text} {d : Diagnostic} {o : Outcome}
    (hreports : (Complaint.invalidValue f site).Reports s content file d)
    (hinvalid : ¬ f.IsIdentifier site.value) (hd : d ∈ o.diagnostics) :
    d.AgreesOn o.jsonReport f site.value := by
  have hmessage := hreports.message
  have hrule : d.rule = .ofField f := hreports.rule.trans (rule_invalidValue f site)
  have hreported : d.rule ∈ o.rules := (o.mem_rules_iff d.rule).mpr ⟨d, hd, rfl⟩
  obtain ⟨front, hfront⟩ := Fault.exists_documented_eq d.file f site.value d.line
  have hrejected : f.accepts site.value = false := by
    rwa [← Bool.not_eq_true, Field.accepts_iff_isIdentifier]
  have hpattern : d.rule.toJson.pattern? = some f.formatPattern := by
    rw [Rule.pattern?_toJson, Field.ofFormatRule?_eq_some_iff.mpr hrule, Option.map_some]
  have hviolation : f.violation? site.value = some ⟨f, d.rule, f.formatPattern⟩ := by
    rw [Field.violation?, hrejected, hrule]
    rfl
  exact ⟨_, _, _, front, f.format, o.ruleEntries?_jsonReport,
    List.mem_map_of_mem hreported, hpattern, hmessage.trans hfront, hmessage, hviolation,
    f.parse?_formatPattern, hrejected⟩

theorem Complaint.Reports.agreesWith {s : Settings} {content file : Text} {c : Complaint}
    {d : Diagnostic} {f : Field} {o : Outcome} (hreports : c.Reports s content file d)
    (hholds : c.Holds content) (hd : d ∈ o.diagnostics) (hrule : d.rule = .ofField f) :
    d.AgreesWith o.jsonReport content f := by
  obtain ⟨site, rfl⟩ := exists_site_of_rule (hreports.rule.symm.trans hrule)
  obtain ⟨-, hsite, hinvalid⟩ := hholds
  exact ⟨site, hsite, hreports.agreesOn hinvalid hd⟩

theorem agreesWith_of_mem_auditFile {s : Settings} {content file : Text} {d : Diagnostic}
    (hd : d ∈ (auditFile s content file).diagnostics) {f : Field} (hrule : d.rule = .ofField f) :
    d.AgreesWith (auditFile s content file).jsonReport content f := by
  obtain ⟨c, hholds, hgrade⟩ := mem_diagnostics_auditFile_iff.mp hd
  exact (Complaint.reports_of_grade hgrade).agreesWith hholds hd hrule

theorem exists_agreesWith_of_mem_auditTree {s : Settings} {fs : FileSystem} {root : Path}
    {d : Diagnostic} (hd : d ∈ (auditTree s fs root).diagnostics) {f : Field}
    (hrule : d.rule = .ofField f) :
    ∃ path content, .file path content ∈ (fs.walk s.selects root).events ∧
      d.file = path.text ∧
      d.AgreesWith (auditTree s fs root).jsonReport (Utf8.decodeLossy content) f := by
  rcases exists_complaint_of_mem_auditTree hd with
    hother | hother | ⟨path, content, c, hevent, hholds, hreports⟩
  · rw [hrule] at hother
    cases f <;> cases hother
  · rw [hrule] at hother
    cases f <;> cases hother
  · exact ⟨path, content, hevent, hreports.file, hreports.agreesWith hholds hd hrule⟩

/-- A value that breaks its format is reported by every outcome that has the diagnostics of its
    file. -/
theorem exists_agreesOn_of_holds {s : Settings} {content file : Text} {o : Outcome}
    (ho : (auditFile s content file).diagnostics ⊆ o.diagnostics) {f : Field} {site : Site Text}
    (hholds : (Complaint.invalidValue f site).Holds content)
    (hon : s.severity (.ofField f) ≠ .off) :
    ∃ d ∈ o.diagnostics, d.file = file ∧ d.rule = .ofField f ∧
      d.AgreesOn o.jsonReport f site.value := by
  have hrule := Complaint.rule_invalidValue f site
  obtain ⟨d, hd, hreports⟩ := exists_reports_of_holds hholds (hrule ▸ hon) file
  exact ⟨d, ho hd, hreports.file, hreports.rule.trans hrule, hreports.agreesOn hholds.2.2 (ho hd)⟩

/-- A JSON report has one entry for each rule that reported, however often and in whatever order it
    did, and no other entries; those of the rules of fields, and no others, have a pattern. In the
    report of a file or of a tree, every message about a value of a field ends in the pattern that
    is listed for its rule, and the value does not match it. A value of a file that is checked, in
    a tree of one that is delivered, has such a message if it breaks its format and the rule is not
    off. -/
theorem ruleEntries_agree :
    (∀ o : Outcome, ∃ entries, ruleEntries? o.jsonReport = some entries ∧
      (entries.map (·.1)).Nodup ∧
      (∀ name, name ∈ entries.map (·.1) ↔ ∃ d ∈ o.diagnostics, d.rule.name = name) ∧
      ∀ e ∈ entries, (e.2.member? "pattern".toList).isSome = true ↔
        ∃ f, e.1 = (Rule.ofField f).name) ∧
    (∀ (s : Settings) (content file : Text),
      let o := auditFile s content file
      (∀ d ∈ o.diagnostics, ∀ f, d.rule = .ofField f → d.AgreesWith o.jsonReport content f) ∧
      ∀ f site, (Complaint.invalidValue f site).Holds content → s.severity (.ofField f) ≠ .off →
        ∃ d ∈ o.diagnostics, d.file = file ∧ d.rule = .ofField f ∧
          d.AgreesOn o.jsonReport f site.value) ∧
    ∀ (s : Settings) (fs : FileSystem) (root : Path),
      let o := auditTree s fs root
      (∀ d ∈ o.diagnostics, ∀ f, d.rule = .ofField f →
        ∃ path content, .file path content ∈ (fs.walk s.selects root).events ∧
          d.file = path.text ∧ d.AgreesWith o.jsonReport (Utf8.decodeLossy content) f) ∧
      ∀ path content, .file path content ∈ (fs.walk s.selects root).events →
        ∀ f site, (Complaint.invalidValue f site).Holds (Utf8.decodeLossy content) →
          s.severity (.ofField f) ≠ .off →
          ∃ d ∈ o.diagnostics, d.file = path.text ∧ d.rule = .ofField f ∧
            d.AgreesOn o.jsonReport f site.value := by
  refine ⟨fun o => ⟨_, o.ruleEntries?_jsonReport, ?once, ?names, ?patterns⟩, ?file, ?tree⟩
  case once =>
    rw [o.names_ruleEntries]
    exact o.nodup_rules.map fun r r' => Rule.name_injective
  case names =>
    intro name
    rw [o.names_ruleEntries, List.mem_map]
    simp only [o.mem_rules_iff]
    constructor
    · rintro ⟨_, ⟨d, hd, rfl⟩, hname⟩
      exact ⟨d, hd, hname⟩
    · rintro ⟨d, hd, hname⟩
      exact ⟨d.rule, ⟨d, hd, rfl⟩, hname⟩
  case patterns =>
    intro e he
    obtain ⟨r, -, rfl⟩ := List.mem_map.mp he
    rw [r.isSome_member?_pattern_iff]
    exact exists_congr fun f => ⟨congrArg Rule.name, Rule.name_injective⟩
  case file =>
    intro s content file
    exact ⟨fun d hd f => agreesWith_of_mem_auditFile hd,
      fun f site => exists_agreesOn_of_holds (List.Subset.refl _)⟩
  case tree =>
    intro s fs root
    refine ⟨fun d hd f => exists_agreesWith_of_mem_auditTree hd,
      fun path content hevent f site => ?_⟩
    exact exists_agreesOn_of_holds (WalkEvent.diagnostics_infix_auditTree hevent).subset

/-- A posture whose identifier has a capital letter. -/
def capitalLetter : Text :=
  Declaration.text ['m'] [] ++ '\n' :: Assignment.text .postureId [' '] [' '] "Main".toList

def capitalTree : FileSystem :=
  .ofEntries [] [(Path.ofText "b".toList, .dir [(Path.ofText "a.tf".toList,
    .file (Utf8.encode capitalLetter))])]

/-- The value is reported of the file and of a tree with that file, and both reports agree. -/
theorem ruleEntries_agree_capitalLetter :
    (∃ d, (auditFile .default capitalLetter "a.tf".toList).diagnostics = [d] ∧
      d.rule = .ofField .postureId ∧
      d.AgreesWith (auditFile .default capitalLetter "a.tf".toList).jsonReport capitalLetter
        .postureId) ∧
    ∃ d ∈ (auditTree .default capitalTree [Path.dot]).diagnostics,
      d.file = "./b/a.tf".toList ∧ d.rule = .ofField .postureId ∧
      d.AgreesOn (auditTree .default capitalTree [Path.dot]).jsonReport .postureId
        "Main".toList := by
  constructor
  · have hone : (auditFile .default capitalLetter "a.tf".toList).diagnostics =
        [⟨⟨.invalidPostureId, "a.tf".toList, .known 2,
          Fault.message "a.tf".toList (.known 2) (.invalidValue .postureId "Main".toList)⟩,
          .error⟩] := by
      decide +kernel
    refine ⟨_, hone, rfl, (ruleEntries_agree.2.1 _ _ _).1 _ ?_ _ rfl⟩
    rw [hone]
    exact List.mem_singleton_self _
  · let content := Utf8.encode capitalLetter
    let site : Site Text :=
      ⟨47, Assignment.text .postureId [' '] [' '] "Main".toList, "Main".toList⟩
    have hevent : .file (Path.ofText "./b/a.tf".toList) content ∈
        (capitalTree.walk Settings.default.selects [Path.dot]).events := by
      decide +kernel
    have hholds : (Complaint.invalidValue .postureId site).Holds (Utf8.decodeLossy content) := by
      refine ⟨by decide +kernel, by decide +kernel, ?_⟩
      rw [← Field.accepts_iff_isIdentifier]
      decide +kernel
    obtain ⟨d, hd, hfile, hrule, hagrees⟩ :=
      (ruleEntries_agree.2.2 .default capitalTree [Path.dot]).2 _ _ hevent _ _ hholds (by decide)
    exact ⟨d, hd, hfile.trans (by decide +kernel), hrule, hagrees⟩

end PostureAudit
