import PostureAudit.Audit.File
import PostureAudit.Proofs.Assignment
import PostureAudit.Proofs.Declaration
import PostureAudit.Proofs.Identifier
import Mathlib.Data.List.Forall2

set_option autoImplicit false

/-! # What is reported of a file

A *complaint* is something to blame a file for, with the place in the text that gives rise to it.
`Complaint.Holds` says of each complaint alone when it applies, `Complaint.Before` in which order
two of them are made, and `Fault.Documented` how their messages read. The diagnostics of a file
are the complaints that apply and whose rules are not off, each exactly once and in that order
(`auditFile_exact`). Two values that read the same are two complaints, because they stand at
different places. -/

namespace PostureAudit

/-! ## Messages -/

theorem Text.ofNat_injective {m n : Nat} (h : Text.ofNat m = Text.ofNat n) : m = n := by
  have hread (n : Nat) : Nat.ofDigitChars 10 (Text.ofNat n) 0 = n :=
    Nat.ofDigitChars_toDigits (by decide) (by decide)
  rw [← hread m, h, hread]

namespace Fault

/-- The documented text of the message for a fault of a file, with and without a line. -/
def documented (file : Text) : Fault → LineNumber → Text
  | declarationCount found, .unknown =>
    "Error: File ".toList ++ file ++
      " must contain exactly one 'google_securityposture_posture' resource declaration.".toList ++
      " Found ".toList ++ Text.ofNat found ++ ".".toList
  | declarationCount found, .known line =>
    "Error: File ".toList ++ file ++
      " must contain exactly one 'google_securityposture_posture' resource declaration.".toList ++
      " Found ".toList ++ Text.ofNat found ++ ".".toList ++
      (" First occurrence (if any) near line ~".toList ++ Text.ofNat line ++ ".".toList)
  | missingPostureId, _ =>
    "Error: 'google_securityposture_posture' resource declared in ".toList ++ file ++
      ", but no 'posture_id' assignment found in the file.".toList
  | invalidValue field value, .unknown =>
    "Error: Invalid '".toList ++ field.name ++ "' value '".toList ++ value ++
      "' found in ".toList ++ file ++ ". Must match '".toList ++ field.formatPattern ++
      "'.".toList
  | invalidValue field value, .known line =>
    "Error: Invalid '".toList ++ field.name ++ "' value '".toList ++ value ++
      "' found in ".toList ++ file ++ (" at line ~".toList ++ Text.ofNat line) ++
      ". Must match '".toList ++ field.formatPattern ++ "'.".toList

theorem message_eq_documented (file : Text) (line : LineNumber) (fault : Fault) :
    fault.message file line = fault.documented file line := by
  have hcount : " must contain exactly one '".toList ++ Declaration.resourceType ++
      "' resource declaration. Found ".toList =
      " must contain exactly one 'google_securityposture_posture' resource declaration.".toList ++
        " Found ".toList := by decide +kernel
  have hmissing : "Error: '".toList ++ Declaration.resourceType ++
      "' resource declared in ".toList =
      "Error: 'google_securityposture_posture' resource declared in ".toList := by decide +kernel
  have hregroup {a b c d e f : Text} (g h i : Text) (hmiddle : b ++ c ++ d = e ++ f) :
      a ++ b ++ c ++ d ++ g ++ h ++ i = a ++ e ++ f ++ g ++ h ++ i := by
    rw [List.append_assoc a e f, ← hmiddle]
    simp only [List.append_assoc]
  cases fault with
  | declarationCount found =>
    cases line with
    | unknown =>
      have hsame := hregroup (a := "Error: File ".toList ++ file) (Text.ofNat found) ".".toList []
        hcount
      exact hsame.trans (List.append_nil _)
    | known line => exact hregroup _ _ _ hcount
  | missingPostureId => exact congrArg (· ++ file ++ _) hmissing
  | invalidValue field value =>
    cases line with
    | unknown =>
      have hnil (a b c d : Text) : a ++ [] ++ b ++ c ++ d = a ++ b ++ c ++ d := by
        rw [List.append_nil]
      exact hnil _ _ _ _
    | known line => rfl

/-- The part of a message that depends on the line. -/
def lineText : Fault → LineNumber → Text
  | declarationCount _, line => occurrenceText line
  | missingPostureId, _ => []
  | invalidValue _ _, line => placeText line

/-- Nothing but one part of a message depends on the line. -/
theorem exists_message_eq (file : Text) (fault : Fault) :
    ∃ before after, ∀ line,
      fault.message file line = before ++ fault.lineText line ++ after := by
  have hassoc (a b c d e : Text) : a ++ b ++ c ++ d ++ e = a ++ b ++ (c ++ d ++ e) := by
    simp only [List.append_assoc]
  cases fault with
  | declarationCount found => exact ⟨_, [], fun line => (List.append_nil _).symm⟩
  | missingPostureId =>
    have hnil (a : Text) : a = a ++ [] ++ [] := by rw [List.append_nil, List.append_nil]
    exact ⟨_, [], fun line => hnil _⟩
  | invalidValue field value => exact ⟨_, _, fun line => hassoc _ _ _ _ _⟩

/-- A wording of line numbers tells them apart if it does so for known ones, and if it says
    anything else of those than of an unknown one. -/
theorem wording_injective {wording : LineNumber → Text}
    (hunknown : ∀ n, wording (.known n) ≠ wording .unknown)
    (hknown : ∀ m n, wording (.known m) = wording (.known n) → m = n) {line line' : LineNumber}
    (h : wording line = wording line') : line = line' := by
  cases line with
  | known m =>
    cases line' with
    | known n => rw [hknown m n h]
    | unknown => exact absurd h (hunknown m)
  | unknown =>
    cases line' with
    | known n => exact absurd h.symm (hunknown n)
    | unknown => rfl

/-- The part that depends on the line tells the line, where there is such a part. -/
theorem lineText_injective {fault : Fault} (hroom : fault ≠ missingPostureId)
    {line line' : LineNumber} (h : fault.lineText line = fault.lineText line') :
    line = line' := by
  cases fault with
  | declarationCount found =>
    refine wording_injective (fun n h => ?_) (fun m n h => ?_) h
    · exact absurd (List.append_eq_nil_iff.mp h).2 (by decide)
    · exact Text.ofNat_injective (List.append_cancel_left (List.append_cancel_right h))
  | missingPostureId => exact absurd rfl hroom
  | invalidValue field value =>
    refine wording_injective (fun n h => ?_) (fun m n h => ?_) h
    · exact absurd (List.append_eq_nil_iff.mp h).1 (by decide)
    · exact Text.ofNat_injective (List.append_cancel_left h)

/-- A message that has room for a line tells which one was recorded. -/
theorem message_injective {file : Text} {fault : Fault} (hroom : fault ≠ missingPostureId)
    {line line' : LineNumber} (h : fault.message file line = fault.message file line') :
    line = line' := by
  obtain ⟨before, after, hmessage⟩ := exists_message_eq file fault
  rw [hmessage, hmessage] at h
  exact lineText_injective hroom (List.append_cancel_left (List.append_cancel_right h))

end Fault

/-! ## Complaints -/

/-- The turn in which the values of a field are checked. -/
def Field.turn : Field → Nat
  | postureId => 0
  | policySetId => 1
  | policyId => 2

/-- Something to blame a file for, with the sites that it is about. -/
inductive Complaint where
  | declarationCount (found : List (Site Text))
  | missingId (declaration : Site Text)
  | invalidValue (field : Field) (site : Site Text)
  deriving DecidableEq, Repr

namespace Complaint

def fault : Complaint → Fault
  | declarationCount found => .declarationCount found.length
  | missingId _ => .missingPostureId
  | invalidValue field site => .invalidValue field site.value

/-- The rule under which a complaint is made. -/
def rule : Complaint → Rule
  | declarationCount _ => .resourceDeclarationCount
  | missingId _ => .missingPostureId
  | invalidValue .postureId _ => .invalidPostureId
  | invalidValue .policySetId _ => .invalidPolicySetId
  | invalidValue .policyId _ => .invalidPolicyId

theorem rule_fault (c : Complaint) : c.fault.rule = c.rule := by
  cases c with
  | declarationCount found => rfl
  | missingId declaration => rfl
  | invalidValue field site => cases field <;> rfl

/-- The line that is recorded with a complaint. -/
def line (resolution : LineResolution) (content : Text) : Complaint → LineNumber
  | declarationCount found => declarationLine resolution content found
  | missingId declaration => Text.lineAtOffset content declaration.offset
  | invalidValue field site => assignmentLine resolution content field site

/-- When a complaint applies to a text. Unless there is one declaration, the number is the only
    thing to complain about. -/
def Holds (content : Text) : Complaint → Prop
  | declarationCount found => found = declarations content ∧ found.length ≠ 1
  | missingId declaration =>
    declarations content = [declaration] ∧ assignments .postureId content = []
  | invalidValue field site =>
    (declarations content).length = 1 ∧ site ∈ assignments field content ∧
      ¬ field.IsIdentifier site.value

/-- The order of the complaints about a file: a missing identifier, then the values of one field
    after the other, and within a field in the order of the text. -/
inductive Before : Complaint → Complaint → Prop where
  | missingId (declaration : Site Text) (field : Field) (site : Site Text) :
    Before (missingId declaration) (invalidValue field site)
  | field {f g : Field} (site site' : Site Text)
    (h : f.turn < g.turn) : Before (invalidValue f site) (invalidValue g site')
  | site (f : Field) {site site' : Site Text} (h : site.offset < site'.offset) :
    Before (invalidValue f site) (invalidValue f site')

/-- The diagnostic makes the complaint: for the file, under the rule of the complaint and at the
    level of that rule, with the documented message. Where the message has room for a line, the
    line that it names, or leaves out, can be no other than the one that is recorded. -/
structure Reports (s : Settings) (content file : Text) (c : Complaint) (d : Diagnostic) :
    Prop where
  file : d.file = file
  rule : d.rule = c.rule
  level : (s.severity d.rule).level? = some d.level
  line : d.line = c.line s.lineResolution content
  message : d.message = c.fault.documented d.file d.line
  sameLine : c.fault ≠ .missingPostureId →
    ∀ line, d.message = c.fault.documented d.file line → line = d.line

def finding (resolution : LineResolution) (content file : Text) (c : Complaint) : Finding :=
  c.fault.finding file (c.line resolution content)

/-- What a finding is graded to reports the complaint. -/
theorem reports_of_grade {s : Settings} {content file : Text} {c : Complaint} {d : Diagnostic}
    (h : s.grade (c.finding s.lineResolution content file) = some d) :
    c.Reports s content file d := by
  obtain ⟨level, hlevel, rfl⟩ := Option.map_eq_some_iff.mp h
  have hmessage (line : LineNumber) := c.fault.message_eq_documented file line
  refine ⟨rfl, c.rule_fault, hlevel, rfl, hmessage _, fun hroom line hline => ?_⟩
  exact (Fault.message_injective hroom (hline.trans (hmessage line).symm)).symm

end Complaint

theorem Settings.grade_eq_none_iff {s : Settings} {f : Finding} :
    s.grade f = none ↔ s.severity f.rule = .off := by
  rw [grade, Option.map_eq_none_iff, Severity.level?_eq_none_iff]

/-! ## The complaints about a text -/

/-- The complaints about the values of a field, in the order of the text. -/
def invalidComplaints (content : Text) (f : Field) : List Complaint :=
  ((assignments f content).filter fun site => !f.accepts site.value).map (.invalidValue f)

/-- The complaints about a text, in order. -/
def complaints (content : Text) : List Complaint :=
  match declarations content with
  | [declaration] =>
    (if assignments .postureId content = [] then [.missingId declaration] else []) ++
      Field.all.flatMap (invalidComplaints content)
  | found => [.declarationCount found]

theorem complaints_of_one {content : Text} {declaration : Site Text}
    (h : declarations content = [declaration]) :
    complaints content =
      (if assignments .postureId content = [] then [.missingId declaration] else []) ++
        Field.all.flatMap (invalidComplaints content) := by
  rw [complaints, h]

theorem complaints_of_length_ne_one {content : Text} (h : (declarations content).length ≠ 1) :
    complaints content = [.declarationCount (declarations content)] := by
  unfold complaints
  split
  next declaration hfound => simp [hfound] at h
  next => rfl

theorem mem_invalidComplaints_iff {content : Text} {f : Field} {c : Complaint} :
    c ∈ invalidComplaints content f ↔
      ∃ site ∈ assignments f content, ¬ f.IsIdentifier site.value ∧ c = .invalidValue f site := by
  have hbreaks (site : Site Text) :
      (!f.accepts site.value) = true ↔ ¬ f.IsIdentifier site.value := by
    rw [Bool.not_eq_true', ← Bool.not_eq_true, Field.accepts_iff_isIdentifier]
  simp only [invalidComplaints, List.mem_map, List.mem_filter, hbreaks, and_assoc,
    eq_comm (a := c)]

/-- The faults of a file are those of its complaints. -/
theorem faults_eq_map_complaints (resolution : LineResolution) (content : Text) :
    faults resolution content =
      (complaints content).map fun c => (c.fault, c.line resolution content) := by
  unfold faults
  split
  next declaration hfound =>
    have hvalues (f : Field) : invalidValues resolution content f =
        (invalidComplaints content f).map fun c => (c.fault, c.line resolution content) := by
      rw [invalidComplaints, List.map_map]
      rfl
    rw [complaints_of_one hfound, List.map_append, List.map_flatMap, ← funext hvalues, missingId]
    simp only [List.isEmpty_iff]
    split <;> rfl
  next hcount =>
    have hlength : (declarations content).length ≠ 1 := fun h =>
      (List.length_eq_one_iff.mp h).elim hcount
    rw [complaints_of_length_ne_one hlength]
    rfl

theorem mem_complaints_iff {content : Text} {c : Complaint} :
    c ∈ complaints content ↔ c.Holds content := by
  by_cases hone : (declarations content).length = 1
  · obtain ⟨declaration, hfound⟩ := List.length_eq_one_iff.mp hone
    rw [complaints_of_one hfound, List.mem_append, List.mem_flatMap]
    simp only [mem_invalidComplaints_iff]
    cases c with
    | declarationCount found =>
      have hnot : ¬ (found = declarations content ∧ found.length ≠ 1) := by
        rintro ⟨rfl, hcount⟩
        exact hcount hone
      simpa [Complaint.Holds] using hnot
    | missingId d =>
      by_cases hmissing : assignments .postureId content = []
      · simp [Complaint.Holds, hfound, hmissing, eq_comm]
      · simp [Complaint.Holds, hmissing]
    | invalidValue f site =>
      have hnot : Complaint.invalidValue f site ∉
          if assignments .postureId content = [] then [.missingId declaration] else [] := by
        split <;> simp
      simp [Complaint.Holds, hfound, hnot, f.mem_all]
  · rw [complaints_of_length_ne_one hone, List.mem_singleton]
    cases c with
    | declarationCount found =>
      rw [Complaint.Holds, Complaint.declarationCount.injEq]
      exact ⟨fun h => ⟨h, h ▸ hone⟩, And.left⟩
    | missingId d =>
      refine iff_of_false nofun fun h => hone ?_
      rw [h.1, List.length_singleton]
    | invalidValue f site => exact iff_of_false nofun fun h => hone h.1

theorem pairwise_complaints (content : Text) :
    (complaints content).Pairwise Complaint.Before := by
  by_cases hone : (declarations content).length = 1
  · obtain ⟨declaration, hfound⟩ := List.length_eq_one_iff.mp hone
    rw [complaints_of_one hfound]
    refine List.pairwise_append.mpr ⟨?missing, List.pairwise_flatMap.mpr ⟨?sites, ?fields⟩, ?first⟩
    case missing => split <;> simp
    case sites =>
      intro f _
      have hsites := ((Assignment.reads f).leftmost_scan content).increasing (Assignment.reads f)
      exact List.pairwise_map.mpr ((hsites.filter _).imp fun h => .site f h)
    case fields =>
      have hfields : Field.all.Pairwise fun f g => f.turn < g.turn := by decide
      refine hfields.imp fun {f g} hturn c hc c' hc' => ?_
      obtain ⟨site, -, -, rfl⟩ := mem_invalidComplaints_iff.mp hc
      obtain ⟨site', -, -, rfl⟩ := mem_invalidComplaints_iff.mp hc'
      exact .field site site' hturn
    case first =>
      intro c hc c' hc'
      obtain ⟨f, -, hc'⟩ := List.mem_flatMap.mp hc'
      obtain ⟨site, -, -, rfl⟩ := mem_invalidComplaints_iff.mp hc'
      split at hc
      · rw [List.mem_singleton.mp hc]
        exact .missingId declaration f site
      · exact absurd hc List.not_mem_nil
  · rw [complaints_of_length_ne_one hone]
    exact List.pairwise_singleton ..

/-! ## The diagnostics of a file -/

theorem auditFile_diagnostics (s : Settings) (content file : Text) :
    (auditFile s content file).diagnostics =
      (complaints content).filterMap fun c =>
        s.grade (c.finding s.lineResolution content file) := by
  rw [auditFile, Outcome.checkFile, Outcome.recordAll_diagnostics, fileFindings,
    faults_eq_map_complaints, List.map_map, List.filterMap_map]
  rfl

/-- Grading keeps the complaints whose rules are not off, and makes each of them one diagnostic. -/
theorem forall₂_reports (s : Settings) (content file : Text) (cs : List Complaint) :
    List.Forall₂ (Complaint.Reports s content file)
      (cs.filter fun c => s.severity c.rule ≠ .off)
      (cs.filterMap fun c => s.grade (c.finding s.lineResolution content file)) := by
  induction cs with
  | nil => exact .nil
  | cons c cs ih =>
    cases hgrade : s.grade (c.finding s.lineResolution content file) with
    | none =>
      have hoff : s.severity c.rule = .off :=
        c.rule_fault ▸ Settings.grade_eq_none_iff.mp hgrade
      rw [List.filter_cons_of_neg (by simp [hoff]), List.filterMap_cons, hgrade]
      exact ih
    | some d =>
      have hon : s.severity c.rule ≠ .off := fun hoff => by
        rw [← c.rule_fault] at hoff
        rw [Settings.grade_eq_none_iff.mpr hoff] at hgrade
        cases hgrade
      rw [List.filter_cons_of_pos (by simp [hon]), List.filterMap_cons, hgrade]
      exact .cons (Complaint.reports_of_grade hgrade) ih

theorem exists_mem_of_forall₂ {α β : Type} {R : α → β → Prop} {as : List α} {bs : List β}
    (h : List.Forall₂ R as bs) {a : α} (ha : a ∈ as) : ∃ b ∈ bs, R a b := by
  obtain ⟨i, hi, rfl⟩ := List.getElem_of_mem ha
  have hi' : i < bs.length := h.length_eq ▸ hi
  exact ⟨bs[i], List.getElem_mem hi', h.get hi hi'⟩

/-- What holds of a text is reported, unless the rule is off. -/
theorem exists_reports_of_holds {s : Settings} {content : Text} {c : Complaint}
    (hholds : c.Holds content) (hon : s.severity c.rule ≠ .off) (file : Text) :
    ∃ d ∈ (auditFile s content file).diagnostics, c.Reports s content file d := by
  rw [auditFile_diagnostics]
  refine exists_mem_of_forall₂ (forall₂_reports s content file (complaints content)) ?_
  simp [mem_complaints_iff, hholds, hon]

/-- The diagnostics of a file are those of the complaints that apply to its text and whose rules
    are not off, each once, in order. The file counts as checked whatever is found. -/
theorem auditFile_exact (s : Settings) (content file : Text) :
    (auditFile s content file).filesChecked = 1 ∧
    ∃ made : List Complaint,
      List.Forall₂ (Complaint.Reports s content file) made
        (auditFile s content file).diagnostics ∧
      (∀ c, c ∈ made ↔ c.Holds content ∧ s.severity c.rule ≠ .off) ∧
      made.Pairwise Complaint.Before ∧
      ((declarations content).length ≠ 1 →
        made = if s.severity .resourceDeclarationCount = .off then []
          else [.declarationCount (declarations content)]) := by
  refine ⟨by rw [auditFile, Outcome.checkFile, Outcome.recordAll_filesChecked]; rfl,
    (complaints content).filter fun c => s.severity c.rule ≠ .off, ?_, ?_, ?_, ?_⟩
  · rw [auditFile_diagnostics]
    exact forall₂_reports s content file _
  · intro c
    simp [mem_complaints_iff]
  · exact (pairwise_complaints content).filter _
  · intro hcount
    have hrule : (Complaint.declarationCount (declarations content)).rule =
      .resourceDeclarationCount := rfl
    rw [complaints_of_length_ne_one hcount, List.filter_singleton, hrule]
    by_cases hoff : s.severity .resourceDeclarationCount = .off <;> simp [hoff]

end PostureAudit
