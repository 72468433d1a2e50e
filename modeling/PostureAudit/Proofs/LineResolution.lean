import PostureAudit.Proofs.File
import PostureAudit.Proofs.Lines
import PostureAudit.Proofs.Literal

set_option autoImplicit false

/-! # Two ways to find a line

The line of a value that breaks its format is found from its offset, or by a search for an
assignment of the same value. The search looks at one line at a time, so it can only find an
assignment that keeps to one line; then it finds the line of the offset or an earlier line with
the same assignment in it (`linesAgree_assignmentLine`). Nothing else about the diagnostics of a
file depends on the way in which lines are found (`auditFile_refines`). -/

namespace PostureAudit

/-- A text of an assignment of the value is part of the line. -/
def Assignment.StandsIn (f : Field) (value line : Text) : Prop :=
  ∃ text, text <:+: line ∧ form f text value

theorem Assignment.getLast?_text (f : Field) (before after value : Text) :
    (text f before after value).getLast? = some '"' := by
  rw [text, List.getLast?_concat]

/-- The pattern of an assignment of a value finds it where it stands. -/
theorem Field.exists_parse?_literalPattern_of_isValue (f : Field) {value : Text}
    (hvalue : Assignment.IsValue value) :
    ∃ p, Pattern.parse? (f.literalPattern value) = some p ∧
      ∀ line, p.occursIn line = true ↔ Assignment.StandsIn f value line := by
  obtain ⟨p, hp, hoccurs⟩ := f.exists_parse?_literalPattern value
  refine ⟨p, hp, fun line => (hoccurs line).trans ⟨?_, ?_⟩⟩
  · rintro ⟨before, after, hbefore, hafter, hinfix⟩
    exact ⟨_, hinfix, before, after, hbefore, hafter, hvalue, rfl⟩
  · rintro ⟨_, hinfix, before, after, hbefore, hafter, -, rfl⟩
    exact ⟨before, after, hbefore, hafter, hinfix⟩

/-- The lines that the offset of an assignment and a search give for it. That of the offset is
    known. If the assignment keeps to one line, that of the search is known too and does not come
    later, and it is the same one if no earlier line has an assignment of the same value. -/
def Assignment.LinesAgree (content : Text) (f : Field) (site : Site Text)
    (offset search : LineNumber) : Prop :=
  ∃ n, offset = .known (n + 1) ∧
    ('\n' ∉ site.text →
      ∃ m, search = .known (m + 1) ∧ m ≤ n ∧
        ((∀ i < n, ∀ line, (Text.lines content)[i]? = some line →
            ¬ StandsIn f site.value line) → m = n))

theorem linesAgree_assignmentLine {content : Text} {f : Field} {site : Site Text}
    (hsite : site ∈ assignments f content) :
    Assignment.LinesAgree content f site (assignmentLine .offset content f site)
      (assignmentLine .search content f site) := by
  obtain ⟨front, back, rfl, hoffset, hform⟩ :=
    ((Assignment.reads f).leftmost_scan content).occurs site hsite
  obtain ⟨before, after, -, -, hvalue, htext⟩ := id hform
  refine ⟨front.count '\n', ?_, fun hfeed => ?_⟩
  · rw [assignmentLine, ← hoffset, Nat.zero_add, List.append_assoc, Text.lineAtOffset_append]
  · obtain ⟨p, hp, hoccurs⟩ := f.exists_parse?_literalPattern_of_isValue hvalue
    have hlast : site.text.getLast? ≠ some '\r' := by
      rw [htext, Assignment.getLast?_text]
      decide
    obtain ⟨line, hline, hinfix⟩ := Text.exists_line_of_infix
      ((Assignment.reads f).ne_nil _ _ hform) hfeed hlast front back
    have hfound : p.occursIn line = true := (hoccurs line).mpr ⟨site.text, hinfix, hform⟩
    obtain ⟨m, hm, hle, hsame⟩ := Text.exists_findLine_eq hline hfound
    refine ⟨m, ?_, hle, fun hnone => hsame.mpr fun i hi line' hline' => ?_⟩
    · rw [assignmentLine, Text.findPattern, hp]
      exact hm
    · rw [hoccurs]
      exact hnone i hi line' hline'

/-- Of two assignments of the same value, a search finds the first one both times. -/
example :
    let content := "policy_id = \"-\"\npolicy_id = \"-\"".toList
    (assignments .policyId content).map (fun site =>
        (assignmentLine .offset content .policyId site,
          assignmentLine .search content .policyId site)) =
      [(.known 1, .known 1), (.known 2, .known 1)] := by
  decide +kernel

/-! ## Diagnostics under either setting -/

/-- Two diagnostics report the same complaint, one with the line of the offset and one with the
    line of a search. Their messages differ in the part about the line only. -/
structure Complaint.Refines (s : Settings) (content file : Text) (c : Complaint)
    (offset search : Diagnostic) : Prop where
  byOffset : c.Reports (s.withLineResolution .offset) content file offset
  bySearch : c.Reports (s.withLineResolution .search) content file search
  level : offset.level = search.level
  rule : offset.rule = search.rule
  file : offset.file = search.file
  message : ∃ before after,
    offset.message = before ++ c.fault.lineText offset.line ++ after ∧
      search.message = before ++ c.fault.lineText search.line ++ after
  line : ∀ f site, c = .invalidValue f site →
    Assignment.LinesAgree content f site offset.line search.line

theorem Settings.grade_finding (s : Settings) (c : Complaint) (resolution : LineResolution)
    (content file : Text) :
    s.grade (c.finding resolution content file) =
      (s.severity c.rule).level?.map fun level => ⟨c.finding resolution content file, level⟩ := by
  rw [← c.rule_fault]
  rfl

theorem Complaint.refines_finding {s : Settings} {content : Text} {c : Complaint}
    (h : c.Holds content) (file : Text) {level : Level}
    (hlevel : (s.severity c.rule).level? = some level) :
    c.Refines s content file ⟨c.finding .offset content file, level⟩
      ⟨c.finding .search content file, level⟩ := by
  have hgrade (resolution : LineResolution) :
      (s.withLineResolution resolution).grade (c.finding resolution content file) =
        some ⟨c.finding resolution content file, level⟩ := by
    rw [Settings.grade_finding]
    exact congrArg (Option.map _) hlevel
  obtain ⟨before, after, hmessage⟩ := c.fault.exists_message_eq file
  refine ⟨reports_of_grade (hgrade .offset), reports_of_grade (hgrade .search), rfl, rfl, rfl,
    ⟨before, after, hmessage _, hmessage _⟩, ?_⟩
  rintro f site rfl
  obtain ⟨-, hsite, -⟩ := h
  exact linesAgree_assignmentLine hsite

/-- The complaints that are reported, each with its diagnostic under either way of finding lines. -/
def reportRows (s : Settings) (content file : Text) :
    List (Complaint × Diagnostic × Diagnostic) :=
  (complaints content).filterMap fun c => (s.severity c.rule).level?.map fun level =>
    (c, ⟨c.finding .offset content file, level⟩, ⟨c.finding .search content file, level⟩)

theorem mem_reportRows_iff {s : Settings} {content file : Text}
    {row : Complaint × Diagnostic × Diagnostic} :
    row ∈ reportRows s content file ↔
      ∃ c level, c.Holds content ∧ (s.severity c.rule).level? = some level ∧
        row = (c, ⟨c.finding .offset content file, level⟩,
          ⟨c.finding .search content file, level⟩) := by
  simp only [reportRows, List.mem_filterMap, mem_complaints_iff, Option.map_eq_some_iff,
    ← exists_and_left, eq_comm (a := row)]

theorem mem_map_fst_reportRows_iff {s : Settings} {content file : Text} {c : Complaint} :
    c ∈ (reportRows s content file).map Prod.fst ↔
      c.Holds content ∧ s.severity c.rule ≠ .off := by
  rw [List.mem_map]
  constructor
  · rintro ⟨row, hrow, rfl⟩
    obtain ⟨c, level, hholds, hlevel, rfl⟩ := mem_reportRows_iff.mp hrow
    refine ⟨hholds, fun hoff => ?_⟩
    rw [Severity.level?_eq_none_iff.mpr hoff] at hlevel
    cases hlevel
  · rintro ⟨hholds, hon⟩
    cases hlevel : (s.severity c.rule).level? with
    | none => exact absurd (Severity.level?_eq_none_iff.mp hlevel) hon
    | some level => exact ⟨_, mem_reportRows_iff.mpr ⟨c, level, hholds, hlevel, rfl⟩, rfl⟩

/-- The diagnostics under either setting are a column of the rows. -/
theorem auditFile_diagnostics_eq_map {s : Settings} {content file : Text}
    {resolution : LineResolution} {column : Complaint × Diagnostic × Diagnostic → Diagnostic}
    (hcolumn : ∀ c level, column (c, ⟨c.finding .offset content file, level⟩,
      ⟨c.finding .search content file, level⟩) = ⟨c.finding resolution content file, level⟩) :
    (auditFile (s.withLineResolution resolution) content file).diagnostics =
      (reportRows s content file).map column := by
  rw [auditFile_diagnostics, reportRows, List.map_filterMap]
  refine List.filterMap_congr fun c _ => ?_
  rw [Option.map_map]
  refine (s.grade_finding c resolution content file).trans ?_
  exact Option.map_congr fun level _ => (hcolumn c level).symm

/-- Under two settings that differ in nothing but the way in which lines are found, a file gets as
    many diagnostics, position by position for the same complaint, and each complaint that applies
    and whose rule is not off has its position. -/
theorem auditFile_refines (s : Settings) (content file : Text) :
    ∃ rows : List (Complaint × Diagnostic × Diagnostic),
      (auditFile (s.withLineResolution .offset) content file).diagnostics =
        rows.map (fun row => row.2.1) ∧
      (auditFile (s.withLineResolution .search) content file).diagnostics =
        rows.map (fun row => row.2.2) ∧
      (∀ c, c ∈ rows.map Prod.fst ↔ c.Holds content ∧ s.severity c.rule ≠ .off) ∧
      ∀ row ∈ rows, row.1.Refines s content file row.2.1 row.2.2 := by
  refine ⟨reportRows s content file, auditFile_diagnostics_eq_map fun _ _ => rfl,
    auditFile_diagnostics_eq_map fun _ _ => rfl, fun c => mem_map_fst_reportRows_iff,
    fun row hrow => ?_⟩
  obtain ⟨c, level, hholds, hlevel, rfl⟩ := mem_reportRows_iff.mp hrow
  exact Complaint.refines_finding hholds file hlevel

end PostureAudit
