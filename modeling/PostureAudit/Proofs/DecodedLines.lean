import PostureAudit.FileSystem.Edit
import PostureAudit.Proofs.DecodedText
import PostureAudit.Proofs.File
import PostureAudit.Proofs.Tree

set_option autoImplicit false

/-! # Lines of a file that is not text throughout

Declarations and assignments begin with an ASCII character, so each of them has a byte of its file
to it (`Utf8.Marks`). No line feed gets lost or comes up in decoding: there are as many before the
character as before the byte (`Utf8.Marks.lineAtOffset`). So the line that is reported by offset is
the line of the byte, whatever invalid parts the file has in front of it. -/

namespace PostureAudit

namespace Utf8

theorem count_lineFeed (bytes : Bytes) :
    ((bytes.filter (·.toNat < 0x80)).map fun b => Char.ofNat b.toNat).count '\n' =
      bytes.count 0x0A := by
  have hfeed : ∀ b : UInt8, b.toNat < 0x80 → (Char.ofNat b.toNat = '\n' ↔ b = 0x0A) := by
    intro b hb
    have hcode : (Char.ofNat b.toNat).toNat = b.toNat :=
      toNat_ofNat_of_isValidChar (Or.inl (by omega))
    rw [← Char.toNat_inj, hcode, ← UInt8.toNat_inj]
    rfl
  induction bytes with
  | nil => rfl
  | cons b bytes ih =>
    by_cases hb : b.toNat < 0x80
    · simp [hb, List.count_cons, ih, hfeed b hb]
    · have hne : b ≠ 0x0A := by
        rintro rfl
        exact hb (by decide)
      simp [hb, ih, hne]

theorem Marks.lineAtOffset {bytes before : Bytes} {offset : Nat} (h : Marks bytes before offset) :
    Text.lineAtOffset (decodeLossy bytes) offset = .known (before.count 0x0A + 1) := by
  obtain ⟨b, after, front, c, back, hbytes, htext, rfl, -, -, hcount⟩ := h
  have hascii := filter_isAscii_decodeLossy bytes
  rw [htext, hbytes, List.filter_append, List.filter_append, List.map_append] at hascii
  have hlength : (front.filter isAscii).length =
      ((before.filter (·.toNat < 0x80)).map fun b => Char.ofNat b.toNat).length := by
    rw [List.length_map, ← List.countP_eq_length_filter, ← List.countP_eq_length_filter, hcount]
  obtain ⟨hfront, -⟩ := List.append_inj hascii hlength
  have hfeeds : front.count '\n' = (front.filter isAscii).count '\n' :=
    (List.count_filter (by decide)).symm
  rw [htext, Text.lineAtOffset_append, hfeeds, hfront, count_lineFeed]

end Utf8

/-! ## Where a complaint is about a place -/

/-- The place of the text that a complaint is about: the first declaration, the declaration
    without an identifier, or the assignment. -/
def Complaint.site? : Complaint → Option (Site Text)
  | declarationCount found => found.head?
  | missingId declaration => some declaration
  | invalidValue _ site => some site

theorem Complaint.line_offset {c : Complaint} {site : Site Text} (hsite : site ∈ c.site?)
    (content : Text) : c.line .offset content = Text.lineAtOffset content site.offset := by
  cases c with
  | declarationCount found =>
    cases found with
    | nil => cases hsite
    | cons first found =>
      cases hsite
      rfl
  | missingId declaration =>
    cases hsite
    rfl
  | invalidValue field site =>
    cases hsite
    rfl

/-- The texts of a form begin with an ASCII character. -/
def Form.StartsAscii (form : Form Text) : Prop :=
  ∀ text value, form text value → ∃ c t, text = c :: t ∧ Utf8.isAscii c = true

theorem Declaration.startsAscii_form : Form.StartsAscii Declaration.form := by
  rintro _ label ⟨blanks, -, -, rfl⟩
  exact ⟨'r', _, rfl, by decide⟩

theorem Assignment.startsAscii_form (f : Field) : Form.StartsAscii (Assignment.form f) := by
  rintro _ value ⟨before, after, -, -, -, rfl⟩
  cases f with
  | postureId => exact ⟨'p', _, rfl, by decide⟩
  | policySetId => exact ⟨'p', _, rfl, by decide⟩
  | policyId => exact ⟨'p', _, rfl, by decide⟩

theorem Site.Occurs.exists_ascii {form : Form Text} (hform : Form.StartsAscii form)
    {site : Site Text} {t : Text} (h : site.Occurs form 0 t) :
    ∃ front c back, t = front ++ c :: back ∧ Text.utf8Length front = site.offset ∧
      Utf8.isAscii c = true := by
  obtain ⟨front, back, rfl, hoffset, hsite⟩ := h
  obtain ⟨c, text, htext, hc⟩ := hform _ _ hsite
  exact ⟨front, c, text ++ back, by simp [htext], by omega, hc⟩

/-- What a complaint is about begins with an ASCII character of the text. -/
theorem Complaint.Holds.exists_ascii {c : Complaint} {content : Text} (h : c.Holds content)
    {site : Site Text} (hsite : site ∈ c.site?) :
    ∃ front first back, content = front ++ first :: back ∧
      Text.utf8Length front = site.offset ∧ Utf8.isAscii first = true := by
  have hdeclared (hmem : site ∈ declarations content) :=
    (Declaration.reads.leftmost_scan content).occurs site hmem
      |>.exists_ascii Declaration.startsAscii_form
  cases c with
  | declarationCount found =>
    obtain ⟨rfl, -⟩ := h
    exact hdeclared (List.mem_of_mem_head? hsite)
  | missingId declaration =>
    cases hsite
    refine hdeclared ?_
    rw [h.1]
    exact List.mem_singleton_self site
  | invalidValue field site =>
    cases hsite
    obtain ⟨-, hmem, -⟩ := h
    exact ((Assignment.reads field).leftmost_scan content).occurs site hmem
      |>.exists_ascii (Assignment.startsAscii_form field)

/-- The diagnostic reports the complaint about a file that is read as text, with the line of the
    byte that the place of the complaint begins with. -/
structure Complaint.ReportsByte (s : Settings) (content : Bytes) (file : Text) (c : Complaint)
    (d : Diagnostic) : Prop where
  reports : c.Reports s (Utf8.decodeLossy content) file d
  marked : ∀ site ∈ c.site?, ∃ before, Utf8.Marks content before site.offset
  line : ∀ site ∈ c.site?, ∀ before, Utf8.Marks content before site.offset →
    d.line = .known (before.count 0x0A + 1)

theorem Complaint.Reports.reportsByte {s : Settings} (hs : s.lineResolution = .offset)
    {content : Bytes} {file : Text} {c : Complaint} {d : Diagnostic}
    (h : c.Reports s (Utf8.decodeLossy content) file d)
    (hholds : c.Holds (Utf8.decodeLossy content)) : c.ReportsByte s content file d where
  reports := h
  marked := by
    intro site hsite
    obtain ⟨front, first, back, htext, hoffset, hfirst⟩ := hholds.exists_ascii hsite
    rw [← hoffset]
    exact Utf8.exists_marks hfirst htext
  line := by
    intro site hsite before hmarks
    rw [h.line, hs, c.line_offset hsite, hmarks.lineAtOffset]

/-! ## The lines of a tree -/

theorem mem_diagnostics_auditFile_iff {s : Settings} {content file : Text} {d : Diagnostic} :
    d ∈ (auditFile s content file).diagnostics ↔
      ∃ c : Complaint, c.Holds content ∧ s.grade (c.finding s.lineResolution content file) = d := by
  simp only [auditFile_diagnostics, List.mem_filterMap, mem_complaints_iff]

theorem Settings.rule_of_mem_reported {s : Settings} {f : Finding} {d : Diagnostic}
    (h : d ∈ s.reported f) : d.rule = f.rule := by
  unfold reported at h
  split at h
  next => rw [List.mem_singleton.mp h]
  next => rw [List.mem_singleton.mp h]
  next => cases h

/-- What is reported of a tree is a complaint about a file of it, or says that a file could not be
    read, or that the walk could not go on. -/
theorem exists_complaint_of_mem_auditTree {s : Settings} {fs : FileSystem} {root : Path}
    {d : Diagnostic} (h : d ∈ (auditTree s fs root).diagnostics) :
    d.rule = .unreadableFile ∨ d.rule = .walkFailure ∨
      ∃ path content c, .file path content ∈ (fs.walk s.selects root).events ∧
        Complaint.Holds (Utf8.decodeLossy content) c ∧
        c.Reports s (Utf8.decodeLossy content) path.text d := by
  rw [auditTree, Walk.outcome_eq, List.mem_append, List.mem_flatMap] at h
  rcases h with ⟨e, he, hd⟩ | hd
  · cases e with
    | file path content =>
      obtain ⟨c, hholds, hgrade⟩ := mem_diagnostics_auditFile_iff.mp hd
      exact Or.inr (Or.inr ⟨path, content, c, he, hholds, Complaint.reports_of_grade hgrade⟩)
    | unreadable path cause => exact Or.inl (Settings.rule_of_mem_reported hd)
  · cases hfailure : (fs.walk s.selects root).failure with
    | none =>
      rw [hfailure] at hd
      cases hd
    | some failure =>
      rw [hfailure] at hd
      exact Or.inr (Or.inl (Settings.rule_of_mem_reported hd))

/-- A file that is delivered has a run of diagnostics of its own, one for each complaint about its
    text whose rule is not off. -/
theorem exists_reportsByte_of_mem_walk {s : Settings} (hs : s.lineResolution = .offset)
    {fs : FileSystem} {root path : Path} {content : Bytes}
    (h : .file path content ∈ (fs.walk s.selects root).events) :
    ∃ made ds, ds <:+: (auditTree s fs root).diagnostics ∧
      (∀ c : Complaint, c ∈ made ↔
        c.Holds (Utf8.decodeLossy content) ∧ s.severity c.rule ≠ .off) ∧
      made.Pairwise Complaint.Before ∧
      List.Forall₂ (Complaint.ReportsByte s content path.text) made ds := by
  let text := Utf8.decodeLossy content
  let made := (complaints text).filter fun c => s.severity c.rule ≠ .off
  have hmade : ∀ c, c ∈ made ↔ c.Holds text ∧ s.severity c.rule ≠ .off := fun c => by
    simp [made, mem_complaints_iff]
  have hreports : List.Forall₂ (Complaint.Reports s text path.text) made
      ((WalkEvent.file path content).diagnostics s) := by
    rw [WalkEvent.diagnostics, auditFile_diagnostics]
    exact forall₂_reports s text path.text _
  refine ⟨made, _, WalkEvent.diagnostics_infix_auditTree h, hmade,
    (pairwise_complaints text).filter _, ?_⟩
  have hholds : ∀ c ∈ made, c.Holds text := fun c hc => ((hmade c).mp hc).1
  refine ((List.forall₂_and_left _ _).mpr ⟨hholds, hreports⟩).imp ?_
  rintro c d ⟨hc, hd⟩
  exact hd.reportsByte hs hc

/-- Decoding keeps ASCII, text that is valid, and lines: the ASCII characters are the ASCII bytes
    in order, a valid file is read as it is, and so is valid text between other bytes. What is
    reported of a declaration or an assignment by offset then has the line of the byte that it
    begins with, which is one more than the line feeds before that byte. This holds of all that is
    reported of the files of a tree, and for each file that is delivered all there is to say of its
    declarations and assignments is reported, one diagnostic each and in order, unless the rule is
    off. -/
theorem decodeLossy_keeps_lines :
    (∀ bytes, (Utf8.decodeLossy bytes).filter Utf8.isAscii =
      (bytes.filter (·.toNat < 0x80)).map fun b => Char.ofNat b.toNat) ∧
    (∀ t, Utf8.decodeLossy (Utf8.encode t) = t) ∧
    (∀ before t after, t ≠ [] →
      Utf8.decodeLossy (before ++ Utf8.encode t ++ after) =
        Utf8.decodeLossy before ++ t ++ Utf8.decodeLossy after) ∧
    ∀ (s : Settings) (fs : FileSystem) (root : Path), s.lineResolution = .offset →
      (∀ d ∈ (auditTree s fs root).diagnostics,
        d.rule = .unreadableFile ∨ d.rule = .walkFailure ∨
        ∃ path content c, .file path content ∈ (fs.walk s.selects root).events ∧
          Complaint.Holds (Utf8.decodeLossy content) c ∧
          c.ReportsByte s content path.text d) ∧
      ∀ path content, .file path content ∈ (fs.walk s.selects root).events →
        ∃ made ds, ds <:+: (auditTree s fs root).diagnostics ∧
          (∀ c : Complaint, c ∈ made ↔
            c.Holds (Utf8.decodeLossy content) ∧ s.severity c.rule ≠ .off) ∧
          made.Pairwise Complaint.Before ∧
          List.Forall₂ (Complaint.ReportsByte s content path.text) made ds := by
  refine ⟨Utf8.filter_isAscii_decodeLossy, Utf8.decodeLossy_encode, ?kept, ?lines⟩
  case kept =>
    intro before t after ht
    exact Utf8.decodeLossy_append_encode ht before after
  case lines =>
    intro s fs root hs
    refine ⟨fun d hd => ?_, fun path content => exists_reportsByte_of_mem_walk hs⟩
    rcases exists_complaint_of_mem_auditTree hd with
      hrule | hrule | ⟨path, content, c, hevent, hholds, hreports⟩
    · exact Or.inl hrule
    · exact Or.inr (Or.inl hrule)
    · exact Or.inr (Or.inr ⟨path, content, c, hevent, hholds, hreports.reportsByte hs hholds⟩)

/-- A posture behind two invalid parts, the first of which a line feed breaks off, and a value that
    breaks its format twice, with an invalid byte between the two. -/
def brokenFile : Bytes :=
  [0xE2, 0x82, 0x0A, 0xFF, 0x0A] ++ Utf8.encode (Declaration.text ['m'] []) ++ [0x0A] ++
    Utf8.encode (Assignment.text .policyId [' '] [' '] ['-']) ++ [0xC3, 0x0A] ++
    Utf8.encode (Assignment.text .policyId [' '] [' '] ['-'])

def brokenTree : FileSystem := .ofEntries [] [(Path.ofText "a.tf".toList, .file brokenFile)]

/-- The second of the two equal values is reported with its own line, which is that of its byte. -/
theorem decodeLossy_keeps_lines_brokenTree :
    ∃ site ∈ (assignments .policyId (Utf8.decodeLossy brokenFile))[1]?,
      Utf8.Marks brokenFile (brokenFile.take 69) site.offset ∧
      (brokenFile.take 69).count 0x0A = 4 ∧
      ∃ d ∈ (auditTree .default brokenTree [Path.dot]).diagnostics,
        d.rule = .invalidPolicyId ∧ d.line = .known 5 := by
  let text := Utf8.decodeLossy brokenFile
  let site : Site Text := ⟨74, Assignment.text .policyId [' '] [' '] ['-'], ['-']⟩
  have hsite : (assignments .policyId text)[1]? = some site := by decide +kernel
  have hmarks : Utf8.Marks brokenFile (brokenFile.take 69) site.offset :=
    ⟨0x70, brokenFile.drop 70, text.take 68, 'p', text.drop 69, by decide +kernel,
      by decide +kernel, by decide +kernel, by decide, by decide, by decide +kernel⟩
  refine ⟨site, hsite, hmarks, by decide +kernel, ?_⟩
  have hevent : .file (Path.ofText "./a.tf".toList) brokenFile ∈
      (brokenTree.walk Settings.default.selects [Path.dot]).events := by
    decide +kernel
  have hholds : (Complaint.invalidValue .policyId site).Holds text := by
    refine ⟨by decide +kernel, List.mem_of_getElem? hsite, ?_⟩
    rw [← Field.accepts_iff_isIdentifier]
    decide +kernel
  obtain ⟨made, ds, hds, hmade, -, hreports⟩ :=
    (decodeLossy_keeps_lines.2.2.2 .default brokenTree [Path.dot] rfl).2 _ _ hevent
  obtain ⟨d, hd, hreport⟩ := exists_mem_of_forall₂ hreports
    ((hmade _).mpr ⟨hholds, by decide⟩)
  refine ⟨d, hds.subset hd, hreport.reports.rule, ?_⟩
  rw [hreport.line site rfl _ hmarks]
  decide +kernel

end PostureAudit
