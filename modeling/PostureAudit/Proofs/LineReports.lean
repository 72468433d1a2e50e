import PostureAudit.Report
import PostureAudit.Audit.Tree
import PostureAudit.FileSystem.Edit
import PostureAudit.Proofs.Audit
import PostureAudit.Proofs.Decoding
import PostureAudit.Proofs.File
import PostureAudit.Proofs.Walk

set_option autoImplicit false

/-! # One line for each diagnostic

The plain, the compact and the quickfix report are read line by line, so a line feed in a message
would make up a diagnostic. No file can put one there: of its text a message quotes nothing but
values of assignments, and no value runs over a line end. Everything else in a message is fixed
text, digits, an error of the operating system, or the path of an entry below the root. Hence, if
the names of these entries have no line feed, what is found has none (`keepsLine_findings`), and
each report has one line for each diagnostic, in the form that the format documents
(`report_lineForEach`). -/

namespace PostureAudit

/-! ## Paths -/

/-- The byte of a line feed. -/
def Path.lineFeed : UInt8 := 0x0A

theorem Path.lineFeed_notMem_text {p : Path} (h : lineFeed ∉ p) : '\n' ∉ p.text := by
  have hascii : Utf8.isAscii '\n' = true := by decide
  intro hmem
  obtain ⟨b, hb, hbyte⟩ := (Utf8.mem_decodeLossy_iff hascii).mp hmem
  have hfeed : b = lineFeed := UInt8.toNat_inj.mp hbyte
  exact h (hfeed ▸ hb)

theorem Path.lineFeed_notMem_join {directory : Path} {name : Bytes}
    (hdirectory : lineFeed ∉ directory) (hname : lineFeed ∉ name) :
    lineFeed ∉ directory.join name := by
  have hslash : lineFeed ≠ slash := by decide
  unfold join
  split <;> simp [hdirectory, hname, hslash]

theorem Entries.Lists.lineFeed_notMem {path p : Path} {entries : Entries} {name : Bytes}
    {node : FileNode} (h : Lists path entries p name node) (hpath : Path.lineFeed ∉ path)
    (hnames : ∀ p name node, Lists path entries p name node → Path.lineFeed ∉ name) :
    Path.lineFeed ∉ p := by
  induction h with
  | here hmem => exact Path.lineFeed_notMem_join hpath (hnames _ _ _ (.here hmem))
  | deeper hmem _ ih =>
    refine ih (Path.lineFeed_notMem_join hpath (hnames _ _ _ (.here hmem))) ?_
    exact fun p name node hlists => hnames p name node (.deeper hmem hlists)

namespace FileSystem

/-- The node is below the root, with its path and its own name. -/
def Below (fs : FileSystem) (root p : Path) (name : Bytes) (node : FileNode) : Prop :=
  ∃ trail entries, fs.resolve .entry root = .ok (.found trail (.dir entries)) ∧
    Entries.Lists root entries p name node

/-- Neither the root nor the name of an entry below it has a line feed. -/
structure NamesKeepLine (fs : FileSystem) (root : Path) : Prop where
  names : ∀ p name node, fs.Below root p name node → Path.lineFeed ∉ name
  root : Path.lineFeed ∉ root

theorem NamesKeepLine.path {fs : FileSystem} {root : Path} (h : fs.NamesKeepLine root) {p : Path}
    {name : Bytes} {node : FileNode} (hbelow : fs.Below root p name node) :
    Path.lineFeed ∉ p := by
  obtain ⟨trail, entries, hroot, hlists⟩ := hbelow
  refine hlists.lineFeed_notMem h.root fun p name node hlists => ?_
  exact h.names p name node ⟨trail, entries, hroot, hlists⟩

/-- A walk delivers events of entries below the root. -/
theorem exists_below_of_mem_walk {fs : FileSystem} {selects : Text → Bool} {root : Path}
    {e : WalkEvent} (he : e ∈ (fs.walk selects root).events) :
    ∃ name node, fs.Below root e.path name node := by
  obtain ⟨trail, entries, hroot, p, name, node, hlists, -, -, he⟩ := selects_of_mem_walk he
  have hpath : e.path = p := by
    rw [he]
    cases fs.readFile p <;> rfl
  exact ⟨name, node, trail, entries, hroot, hpath ▸ hlists⟩

/-- A walk fails at the root or at a directory below it. -/
theorem exists_below_of_failure {fs : FileSystem} {selects : Text → Bool} {root : Path}
    {f : WalkFailure} (hf : (fs.walk selects root).failure = some f) :
    f = .notADirectory root ∨ ∃ p cause, f = .traversal p cause ∧
      (p = root ∨ ∃ name node, fs.Below root p name node) := by
  unfold walk at hf
  split at hf
  case h_1 cause hroot =>
    cases hf
    exact Or.inr ⟨root, cause, rfl, Or.inl rfl⟩
  case h_2 =>
    cases hf
    exact Or.inr ⟨root, .notFound, rfl, Or.inl rfl⟩
  case h_3 trail entries hroot =>
    obtain ⟨p, cause, rfl, -, hp⟩ := Entries.exists_lists_of_failure hf
    refine Or.inr ⟨p, cause, rfl, hp.imp_right ?_⟩
    rintro ⟨name, inner, hlists⟩
    exact ⟨name, _, trail, entries, hroot, hlists⟩
  case h_4 =>
    cases hf
    exact Or.inl rfl
  case h_5 =>
    -- a link at the root
    split at hf
    case h_1 cause hroot =>
      cases hf
      exact Or.inr ⟨root, cause, rfl, Or.inl rfl⟩
    case h_2 =>
      cases hf
      exact Or.inr ⟨root, .notFound, rfl, Or.inl rfl⟩
    case h_3 =>
      cases hf
      exact Or.inl rfl

end FileSystem

/-! ## Messages -/

/-- The text has no line feed. -/
def Text.KeepsLine (t : Text) : Prop := '\n' ∉ t

namespace Text.KeepsLine

instance : DecidablePred Text.KeepsLine := fun t => inferInstanceAs (Decidable ('\n' ∉ t))

theorem append {s t : Text} (hs : s.KeepsLine) (ht : t.KeepsLine) : (s ++ t).KeepsLine :=
  List.not_mem_append hs ht

theorem ofNat (n : Nat) : (Text.ofNat n).KeepsLine := by
  intro h
  exact absurd (isDigit_of_mem_ofNat h) (by decide)

end Text.KeepsLine

open Text

/-- A message has no line feed if the path has none and the value that it quotes, if any, has
    none. -/
theorem Fault.keepsLine_message {fault : Fault} {file : Text} (hfile : file.KeepsLine)
    (hvalue : ∀ field value, fault = .invalidValue field value → value.KeepsLine)
    (line : LineNumber) : (fault.message file line).KeepsLine := by
  cases fault with
  | declarationCount found =>
    have hline : (occurrenceText line).KeepsLine := by
      cases line with
      | known n =>
        have hnear : KeepsLine " First occurrence (if any) near line ~".toList := by decide
        exact hnear.append (.ofNat n) |>.append (by decide)
      | unknown => exact List.not_mem_nil
    have hlead : KeepsLine "Error: File ".toList := by decide
    exact hlead.append hfile |>.append (by decide) |>.append (by decide) |>.append (by decide)
      |>.append (.ofNat found) |>.append (by decide) |>.append hline
  | missingPostureId =>
    have hlead : KeepsLine ("Error: '".toList ++ Declaration.resourceType) := by decide
    exact hlead.append (by decide) |>.append hfile |>.append (by decide)
  | invalidValue field value =>
    have hline : (placeText line).KeepsLine := by
      cases line with
      | known n =>
        have hat : KeepsLine " at line ~".toList := by decide
        exact hat.append (.ofNat n)
      | unknown => exact List.not_mem_nil
    have hname : field.name.KeepsLine := by cases field <;> decide
    have hpattern : field.formatPattern.KeepsLine := by cases field <;> decide
    have hlead : KeepsLine "Error: Invalid '".toList := by decide
    exact hlead.append hname |>.append (by decide) |>.append (hvalue field value rfl)
      |>.append (by decide) |>.append hfile |>.append hline |>.append (by decide)
      |>.append hpattern |>.append (by decide)

/-! ## Findings -/

/-- Nothing that is said about a finding has a line feed. -/
structure Finding.KeepsLine (f : Finding) : Prop where
  file : f.file.KeepsLine
  message : f.message.KeepsLine

/-- Whatever a file holds, it puts no line feed into what is found in it. -/
theorem keepsLine_fileFindings {file : Text} (hfile : file.KeepsLine)
    (resolution : LineResolution) (content : Text) :
    ∀ f ∈ fileFindings resolution content file, f.KeepsLine := by
  intro f hf
  rw [fileFindings, faults_eq_map_complaints, List.map_map] at hf
  obtain ⟨c, hc, rfl⟩ := List.mem_map.mp hf
  refine ⟨hfile, Fault.keepsLine_message hfile (fun field value hfault => ?_) _⟩
  cases c with
  | declarationCount found => cases hfault
  | missingId declaration => cases hfault
  | invalidValue _ site =>
    cases hfault
    obtain ⟨-, hsite, -⟩ := mem_complaints_iff.mp hc
    obtain ⟨-, -, -, -, -, -, -, -, hvalue, -⟩ :=
      ((Assignment.reads _).leftmost_scan content).occurs site hsite
    exact hvalue.lineFeed_notMem

theorem OsError.keepsLine_message (cause : OsError) : cause.message.KeepsLine :=
  cause.message_no_lineFeed

theorem keepsLine_unreadableFinding {path : Path} (hpath : Path.lineFeed ∉ path)
    (cause : OsError) : (unreadableFinding path cause).KeepsLine := by
  have htext : path.text.KeepsLine := Path.lineFeed_notMem_text hpath
  have hlead : KeepsLine "Error: Could not read Terraform file: ".toList := by decide
  exact ⟨htext, hlead.append htext |>.append (by decide) |>.append cause.keepsLine_message⟩

theorem keepsLine_walkFinding {root : Path} (hroot : Path.lineFeed ∉ root) {f : WalkFailure}
    (hf : f = .notADirectory root ∨ ∃ p cause, f = .traversal p cause ∧ Path.lineFeed ∉ p) :
    (walkFinding root f).KeepsLine := by
  have hmessage : f.message.KeepsLine := by
    rcases hf with rfl | ⟨p, cause, rfl, hp⟩
    · have htext : root.text.KeepsLine := Path.lineFeed_notMem_text hroot
      exact htext.append (by decide)
    · have hlead : KeepsLine "IO error for operation on ".toList := by decide
      exact hlead.append (Path.lineFeed_notMem_text hp) |>.append (by decide)
        |>.append cause.keepsLine_message
  have hlead : KeepsLine "Error: Could not walk the directory: ".toList := by decide
  exact ⟨Path.lineFeed_notMem_text hroot, hlead.append hmessage⟩

/-- What a walk finds has no line feed if the names that it comes by have none. -/
theorem FileSystem.NamesKeepLine.keepsLine_findings {fs : FileSystem} {root : Path}
    (h : fs.NamesKeepLine root) (selects : Text → Bool) (resolution : LineResolution) :
    ∀ f ∈ (fs.walk selects root).findings resolution root, f.KeepsLine := by
  intro f hf
  rcases List.mem_append.mp hf with hf | hf
  · obtain ⟨e, he, hf⟩ := List.mem_flatMap.mp hf
    obtain ⟨name, node, hbelow⟩ := exists_below_of_mem_walk he
    have hpath := h.path hbelow
    cases e with
    | file path content =>
      exact keepsLine_fileFindings (Path.lineFeed_notMem_text hpath) _ _ f hf
    | unreadable path cause =>
      rw [List.mem_singleton.mp hf]
      exact keepsLine_unreadableFinding hpath cause
  · rw [Option.mem_toList, Option.map_eq_some_iff] at hf
    obtain ⟨failure, hfailure, rfl⟩ := hf
    refine keepsLine_walkFinding h.root ?_
    rcases exists_below_of_failure hfailure with hroot | ⟨p, cause, htraversal, hp⟩
    · exact Or.inl hroot
    · refine Or.inr ⟨p, cause, htraversal, ?_⟩
      rcases hp with rfl | ⟨name, node, hbelow⟩
      · exact h.root
      · exact h.path hbelow

/-! ## Lines -/

namespace Diagnostic

variable {d : Diagnostic}

theorem keepsLine_location (h : d.KeepsLine) : d.location.KeepsLine := by
  unfold location
  cases d.line with
  | known n =>
    have hcolon : KeepsLine [':'] := by decide
    exact h.file.append (hcolon.append (.ofNat n))
  | unknown => exact h.file

theorem keepsLine_compactLine (h : d.KeepsLine) : d.compactLine.KeepsLine := by
  have hcolon : KeepsLine ": ".toList := by decide
  have hlevel : d.level.name.KeepsLine := by cases d.level <;> decide
  have hrule : KeepsLine ('[' :: d.rule.name) := by cases d.rule <;> decide
  have hbracket : KeepsLine "]: ".toList := by decide
  exact (keepsLine_location h).append hcolon |>.append hlevel |>.append hrule
    |>.append hbracket |>.append h.message

theorem keepsLine_quickfixLine (h : d.KeepsLine) : d.quickfixLine.KeepsLine := by
  have hline : KeepsLine (':' :: Text.ofNat (d.line.toOption.getD 1)) :=
    Text.KeepsLine.append (s := [':']) (by decide) (.ofNat _)
  have hcolumn : KeepsLine ":1: ".toList := by decide
  have hkind : KeepsLine (kindLetter d.level :: ": ".toList) := by cases d.level <;> decide
  exact h.file.append hline |>.append hcolumn |>.append hkind |>.append h.message

end Diagnostic

/-! ## The documented forms -/

namespace Diagnostic

/-- The form of a plain line: the message. -/
def IsPlain (d : Diagnostic) (t : Text) : Prop := t = d.message

/-- The form of a compact line: `file:line: level[code]: message`, without `:line` if the line is
    not known. -/
inductive IsCompact (d : Diagnostic) : Text → Prop where
  | located {n : Nat} (h : d.line = .known n) :
    IsCompact d (d.file ++ ":".toList ++ ofNat n ++ ": ".toList ++ d.level.name ++ "[".toList ++
      d.rule.name ++ "]: ".toList ++ d.message)
  | whole (h : d.line = .unknown) :
    IsCompact d (d.file ++ ": ".toList ++ d.level.name ++ "[".toList ++ d.rule.name ++
      "]: ".toList ++ d.message)

/-- The form of a quickfix line: `file:line:1: E|W: message`, with the first line in the place of
    one that is not known. -/
inductive IsQuickfix (d : Diagnostic) : Text → Prop where
  | intro {n : Nat} {letter : Text} (hline : d.line = .known n ∨ d.line = .unknown ∧ n = 1)
    (hletter : d.level = .error ∧ letter = "E".toList ∨ d.level = .warning ∧ letter = "W".toList) :
    IsQuickfix d (d.file ++ ":".toList ++ ofNat n ++ ":1: ".toList ++ letter ++ ": ".toList ++
      d.message)

theorem isCompact_compactLine (d : Diagnostic) : d.IsCompact d.compactLine := by
  unfold compactLine location
  cases hline : d.line with
  | known n => simpa using IsCompact.located hline
  | unknown => simpa using IsCompact.whole hline

theorem isQuickfix_quickfixLine (d : Diagnostic) : d.IsQuickfix d.quickfixLine := by
  have hline : d.line = .known (d.line.toOption.getD 1) ∨
      d.line = .unknown ∧ d.line.toOption.getD 1 = 1 := by
    cases d.line with
    | known n => exact Or.inl rfl
    | unknown => exact Or.inr ⟨rfl, rfl⟩
  have hletter : d.level = .error ∧ [kindLetter d.level] = "E".toList ∨
      d.level = .warning ∧ [kindLetter d.level] = "W".toList := by
    cases d.level with
    | error => exact Or.inl ⟨rfl, rfl⟩
    | warning => exact Or.inr ⟨rfl, rfl⟩
  unfold quickfixLine
  simpa using IsQuickfix.intro hline hletter

end Diagnostic

/-! ## Reports -/

namespace Outcome

theorem splitOn_lineReport {line : Diagnostic → Text} {o : Outcome}
    (h : ∀ d ∈ o.diagnostics, (line d).KeepsLine) :
    (o.lineReport line).splitOn '\n' = o.diagnostics.map line ++ [[]] := by
  unfold lineReport
  generalize o.diagnostics = ds at h
  induction ds with
  | nil => rfl
  | cons d ds ih =>
    rw [List.forall_mem_cons] at h
    rw [List.flatMap_cons, List.append_assoc, List.singleton_append,
      List.splitOn_append_cons_self_of_not_mem h.1, ih h.2]
    rfl

/-- The report has one line for each diagnostic, in order. Each of its lines has the form, and ends
    in the message of its diagnostic. -/
structure LineForEach (o : Outcome) (form : Diagnostic → Text → Prop)
    (line : Diagnostic → Text) (report : Text) : Prop where
  lines : report.splitOn '\n' = o.diagnostics.map line ++ [[]]
  form : ∀ d ∈ o.diagnostics, form d (line d)
  message : ∀ d ∈ o.diagnostics, d.message <:+ line d

theorem lineForEach_lineReport {form : Diagnostic → Text → Prop} {line : Diagnostic → Text}
    {o : Outcome} (hkeeps : ∀ d ∈ o.diagnostics, (line d).KeepsLine)
    (hform : ∀ d, form d (line d)) (hmessage : ∀ d, d.message <:+ line d) :
    o.LineForEach form line (o.lineReport line) :=
  ⟨splitOn_lineReport hkeeps, fun d _ => hform d, fun d _ => hmessage d⟩

end Outcome

/-- If no name has a line feed, the plain, the compact and the quickfix report have one line for
    each diagnostic, in the form of their format, whatever the files hold and whatever the settings
    are. -/
theorem report_lineForEach (s : Settings) (fs : FileSystem) (root : Path)
    (h : fs.NamesKeepLine root) (colouring : Colouring) :
    let o := auditTree s fs root
    o.LineForEach Diagnostic.IsPlain Diagnostic.plainLine (o.report .plain colouring) ∧
      o.LineForEach Diagnostic.IsCompact Diagnostic.compactLine (o.report .compact colouring) ∧
      o.LineForEach Diagnostic.IsQuickfix Diagnostic.quickfixLine
        (o.report .quickfix colouring) := by
  have hkeeps : ∀ d ∈ (auditTree s fs root).diagnostics, d.KeepsLine := by
    intro d hd
    rw [auditTree, Walk.outcome_diagnostics, List.mem_filterMap] at hd
    obtain ⟨f, hf, hgrade⟩ := hd
    rw [Settings.grade, Option.map_eq_some_iff] at hgrade
    obtain ⟨level, -, rfl⟩ := hgrade
    exact h.keepsLine_findings _ _ f hf
  refine ⟨?_, ?_, ?_⟩
  · refine Outcome.lineForEach_lineReport (fun d hd => ?_) (fun _ => rfl) fun _ => List.suffix_rfl
    exact (hkeeps d hd).message
  · refine Outcome.lineForEach_lineReport (fun d hd => ?_) Diagnostic.isCompact_compactLine
      fun _ => List.suffix_append _ _
    exact Diagnostic.keepsLine_compactLine (hkeeps d hd)
  · refine Outcome.lineForEach_lineReport (fun d hd => ?_) Diagnostic.isQuickfix_quickfixLine
      fun _ => List.suffix_append _ _
    exact Diagnostic.keepsLine_quickfixLine (hkeeps d hd)

/-- A file with a line feed in a label and a carriage return in a value, a file whose name is not
    UTF-8, and a link to nothing. -/
def FileSystem.unruly : FileSystem :=
  let declaring := Declaration.text "a\nb".toList [] ++
    Assignment.text .postureId [] [] "c\\\rd".toList
  .ofEntries [] [(Path.ofText "a.tf".toList, .file (Path.ofText declaring)),
    (0xFF :: Path.ofText ".tf".toList, .file []),
    (Path.ofText "c.tf".toList, .link (Path.ofText "gone".toList))]

theorem report_lineForEach_unruly :
    FileSystem.unruly.NamesKeepLine [Path.dot] ∧
      (let o := auditTree .default FileSystem.unruly [Path.dot]
      o.LineForEach Diagnostic.IsPlain Diagnostic.plainLine (o.report .plain .plain) ∧
        o.LineForEach Diagnostic.IsCompact Diagnostic.compactLine (o.report .compact .plain) ∧
        o.LineForEach Diagnostic.IsQuickfix Diagnostic.quickfixLine
          (o.report .quickfix .plain)) ∧
      (auditTree .default FileSystem.unruly [Path.dot]).diagnostics.map Diagnostic.location =
        ["./a.tf:2".toList, "./c.tf".toList, "./\uFFFD.tf:1".toList] := by
  have hkeeps : FileSystem.unruly.NamesKeepLine [Path.dot] := by
    refine ⟨?_, by decide⟩
    rintro p name node ⟨trail, entries, hroot, hlists⟩
    cases hroot
    cases hlists with
    | here hmem =>
      have hnames : ∀ e ∈ FileSystem.unruly.entries, Path.lineFeed ∉ e.1 := by decide +kernel
      exact hnames _ hmem
    | deeper hmem _ =>
      -- none of the entries is a directory
      rcases hmem with _ | ⟨_, _ | ⟨_, _ | ⟨_, ⟨⟩⟩⟩⟩
  refine ⟨hkeeps, report_lineForEach .default _ _ hkeeps .plain, ?_⟩
  decide +kernel

end PostureAudit
