import PostureAudit.Audit.File
import PostureAudit.Proofs.Assignment
import PostureAudit.Proofs.Declaration
import PostureAudit.Proofs.Lines

set_option autoImplicit false

/-! # Line ends

`Text.crlf` puts a carriage return in front of every line feed. A file that has no carriage
returns otherwise is found to have the same faults either way (`auditFile_crlf`): both recognisers
read what they read before, with the same change, because the two characters are blanks alike, a
label may hold both and a value may hold none (`CommutesWithCrlf`); hence a scan finds the same
sites, moved by one byte for each line feed before them (`scan_crlf`), and both ways of finding
lines come to the same line. -/

namespace PostureAudit

/-- The text with a carriage return in front of every line feed. -/
def Text.crlf : Text → Text
  | [] => []
  | c :: t => if c = '\n' then '\r' :: '\n' :: crlf t else c :: crlf t

namespace Text

@[simp] theorem crlf_nil : crlf [] = [] := rfl

@[simp] theorem crlf_lineFeed (t : Text) : crlf ('\n' :: t) = '\r' :: '\n' :: crlf t := rfl

theorem crlf_cons {c : Char} (hc : c ≠ '\n') (t : Text) : crlf (c :: t) = c :: crlf t := by
  rw [crlf, if_neg hc]

@[simp] theorem crlf_append (s t : Text) : crlf (s ++ t) = crlf s ++ crlf t := by
  induction s with
  | nil => rfl
  | cons c s ih =>
    by_cases hc : c = '\n'
    · subst hc
      simp [ih]
    · simp [crlf_cons hc, ih]

theorem crlf_of_lineFeed_notMem {t : Text} (ht : '\n' ∉ t) : crlf t = t := by
  induction t with
  | nil => rfl
  | cons c t ih =>
    obtain ⟨hc, ht⟩ := List.ne_and_not_mem_of_not_mem_cons ht
    rw [crlf_cons hc.symm, ih ht]

/-- A text grows by one byte for each line feed. -/
theorem utf8Length_crlf (t : Text) : utf8Length (crlf t) = utf8Length t + t.count '\n' := by
  induction t with
  | nil => rfl
  | cons c t ih =>
    by_cases hc : c = '\n'
    · subst hc
      have hreturn : '\r'.utf8Size = 1 := by decide
      simp only [crlf_lineFeed, utf8Length_cons, List.count_cons_self, ih, hreturn]
      omega
    · rw [crlf_cons hc, utf8Length_cons, utf8Length_cons, List.count_cons_of_ne hc, ih,
        Nat.add_assoc]

@[simp] theorem count_crlf (t : Text) : (crlf t).count '\n' = t.count '\n' := by
  induction t with
  | nil => rfl
  | cons c t ih =>
    by_cases hc : c = '\n'
    · subst hc
      simp [ih]
    · rw [crlf_cons hc, List.count_cons_of_ne hc, List.count_cons_of_ne hc, ih]

theorem takeWhile_crlf {accepts : Char → Bool} (h : accepts '\r' = accepts '\n') (t : Text) :
    (crlf t).takeWhile accepts = crlf (t.takeWhile accepts) := by
  induction t with
  | nil => rfl
  | cons c t ih =>
    by_cases hc : c = '\n'
    · subst hc
      cases ha : accepts '\n' <;> simp [ha, h, ih]
    · cases ha : accepts c <;> simp [crlf_cons hc, ha, ih]

theorem dropWhile_crlf {accepts : Char → Bool} (h : accepts '\r' = accepts '\n') (t : Text) :
    (crlf t).dropWhile accepts = crlf (t.dropWhile accepts) := by
  induction t with
  | nil => rfl
  | cons c t ih =>
    by_cases hc : c = '\n'
    · subst hc
      cases ha : accepts '\n' <;> simp [ha, h, ih]
    · cases ha : accepts c <;> simp [crlf_cons hc, ha, ih]

theorem after?_crlf {lead : Text} (hreturn : '\r' ∉ lead) (hfeed : '\n' ∉ lead) (t : Text) :
    after? lead (crlf t) = (after? lead t).map crlf := by
  induction lead generalizing t with
  | nil => rfl
  | cons d lead ih =>
    obtain ⟨hreturn, hreturns⟩ := List.ne_and_not_mem_of_not_mem_cons hreturn
    obtain ⟨hfeed, hfeeds⟩ := List.ne_and_not_mem_of_not_mem_cons hfeed
    cases t with
    | nil => rfl
    | cons c t =>
      by_cases hc : c = '\n'
      · subst hc
        simp [after?, hreturn.symm, hfeed.symm]
      · rw [crlf_cons hc, after?, after?]
        split
        · exact ih hreturns hfeeds t
        · rfl

/-- A reader that goes on behind a lead commutes with carriage returns if what it goes on with
    does. -/
theorem after?_bind_crlf {α : Type} {lead : Text} (hreturn : '\r' ∉ lead) (hfeed : '\n' ∉ lead)
    {next next' : Text → Option α} {f : α → α} (hnext : ∀ t, next' (crlf t) = (next t).map f)
    (t : Text) : (after? lead (crlf t)).bind next' = ((after? lead t).bind next).map f := by
  rw [after?_crlf hreturn hfeed]
  cases after? lead t with
  | none => rfl
  | some rest => exact hnext rest

theorem lines_crlf {t : Text} (ht : '\r' ∉ t) : lines (crlf t) = lines t := by
  induction t with
  | nil => rfl
  | cons c t ih =>
    obtain ⟨hreturn, hrest⟩ := List.ne_and_not_mem_of_not_mem_cons ht
    by_cases hc : c = '\n'
    · subst hc
      rw [crlf_lineFeed, lines, lines, ih hrest]
    · have hend (t : Text) : c = '\r' → t.head? ≠ some '\n' := fun h => absurd h.symm hreturn
      rw [crlf_cons hc, lines_cons_of_not_end hc (hend _), lines_cons_of_not_end hc (hend _),
        ih hrest]

theorem findPattern_crlf (written : Text) {t : Text} (ht : '\r' ∉ t) :
    findPattern written (crlf t) = findPattern written t := by
  unfold findPattern findLine
  rw [lines_crlf ht]

end Text

/-! ## Sites -/

/-- The recogniser reads from a text with carriage returns what it reads from the text without, up
    to the carriage returns in it. -/
def CommutesWithCrlf (read : Recogniser Text) : Prop :=
  ∀ t, read (Text.crlf t) = (read t).map (Prod.map Text.crlf Text.crlf)

/-- Where a site of a text is when the text gets its carriage returns. -/
def Site.crlf (t : Text) (s : Site Text) : Site Text :=
  ⟨s.offset + Text.lineFeedsBefore t s.offset, Text.crlf s.text, Text.crlf s.value⟩

theorem Site.crlf_append (front back text value : Text) :
    Site.crlf (front ++ back) ⟨Text.utf8Length front, text, value⟩ =
      ⟨Text.utf8Length (Text.crlf front), Text.crlf text, Text.crlf value⟩ := by
  rw [Site.crlf, Text.lineFeedsBefore_append, Text.utf8Length_crlf]

/-- A run over a text and one over the text with carriage returns go in step. A line feed takes
    two steps of the latter, and a recogniser that begins with a line feed could tell them apart.
-/
theorem Scans.crlf {read : Recogniser Text} (hread : CommutesWithCrlf read)
    (hfeed : ∀ t, read ('\n' :: t) = none) {start : Nat} {t : Text} {sites : List (Site Text)}
    (run : Scans read start t sites) (front : Text) (hstart : Text.utf8Length front = start) :
    Scans read (Text.utf8Length (Text.crlf front)) (Text.crlf t)
      (sites.map (Site.crlf (front ++ t))) := by
  induction run generalizing front with
  | done start => exact .done _
  | @miss start c t sites hnone _ ih =>
    have hstep := ih (front ++ [c]) (by simp [Text.utf8Length_append, hstart])
    rw [List.append_assoc, List.singleton_append, Text.crlf_append, Text.utf8Length_append]
      at hstep
    have hnone' : read (Text.crlf (c :: t)) = none := by rw [hread, hnone, Option.map_none]
    by_cases hc : c = '\n'
    · subst hc
      -- nothing is read at the carriage return, and never at a line feed
      rw [Text.crlf_lineFeed] at hnone' ⊢
      refine .miss hnone' (.miss (hfeed _) ?_)
      simpa [Nat.add_assoc] using hstep
    · rw [Text.crlf_cons hc] at hnone' ⊢
      refine .miss hnone' ?_
      simpa [Text.crlf_cons hc] using hstep
  | @hit start text t value sites hsome hne _ ih =>
    have hstep := ih (front ++ text) (by rw [Text.utf8Length_append, hstart])
    rw [List.append_assoc, Text.crlf_append, Text.utf8Length_append] at hstep
    have hsome' : read (Text.crlf text ++ Text.crlf t) =
        some (Text.crlf value, Text.crlf text) := by
      rw [← Text.crlf_append, hread, hsome, Option.map_some, Prod.map_apply]
    have hne' : Text.crlf text ≠ [] := by
      cases text with
      | nil => exact absurd rfl hne
      | cons c text =>
        rw [Text.crlf]
        split <;> simp
    subst hstart
    rw [List.map_cons, Site.crlf_append, Text.crlf_append]
    exact .hit hsome' hne' hstep

/-- A text with carriage returns has the same sites, moved. -/
theorem scan_crlf {read : Recogniser Text} {form : Form Text} (hreads : Reads read form)
    (hread : CommutesWithCrlf read) (hfeed : ∀ t, read ('\n' :: t) = none) (t : Text) :
    scan read (Text.crlf t) = (scan read t).map (Site.crlf t) :=
  ((hreads.scans 0 t).crlf hread hfeed [] rfl).eq

/-! ## Assignments and declarations -/

namespace Assignment

/-- No value runs over a line end of either kind, so carriage returns change none. -/
theorem readValue_crlf (t : Text) : readValue (Text.crlf t) = readValue t := by
  fun_induction readValue t with
  | case1 => rfl
  | case2 t => rfl
  | case3 t => rfl
  | case4 c t hc ih =>
    rw [Text.crlf_cons (by decide), Text.crlf_cons hc, readValue, if_neg hc, ih]
  | case5 c t hquote hescape hstop =>
    by_cases hfeed : c = '\n'
    · subst hfeed
      rfl
    · rw [Text.crlf_cons hfeed]
      by_cases hbackslash : c = '\\'
      · cases t with
        | nil => simp [hbackslash, readValue]
        | cons d t => exact (hescape d t hbackslash rfl).elim
      · simp only [hbackslash, hfeed, decide_false, Bool.false_or, Bool.or_false,
          decide_eq_true_eq] at hstop
        rw [readValue_cons hquote hbackslash, if_pos (Or.inl hstop)]
  | case6 c t hquote hescape hplain ih =>
    simp only [Bool.or_eq_true, decide_eq_true_eq, not_or] at hplain
    obtain ⟨⟨hbackslash, hreturn⟩, hfeed⟩ := hplain
    rw [Text.crlf_cons hfeed, readValue_cons hquote hbackslash, ih, if_neg (by simp [*])]

theorem crlf_of_readValue {t v : Text} (h : readValue t = some v) : Text.crlf v = v := by
  obtain ⟨-, -, hvalue⟩ := exists_of_readValue h
  exact Text.crlf_of_lineFeed_notMem hvalue.lineFeed_notMem

theorem lineEnd_notMem_name (f : Field) : '\r' ∉ f.name ∧ '\n' ∉ f.name := by
  cases f <;> decide

theorem crlf_text (f : Field) (before after value : Text) :
    Text.crlf (text f before after value) =
      text f (Text.crlf before) (Text.crlf after) (Text.crlf value) := by
  have hname : Text.crlf f.name = f.name :=
    Text.crlf_of_lineFeed_notMem (lineEnd_notMem_name f).2
  simp [text, hname, Text.crlf_cons]

theorem read_crlf (f : Field) : CommutesWithCrlf (read f) := by
  intro t
  have hblank : isBlank '\r' = isBlank '\n' := by decide
  obtain ⟨hreturn, hfeed⟩ := lineEnd_notMem_name f
  simp only [read, Option.bind_eq_bind, Option.pure_def]
  refine Text.after?_bind_crlf hreturn hfeed (fun t₁ => ?_) t
  rw [Text.dropWhile_crlf hblank, Text.takeWhile_crlf hblank]
  refine Text.after?_bind_crlf (by decide) (by decide) (fun t₂ => ?_) _
  rw [Text.dropWhile_crlf hblank, Text.takeWhile_crlf hblank]
  refine Text.after?_bind_crlf (by decide) (by decide) (fun t₃ => ?_) _
  rw [readValue_crlf]
  cases hvalue : readValue t₃ with
  | none => rfl
  | some value => simp [Prod.map, crlf_text, crlf_of_readValue hvalue]

end Assignment

namespace Declaration

theorem lineEnd_notMem_lead : '\r' ∉ lead ∧ '\n' ∉ lead := by decide

theorem crlf_text (label blanks : Text) :
    Text.crlf (text label blanks) = text (Text.crlf label) (Text.crlf blanks) := by
  have hlead : Text.crlf lead = lead :=
    Text.crlf_of_lineFeed_notMem lineEnd_notMem_lead.2
  simp [text_eq, hlead, Text.crlf_cons]

theorem read_crlf : CommutesWithCrlf read := by
  intro t
  have hblank : isBlank '\r' = isBlank '\n' := by decide
  have hlabel : ('\r' != '"') = ('\n' != '"') := by decide
  obtain ⟨hreturn, hfeed⟩ := lineEnd_notMem_lead
  simp only [read, Option.bind_eq_bind, Option.pure_def]
  refine Text.after?_bind_crlf hreturn hfeed (fun t₁ => ?_) t
  rw [Text.dropWhile_crlf hlabel, Text.takeWhile_crlf hlabel]
  refine Text.after?_bind_crlf (by decide) (by decide) (fun t₂ => ?_) _
  rw [Text.dropWhile_crlf hblank, Text.takeWhile_crlf hblank]
  refine Text.after?_bind_crlf (by decide) (by decide) (fun t₃ => ?_) _
  simp [Prod.map, crlf_text]

end Declaration

theorem assignments_crlf (f : Field) (t : Text) :
    assignments f (Text.crlf t) = (assignments f t).map (Site.crlf t) :=
  scan_crlf (Assignment.reads f) (Assignment.read_crlf f) (fun _ => by cases f <;> rfl) t

theorem declarations_crlf (t : Text) :
    declarations (Text.crlf t) = (declarations t).map (Site.crlf t) :=
  scan_crlf Declaration.reads Declaration.read_crlf (fun _ => rfl) t

/-! ## Faults -/

theorem lineAtOffset_crlf {form : Form Text} {t : Text} {s : Site Text}
    (hs : s.Occurs form 0 t) :
    Text.lineAtOffset (Text.crlf t) (s.crlf t).offset = Text.lineAtOffset t s.offset := by
  obtain ⟨front, back, rfl, hoffset, -⟩ := hs
  rw [Nat.zero_add] at hoffset
  rw [Site.crlf, ← hoffset, List.append_assoc, Text.lineFeedsBefore_append,
    ← Text.utf8Length_crlf, Text.crlf_append, Text.lineAtOffset_append, Text.lineAtOffset_append,
    Text.count_crlf]

/-- The text through the start of a header gets its carriage returns like any other. -/
theorem through_crlf {t : Text} {s : Site Text} (hs : s.Occurs Declaration.form 0 t) :
    Text.through (s.crlf t).offset (Text.crlf t) = Text.crlf (Text.through s.offset t) := by
  obtain ⟨front, back, rfl, hoffset, blanks, -, -, htext⟩ := hs
  obtain ⟨rest, hrest⟩ : ∃ rest, s.text = 'r' :: rest :=
    ⟨(s.text).tail, by rw [htext]; rfl⟩
  have hstart (tail : Text) : Text.crlf ('r' :: tail) = 'r' :: Text.crlf tail :=
    Text.crlf_cons (by decide) tail
  rw [Nat.zero_add] at hoffset
  have hmoved : (s.crlf (front ++ s.text ++ back)).offset = Text.utf8Length (Text.crlf front) := by
    rw [Site.crlf, ← hoffset, List.append_assoc, Text.lineFeedsBefore_append,
      ← Text.utf8Length_crlf]
  rw [hmoved, ← hoffset, List.append_assoc, hrest, List.cons_append, Text.crlf_append, hstart,
    Text.through_append, Text.through_append, Text.crlf_append, hstart, Text.crlf_nil]

theorem through_subset (offset : Nat) (t : Text) : Text.through offset t ⊆ t := by
  fun_induction Text.through offset t with
  | case1 => exact List.Subset.refl _
  | case2 c t => simp
  | case3 offset c t ih => exact List.cons_subset_cons c ih

theorem declarationLine_crlf (resolution : LineResolution) {t : Text} (ht : '\r' ∉ t) :
    declarationLine resolution (Text.crlf t) (declarations (Text.crlf t)) =
      declarationLine resolution t (declarations t) := by
  rw [declarations_crlf]
  cases hfound : declarations t with
  | nil => rfl
  | cons first rest =>
    have hfirst : first.Occurs Declaration.form 0 t :=
      mem_declarations_iff.mp (hfound ▸ List.mem_cons_self ..)
    cases resolution with
    | offset => exact lineAtOffset_crlf hfirst
    | search =>
      have hthrough : '\r' ∉ Text.through first.offset t := fun h => ht (through_subset _ _ h)
      rw [List.map_cons, declarationLine, declarationLine, through_crlf hfirst,
        Text.findPattern_crlf _ hthrough, Text.findPattern_crlf _ ht]

theorem value_crlf {f : Field} {t : Text} {s : Site Text} (hs : s ∈ assignments f t) :
    (s.crlf t).value = s.value := by
  obtain ⟨-, -, -, -, -, -, -, -, hvalue, -⟩ :=
    ((Assignment.reads f).leftmost_scan t).occurs s hs
  exact Text.crlf_of_lineFeed_notMem hvalue.lineFeed_notMem

theorem assignmentLine_crlf (resolution : LineResolution) {t : Text} (ht : '\r' ∉ t) {f : Field}
    {s : Site Text} (hs : s ∈ assignments f t) :
    assignmentLine resolution (Text.crlf t) f (s.crlf t) = assignmentLine resolution t f s := by
  cases resolution with
  | offset => exact lineAtOffset_crlf (((Assignment.reads f).leftmost_scan t).occurs s hs)
  | search => rw [assignmentLine, assignmentLine, value_crlf hs, Text.findPattern_crlf _ ht]

theorem invalidValues_crlf (resolution : LineResolution) {t : Text} (ht : '\r' ∉ t) (f : Field) :
    invalidValues resolution (Text.crlf t) f = invalidValues resolution t f := by
  have hfilter :
      (assignments f t).filter ((fun s => !f.accepts s.value) ∘ Site.crlf t) =
        (assignments f t).filter fun s => !f.accepts s.value :=
    List.filter_congr fun s hs => by rw [Function.comp_apply, value_crlf hs]
  unfold invalidValues
  rw [assignments_crlf, List.filter_map, List.map_map, hfilter]
  refine List.map_congr_left fun s hs => ?_
  have hs := List.mem_of_mem_filter hs
  rw [Function.comp_apply, value_crlf hs, assignmentLine_crlf resolution ht hs]

theorem missingId_crlf {t : Text} {declaration : Site Text} (hmem : declaration ∈ declarations t) :
    missingId (Text.crlf t) (declaration.crlf t) = missingId t declaration := by
  unfold missingId
  rw [assignments_crlf, List.isEmpty_map, lineAtOffset_crlf (mem_declarations_iff.mp hmem)]

theorem faults_crlf (resolution : LineResolution) {t : Text} (ht : '\r' ∉ t) :
    faults resolution (Text.crlf t) = faults resolution t := by
  have hline := declarationLine_crlf resolution ht
  unfold faults
  rw [declarations_crlf] at hline ⊢
  cases hfound : declarations t with
  | nil => rfl
  | cons first rest =>
    rw [hfound] at hline
    cases rest with
    | nil =>
      have hmem : first ∈ declarations t := hfound ▸ List.mem_cons_self ..
      simp only [List.map_cons, List.map_nil]
      rw [missingId_crlf hmem, funext (invalidValues_crlf resolution ht)]
    | cons second rest =>
      rw [List.map_cons, List.map_cons] at hline ⊢
      simp only [hline, List.length_cons, List.length_map]

/-- A file has the same outcome with line feeds and with carriage returns in front of them: the
    same diagnostics, in the same order, at the same lines and with the same messages. -/
theorem auditFile_crlf (s : Settings) (t file : Text) (ht : '\r' ∉ t) :
    auditFile s (Text.crlf t) file = auditFile s t file := by
  unfold auditFile Outcome.checkFile fileFindings
  rw [faults_crlf s.lineResolution ht]

/-- A file whose label, assignment and strings meet line ends in every way. -/
def spreadOut : Text :=
  ("resource \"google_securityposture_posture\" \"a\nb\"\n\x7b\n posture_id\n=\n\n\"A\"\n" ++
    " policy_id = \"c\\\n policy_id = \"-\"\n policy_set_id = \"open\n\x7d\n").toList

theorem auditFile_crlf_spreadOut :
    '\r' ∉ spreadOut ∧
      auditFile (.withLineResolution .default .search) (Text.crlf spreadOut) "a.tf".toList =
        auditFile (.withLineResolution .default .search) spreadOut "a.tf".toList ∧
      (auditFile (.withLineResolution .default .search) spreadOut "a.tf".toList).diagnostics.map
        (·.line) = [.unknown, .known 9] :=
  ⟨by decide +kernel, auditFile_crlf _ _ _ (by decide +kernel), by decide +kernel⟩

end PostureAudit
