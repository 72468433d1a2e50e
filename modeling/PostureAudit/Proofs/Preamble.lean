import PostureAudit.Proofs.Audit
import PostureAudit.Proofs.LineEnds
import PostureAudit.Proofs.LineResolution
import PostureAudit.Proofs.Pieces

set_option autoImplicit false

/-! # Text in front of a file

A preamble, such as a comment at the top of a file, holds no quote and no name of a field, and ends
in a line feed. Nothing is read in it, and nothing that begins in it is read together with what
comes after: a name or a lead would have to go on over the line feed. So both scans find what they
find without the preamble, moved by its bytes (`scan_append_of_silent`), no search finds anything
on one of its lines (`findPattern_append`), and every line number grows by its line feeds
(`faults_append`). -/

namespace PostureAudit

/-- The text can stand in front of a file without being taken for a part of it. -/
structure Text.IsPreamble (front : Text) : Prop where
  lineFeed : front.getLast? = some '\n'
  quote : '"' ∉ front
  name : ∀ f : Field, ¬ f.name <:+: front

/-- The line that is some lines further down. -/
def LineNumber.moved (k : Nat) : LineNumber → LineNumber
  | known n => known (n + k)
  | unknown => unknown

theorem LineNumber.orElse_moved (k : Nat) (l l' : LineNumber) :
    (l.moved k).orElse (l'.moved k) = (l.orElse l').moved k := by
  cases l <;> rfl

/-! ## Sites -/

namespace Scans

variable {α : Type} {read : Recogniser α} {start : Nat} {t : Text} {sites : List (Site α)}

theorem shift (n : Nat) (run : Scans read start t sites) :
    Scans read (n + start) t (sites.map (Site.shift n)) := by
  induction run with
  | done start => exact .done _
  | miss hnone _ ih => exact .miss hnone (Nat.add_assoc .. ▸ ih)
  | hit hsome hne _ ih => exact .hit hsome hne (Nat.add_assoc .. ▸ ih)

/-- A run passes over a piece in which nothing is read. -/
theorem prepend {piece : Text} (hsilent : Silent read piece t)
    (run : Scans read (start + Text.utf8Length piece) t sites) :
    Scans read start (piece ++ t) sites := by
  induction piece generalizing start with
  | nil => exact run
  | cons c piece ih =>
    obtain ⟨hnone, hsilent⟩ := hsilent
    rw [Text.utf8Length_cons, ← Nat.add_assoc] at run
    exact .miss hnone (ih hsilent run)

end Scans

theorem scan_append_of_silent {α : Type} {read : Recogniser α} {form : Form α}
    (hreads : Reads read form) {piece t : Text} (hsilent : Silent read piece t) :
    scan read (piece ++ t) = (scan read t).map (Site.shift (Text.utf8Length piece)) := by
  have hrun := (hreads.scans 0 t).shift (Text.utf8Length piece)
  rw [Nat.add_zero, ← Nat.zero_add (Text.utf8Length piece)] at hrun
  rw [← Nat.zero_add (Text.utf8Length piece)]
  exact (hrun.prepend hsilent).eq

/-- A lead without a line feed does not begin in a text that ends in one, unless it is part of
    it. -/
theorem avoids_of_getLast? {lead front : Text} (hfeed : '\n' ∉ lead)
    (hlast : front = [] ∨ front.getLast? = some '\n') (hnot : ¬ lead <:+: front) :
    avoids lead front = true := by
  induction front with
  | nil => rfl
  | cons c front ih =>
    have hmem : '\n' ∈ c :: front := by
      rcases hlast with hnil | hlast
      · cases hnil
      · exact List.mem_of_getLast? hlast
    have hlast' : front = [] ∨ front.getLast? = some '\n' := by
      cases front with
      | nil => exact Or.inl rfl
      | cons d front => exact Or.inr (by simpa using hlast)
    have hnot' : ¬ lead <:+: front := fun h => hnot (h.trans (List.suffix_cons c front).isInfix)
    rw [avoids, ih hlast' hnot', Bool.and_true, Bool.and_eq_true, Bool.not_eq_true',
      Bool.not_eq_true', ← Bool.not_eq_true, ← Bool.not_eq_true, List.isPrefixOf_iff_prefix,
      List.isPrefixOf_iff_prefix]
    exact ⟨fun h => hnot h.isInfix, fun h => hfeed (h.subset hmem)⟩

namespace Text

/-! ## Lines -/

theorem lineFeedsBefore_append_add (front t : Text) (offset : Nat) :
    lineFeedsBefore (front ++ t) (utf8Length front + offset) =
      front.count '\n' + lineFeedsBefore t offset := by
  induction front with
  | nil => simp
  | cons c front ih =>
    obtain ⟨n, hn, hrest⟩ := exists_utf8Length_cons c front
    have hnext : n + offset + 1 - c.utf8Size = utf8Length front + offset := by
      rw [utf8Length_cons] at hn
      omega
    rw [hn, Nat.add_right_comm, List.cons_append, lineFeedsBefore, hnext, ih, List.count_cons]
    simp only [beq_iff_eq]
    split <;> omega

theorem lineAtOffset_append_add (front t : Text) (offset : Nat) :
    lineAtOffset (front ++ t) (utf8Length front + offset) =
      (lineAtOffset t offset).moved (front.count '\n') := by
  unfold lineAtOffset
  rw [utf8Length_append, lineFeedsBefore_append_add]
  by_cases hoffset : offset ≤ utf8Length t
  · rw [if_pos hoffset, if_pos (Nat.add_le_add_left hoffset _), LineNumber.moved]
    congr 1
    omega
  · rw [if_neg hoffset, if_neg (fun h => hoffset (Nat.le_of_add_le_add_left h))]
    rfl

theorem through_append_add (front t : Text) (offset : Nat) :
    through (utf8Length front + offset) (front ++ t) = front ++ through offset t := by
  induction front with
  | nil => simp
  | cons c front ih =>
    obtain ⟨n, hn, hrest⟩ := exists_utf8Length_cons c front
    have hnext : n + offset + 1 - c.utf8Size = utf8Length front + offset := by
      rw [utf8Length_cons] at hn
      omega
    rw [hn, Nat.add_right_comm, List.cons_append, through, hnext, ih, List.cons_append]

/-- Lines that are not accepted move the others down. -/
theorem findLine_append {accepts : Text → Bool} {front : Text}
    (hlast : front.getLast? = some '\n') (hnone : ∀ l ∈ lines front, accepts l = false)
    (t : Text) :
    findLine accepts (front ++ t) = (findLine accepts t).moved (front.count '\n') := by
  obtain ⟨hlines, hlength⟩ := lines_append hlast t
  unfold findLine
  rw [hlines, List.findIdx?_append, List.findIdx?_eq_none_iff.mpr hnone, Option.none_or, hlength]
  cases (lines t).findIdx? accepts with
  | none => rfl
  | some i => exact congrArg LineNumber.known (Nat.add_right_comm i _ 1)

/-- A pattern that occurs in no line without a quote finds nothing in a preamble. -/
theorem findPattern_append {front : Text} (h : front.IsPreamble) {written : Text} {p : Pattern}
    (hp : Pattern.parse? written = some p)
    (hquote : ∀ line, p.occursIn line = true → '"' ∈ line) (t : Text) :
    findPattern written (front ++ t) = (findPattern written t).moved (front.count '\n') := by
  rw [findPattern, findPattern, hp]
  refine findLine_append h.lineFeed (fun l hl => ?_) t
  rw [← Bool.not_eq_true]
  exact fun hoccurs => h.quote (subset_of_mem_lines hl (hquote l hoccurs))

end Text

/-! ## Faults -/

namespace Text.IsPreamble

variable {front : Text} (h : front.IsPreamble)

include h

theorem assignments_append (f : Field) (t : Text) :
    assignments f (front ++ t) = (assignments f t).map (Site.shift (utf8Length front)) := by
  refine scan_append_of_silent (Assignment.reads f)
    (silent_of_avoids (Assignment.name_isPrefix_of_read f) ?_ t)
  exact avoids_of_getLast? (Assignment.lineEnd_notMem_name f).2 (Or.inr h.lineFeed) (h.name f)

theorem declarations_append (t : Text) :
    declarations (front ++ t) = (declarations t).map (Site.shift (utf8Length front)) := by
  have hquote : '"' ∈ Declaration.lead := by decide
  refine scan_append_of_silent Declaration.reads
    (silent_of_avoids Declaration.lead_isPrefix_of_read ?_ t)
  exact avoids_of_getLast? Declaration.lineEnd_notMem_lead.2 (Or.inr h.lineFeed)
    fun hpart => h.quote (hpart.subset hquote)

theorem findOpening_append (t : Text) :
    findPattern Declaration.opening (front ++ t) =
      (findPattern Declaration.opening t).moved (front.count '\n') := by
  obtain ⟨p, hp, hoccurs⟩ := Declaration.exists_parse?_opening
  have hquote : '"' ∈ Declaration.opening := by decide
  exact findPattern_append h hp (fun line hline => ((hoccurs line).mp hline).subset hquote) t

theorem findLiteral_append (f : Field) (value t : Text) :
    findPattern (f.literalPattern value) (front ++ t) =
      (findPattern (f.literalPattern value) t).moved (front.count '\n') := by
  obtain ⟨p, hp, hoccurs⟩ := f.exists_parse?_literalPattern value
  refine findPattern_append h hp (fun line hline => ?_) t
  obtain ⟨before, after, -, -, hpart⟩ := (hoccurs line).mp hline
  exact hpart.subset (by simp [Assignment.text])

theorem declarationLine_append (resolution : LineResolution) {t : Text}
    (hsome : declarations t ≠ []) :
    declarationLine resolution (front ++ t) (declarations (front ++ t)) =
      (declarationLine resolution t (declarations t)).moved (front.count '\n') := by
  rw [h.declarations_append]
  cases hfound : declarations t with
  | nil => exact absurd hfound hsome
  | cons first rest =>
    rw [List.map_cons]
    cases resolution with
    | offset => exact lineAtOffset_append_add front t first.offset
    | search =>
      simp only [declarationLine, Site.shift]
      rw [through_append_add, h.findOpening_append, h.findOpening_append, LineNumber.orElse_moved]

theorem assignmentLine_append (resolution : LineResolution) (t : Text) (f : Field)
    (site : Site Text) :
    assignmentLine resolution (front ++ t) f (site.shift (utf8Length front)) =
      (assignmentLine resolution t f site).moved (front.count '\n') := by
  cases resolution with
  | offset => exact lineAtOffset_append_add front t site.offset
  | search => exact h.findLiteral_append f site.value t

/-- The faults of a file are those without the preamble, further down. Without any declaration
    there is one fault, and it is on the first line. -/
theorem faults_append (resolution : LineResolution) (t : Text) :
    faults resolution (front ++ t) =
      (faults resolution t).map fun (fault, line) =>
        (fault, if declarations t = [] then line else line.moved (front.count '\n')) := by
  have hline := h.declarationLine_append resolution (t := t)
  unfold faults
  rw [h.declarations_append] at hline ⊢
  cases hfound : declarations t with
  | nil => rfl
  | cons first rest =>
    rw [hfound] at hline
    cases rest with
    | nil =>
      have hvalues (f : Field) : invalidValues resolution (front ++ t) f =
          (invalidValues resolution t f).map fun x => (x.1, x.2.moved (front.count '\n')) := by
        unfold invalidValues
        rw [h.assignments_append, List.filter_map, List.map_map, List.map_map]
        refine List.map_congr_left fun site _ => ?_
        exact congrArg (_, ·) (h.assignmentLine_append resolution t f site)
      have hmissing : missingId (front ++ t) (first.shift (utf8Length front)) =
          (missingId t first).map fun x => (x.1, x.2.moved (front.count '\n')) := by
        unfold missingId
        rw [h.assignments_append, List.isEmpty_map]
        split
        · exact congrArg (fun line => [(Fault.missingPostureId, line)])
            (lineAtOffset_append_add front t first.offset)
        · rfl
      simp only [List.map_cons, List.map_nil]
      rw [hmissing, funext hvalues, ← List.map_flatMap, ← List.map_append]
      simp
    | cons second rest =>
      have hmoved := hline (List.cons_ne_nil first _)
      rw [List.map_cons, List.map_cons] at hmoved ⊢
      simp [hmoved]

end Text.IsPreamble

/-! ## Diagnostics -/

/-- Two findings are about the same fault of a file, one of them behind `k` more lines: it is that
    many lines further down, if the line is known, and the message names the line that is recorded.
    Only that there is no declaration is found on the first line both times. -/
structure Fault.MovesDown (k : Nat) (content file : Text) (fault : Fault) (f f' : Finding) :
    Prop where
  rule : f.rule = fault.rule ∧ f'.rule = fault.rule
  file : f.file = file ∧ f'.file = file
  line : if declarations content = [] then f.line = .known 1 ∧ f'.line = .known 1
    else f'.line = f.line.moved k
  message : f.message = fault.documented f.file f.line ∧
    f'.message = fault.documented f'.file f'.line

theorem Text.IsPreamble.forall₂_fileFindings {front : Text} (h : front.IsPreamble)
    (resolution : LineResolution) (content file : Text) :
    List.Forall₂ (fun f f' => ∃ fault : Fault,
        fault.MovesDown (front.count '\n') content file f f')
      (fileFindings resolution content file)
      (fileFindings resolution (front ++ content) file) := by
  unfold fileFindings
  rw [h.faults_append, List.map_map, List.forall₂_map_left_iff, List.forall₂_map_right_iff,
    List.forall₂_same]
  rintro ⟨fault, line⟩ hmem
  have hmessage (line : LineNumber) := fault.message_eq_documented file line
  refine ⟨fault, ⟨rfl, rfl⟩, ⟨rfl, rfl⟩, ?_, hmessage _, hmessage _⟩
  by_cases hnone : declarations content = []
  · have hfirst : (fault, line) = (.declarationCount 0, .known 1) := by
      rw [faults, hnone] at hmem
      exact List.mem_singleton.mp hmem
    obtain ⟨rfl, rfl⟩ := Prod.mk.inj hfirst
    simp [hnone, Fault.finding]
  · simp [hnone, Fault.finding]

/-- A preamble moves the diagnostics of a file down by its line feeds, and does nothing else to
    them: they are as many, in the same order, for the same faults and at the same levels. -/
theorem auditFile_preamble (s : Settings) {front : Text} (h : front.IsPreamble)
    (content file : Text) :
    (auditFile s (front ++ content) file).filesChecked =
        (auditFile s content file).filesChecked ∧
      List.Forall₂ (fun d d' : Diagnostic => d'.level = d.level ∧ ∃ fault : Fault,
          fault.MovesDown (front.count '\n') content file d.toFinding d'.toFinding)
        (auditFile s content file).diagnostics
        (auditFile s (front ++ content) file).diagnostics := by
  rw [auditFile_eq_graded, auditFile_eq_graded]
  refine ⟨rfl, Settings.forall₂_grade ?_ (h.forall₂_fileFindings s.lineResolution content file)⟩
  rintro f f' ⟨fault, hfault⟩
  rw [hfault.rule.1, hfault.rule.2]

/-- A comment that comes close to a header and to an assignment. -/
def closeComment : Text := "# größer\r\n// any policy_set_ of a resource \n".toList

/-- Behind a comment, what a search finds on a line is two lines further down, and what it does not
    find it does not find there either. -/
theorem auditFile_preamble_closeComment :
    closeComment.IsPreamble ∧
      List.Forall₂ (fun d d' : Diagnostic => d'.level = d.level ∧ ∃ fault : Fault,
          fault.MovesDown 2 spreadOut "a.tf".toList d.toFinding d'.toFinding)
        (auditFile (.withLineResolution .default .search) spreadOut "a.tf".toList).diagnostics
        (auditFile (.withLineResolution .default .search) (closeComment ++ spreadOut)
          "a.tf".toList).diagnostics ∧
      (auditFile (.withLineResolution .default .search) (closeComment ++ spreadOut)
        "a.tf".toList).diagnostics.map (·.line) = [.unknown, .known 11] := by
  have hcomment : closeComment.IsPreamble :=
    ⟨by decide +kernel, by decide +kernel, fun f => by cases f <;> decide +kernel⟩
  exact ⟨hcomment, (auditFile_preamble _ hcomment _ _).2, by decide +kernel⟩

end PostureAudit
