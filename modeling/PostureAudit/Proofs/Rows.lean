import PostureAudit.Proofs.Assignment
import PostureAudit.Proofs.Declaration
import PostureAudit.Proofs.Lines

set_option autoImplicit false

/-! # Rows

A *row* is a line of a text together with what ends it. `HasRows` says what it is for a text to be
written in some rows, with no regard to how the text is split or how line feeds are counted. Every
text is written in rows (`exists_hasRows`), and their lines are the lines of the text
(`HasRows.map_line`); a line feed ends a row and stands nowhere else, so the line feeds before a
place number the row that the place is in (`HasRows.exists_row`). This ties the two views of lines
together at every byte of a text, also at the bytes of a line end, which are in no line
(`lineAtOffset_agrees_lines`). -/

namespace PostureAudit

namespace Text

/-! ## Texts in rows -/

/-- A line, and what ends it. -/
structure Row where
  line : Text
  ending : Text
  deriving DecidableEq, Repr

namespace Row

def text (r : Row) : Text := r.line ++ r.ending

/-- A line feed ends the row. A carriage return before it belongs to the end. -/
def Ended (r : Row) : Prop :=
  '\n' ∉ r.line ∧
    (r.ending = ['\r', '\n'] ∨ r.ending = ['\n'] ∧ r.line.getLast? ≠ some '\r')

/-- The text ends in the row. Nothing at all after a line feed is no row. -/
def Open (r : Row) : Prop := '\n' ∉ r.line ∧ r.line ≠ [] ∧ r.ending = []

end Row

/-- The text is written in the rows, of which only the last one may be open. -/
inductive HasRows : Text → List Row → Prop where
  | nil : HasRows [] []
  | last {r : Row} (h : r.Open) : HasRows r.line [r]
  | row {r : Row} {t : Text} {rows : List Row} (h : r.Ended) (hrest : HasRows t rows) :
    HasRows (r.text ++ t) (r :: rows)

variable {t : Text} {rows : List Row}

/-- The first row of a text takes in a character in front of it, unless the character is a line
    feed, which makes a row of its own, or begins a line end. -/
theorem HasRows.exists_cons (c : Char) (h : HasRows t rows) : ∃ rows', HasRows (c :: t) rows' := by
  by_cases hfeed : c = '\n'
  · subst hfeed
    exact ⟨_, .row (r := ⟨[], ['\n']⟩) ⟨List.not_mem_nil, Or.inr ⟨rfl, nofun⟩⟩ h⟩
  cases h with
  | nil => exact ⟨_, .last (r := ⟨[c], []⟩) ⟨by simpa using Ne.symm hfeed, by simp, rfl⟩⟩
  | @last r hopen =>
    obtain ⟨hline, -, hending⟩ := hopen
    refine ⟨_, .last (r := ⟨c :: r.line, []⟩) ⟨?_, List.cons_ne_nil c r.line, rfl⟩⟩
    exact List.not_mem_cons_of_ne_of_not_mem (Ne.symm hfeed) hline
  | @row r t rows hended hrest =>
    obtain ⟨line, ending⟩ := r
    obtain ⟨hline, hending⟩ := hended
    by_cases hreturn : c = '\r' ∧ line = [] ∧ ending = ['\n']
    · -- the character belongs to the end of a row whose line is empty
      obtain ⟨rfl, rfl, rfl⟩ := hreturn
      exact ⟨_, .row (r := ⟨[], ['\r', '\n']⟩) ⟨List.not_mem_nil, Or.inl rfl⟩ hrest⟩
    · refine ⟨_, .row (r := ⟨c :: line, ending⟩)
        ⟨List.not_mem_cons_of_ne_of_not_mem (Ne.symm hfeed) hline, hending.imp_right ?_⟩ hrest⟩
      rintro ⟨rfl, hlast⟩
      refine ⟨rfl, ?_⟩
      cases line with
      | nil => simpa using hreturn
      | cons d line => simpa using hlast

theorem exists_hasRows (t : Text) : ∃ rows, HasRows t rows := by
  induction t with
  | nil => exact ⟨[], .nil⟩
  | cons c t ih =>
    obtain ⟨rows, h⟩ := ih
    exact h.exists_cons c

/-! ## The lines of rows -/

/-- A row that is ended makes one line, whatever comes after it. -/
theorem Row.Ended.lines_append {r : Row} (h : r.Ended) (t : Text) :
    lines (r.text ++ t) = r.line :: lines t := by
  obtain ⟨line, ending⟩ := r
  obtain ⟨hline, hending⟩ := h
  induction line with
  | nil => rcases hending with rfl | ⟨rfl, -⟩ <;> rfl
  | cons c line ih =>
    obtain ⟨hc, hrest⟩ := List.ne_and_not_mem_of_not_mem_cons hline
    have hhead : c = '\r' → (line ++ ending ++ t).head? ≠ some '\n' := by
      rintro rfl
      cases line with
      | nil =>
        rcases hending with rfl | ⟨-, hlast⟩
        · simp
        · exact absurd rfl hlast
      | cons d line => simpa using (List.ne_and_not_mem_of_not_mem_cons hrest).1.symm
    have hlast : ending = ['\r', '\n'] ∨ ending = ['\n'] ∧ line.getLast? ≠ some '\r' := by
      refine hending.imp_right fun ⟨hfeed, hlast⟩ => ⟨hfeed, ?_⟩
      cases line with
      | nil => nofun
      | cons d line => simpa using hlast
    have hlines := ih hrest hlast
    rw [text] at hlines ⊢
    rw [List.cons_append, List.cons_append, lines_cons_of_not_end hc.symm hhead, hlines]

/-- The lines of a text are those of its rows. -/
theorem HasRows.map_line (h : HasRows t rows) : rows.map Row.line = lines t := by
  induction h with
  | nil => rfl
  | last hopen => exact (lines_of_lineFeed_notMem hopen.2.1 hopen.1).symm
  | row hended _ ih => rw [List.map_cons, ih, hended.lines_append]

/-! ## Places in rows -/

/-- The text of the rows before the one with an index. -/
def rowsBefore (rows : List Row) (index : Nat) : Text := (rows.take index).flatMap Row.text

/-- The byte offset is in the row with an index: in its line, or in what ends it. -/
def InRow (rows : List Row) (index offset : Nat) : Prop :=
  ∃ row, rows[index]? = some row ∧ utf8Length (rowsBefore rows index) ≤ offset ∧
    offset < utf8Length (rowsBefore rows index ++ row.text)

/-- The line of the row with an index has the stretch of text at the byte offset. -/
def InLine (rows : List Row) (index offset : Nat) (stretch : Text) : Prop :=
  ∃ row left right, rows[index]? = some row ∧ row.line = left ++ stretch ++ right ∧
    utf8Length (rowsBefore rows index ++ left) = offset

theorem rowsBefore_cons (r : Row) (rows : List Row) (index : Nat) :
    rowsBefore (r :: rows) (index + 1) = r.text ++ rowsBefore rows index := by
  rw [rowsBefore, List.take_succ_cons, List.flatMap_cons, rowsBefore]

/-- What is before the first line feed, and what is after it, can be told apart. -/
theorem append_lineFeed_inj {a b s t : Text} (ha : '\n' ∉ a) (hb : '\n' ∉ b)
    (h : a ++ '\n' :: s = b ++ '\n' :: t) : a = b ∧ s = t := by
  have hfeed : ('\n' != '\n') = false := by decide
  have hkeeps {u : Text} (hu : '\n' ∉ u) : ∀ c ∈ u, (c != '\n') = true := fun c hc => by
    simpa using ne_of_mem_of_not_mem hc hu
  obtain ⟨htake, hdrop⟩ := (span_eq_iff (· != '\n') hfeed).mpr ⟨rfl, hkeeps ha⟩
  obtain ⟨htake', hdrop'⟩ := (span_eq_iff (· != '\n') hfeed).mpr ⟨h, hkeeps hb⟩
  exact ⟨htake.symm.trans htake', (List.cons.inj (hdrop.symm.trans hdrop')).2⟩

theorem Row.Ended.exists_text_eq {r : Row} (h : r.Ended) :
    ∃ body, r.text = body ++ ['\n'] ∧ '\n' ∉ body := by
  obtain ⟨line, ending⟩ := r
  obtain ⟨hline, rfl | ⟨rfl, -⟩⟩ := h
  · exact ⟨line ++ ['\r'], by simp [text], by simpa using hline⟩
  · exact ⟨line, rfl, hline⟩

/-- A stretch in which no line feed is followed by anything is in the first row, or the first row
    is before it. -/
theorem Row.Ended.split {r : Row} (h : r.Ended) {t front run back : Text} {c : Char}
    (ht : r.text ++ t = front ++ run ++ c :: back) (hrun : '\n' ∉ run) :
    ('\n' ∉ front ∧ ∃ right, r.text = front ++ run ++ c :: right) ∨
      ∃ front', front = r.text ++ front' ∧ t = front' ++ run ++ c :: back := by
  obtain ⟨body, htext, hbody⟩ := h.exists_text_eq
  rw [htext, List.append_assoc, List.singleton_append] at ht
  by_cases hfront : '\n' ∈ front
  · -- the first line feed of what is in front ends the row
    obtain ⟨a, front', rfl, ha⟩ := List.eq_append_cons_of_mem hfront
    rw [List.append_assoc, List.append_assoc, List.cons_append] at ht
    obtain ⟨rfl, hrest⟩ := append_lineFeed_inj hbody ha ht
    exact Or.inr ⟨front', by rw [htext]; simp, by rw [hrest, List.append_assoc]⟩
  · have hmem : '\n' ∈ c :: back := by
      have hmem : '\n' ∈ front ++ run ++ c :: back := ht ▸ by simp
      simpa [hfront, hrun] using hmem
    obtain ⟨a, rest, hback, ha⟩ := List.eq_append_cons_of_mem hmem
    rw [hback, ← List.append_assoc] at ht
    obtain ⟨rfl, -⟩ := append_lineFeed_inj hbody (by simp [hfront, hrun, ha]) ht
    obtain ⟨right, hright⟩ : ∃ right, a ++ ['\n'] = c :: right := by
      cases a with
      | nil => exact ⟨[], by rw [(List.cons.inj hback).1]; rfl⟩
      | cons d a => exact ⟨a ++ ['\n'], by rw [(List.cons.inj hback).1]; rfl⟩
    exact Or.inl ⟨hfront, right, by rw [htext, ← hright]; simp⟩

/-- A stretch in which no line feed is followed by anything is in one row, of which the line feeds
    before the stretch are the index. -/
theorem HasRows.exists_row (h : HasRows t rows) {front run back : Text} {c : Char}
    (ht : t = front ++ run ++ c :: back) (hrun : '\n' ∉ run) :
    ∃ row left right, rows[front.count '\n']? = some row ∧
      front = rowsBefore rows (front.count '\n') ++ left ∧
      row.text = left ++ run ++ c :: right := by
  induction h generalizing front with
  | nil => simp at ht
  | @last r hopen =>
    obtain ⟨hline, -, hending⟩ := hopen
    have hfront : front.count '\n' = 0 :=
      List.count_eq_zero.mpr fun hmem => hline (by simp [ht, hmem])
    refine ⟨r, front, back, by rw [hfront]; rfl, by rw [hfront]; rfl, ?_⟩
    rw [Row.text, hending, List.append_nil, ht]
  | @row r t rows hended _ ih =>
    rcases hended.split ht hrun with ⟨hfront, right, hright⟩ | ⟨front', rfl, hrest⟩
    · rw [List.count_eq_zero.mpr hfront]
      exact ⟨r, front, right, rfl, rfl, hright⟩
    · obtain ⟨row, left, right, hrow, hleft, hright⟩ := ih hrest
      obtain ⟨body, htext, hbody⟩ := hended.exists_text_eq
      have hcount : (r.text ++ front').count '\n' = front'.count '\n' + 1 := by
        rw [htext, List.count_append, List.count_append, List.count_eq_zero.mpr hbody,
          List.count_singleton_self]
        omega
      refine ⟨row, left, right, ?_, ?_, hright⟩
      · rw [hcount, List.getElem?_cons_succ, hrow]
      · rw [hcount, rowsBefore_cons, List.append_assoc, ← hleft]

theorem HasRows.ending_subset (h : HasRows t rows) {r : Row} (hr : r ∈ rows) {c : Char}
    (hc : c ∈ r.ending) : c = '\r' ∨ c = '\n' := by
  induction h with
  | nil => cases hr
  | last hopen =>
    rw [List.mem_singleton.mp hr, hopen.2.2] at hc
    cases hc
  | row hended _ ih =>
    rcases List.mem_cons.mp hr with rfl | hr
    · rcases hended.2 with hending | ⟨hending, -⟩
      · simpa [hending] using hc
      · exact Or.inr (by simpa [hending] using hc)
    · exact ih hr

/-- What reaches up to a character that is part of no line end is in the line of its row. -/
theorem Row.exists_line_eq {r : Row} {front right : Text} {c : Char} (hc : c ∉ r.ending)
    (h : r.text = front ++ c :: right) : ∃ right', r.line = front ++ c :: right' := by
  rcases List.append_eq_append_iff.mp h with ⟨a, -, hending⟩ | ⟨a, hline, hright⟩
  · exact absurd (hending ▸ by simp) hc
  · cases a with
    | nil =>
      rw [List.nil_append] at hright
      exact absurd (hright ▸ List.mem_cons_self ..) hc
    | cons d a => exact ⟨a, by rw [hline, (List.cons.inj hright).1]⟩

/-! ## Offsets in rows -/

theorem lineFeedsBefore_mono (t : Text) {offset offset' : Nat} (h : offset ≤ offset') :
    lineFeedsBefore t offset ≤ lineFeedsBefore t offset' := by
  induction t generalizing offset offset' with
  | nil => exact Nat.le_refl _
  | cons c t ih =>
    cases offset with
    | zero => exact Nat.zero_le _
    | succ n =>
      obtain ⟨m, rfl⟩ := Nat.exists_eq_add_of_le' (Nat.le_trans (Nat.succ_pos n) h)
      exact Nat.add_le_add_left (ih (Nat.sub_le_sub_right h _)) _

/-- Every byte of a text belongs to a character, and only the line feeds before this character
    start before the byte. -/
theorem exists_char_at {t : Text} {offset : Nat} (h : offset < utf8Length t) :
    ∃ front c back, t = front ++ c :: back ∧ utf8Length front ≤ offset ∧
      offset < utf8Length front + c.utf8Size ∧ lineFeedsBefore t offset = front.count '\n' := by
  induction t generalizing offset with
  | nil => simp at h
  | cons c t ih =>
    by_cases hfirst : offset < c.utf8Size
    · refine ⟨[], c, t, rfl, Nat.zero_le _, by simpa using hfirst, ?_⟩
      cases offset with
      | zero => rfl
      | succ n =>
        -- a line feed has no second byte
        have hfeed : c ≠ '\n' := by
          rintro rfl
          exact absurd hfirst (by simp [Char.utf8Size])
        rw [lineFeedsBefore, if_neg hfeed, Nat.sub_eq_zero_of_le (Nat.le_of_lt hfirst)]
        cases t <;> rfl
    · rw [utf8Length_cons] at h
      have hrest : offset - c.utf8Size < utf8Length t := by omega
      obtain ⟨front, d, back, rfl, hstart, hstop, hfeeds⟩ := ih hrest
      refine ⟨c :: front, d, back, rfl, ?_, ?_, ?_⟩
      · rw [utf8Length_cons]
        omega
      · rw [utf8Length_cons]
        omega
      · obtain ⟨n, rfl⟩ : ∃ n, offset = n + 1 :=
          Nat.exists_eq_add_one.mpr (Nat.lt_of_lt_of_le c.utf8Size_pos (Nat.le_of_not_lt hfirst))
        rw [lineFeedsBefore, hfeeds, List.count_cons, Nat.add_comm]
        simp

theorem lineAtOffset_of_le {t : Text} {offset : Nat} (h : offset ≤ utf8Length t) :
    lineAtOffset t offset = .known (lineFeedsBefore t offset + 1) := if_pos h

/-- The byte at an offset is in the row that has the number of the offset. -/
theorem HasRows.inRow (h : HasRows t rows) {offset : Nat} (hoffset : offset < utf8Length t) :
    InRow rows (lineFeedsBefore t offset) offset := by
  obtain ⟨front, c, back, ht, hstart, hstop, hfeeds⟩ := exists_char_at hoffset
  have hsplit : t = front ++ [] ++ c :: back := by rw [ht, List.append_nil]
  obtain ⟨row, left, right, hrow, hfront, htext⟩ := h.exists_row hsplit List.not_mem_nil
  have hlength := congrArg utf8Length hfront
  rw [utf8Length_append] at hlength
  refine ⟨row, hfeeds ▸ hrow, ?_, ?_⟩
  · rw [hfeeds]
    omega
  · rw [hfeeds, htext, utf8Length_append, utf8Length_append, utf8Length_append, utf8Length_cons,
      utf8Length_nil]
    omega

end Text

open Text

/-! ## Sites in rows -/

/-- A site whose text begins with a stretch that runs into no line end has the stretch in the line
    that has the number of its offset. -/
theorem Site.Occurs.inLine {t : Text} {rows : List Row} (h : HasRows t rows) {form : Form Text}
    {run : Text} {c : Char} (hform : ∀ text value, form text value → run ++ [c] <+: text)
    (hrun : '\n' ∉ run) (hfeed : c ≠ '\n') (hreturn : c ≠ '\r') {s : Site Text}
    (hs : s.Occurs form 0 t) :
    ∃ index, lineAtOffset t s.offset = .known (index + 1) ∧
      InLine rows index s.offset (run ++ [c]) := by
  obtain ⟨front, back, ht, hoffset, hsite⟩ := hs
  obtain ⟨more, hmore⟩ := hform _ _ hsite
  rw [Nat.zero_add] at hoffset
  have hsplit : t = front ++ run ++ c :: (more ++ back) := by
    rw [ht, ← hmore]
    simp
  obtain ⟨row, left, right, hrow, hfront, htext⟩ := h.exists_row hsplit hrun
  have hend : c ∉ row.ending := fun hc =>
    (h.ending_subset (List.mem_of_getElem? hrow) hc).elim hreturn hfeed
  obtain ⟨right', hline⟩ := Row.exists_line_eq hend htext
  refine ⟨front.count '\n', ?_, row, left, right', hrow, by rw [hline]; simp, ?_⟩
  · rw [← hoffset, ht, List.append_assoc, lineAtOffset_append]
  · rw [← hfront, hoffset]

theorem exists_inLine_of_mem_declarations {t : Text} {rows : List Row} (h : HasRows t rows)
    {s : Site Text} (hs : s ∈ declarations t) :
    ∃ index, lineAtOffset t s.offset = .known (index + 1) ∧
      InLine rows index s.offset Declaration.lead := by
  have hlead : Declaration.lead = Declaration.lead.dropLast ++ ['"'] := by decide
  rw [hlead]
  refine ((Declaration.reads.leftmost_scan t).occurs s hs).inLine h ?_ (by decide) (by decide)
    (by decide)
  rintro _ label ⟨blanks, -, -, rfl⟩
  rw [← hlead, Declaration.text_eq]
  exact List.prefix_append _ _

theorem exists_inLine_of_mem_assignments {f : Field} {t : Text} {rows : List Row}
    (h : HasRows t rows) {s : Site Text} (hs : s ∈ assignments f t) :
    ∃ index, lineAtOffset t s.offset = .known (index + 1) ∧ InLine rows index s.offset f.name := by
  have hname : f.name = f.name.dropLast ++ ['d'] := by cases f <;> decide
  have hfeed : '\n' ∉ f.name.dropLast := by cases f <;> decide
  rw [hname]
  refine (((Assignment.reads f).leftmost_scan t).occurs s hs).inLine h ?_ hfeed (by decide)
    (by decide)
  rintro _ value ⟨before, after, -, -, -, rfl⟩
  rw [← hname]
  exact ⟨_, by simp only [Assignment.text, List.append_assoc]; rfl⟩

/-! ## The two views of lines -/

/-- Counting line feeds and splitting a text agree on its lines. An offset has a line exactly if it
    is not past the end, and offsets in order have lines in order. The lines that splitting makes
    are those of the rows in which the text is written. Every byte is in the row that has the
    number of its offset, so there are that many lines, and a declaration or an assignment begins
    in the very line that has its number. -/
theorem lineAtOffset_agrees_lines (t : Text) :
    (∀ offset, (∃ line, lineAtOffset t offset = .known line) ↔ offset ≤ utf8Length t) ∧
    (∀ offset offset' line', offset ≤ offset' → lineAtOffset t offset' = .known line' →
      ∃ line, lineAtOffset t offset = .known line ∧ line ≤ line') ∧
    ∃ rows, HasRows t rows ∧ rows.map Row.line = lines t ∧
      (∀ offset < utf8Length t, ∃ index, lineAtOffset t offset = .known (index + 1) ∧
        index + 1 ≤ (lines t).length ∧ InRow rows index offset) ∧
      (∀ s ∈ declarations t, ∃ index, lineAtOffset t s.offset = .known (index + 1) ∧
        InLine rows index s.offset Declaration.lead) ∧
      ∀ f, ∀ s ∈ assignments f t, ∃ index, lineAtOffset t s.offset = .known (index + 1) ∧
        InLine rows index s.offset f.name := by
  have hknown (offset : Nat) :
      (∃ line, lineAtOffset t offset = .known line) ↔ offset ≤ utf8Length t := by
    refine ⟨fun ⟨line, hline⟩ => ?_, fun h => ⟨_, lineAtOffset_of_le h⟩⟩
    by_contra hlt
    rw [(lineAtOffset_eq_unknown_iff t offset).mpr (by omega)] at hline
    cases hline
  obtain ⟨rows, hrows⟩ := exists_hasRows t
  refine ⟨hknown, ?mono, rows, hrows, hrows.map_line, ?bytes, ?declared, ?assigned⟩
  case mono =>
    intro offset offset' line' hle hline'
    have hin := (hknown offset').mp ⟨line', hline'⟩
    rw [lineAtOffset_of_le hin] at hline'
    cases hline'
    exact ⟨_, lineAtOffset_of_le (Nat.le_trans hle hin),
      Nat.succ_le_succ (lineFeedsBefore_mono t hle)⟩
  case bytes =>
    intro offset hoffset
    have hrow := hrows.inRow hoffset
    refine ⟨_, lineAtOffset_of_le (Nat.le_of_lt hoffset), ?_, hrow⟩
    obtain ⟨row, hindex, -⟩ := hrow
    rw [← hrows.map_line, List.length_map]
    exact (List.getElem?_eq_some_iff.mp hindex).1
  case declared => exact fun s hs => exists_inLine_of_mem_declarations hrows hs
  case assigned => exact fun f s hs => exists_inLine_of_mem_assignments hrows hs

/-- The bytes of a line end, the first byte after it, and the end of the text, where no line is. -/
example :
    lines "é\r\n\r\r\nz\n".toList = ["é".toList, "\r".toList, "z".toList] ∧
      ([0, 1, 2, 3, 4, 6, 7, 8, 9].map (lineAtOffset "é\r\n\r\r\nz\n".toList ·)) =
        [.known 1, .known 1, .known 1, .known 1, .known 2, .known 2, .known 3, .known 3,
          .known 4] := by
  decide +kernel

/-- An assignment after a line whose characters take two bytes each. -/
def afterAccents : Text := "éé\r\n".toList ++ Assignment.text .policyId [] [] ['a']

/-- The line feed is in the first row, and the assignment begins in the second line. -/
theorem lineAtOffset_agrees_lines_afterAccents :
    ∃ rows, HasRows afterAccents rows ∧ InRow rows 0 5 ∧
      InLine rows 1 6 Field.policyId.name := by
  obtain ⟨-, -, rows, hrows, -, hbytes, -, hassigned⟩ := lineAtOffset_agrees_lines afterAccents
  refine ⟨rows, hrows, ?_, ?_⟩
  · obtain ⟨index, hline, -, hrow⟩ := hbytes 5 (by decide)
    rw [show lineAtOffset afterAccents 5 = .known 1 by decide +kernel] at hline
    cases hline
    exact hrow
  · obtain ⟨index, hline, hin⟩ := hassigned .policyId
      ⟨6, Assignment.text .policyId [] [] ['a'], ['a']⟩ (by decide +kernel)
    rw [show lineAtOffset afterAccents 6 = .known 2 by decide +kernel] at hline
    cases hline
    exact hin

end PostureAudit
