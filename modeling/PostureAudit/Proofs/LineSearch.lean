import PostureAudit.Proofs.Declaration
import PostureAudit.Proofs.Lines
import PostureAudit.Proofs.Literal
import PostureAudit.Audit.File

set_option autoImplicit false

/-! # Searching a text line by line

A search answers with the first line that its pattern occurs in, and the lines are what is between
the line feeds of the text (`lines_eq_splitLines`). So the search for an assignment finds the first
line with the text of one in it, whatever the value is (`findPattern_literalPattern`).

The search for a declaration looks first at a text that is cut after the first character of the
first header. The cut goes through a line, but what is left of the line is a front of it, so the
search finds there what it finds in all of the text, or nothing
(`declarationLine_search_exact`). -/

namespace PostureAudit

namespace Text

/-! ## The lines of a text -/

/-- A line without the carriage return at its end. -/
def dropReturn (line : Text) : Text := if line.getLast? = some '\r' then line.dropLast else line

/-- The lines that the stretches between the line feeds of a text make. All but the last one end
    in a line end, which takes a carriage return along; the last one is a line unless it is
    empty. -/
def linesOfPieces : List Text → List Text
  | [] => []
  | [last] => if last = [] then [] else [last]
  | piece :: pieces => dropReturn piece :: linesOfPieces pieces

def splitLines (t : Text) : List Text := linesOfPieces (t.splitOn '\n')

theorem dropReturn_cons {c : Char} {line : Text} (h : c = '\r' → line ≠ []) :
    dropReturn (c :: line) = c :: dropReturn line := by
  unfold dropReturn
  cases line with
  | nil =>
    have hc : c ≠ '\r' := fun hc => h hc rfl
    simp [hc]
  | cons d line =>
    rw [List.getLast?_cons_cons, List.dropLast_cons_cons]
    split <;> rfl

theorem linesOfPieces_cons {piece : Text} {pieces : List Text} (h : pieces ≠ []) :
    linesOfPieces (piece :: pieces) = dropReturn piece :: linesOfPieces pieces := by
  cases pieces with
  | nil => exact absurd rfl h
  | cons next pieces => exact linesOfPieces.eq_3 piece (next :: pieces) nofun

theorem splitOn_lineFeed (t : Text) : ('\n' :: t).splitOn '\n' = [] :: t.splitOn '\n' := by
  rw [List.splitOn_cons_eq_if_modifyHead]
  rfl

theorem splitLines_lineFeed (t : Text) : splitLines ('\n' :: t) = [] :: splitLines t := by
  rw [splitLines, splitOn_lineFeed, linesOfPieces_cons (List.splitOn_ne_nil _ _)]
  rfl

theorem splitOn_cons {c : Char} (hc : c ≠ '\n') (t : Text) :
    (c :: t).splitOn '\n' = (t.splitOn '\n').modifyHead (c :: ·) := by
  rw [List.splitOn_cons_eq_if_modifyHead, if_neg (by simpa using hc)]

theorem head?_of_splitOn {t next : Text} {pieces : List Text}
    (h : t.splitOn '\n' = [] :: next :: pieces) : t.head? = some '\n' := by
  cases t with
  | nil => cases h
  | cons c t =>
    by_cases hfeed : c = '\n'
    · rw [hfeed, List.head?_cons]
    · obtain ⟨piece, rest, hpieces⟩ := List.exists_cons_of_ne_nil (t.splitOn_ne_nil '\n')
      rw [splitOn_cons hfeed, hpieces, List.modifyHead_cons] at h
      cases h

/-- The two ways to split a text into lines agree. -/
theorem lines_eq_splitLines (t : Text) : lines t = splitLines t := by
  induction t with
  | nil => rfl
  | cons c t ih =>
    by_cases hfeed : c = '\n'
    · rw [hfeed, lines, splitLines_lineFeed, ih]
    by_cases hend : c = '\r' ∧ t.head? = some '\n'
    · -- the carriage return is dropped again
      obtain ⟨rfl, hhead⟩ := hend
      obtain ⟨rest, rfl⟩ : ∃ rest, t = '\n' :: rest := List.head?_eq_some_iff.mp hhead
      have hsplit : splitLines ('\r' :: '\n' :: rest) = [] :: splitLines rest := by
        rw [splitLines, splitOn_cons hfeed, splitOn_lineFeed, List.modifyHead_cons,
          linesOfPieces_cons (List.splitOn_ne_nil _ _)]
        rfl
      rw [lines_return hhead, ih, splitLines_lineFeed, hsplit]
    · rw [lines_cons_of_not_end hfeed fun hc hhead => hend ⟨hc, hhead⟩, ih, splitLines, splitLines,
        splitOn_cons hfeed]
      obtain ⟨piece, pieces, hpieces⟩ := List.exists_cons_of_ne_nil (t.splitOn_ne_nil '\n')
      rw [hpieces, List.modifyHead_cons]
      cases pieces with
      | nil =>
        cases piece <;> rfl
      | cons next pieces =>
        rw [linesOfPieces_cons (List.cons_ne_nil _ _), linesOfPieces_cons (List.cons_ne_nil _ _),
          dropReturn_cons]
        rintro rfl rfl
        exact hend ⟨rfl, head?_of_splitOn hpieces⟩

/-! ## A text that is cut -/

/-- A text splits before its last line. -/
theorem exists_last_line (t : Text) :
    ∃ whole last, t = whole ++ last ∧ '\n' ∉ last ∧
      ∀ u, lines (whole ++ u) = lines whole ++ lines u := by
  by_cases hfeed : '\n' ∈ t
  · obtain ⟨last, whole, hreverse, hlast⟩ := List.eq_append_cons_of_mem (List.mem_reverse.mpr hfeed)
    refine ⟨whole.reverse ++ ['\n'], last.reverse, ?_, by simpa using hlast, fun u => ?_⟩
    · rw [← List.reverse_reverse t, hreverse]
      simp
    · exact (lines_append (by simp) u).1
  · exact ⟨[], t, rfl, hfeed, fun u => rfl⟩

/-- A search in a text that is cut finds the line that it finds in all of the text, or nothing, if
    it accepts a line as soon as it accepts a front of it. -/
theorem findLine_cut {accepts : Text → Bool}
    (hmono : ∀ line line', line <+: line' → accepts line = true → accepts line' = true)
    (front : Text) {c : Char} (hfeed : c ≠ '\n') (hreturn : c ≠ '\r') (back : Text) :
    findLine accepts (front ++ [c]) = .unknown ∨
      findLine accepts (front ++ [c]) = findLine accepts (front ++ c :: back) := by
  obtain ⟨whole, last, rfl, hlast, hlines⟩ := exists_last_line front
  have hne : last ++ [c] ≠ [] := by simp
  have hcut : '\n' ∉ last ++ [c] := by simp [hlast, hfeed.symm]
  obtain ⟨line, hline, hfront⟩ := exists_first_line hne hcut (by simpa using hreturn) back
  obtain ⟨ls, hls⟩ : ∃ ls, lines (last ++ [c] ++ back) = line :: ls :=
    List.head?_eq_some_iff.mp (List.head?_eq_getElem?.trans hline)
  have hrest : lines (whole ++ last ++ c :: back) = lines whole ++ line :: ls := by
    rw [List.append_assoc, hlines, ← hls, List.append_assoc, List.singleton_append]
  unfold findLine
  rw [hrest, List.append_assoc, hlines, lines_of_lineFeed_notMem hne hcut, List.findIdx?_append,
    List.findIdx?_append]
  cases (lines whole).findIdx? accepts with
  | some i => exact Or.inr rfl
  | none =>
    cases haccepts : accepts (last ++ [c]) with
    | false => exact Or.inl (by simp [haccepts])
    | true => exact Or.inr (by simp [haccepts, hmono _ _ hfront haccepts, List.findIdx?_cons])

end Text

/-! ## Assignments of a value -/

/-- The text of an assignment of the value is part of the line, whatever characters the value
    has. -/
def Assignment.WrittenIn (f : Field) (value line : Text) : Prop :=
  ∃ before after, (∀ c ∈ before, isBlank c = true) ∧ (∀ c ∈ after, isBlank c = true) ∧
    text f before after value <:+: line

open Text

/-- The search for an assignment of a value finds the first line with one, and nothing exactly if
    there is none. Its pattern can be read whatever the value is. -/
theorem findPattern_literalPattern (f : Field) (value content : Text) :
    (Pattern.parse? (f.literalPattern value)).isSome = true ∧
      (∀ k, findPattern (f.literalPattern value) content = .known k ↔
        FirstLine (Assignment.WrittenIn f value) (splitLines content) k) ∧
      (findPattern (f.literalPattern value) content = .unknown ↔
        ∀ line ∈ splitLines content, ¬ Assignment.WrittenIn f value line) := by
  obtain ⟨p, hp, hoccurs⟩ := f.exists_parse?_literalPattern value
  have hwritten : (p.occursIn · = true) = Assignment.WrittenIn f value :=
    funext fun line => propext (hoccurs line)
  have hfind : findPattern (f.literalPattern value) content = findLine p.occursIn content := by
    rw [findPattern, hp]
  rw [hfind, ← hwritten, ← lines_eq_splitLines]
  exact ⟨by rw [hp]; rfl, fun k => findLine_eq_known_iff, findLine_eq_unknown_iff⟩

/-- No character of a value has a meaning of its own in the pattern. -/
example :
    findPattern (Field.policyId.literalPattern "\\d+ (\"|.)*".toList)
      "policy_id = \"7 .\"\npolicy_id\t=\"\\d+ (\"|.)*\"".toList = .known 2 := by
  decide +kernel

/-! ## The first declaration -/

/-- The text through the start of a declaration ends in the first character of its header. -/
theorem exists_through_eq {content : Text} {s : Site Text} (hs : s ∈ declarations content) :
    ∃ front back, content = front ++ (Declaration.opening ++ back) ∧
      utf8Length front = s.offset ∧ through s.offset content = front ++ ['r'] := by
  obtain ⟨front, back, hcontent, hoffset, blanks, -, -, htext⟩ := mem_declarations_iff.mp hs
  rw [Nat.zero_add] at hoffset
  have hheader : s.text ++ back = Declaration.opening ++
      (" \"".toList ++ s.value ++ '"' :: blanks ++ ['\x7B'] ++ back) := by
    rw [htext, Declaration.text]
    simp only [List.append_assoc]
  rw [List.append_assoc, hheader] at hcontent
  refine ⟨front, _, hcontent, hoffset, ?_⟩
  rw [hcontent, ← hoffset]
  exact through_append front 'r' _

theorem findPattern_opening_cut (front back : Text) :
    (findPattern Declaration.opening (front ++ ['r'])).orElse
        (findPattern Declaration.opening (front ++ 'r' :: back)) =
      findPattern Declaration.opening (front ++ 'r' :: back) := by
  obtain ⟨p, hp, hoccurs⟩ := Declaration.exists_parse?_opening
  have hmono (line line' : Text) (hfront : line <+: line') (haccepts : p.occursIn line = true) :
      p.occursIn line' = true :=
    (hoccurs line').mpr (((hoccurs line).mp haccepts).trans hfront.isInfix)
  simp only [findPattern, hp]
  rcases findLine_cut hmono front (by decide : 'r' ≠ '\n') (by decide) back with hcut | hcut
  · rw [hcut]
    rfl
  · rw [hcut]
    cases findLine p.occursIn (front ++ 'r' :: back) <;> rfl

theorem exists_findPattern_opening {content front back : Text}
    (hcontent : content = front ++ (Declaration.opening ++ back)) :
    ∃ m, findPattern Declaration.opening content = .known (m + 1) ∧ m ≤ front.count '\n' ∧
      (m = front.count '\n' ↔ ∀ i < front.count '\n', ∀ line,
        (splitLines content)[i]? = some line → ¬ Declaration.opening <:+: line) := by
  obtain ⟨p, hp, hoccurs⟩ := Declaration.exists_parse?_opening
  obtain ⟨line, hline, hinfix⟩ : ∃ line, (lines content)[front.count '\n']? = some line ∧
      Declaration.opening <:+: line := by
    rw [hcontent, ← List.append_assoc]
    exact exists_line_of_infix (by decide) (by decide) (by decide) front back
  obtain ⟨m, hm, hle, hsame⟩ := exists_findLine_eq hline ((hoccurs line).mpr hinfix)
  refine ⟨m, ?_, hle, ?_⟩
  · rw [findPattern, hp]
    exact hm
  · simp only [hsame, hoccurs, lines_eq_splitLines]

/-- The text that is looked at first is a front of the content, and looking there first makes no
    difference. The line that is found is not after the line of the offset, and it is that line
    exactly if the beginning of a header is part of no earlier line. -/
theorem declarationLine_search_exact {content : Text} {first : Site Text} {rest : List (Site Text)}
    (h : declarations content = first :: rest) :
    (∃ back, content = through first.offset content ++ back ∧
      utf8Length (through first.offset content) = first.offset + 1) ∧
    declarationLine .search content (declarations content) =
      findPattern Declaration.opening content ∧
    ∃ m n, declarationLine .search content (declarations content) = .known (m + 1) ∧
      declarationLine .offset content (declarations content) = .known (n + 1) ∧ m ≤ n ∧
      (m = n ↔ ∀ i < n, ∀ line, (splitLines content)[i]? = some line →
        ¬ Declaration.opening <:+: line) := by
  obtain ⟨front, back, hcontent, hoffset, hthrough⟩ :=
    exists_through_eq (h ▸ List.mem_cons_self ..)
  have hstart : Declaration.opening ++ back = 'r' :: (Declaration.opening.tail ++ back) := rfl
  have hsearch : declarationLine .search content (declarations content) =
      findPattern Declaration.opening content := by
    rw [h, declarationLine, hthrough, hcontent, hstart]
    exact findPattern_opening_cut front _
  have hlineAt : declarationLine .offset content (declarations content) =
      .known (front.count '\n' + 1) := by
    rw [h, declarationLine, ← hoffset, hcontent, lineAtOffset_append]
  refine ⟨⟨Declaration.opening.tail ++ back, ?_, ?_⟩, hsearch, ?_⟩
  · rw [hthrough, hcontent, hstart, List.append_assoc, List.singleton_append]
  · rw [hthrough, utf8Length_append, hoffset]
    rfl
  · obtain ⟨m, hm, hle, hsame⟩ := exists_findPattern_opening hcontent
    exact ⟨m, front.count '\n', hsearch.trans hm, hlineAt, hle, hsame⟩

/-- Two declarations after a comment with the beginning of a header. -/
def mentionedBefore : Text :=
  "# ".toList ++ Declaration.opening ++ '\n' :: Declaration.text ['a'] [] ++
    '\n' :: Declaration.text ['b'] []

/-- The search finds the comment. -/
theorem declarationLine_search_exact_mentionedBefore :
    ∃ first second, declarations mentionedBefore = [first, second] ∧
      (∃ back, mentionedBefore = through first.offset mentionedBefore ++ back ∧
        utf8Length (through first.offset mentionedBefore) = first.offset + 1) ∧
      declarationLine .search mentionedBefore (declarations mentionedBefore) =
        findPattern Declaration.opening mentionedBefore ∧
      declarationLine .search mentionedBefore (declarations mentionedBefore) = .known 1 ∧
      declarationLine .offset mentionedBefore (declarations mentionedBefore) = .known 2 := by
  have h : declarations mentionedBefore =
      [⟨44, Declaration.text ['a'] [], ['a']⟩, ⟨91, Declaration.text ['b'] [], ['b']⟩] := by
    decide +kernel
  obtain ⟨hfront, hsearch, -⟩ := declarationLine_search_exact h
  exact ⟨_, _, h, hfront, hsearch, by decide +kernel, by decide +kernel⟩

end PostureAudit
