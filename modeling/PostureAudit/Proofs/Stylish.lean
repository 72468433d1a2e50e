import PostureAudit.Report.Stylish
import Mathlib.Data.List.Induction
import Mathlib.Data.List.Nodup

set_option autoImplicit false

/-! # The stylish report loses nothing

Grouping keeps every diagnostic: the groups are those of the files in the order in which they first
occur, and each is what is left of the diagnostics if those of other files are left out
(`groupByFile_eq`). Colours add nothing but control sequences. Files and messages may hold such
sequences themselves, or parts of them, but a piece that is painted stands between characters that
no control sequence goes on with, so none is made up or broken where pieces meet
(`dropControls_paint`). What a line of the report is made of is said by `Diagnostic.IsStylish`. -/

namespace PostureAudit

/-! ## Groups -/

theorem flatMap_addToGroup_perm (d : Diagnostic) (groups : List (Text × List Diagnostic)) :
    ((addToGroup d groups).flatMap (·.2)).Perm (d :: groups.flatMap (·.2)) := by
  induction groups with
  | nil => exact .refl _
  | cons g groups ih =>
    obtain ⟨file, group⟩ := g
    unfold addToGroup
    split
    · simp only [List.flatMap_cons, List.append_assoc, List.singleton_append]
      exact List.perm_middle
    · simp only [List.flatMap_cons]
      exact (ih.append_left group).trans List.perm_middle

/-- Every diagnostic is in one group. -/
theorem flatMap_groupByFile_perm (ds : List Diagnostic) :
    ((groupByFile ds).flatMap (·.2)).Perm ds := by
  induction ds using List.reverseRecOn with
  | nil => exact .refl _
  | append_singleton ds d ih =>
    rw [groupByFile, List.foldl_concat]
    exact (flatMap_addToGroup_perm d _).trans
      ((ih.cons d).trans (List.perm_append_singleton d ds).symm)

/-- A diagnostic joins the group of its file, and no other one. -/
theorem addToGroup_of_mem {d : Diagnostic} {files : List Text} (hfiles : files.Nodup)
    (hd : d.file ∈ files) (group : Text → List Diagnostic) :
    addToGroup d (files.map fun file => (file, group file)) =
      files.map fun file => (file, group file ++ if d.file = file then [d] else []) := by
  induction files with
  | nil => exact absurd hd List.not_mem_nil
  | cons file files ih =>
    obtain ⟨hfile, hrest⟩ := List.nodup_cons.mp hfiles
    rw [List.map_cons, List.map_cons, addToGroup]
    by_cases h : file = d.file
    · rw [if_pos h, if_pos h.symm]
      congr 1
      refine List.map_congr_left fun other hother => ?_
      have hne : d.file ≠ other := fun heq => hfile (h.trans heq ▸ hother)
      rw [if_neg hne, List.append_nil]
    · have hlater : d.file ∈ files := (List.mem_cons.mp hd).resolve_left (Ne.symm h)
      rw [if_neg h, if_neg (Ne.symm h), List.append_nil, ih hrest hlater]

theorem addToGroup_of_not_mem {d : Diagnostic} {files : List Text} (hd : d.file ∉ files)
    (group : Text → List Diagnostic) :
    addToGroup d (files.map fun file => (file, group file)) =
      (files.map fun file => (file, group file)) ++ [(d.file, [d])] := by
  induction files with
  | nil => rfl
  | cons file files ih =>
    obtain ⟨hfile, hrest⟩ := List.ne_and_not_mem_of_not_mem_cons hd
    rw [List.map_cons, addToGroup, if_neg hfile.symm, ih hrest, List.cons_append]

theorem eraseDups_concat {α : Type} [BEq α] [LawfulBEq α] (items : List α) (item : α) :
    (items ++ [item]).eraseDups =
      if item ∈ items then items.eraseDups else items.eraseDups ++ [item] := by
  rw [List.eraseDups_append, List.removeAll, List.filter_singleton]
  by_cases h : item ∈ items <;> simp [h, List.eraseDups_cons]

theorem nodup_eraseDups {α : Type} [BEq α] [LawfulBEq α] (items : List α) :
    items.eraseDups.Nodup := by
  induction items using List.reverseRecOn with
  | nil => exact .nil
  | append_singleton items item ih =>
    rw [eraseDups_concat]
    split
    next => exact ih
    next h =>
      refine List.nodup_append'.mpr ⟨ih, List.nodup_singleton item, ?_⟩
      rwa [List.disjoint_singleton, List.mem_eraseDups]

/-- The groups of the files in the order in which they first occur, each with the diagnostics of
    its file in their order. -/
theorem groupByFile_eq (ds : List Diagnostic) :
    groupByFile ds = (ds.map (·.file)).eraseDups.map fun file =>
      (file, ds.filter (·.file = file)) := by
  induction ds using List.reverseRecOn with
  | nil => rfl
  | append_singleton ds d ih =>
    have hfilter (file : Text) : (ds ++ [d]).filter (·.file = file) =
        ds.filter (·.file = file) ++ if d.file = file then [d] else [] := by
      rw [List.filter_append, List.filter_singleton]
      by_cases h : d.file = file <;> simp [h]
    have hgroups : groupByFile (ds ++ [d]) = addToGroup d (groupByFile ds) := List.foldl_concat ..
    simp only [hgroups, ih, hfilter, List.map_append, List.map_singleton, eraseDups_concat]
    split
    next h => exact addToGroup_of_mem (nodup_eraseDups _) (List.mem_eraseDups.mpr h) _
    next h =>
      have hnew : ds.filter (·.file = d.file) = [] := by
        refine List.filter_eq_nil_iff.mpr fun other hother heq => h ?_
        exact of_decide_eq_true heq ▸ List.mem_map_of_mem hother
      have hold : ∀ file ∈ (ds.map (·.file)).eraseDups, d.file ≠ file := by
        rintro file hfile rfl
        exact h (List.mem_eraseDups.mp hfile)
      rw [addToGroup_of_not_mem fun hmem => h (List.mem_eraseDups.mp hmem), List.map_append,
        List.map_singleton, hnew, if_pos rfl, List.nil_append]
      congr 1
      refine List.map_congr_left fun file hfile => ?_
      rw [if_neg (hold file hfile), List.append_nil]

/-! ## Control sequences -/

namespace Text

/-- Holds of the characters that the codes of a control sequence are written with. -/
def isCode (c : Char) : Bool := c.isDigit || c = ';'

/-- The rest of the text after the control sequence at its start, if there is one: an escape, a
    bracket, any codes, and the letter `m`. -/
def afterControl? : Text → Option Text
  | '\x1b' :: '[' :: t => after? ['m'] (t.dropWhile isCode)
  | _ => none

theorem afterControl?_eq_some_iff {t rest : Text} :
    afterControl? t = some rest ↔
      ∃ codes, (∀ c ∈ codes, isCode c = true) ∧ t = Style.controlSequence codes ++ rest := by
  have hm : isCode 'm' = false := by decide
  have hsequence (codes : Text) : Style.controlSequence codes ++ rest =
      '\x1b' :: '[' :: (codes ++ 'm' :: rest) := by
    simp [Style.controlSequence, Style.escape]
  unfold afterControl?
  split
  next t =>
    rw [after?_eq_some_iff]
    constructor
    · intro hrest
      obtain ⟨ht, hcodes⟩ := (span_eq_iff isCode hm).mp ⟨rfl, hrest⟩
      exact ⟨t.takeWhile isCode, hcodes,
        (congrArg ('\x1b' :: '[' :: ·) ht).trans (hsequence _).symm⟩
    · rintro ⟨codes, hcodes, ht⟩
      rw [hsequence, List.cons.injEq, List.cons.injEq] at ht
      exact ((span_eq_iff isCode hm).mpr ⟨ht.2.2, hcodes⟩).2
  next hother =>
    refine iff_of_false nofun ?_
    rintro ⟨codes, -, rfl⟩
    exact hother _ (hsequence codes)

theorem afterControl?_eq_none_iff {t : Text} :
    afterControl? t = none ↔
      ∀ codes rest, (∀ c ∈ codes, isCode c = true) → t ≠ Style.controlSequence codes ++ rest := by
  simp only [Option.eq_none_iff_forall_ne_some, ne_eq, afterControl?_eq_some_iff, not_exists,
    not_and]
  exact forall_comm

/-- The codes of a control sequence are known by the text that it starts. -/
theorem eq_of_controlSequence_append {codes codes' rest rest' : Text}
    (hcodes : ∀ c ∈ codes, isCode c = true) (hcodes' : ∀ c ∈ codes', isCode c = true)
    (h : Style.controlSequence codes ++ rest = Style.controlSequence codes' ++ rest') :
    codes = codes' := by
  have hm : isCode 'm' = false := by decide
  have htails : codes ++ 'm' :: rest = codes' ++ 'm' :: rest' := by
    simpa [Style.controlSequence] using h
  obtain ⟨hrun, -⟩ := (span_eq_iff isCode hm).mpr ⟨rfl, hcodes⟩
  obtain ⟨hrun', -⟩ := (span_eq_iff isCode hm).mpr ⟨htails, hcodes'⟩
  exact hrun.symm.trans hrun'

/-- A text without the control sequences that are found in it from left to right. -/
def dropControls : Text → Text
  | [] => []
  | c :: t =>
    match _h : afterControl? (c :: t) with
    | some rest => dropControls rest
    | none => c :: dropControls t
termination_by t => t.length
decreasing_by
  · obtain ⟨codes, -, ht⟩ := afterControl?_eq_some_iff.mp _h
    simp [ht, Style.controlSequence]
    omega
  · simp

@[simp] theorem dropControls_nil : dropControls [] = [] := by rw [dropControls]

theorem dropControls_of_some {t rest : Text} (h : afterControl? t = some rest) :
    dropControls t = dropControls rest := by
  cases t with
  | nil => cases h
  | cons c t =>
    rw [dropControls]
    split
    next rest' h' => rw [Option.some.inj (h.symm.trans h')]
    next h' => cases h.symm.trans h'

theorem dropControls_of_none {c : Char} {t : Text} (h : afterControl? (c :: t) = none) :
    dropControls (c :: t) = c :: dropControls t := by
  rw [dropControls]
  split
  next rest h' => cases h.symm.trans h'
  next => rfl

theorem dropControls_control {codes : Text} (hcodes : ∀ c ∈ codes, isCode c = true) (t : Text) :
    dropControls (Style.controlSequence codes ++ t) = dropControls t :=
  dropControls_of_some (afterControl?_eq_some_iff.mpr ⟨codes, hcodes, rfl⟩)

/-- The character stands in no control sequence, except as the escape at its start. -/
structure EndsControl (c : Char) : Prop where
  ne_bracket : c ≠ '['
  ne_m : c ≠ 'm'
  not_code : isCode c = false

theorem EndsControl.notMem {c : Char} (h : EndsControl c) {codes : Text}
    (hcodes : ∀ c ∈ codes, isCode c = true) : c ∉ '[' :: codes ++ ['m'] := by
  intro hc
  rcases List.mem_append.mp hc with hc | hc
  · rcases List.mem_cons.mp hc with hc | hc
    · exact h.ne_bracket hc
    · exact Bool.false_ne_true (h.not_code.symm.trans (hcodes c hc))
  · exact h.ne_m (List.mem_singleton.mp hc)

/-- No control sequence runs over a character that ends them. -/
theorem dropControls_append {c : Char} (hc : EndsControl c) (front t : Text) :
    dropControls (front ++ c :: t) = dropControls front ++ dropControls (c :: t) := by
  fun_induction dropControls front with
  | case1 => rfl
  | case2 d front rest hsome ih =>
    obtain ⟨codes, hcodes, hfront⟩ := afterControl?_eq_some_iff.mp hsome
    rw [hfront, List.append_assoc, dropControls_control hcodes, ih]
  | case3 d front hnone ih =>
    have hnone' : afterControl? (d :: (front ++ c :: t)) = none := by
      refine afterControl?_eq_none_iff.mpr fun codes rest hcodes hsplit => ?_
      have hnot := afterControl?_eq_none_iff.mp hnone codes
      rw [← List.cons_append] at hsplit
      rcases List.append_eq_append_iff.mp hsplit with
        ⟨between, hcontrol, hback⟩ | ⟨rest', hfront, -⟩
      · cases between with
        | nil => exact hnot [] hcodes (by rw [hcontrol, List.append_nil, List.append_nil])
        | cons e between =>
          -- the character would stand in the sequence
          obtain ⟨rfl, -⟩ := List.cons.inj hback
          have htail : '[' :: codes ++ ['m'] = front ++ c :: between :=
            congrArg List.tail hcontrol
          exact hc.notMem hcodes (htail ▸ List.mem_append_right front (List.mem_cons_self ..))
      · exact hnot rest' hcodes hfront
    rw [List.cons_append, dropControls_of_none hnone', ih, List.cons_append]

theorem endsControl_escape : EndsControl Style.escape := ⟨by decide, by decide, by decide⟩

/-- A separator splits a text for the removal of control sequences. -/
theorem dropControls_separated {c : Char} (hc : EndsControl c) (hescape : c ≠ Style.escape)
    (front t : Text) :
    dropControls (front ++ c :: t) = dropControls front ++ c :: dropControls t := by
  have hnone : afterControl? (c :: t) = none :=
    afterControl?_eq_none_iff.mpr fun codes rest _ ht => hescape (List.cons.inj ht).1
  rw [dropControls_append hc, dropControls_of_none hnone]

end Text

namespace Style

open Text

theorem isCode_of_mem_codes (s : Style) : ∀ c ∈ s.codes, isCode c = true := by
  have hall : s.codes.all isCode = true := by cases s <;> decide
  exact List.all_eq_true.mp hall

theorem isCode_zero : ∀ c ∈ "0".toList, isCode c = true := by
  have hall : "0".toList.all isCode = true := by decide
  exact List.all_eq_true.mp hall

/-! ## Painting -/

/-- A character after which no reset sequence is complete stays in its place. -/
theorem reopen_cons (s : Style) {c : Char} {t : Text} (h : ∀ rest, c :: t ≠ reset ++ rest) :
    s.reopen (c :: t) = c :: s.reopen t :=
  reopen.eq_2 s c t fun rest hc ht => h rest (by rw [hc, ht]; rfl)

theorem reopen_append (s : Style) {front : Text} (h : escape ∉ front) (t : Text) :
    s.reopen (front ++ t) = front ++ s.reopen t := by
  induction front with
  | nil => rfl
  | cons c front ih =>
    obtain ⟨hc, hrest⟩ := List.ne_and_not_mem_of_not_mem_cons h
    rw [List.cons_append, reopen_cons s fun rest heq => hc (List.cons.inj heq).1.symm, ih hrest,
      List.cons_append]

/-- What has no escape and begins a text after the reopening begins it before that. -/
theorem exists_of_reopen_eq (s : Style) {t front rest : Text} (hfront : escape ∉ front)
    (h : s.reopen t = front ++ rest) : ∃ rest', t = front ++ rest' ∧ s.reopen rest' = rest := by
  induction front generalizing t with
  | nil => exact ⟨t, rfl, h⟩
  | cons c front ih =>
    obtain ⟨hc, hmore⟩ := List.ne_and_not_mem_of_not_mem_cons hfront
    cases t with
    | nil => cases h
    | cons d t =>
      by_cases hreset : ∃ rest, d :: t = reset ++ rest
      · obtain ⟨rest', heq⟩ := hreset
        rw [heq] at h
        exact absurd (List.cons.inj h).1 hc
      · rw [reopen_cons s (not_exists.mp hreset), List.cons_append, List.cons.injEq] at h
        obtain ⟨rfl, h⟩ := h
        obtain ⟨rest', rfl, hrest'⟩ := ih hmore h
        exact ⟨rest', rfl, hrest'⟩

theorem escape_notMem_end {codes : Text} (hcodes : ∀ c ∈ codes, isCode c = true) :
    escape ∉ '[' :: codes ++ ['m'] :=
  endsControl_escape.notMem hcodes

/-- The control sequences of a text stay whole, and none is made up in between. -/
theorem dropControls_reopen (s : Style) (t : Text) :
    dropControls (s.reopen t) = dropControls t := by
  fun_induction dropControls t with
  | case1 => exact dropControls_nil
  | case2 c t rest hsome ih =>
    obtain ⟨codes, hcodes, ht⟩ := afterControl?_eq_some_iff.mp hsome
    rw [ht]
    by_cases hzero : codes = "0".toList
    · have hreopen : s.reopen (reset ++ rest) = reset ++ (s.opening ++ s.reopen rest) := by
        rw [← List.append_assoc]
        rfl
      rw [hzero, ← reset, hreopen, reset, dropControls_control isCode_zero, opening,
        dropControls_control s.isCode_of_mem_codes, ih]
    · have hother : ∀ rest', controlSequence codes ++ rest ≠ reset ++ rest' := fun rest' heq =>
        hzero (eq_of_controlSequence_append hcodes isCode_zero heq)
      have hreopen : s.reopen (controlSequence codes ++ rest) =
          controlSequence codes ++ s.reopen rest :=
        (s.reopen_cons hother).trans
          (congrArg (escape :: ·) (s.reopen_append (escape_notMem_end hcodes) rest))
      rw [hreopen, dropControls_control hcodes, ih]
  | case3 c t hnone ih =>
    have hnot := afterControl?_eq_none_iff.mp hnone
    have hnone' : afterControl? (c :: s.reopen t) = none := by
      refine afterControl?_eq_none_iff.mpr fun codes rest hcodes heq => ?_
      obtain ⟨rfl, hreopen⟩ := List.cons.inj heq
      obtain ⟨rest', rfl, -⟩ := s.exists_of_reopen_eq (escape_notMem_end hcodes) hreopen
      exact hnot codes rest' hcodes rfl
    rw [s.reopen_cons fun rest => hnot _ rest isCode_zero, dropControls_of_none hnone', ih]

/-- What is left of a painted piece is what is left of the piece. -/
theorem dropControls_paint (s : Style) (colouring : Colouring) (t : Text) :
    dropControls (s.paint colouring t) = dropControls t := by
  cases colouring with
  | plain => rfl
  | coloured =>
    have hreset : dropControls reset = [] := by
      rw [reset, ← List.append_nil (controlSequence _), dropControls_control isCode_zero,
        dropControls_nil]
    have hend : dropControls (s.reopen t ++ reset) = dropControls (s.reopen t) ++
        dropControls reset := dropControls_append endsControl_escape _ _
    rw [paint, List.append_assoc, opening, dropControls_control s.isCode_of_mem_codes, hend, hreset,
      List.append_nil, dropControls_reopen]

end Style

/-! ## The report -/

namespace Text

theorem dropControls_lineFeed (front t : Text) :
    dropControls (front ++ '\n' :: t) = dropControls front ++ '\n' :: dropControls t :=
  dropControls_separated ⟨by decide, by decide, by decide⟩ (by decide) front t

theorem dropControls_space (front t : Text) :
    dropControls (front ++ ' ' :: t) = dropControls front ++ ' ' :: dropControls t :=
  dropControls_separated ⟨by decide, by decide, by decide⟩ (by decide) front t

/-- Two spaces, as they stand between the columns of a report. -/
theorem dropControls_columns (front t : Text) :
    dropControls (front ++ "  ".toList ++ t) = dropControls front ++ "  ".toList ++
      dropControls t := by
  have hspaces (front t : Text) : front ++ "  ".toList ++ t = front ++ ' ' :: ([] ++ ' ' :: t) :=
    List.append_assoc ..
  rw [hspaces, hspaces, dropControls_space, dropControls_space, dropControls_nil]

theorem dropControls_indented (t : Text) :
    dropControls ("  ".toList ++ t) = "  ".toList ++ dropControls t := by
  have h := dropControls_columns [] t
  rwa [dropControls_nil] at h

/-- Lines are rid of control sequences one by one. -/
theorem dropControls_lines {α : Type} (line : α → Text) (items : List α) (t : Text) :
    dropControls (items.flatMap (fun item => line item ++ ['\n']) ++ t) =
      items.flatMap (fun item => dropControls (line item) ++ ['\n']) ++ dropControls t := by
  induction items with
  | nil => rfl
  | cons item items ih =>
    simp only [List.flatMap_cons, List.append_assoc, List.cons_append, List.nil_append]
    rw [dropControls_lineFeed, ih]

end Text

open Text

theorem Diagnostic.dropControls_stylishLine (colouring : Colouring) (d : Diagnostic) :
    dropControls (d.stylishLine colouring) = dropControls (d.stylishLine .plain) := by
  have hline (colouring : Colouring) : d.stylishLine colouring =
      "  ".toList ++ Style.dimmed.paint colouring (padLeft lineColumnWidth d.lineText) ++
        "  ".toList ++ d.level.style.paint colouring d.level.name ++
        "  ".toList ++ d.message ++ "  ".toList ++ Style.dimmed.paint colouring d.rule.name := rfl
  simp only [hline, dropControls_columns, dropControls_indented, Style.dropControls_paint]

theorem dropControls_stylishGroups (colouring : Colouring)
    (groups : List (Text × List Diagnostic)) (t : Text) :
    dropControls (groups.flatMap (stylishGroup colouring) ++ t) =
      (groups.flatMap fun g => dropControls g.1 ++ '\n' ::
        (g.2.flatMap fun d => dropControls (d.stylishLine .plain) ++ ['\n']) ++ ['\n']) ++
        dropControls t := by
  have hlines (ds : List Diagnostic) :
      dropControls (ds.flatMap fun d => d.stylishLine colouring ++ ['\n']) =
        ds.flatMap fun d => dropControls (d.stylishLine .plain) ++ ['\n'] := by
    have h := dropControls_lines (Diagnostic.stylishLine colouring) ds []
    simpa only [List.append_nil, dropControls_nil, Diagnostic.dropControls_stylishLine] using h
  refine (dropControls_lines _ groups t).trans ?_
  simp only [dropControls_lineFeed, Style.dropControls_paint, hlines]

/-! ## The documented form -/

/-- The text stands at the end of a column that is as wide as given, or wider if the text is. -/
def Text.IsFlushRight (width : Nat) (t column : Text) : Prop :=
  (∃ blanks, column = List.replicate blanks ' ' ++ t) ∧ column.length = max width t.length

theorem Text.isFlushRight_padLeft (width : Nat) (t : Text) :
    t.IsFlushRight width (padLeft width t) := by
  refine ⟨⟨_, rfl⟩, ?_⟩
  rw [padLeft, List.length_append, List.length_replicate]
  omega

namespace Diagnostic

/-- The form of a stylish line: two spaces and, two spaces apart, the number of the line or a dash
    at the end of five columns, the level, the message and the code of the rule. -/
inductive IsStylish (d : Diagnostic) : Text → Prop where
  | intro {number column level : Text}
    (hnumber : (∃ n, d.line = .known n ∧ number = ofNat n) ∨
      d.line = .unknown ∧ number = "-".toList)
    (hcolumn : number.IsFlushRight 5 column)
    (hlevel : d.level = .error ∧ level = "error".toList ∨
      d.level = .warning ∧ level = "warning".toList) :
    IsStylish d ("  ".toList ++ column ++ "  ".toList ++ level ++ "  ".toList ++ d.message ++
      "  ".toList ++ d.rule.name)

theorem isStylish_stylishLine (d : Diagnostic) : d.IsStylish (d.stylishLine .plain) := by
  have hnumber : (∃ n, d.line = .known n ∧ d.lineText = ofNat n) ∨
      d.line = .unknown ∧ d.lineText = "-".toList := by
    unfold lineText
    cases d.line with
    | known n => exact Or.inl ⟨n, rfl, rfl⟩
    | unknown => exact Or.inr ⟨rfl, rfl⟩
  have hlevel : d.level = .error ∧ d.level.name = "error".toList ∨
      d.level = .warning ∧ d.level.name = "warning".toList := by
    cases d.level with
    | error => exact Or.inl ⟨rfl, rfl⟩
    | warning => exact Or.inr ⟨rfl, rfl⟩
  exact .intro hnumber (Text.isFlushRight_padLeft lineColumnWidth _) hlevel

example : (⟨⟨.invalidPolicyId, "a.tf".toList, .known 7, "Bad.".toList⟩, .warning⟩ :
    Diagnostic).stylishLine .plain = "      7  warning  Bad.  invalid_policy_id".toList := by
  decide

end Diagnostic

namespace Outcome

theorem dropControls_stylishReport (colouring : Colouring) (o : Outcome) :
    dropControls (o.stylishReport colouring) = dropControls (o.stylishReport .plain) := by
  unfold stylishReport
  split
  · simp only [dropControls_lineFeed, Style.dropControls_paint]
  · simp only [List.append_assoc, dropControls_stylishGroups, dropControls_lineFeed,
      Style.dropControls_paint]

/-- Every diagnostic is an error or a warning. -/
theorem length_diagnostics (o : Outcome) :
    o.diagnostics.length = o.count .error + o.count .warning := by
  rw [List.length_eq_countP_add_countP fun d => decide (d.level = .error), count, count]
  congr 1
  refine List.countP_congr fun d _ => ?_
  cases d.level <;> decide

/-- The stylish report of an outcome loses no diagnostic and makes up none: the groups are those of
    the files, each of them once and in the order in which they first occur, a group is what the
    diagnostics have for its file, in their order, and nothing else is printed but a summary, in
    which the problems are the errors and the warnings. The line of a diagnostic has its line
    number, its level, all of its message and the code of its rule. With colours the report is the
    same text, apart from control sequences. -/
theorem stylishReport_lossless (o : Outcome) :
    groupByFile o.diagnostics = ((o.diagnostics.map (·.file)).eraseDups.map fun file =>
      (file, o.diagnostics.filter (·.file = file))) ∧
    ((groupByFile o.diagnostics).map (·.1)).Nodup ∧
    ((groupByFile o.diagnostics).flatMap (·.2)).Perm o.diagnostics ∧
    (∀ d : Diagnostic, d.IsStylish (d.stylishLine .plain)) ∧
    (o.diagnostics ≠ [] →
      o.stylishReport .plain =
        ((groupByFile o.diagnostics).flatMap fun (file, group) =>
          file ++ '\n' :: group.flatMap (fun d => d.stylishLine .plain ++ ['\n']) ++ ['\n']) ++
        ("✖ ".toList ++ ofNat (o.count .error + o.count .warning) ++ " problem(s) (".toList ++
          ofNat (o.count .error) ++ " error(s), ".toList ++ ofNat (o.count .warning) ++
          " warning(s)) in ".toList ++ ofNat o.filesChecked ++ " file(s) checked".toList) ++
        ['\n']) ∧
    (o.diagnostics = [] →
      o.stylishReport .plain =
        "✓ No issues found in ".toList ++ ofNat o.filesChecked ++ " file(s)".toList ++ ['\n']) ∧
    dropControls (o.stylishReport .coloured) = dropControls (o.stylishReport .plain) := by
  refine ⟨groupByFile_eq _, ?distinct, flatMap_groupByFile_perm _,
    Diagnostic.isStylish_stylishLine, ?groups, ?clean, o.dropControls_stylishReport .coloured⟩
  case distinct =>
    rw [groupByFile_eq, List.map_map]
    exact (List.map_id _).symm ▸ nodup_eraseDups _
  case groups =>
    intro hne
    rw [stylishReport, List.isEmpty_eq_false_iff.mpr hne, ← length_diagnostics]
    rfl
  case clean =>
    intro hnone
    rw [stylishReport, List.isEmpty_iff.mpr hnone]
    rfl

end Outcome

end PostureAudit
