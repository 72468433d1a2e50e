import PostureAudit.Proofs.Assignment
import PostureAudit.Proofs.Declaration
import PostureAudit.Proofs.Literal

set_option autoImplicit false

/-! # Readers and written patterns

Headers and assignments are read by functions of their own, but what they are is documented by
patterns, each with one group in parentheses: the value is what the group takes. The functions read
what the patterns say (`Assignment.readBy`, `Declaration.readBy`): the pattern can match from a
place, with a value in the group, exactly if the function reads a text with that value there. As a
function has no more than one answer, it makes no difference which of several matches a search would
prefer. -/

namespace PostureAudit

namespace Pattern

variable {p q : Pattern} {L M N : Text → Prop}

/-- The three patterns can match one after the other from a place, so that the second one takes the
    value and the rest is left. -/
def Captures (before group after : Pattern) (k : Cursor) (value rest : Text) : Prop :=
  ∃ l m n, Matches before k l ∧ Matches group l m ∧ Matches after m n ∧
    l.rest = value ++ m.rest ∧ n.rest = rest

theorem captures_iff {before group after : Pattern} (hbefore : Takes before L)
    (hgroup : Takes group M) (hafter : Takes after N) {k : Cursor} {value rest : Text} :
    Captures before group after k value rest ↔
      ∃ u v, L u ∧ M value ∧ N v ∧ k.rest = u ++ (value ++ (v ++ rest)) := by
  constructor
  · rintro ⟨l, m, n, hkl, hlm, hmn, hvalue, rfl⟩
    obtain ⟨u, hu, hL⟩ := (hbefore k l.rest).mp ⟨l, hkl, rfl⟩
    obtain ⟨run, hrun, hM⟩ := (hgroup l m.rest).mp ⟨m, hlm, rfl⟩
    obtain ⟨v, hv, hN⟩ := (hafter m n.rest).mp ⟨n, hmn, rfl⟩
    obtain rfl := List.append_cancel_right (hrun.symm.trans hvalue)
    exact ⟨u, v, hL, hM, hN, by rw [hu, hvalue, hv]⟩
  · rintro ⟨u, v, hL, hM, hN, hk⟩
    obtain ⟨l, hkl, hl⟩ := (hbefore k _).mpr ⟨u, hk, hL⟩
    obtain ⟨m, hlm, hm⟩ := (hgroup l _).mpr ⟨value, hl, hM⟩
    obtain ⟨n, hmn, hn⟩ := (hafter m _).mpr ⟨v, hm, hN⟩
    exact ⟨l, m, n, hkl, hlm, hmn, by rw [hl, hm], hn⟩

theorem matches_concat_append_iff {ps qs : List Pattern} {k l : Cursor} :
    Matches (concat (ps ++ qs)) k l ↔ ∃ m, Matches (concat ps) k m ∧ Matches (concat qs) m l := by
  induction ps generalizing k with
  | nil => simp [concat, matches_empty_iff]
  | cons p ps ih =>
    simp only [List.cons_append, concat, matches_seq_iff, ih]
    constructor
    · rintro ⟨m, hp, n, hps, hqs⟩
      exact ⟨n, ⟨m, hp, hps⟩, hqs⟩
    · rintro ⟨n, ⟨m, hp, hps⟩, hqs⟩
      exact ⟨m, hp, n, hps, hqs⟩

theorem Matches.exists_run {k l : Cursor} (h : Matches p k l) : ∃ run, k.rest = run ++ l.rest := by
  induction h with
  | empty k => exact ⟨[], rfl⟩
  | one h => exact ⟨[_], rfl⟩
  | assert h => exact ⟨[], rfl⟩
  | altLeft _ ih => exact ih
  | altRight _ ih => exact ih
  | starNone k => exact ⟨[], rfl⟩
  | seq _ _ ihp ihq | starMore _ _ ihp ihq =>
    obtain ⟨u, hu⟩ := ihp
    obtain ⟨v, hv⟩ := ihq
    exact ⟨u ++ v, by rw [hu, hv, List.append_assoc]⟩

/-- What is written is a pattern with a group, and the function reads what it matches: the value is
    what the group takes. -/
def ReadBy (written groupWritten : Text) (read : Recogniser Text) : Prop :=
  ∃ before group after,
    parse? written = some (concat (before ++ group :: after)) ∧
    parse? groupWritten = some group ∧
    ∀ k value rest, Captures (concat before) group (concat after) k value rest ↔
      ∃ text, read k.rest = some (value, text) ∧ k.rest = text ++ rest

/-- A function reads a text exactly if its pattern matches that text. -/
theorem ReadBy.exists_parse? {written groupWritten : Text} {read : Recogniser Text}
    (h : ReadBy written groupWritten read) :
    ∃ p, parse? written = some p ∧
      ∀ k rest, (∃ n, Matches p k n ∧ n.rest = rest) ↔
        ∃ value text, read k.rest = some (value, text) ∧ k.rest = text ++ rest := by
  obtain ⟨before, group, after, hparse, -, hcaptures⟩ := h
  refine ⟨_, hparse, fun k rest => ?_⟩
  simp only [← hcaptures, matches_concat_append_iff, concat, matches_seq_iff]
  constructor
  · rintro ⟨n, ⟨l, hkl, m, hlm, hmn⟩, hn⟩
    obtain ⟨value, hvalue⟩ := hlm.exists_run
    exact ⟨value, l, m, n, hkl, hlm, hmn, hvalue, hn⟩
  · rintro ⟨value, l, m, n, hkl, hlm, hmn, -, hn⟩
    exact ⟨n, ⟨l, hkl, m, hlm, hmn⟩, hn⟩

theorem readBy_of_takes {before after : List Pattern} {group : Pattern} {form : Form Text}
    {read : Recogniser Text} {written groupWritten : Text}
    (hparse : parse? written = some (concat (before ++ group :: after)))
    (hgroup : parse? groupWritten = some group)
    (hL : Takes (concat before) L) (hM : Takes group M) (hN : Takes (concat after) N)
    (hform : ∀ text value, form text value ↔
      ∃ u v, L u ∧ M value ∧ N v ∧ text = u ++ (value ++ v))
    (hread : Reads read form) : ReadBy written groupWritten read := by
  refine ⟨before, group, after, hparse, hgroup, fun k value rest => ?_⟩
  rw [captures_iff hL hM hN]
  simp only [hread.read_eq_some_iff, hform]
  constructor
  · rintro ⟨u, v, hu, hvalue, hv, hk⟩
    have htext : k.rest = u ++ (value ++ v) ++ rest := by rw [hk]; simp
    exact ⟨_, ⟨htext ▸ List.prefix_append _ _, u, v, hu, hvalue, hv, rfl⟩, htext⟩
  · rintro ⟨_, ⟨-, u, v, hu, hvalue, hv, rfl⟩, hk⟩
    exact ⟨u, v, hu, hvalue, hv, by rw [hk]; simp⟩

end Pattern

open Pattern

namespace Assignment

/-- What stands in the parentheses of the pattern of an assignment. -/
def valueWritten : Text := "(?:[^\"\\\\\\r\\n]|\\\\.)*".toList

/-- The documented pattern of an assignment to a field. -/
def written (f : Field) : Text :=
  f.name ++ "\\s*=\\s*\"(".toList ++ valueWritten ++ ")\"".toList

/-- The characters that stand for themselves in a value. -/
def plainClass : CharClass :=
  .compl (.union (.union (.union (.union .empty (.single '"')) (.single '\\')) (.single '\r'))
    (.single '\n'))

/-- A backslash and the character that it escapes. -/
def escapedPattern : Pattern := concat [char '\\', .one (.compl (.single '\n'))]

def valuePattern : Pattern :=
  concat [(Pattern.alt (concat [.one plainClass]) escapedPattern).repeated 0 none]

/-- What stands before the value. -/
def leadPieces (f : Field) : List Piece :=
  f.name.map .char ++ [.blanks, .char '=', .blanks, .char '"']

theorem parse?_valueWritten : parse? valueWritten = some valuePattern := by
  decide +kernel

theorem parse?_written (f : Field) :
    parse? (written f) = some (concat ((leadPieces f).map Piece.pattern ++ valuePattern ::
      [Piece.char '"'].map Piece.pattern)) := by
  cases f <;> decide +kernel

theorem contains_plainClass_iff {c : Char} :
    plainClass.contains c = true ↔ c ≠ '"' ∧ c ≠ '\\' ∧ c ≠ '\r' ∧ c ≠ '\n' := by
  simp only [plainClass, CharClass.contains, Bool.not_eq_true', ← Bool.not_eq_true,
    Bool.or_eq_true, CharClass.contains_single, Bool.false_eq_true, false_or, not_or, and_assoc]

/-- One unit of a value. -/
inductive IsUnit : Text → Prop where
  | plain {c : Char} (hc : c ≠ '"' ∧ c ≠ '\\' ∧ c ≠ '\r' ∧ c ≠ '\n') : IsUnit [c]
  | escaped {c : Char} (hc : c ≠ '\n') : IsUnit ['\\', c]

theorem takes_unit : Takes (.alt (concat [.one plainClass]) escapedPattern) IsUnit := by
  have hplain := (takes_one plainClass).seq takes_empty
  have hescaped := (takes_one (.single '\\')).seq
    ((takes_one (.compl (.single '\n'))).seq takes_empty)
  refine (hplain.alt hescaped).congr fun run => ⟨?_, ?_⟩
  · rintro (⟨_, _, rfl, ⟨c, rfl, hc⟩, rfl⟩ |
      ⟨_, _, rfl, ⟨d, rfl, hd⟩, _, _, rfl, ⟨c, rfl, hc⟩, rfl⟩)
    · exact .plain (contains_plainClass_iff.mp hc)
    · rw [CharClass.contains_single] at hd
      subst hd
      exact .escaped (by simpa [CharClass.contains, ← Bool.not_eq_true] using hc)
  · rintro (@⟨c, hc⟩ | @⟨c, hc⟩)
    · exact Or.inl ⟨[c], [], rfl, ⟨c, rfl, contains_plainClass_iff.mpr hc⟩, rfl⟩
    · refine Or.inr ⟨['\\'], [c], rfl, ⟨'\\', rfl, by simp⟩, [c], [], rfl, ⟨c, rfl, ?_⟩, rfl⟩
      simpa [CharClass.contains, ← Bool.not_eq_true] using hc

theorem runs_isUnit_iff {v : Text} : Runs IsUnit v ↔ IsValue v := by
  constructor
  · intro h
    induction h with
    | nil => exact .nil
    | append hu _ ih =>
      cases hu with
      | plain hc => exact .plain hc ih
      | escaped hc => exact .escaped hc ih
  · intro h
    induction h with
    | nil => exact .nil
    | plain hc _ ih => exact .append (.plain hc) ih
    | escaped hc _ ih => exact .append (.escaped hc) ih

theorem takes_valuePattern : Takes valuePattern IsValue := by
  refine ((takes_empty.seq takes_unit.star).seq takes_empty).congr fun run => ?_
  simp [runs_isUnit_iff]

theorem spell_leadPieces_iff {f : Field} {u : Text} :
    Spell (leadPieces f) u ↔ ∃ before after, (∀ c ∈ before, isBlank c = true) ∧
      (∀ c ∈ after, isBlank c = true) ∧ u = f.name ++ before ++ '=' :: after ++ ['"'] := by
  simp only [leadPieces, spell_map_char_iff, Spell, Piece.Spells]
  constructor
  · rintro ⟨_, rfl, before, _, rfl, hbefore, _, _, rfl, rfl, after, _, rfl, hafter, _, _, rfl, rfl,
      rfl⟩
    exact ⟨before, after, hbefore, hafter, by simp⟩
  · rintro ⟨before, after, hbefore, hafter, rfl⟩
    exact ⟨before ++ '=' :: after ++ ['"'], by simp, before, _, by simp, hbefore, ['='], _, rfl,
      rfl, after, ['"'], rfl, hafter, ['"'], [], rfl, rfl, rfl⟩

/-- The assignments to a field are read as their pattern says. -/
theorem readBy (f : Field) : ReadBy (written f) valueWritten (read f) := by
  refine readBy_of_takes (parse?_written f) parse?_valueWritten (takes_concat _)
    takes_valuePattern (takes_concat _) (fun text value => ?_) (reads f)
  simp only [spell_leadPieces_iff, Spell, Piece.Spells]
  constructor
  · rintro ⟨before, after, hbefore, hafter, hvalue, rfl⟩
    exact ⟨_, ['"'], ⟨before, after, hbefore, hafter, rfl⟩, hvalue, ⟨['"'], [], rfl, rfl, rfl⟩,
      by simp [Assignment.text]⟩
  · rintro ⟨_, _, ⟨before, after, hbefore, hafter, rfl⟩, hvalue, ⟨_, _, rfl, rfl, rfl⟩, rfl⟩
    exact ⟨before, after, hbefore, hafter, hvalue, by simp [Assignment.text]⟩

end Assignment

namespace Declaration

/-- What stands in the parentheses of the pattern of a header. -/
def labelWritten : Text := "[^\"]*".toList

/-- The documented pattern of a header. -/
def written : Text :=
  "resource \"".toList ++ resourceType ++ "\" \"(".toList ++ labelWritten ++
    ")\"\\s*\\\x7B".toList

def labelClass : CharClass := .compl (.union .empty (.single '"'))

def labelPattern : Pattern := concat [(Pattern.one labelClass).repeated 0 none]

/-- What stands after the label. -/
def tailPieces : List Piece := [.char '"', .blanks, .char '\x7B']

theorem parse?_labelWritten : parse? labelWritten = some labelPattern := by
  decide +kernel

theorem parse?_written :
    parse? written = some (concat ((lead.map Piece.char).map Piece.pattern ++ labelPattern ::
      tailPieces.map Piece.pattern)) := by
  decide +kernel

theorem takes_labelPattern : Takes labelPattern fun label => '"' ∉ label := by
  have hclass : Takes (.star (.one labelClass)) fun label => '"' ∉ label := by
    refine (takes_star_one labelClass).congr fun label => ?_
    simp only [labelClass, CharClass.contains, Bool.not_eq_true', ← Bool.not_eq_true,
      Bool.or_eq_true, CharClass.contains_single, Bool.false_eq_true, false_or]
    exact ⟨fun h hquote => h _ hquote rfl, fun h c hc heq => h (heq ▸ hc)⟩
  refine ((takes_empty.seq hclass).seq takes_empty).congr fun label => ?_
  simp

theorem spell_tailPieces_iff {v : Text} :
    Spell tailPieces v ↔
      ∃ blanks, (∀ c ∈ blanks, isBlank c = true) ∧ v = '"' :: blanks ++ ['\x7B'] := by
  simp only [tailPieces, Spell, Piece.Spells]
  constructor
  · rintro ⟨_, _, rfl, rfl, blanks, _, rfl, hblanks, _, _, rfl, rfl, rfl⟩
    exact ⟨blanks, hblanks, rfl⟩
  · rintro ⟨blanks, hblanks, rfl⟩
    exact ⟨['"'], _, rfl, rfl, blanks, _, rfl, hblanks, ['\x7B'], [], rfl, rfl, rfl⟩

/-- Headers are read as their pattern says. -/
theorem readBy : ReadBy written labelWritten read := by
  refine readBy_of_takes parse?_written parse?_labelWritten (takes_concat _) takes_labelPattern
    (takes_concat _) (fun text label => ?_) reads
  simp only [spell_tailPieces_iff, spell_chars_iff]
  constructor
  · rintro ⟨blanks, hlabel, hblanks, rfl⟩
    exact ⟨lead, _, rfl, hlabel, ⟨blanks, hblanks, rfl⟩, by simp [text_eq]⟩
  · rintro ⟨_, _, rfl, hlabel, ⟨blanks, hblanks, rfl⟩, rfl⟩
    exact ⟨blanks, hlabel, hblanks, by simp [text_eq]⟩

end Declaration

end PostureAudit
