import PostureAudit.Posture.Identifier
import PostureAudit.Proofs.Pattern

set_option autoImplicit false

/-! # What the format of identifiers says

Both formats are read from their written patterns; what is read has the form of `anchored`, and an
anchored pattern occurs in a text exactly if all of the text has the shape that it describes
(`occursIn_anchored_iff`). So a field accepts its identifiers and nothing else
(`accepts_iff_isIdentifier`), and any other value is a violation of its rule
(`violation?_exact`). -/

namespace PostureAudit

namespace Pattern

/-- The class of the characters in some ranges, as it is read from a bracketed class. -/
def bracket (ranges : List (Char × Char)) : CharClass :=
  ranges.foldl (fun acc r => .union acc (.range r.1 r.2 false)) .empty

theorem contains_bracket_iff {ranges : List (Char × Char)} {c : Char} :
    (bracket ranges).contains c = true ↔ ∃ r ∈ ranges, r.1 ≤ c ∧ c ≤ r.2 := by
  have hgrow (acc : CharClass) :
      (ranges.foldl (fun acc r => .union acc (.range r.1 r.2 false)) acc).contains c = true ↔
        acc.contains c = true ∨ ∃ r ∈ ranges, r.1 ≤ c ∧ c ≤ r.2 := by
    induction ranges generalizing acc with
    | nil => simp
    | cons r ranges ih => simp [ih, CharClass.contains, or_assoc]
  rw [bracket, hgrow]
  simp [CharClass.contains]

/-- A character of one class and up to `most` of another, with nothing before or after. -/
def anchored (first other : CharClass) (most : Nat) : Pattern :=
  concat [.assert .textStart, .one first, (Pattern.one other).repeated 0 (some most),
    .assert .textEnd]

theorem exists_matches_upTo_iff {s : CharClass} {n : Nat} {k : Cursor} {rest : Text} :
    (∃ l, Matches (upTo (.one s) n) k l ∧ l.rest = rest) ↔
      ∃ run, k.rest = run ++ rest ∧ run.length ≤ n ∧ ∀ c ∈ run, s.contains c = true := by
  induction n generalizing k with
  | zero =>
    simp only [upTo, matches_empty_iff, Nat.le_zero, List.length_eq_zero_iff]
    constructor
    · rintro ⟨l, rfl, hrest⟩
      exact ⟨[], hrest, rfl, by simp⟩
    · rintro ⟨run, hrun, rfl, -⟩
      exact ⟨k, rfl, hrun⟩
  | succ n ih =>
    simp only [upTo, matches_alt_iff, matches_seq_iff, matches_one_iff, matches_empty_iff]
    constructor
    · rintro ⟨l, ⟨m, ⟨c, t, hk, hc, rfl⟩, hmore⟩ | rfl, hrest⟩
      · obtain ⟨run, hrun, hlength, hall⟩ := ih.mp ⟨l, hmore, hrest⟩
        refine ⟨c :: run, ?_, Nat.succ_le_succ hlength, List.forall_mem_cons.mpr ⟨hc, hall⟩⟩
        rw [hk, List.cons_append, ← hrun]
      · exact ⟨[], hrest, Nat.zero_le _, by simp⟩
    · rintro ⟨run, hrun, hlength, hall⟩
      cases run with
      | nil => exact ⟨k, Or.inr rfl, hrun⟩
      | cons c run =>
        obtain ⟨hc, hall⟩ := List.forall_mem_cons.mp hall
        obtain ⟨l, hmore, hrest⟩ := (ih (k := ⟨k.index + 1, some c, run ++ rest⟩)).mpr
          ⟨run, rfl, Nat.le_of_succ_le_succ hlength, hall⟩
        exact ⟨l, Or.inl ⟨_, ⟨c, run ++ rest, hrun, hc, rfl⟩, hmore⟩, hrest⟩

/-- Only the first place of a line has nothing before it. -/
theorem mem_all_and_before_eq_none_iff {t : Text} {k : Cursor} :
    k ∈ Cursor.all t ∧ k.before = none ↔ k = Cursor.start t := by
  have hlater (index : Nat) (b : Char) (t : Text) :
      ∀ k ∈ Cursor.andAfter index (some b) t, k.before ≠ none := by
    induction t generalizing index b with
    | nil => simp [Cursor.andAfter]
    | cons c t ih =>
      intro k hk
      rcases List.mem_cons.mp hk with rfl | hk
      · exact Option.some_ne_none b
      · exact ih _ _ k hk
  cases t with
  | nil => simp +contextual [Cursor.all, Cursor.andAfter, Cursor.start]
  | cons c t =>
    constructor
    · rintro ⟨hk, hbefore⟩
      rcases List.mem_cons.mp hk with rfl | hk
      · rfl
      · exact absurd hbefore (hlater _ _ _ k hk)
    · rintro rfl
      exact ⟨List.mem_cons_self .., rfl⟩

theorem occursIn_anchored_iff {first other : CharClass} {most : Nat} {t : Text} :
    (anchored first other most).occursIn t = true ↔
      ∃ c rest, t = c :: rest ∧ first.contains c = true ∧ rest.length ≤ most ∧
        ∀ d ∈ rest, other.contains d = true := by
  have hrepeat (k : Cursor) :
      (∃ l, Matches (upTo (.one other) most) k l ∧ l.rest = []) ↔
        k.rest.length ≤ most ∧ ∀ d ∈ k.rest, other.contains d = true := by
    rw [exists_matches_upTo_iff]
    simp
  have hanchored (k : Cursor) :
      (∃ l, Matches (anchored first other most) k l) ↔
        k.before = none ∧ ∃ c rest, k.rest = c :: rest ∧ first.contains c = true ∧
          rest.length ≤ most ∧ ∀ d ∈ rest, other.contains d = true := by
    simp only [anchored, concat, repeated, times, Nat.sub_zero, matches_seq_iff,
      matches_assert_iff, matches_one_iff, matches_empty_iff, Assertion.holds,
      Option.isNone_iff_eq_none, List.isEmpty_iff]
    constructor
    · rintro ⟨_, _, ⟨rfl, hbefore⟩, _, ⟨c, rest, hrest, hc, rfl⟩, m, ⟨_, rfl, hmore⟩, _,
        ⟨_, hend⟩, _⟩
      exact ⟨hbefore, c, rest, hrest, hc, (hrepeat _).mp ⟨m, hmore, hend⟩⟩
    · rintro ⟨hbefore, c, rest, hrest, hc, hshape⟩
      obtain ⟨m, hmore, hend⟩ := (hrepeat ⟨k.index + 1, some c, rest⟩).mpr hshape
      exact ⟨m, k, ⟨rfl, hbefore⟩, _, ⟨c, rest, hrest, hc, rfl⟩, m, ⟨_, rfl, hmore⟩, m,
        ⟨rfl, hend⟩, rfl⟩
  -- a search may start anywhere, but the pattern begins at the first place only
  simp only [occursIn_iff, hanchored, ← and_assoc, mem_all_and_before_eq_none_iff,
    exists_eq_left, Cursor.start]

end Pattern

namespace Field

/-- The letters of a field's identifiers: those in lower case, and for one field all. -/
def IsLetter (f : Field) (c : Char) : Prop :=
  ('a' ≤ c ∧ c ≤ 'z') ∨ (f = policyId ∧ 'A' ≤ c ∧ c ≤ 'Z')

/-- A letter, followed by at most 62 letters, digits, underscores and hyphens. -/
def IsIdentifier (f : Field) (value : Text) : Prop :=
  ∃ c rest, value = c :: rest ∧ f.IsLetter c ∧ rest.length ≤ 62 ∧
    ∀ d ∈ rest, f.IsLetter d ∨ ('0' ≤ d ∧ d ≤ '9') ∨ d = '_' ∨ d = '-'

/-- The ranges of the letters, as they are written in the pattern of the field. -/
def letterRanges : Field → List (Char × Char)
  | postureId => [('a', 'z')]
  | policySetId => [('a', 'z')]
  | policyId => [('a', 'z'), ('A', 'Z')]

theorem mem_letterRanges_iff {f : Field} {c : Char} :
    (∃ r ∈ f.letterRanges, r.1 ≤ c ∧ c ≤ r.2) ↔ f.IsLetter c := by
  cases f <;> simp [letterRanges, IsLetter]

theorem format_eq_anchored (f : Field) :
    f.format = .anchored (Pattern.bracket f.letterRanges)
      (Pattern.bracket (f.letterRanges ++ [('0', '9'), ('-', '-'), ('_', '_')])) 62 := by
  cases f <;> decide +kernel

/-- A field accepts exactly its identifiers. -/
theorem accepts_iff_isIdentifier {f : Field} {value : Text} :
    f.accepts value = true ↔ f.IsIdentifier value := by
  have hother (d : Char) :
      (∃ r ∈ f.letterRanges ++ [('0', '9'), ('-', '-'), ('_', '_')], r.1 ≤ d ∧ d ≤ r.2) ↔
        f.IsLetter d ∨ ('0' ≤ d ∧ d ≤ '9') ∨ d = '_' ∨ d = '-' := by
    simp only [List.mem_append, or_and_right, exists_or, mem_letterRanges_iff]
    have hsingle (e : Char) : e ≤ d ∧ d ≤ e ↔ d = e :=
      ⟨fun h => Char.le_antisymm h.2 h.1, fun h => h ▸ ⟨Char.le_refl _, Char.le_refl _⟩⟩
    simp [hsingle, or_comm]
  rw [accepts, format_eq_anchored, Pattern.occursIn_anchored_iff]
  simp only [Pattern.contains_bracket_iff, mem_letterRanges_iff, hother, IsIdentifier]

instance (f : Field) : DecidablePred f.IsIdentifier := fun _ =>
  decidable_of_iff _ accepts_iff_isIdentifier

/-! ## Violations -/

variable {f : Field} {value : Text}

/-- Identifiers have from one to 63 characters. -/
theorem isIdentifier_iff_length :
    f.IsIdentifier value ↔
      1 ≤ value.length ∧ value.length ≤ 63 ∧ (∀ c ∈ value.head?, f.IsLetter c) ∧
        ∀ d ∈ value.tail, f.IsLetter d ∨ ('0' ≤ d ∧ d ≤ '9') ∨ d = '_' ∨ d = '-' := by
  cases value with
  | nil => simp [IsIdentifier]
  | cons c rest =>
    have hlength : rest.length ≤ 62 ↔ 1 ≤ (c :: rest).length ∧ (c :: rest).length ≤ 63 := by
      rw [List.length_cons]
      omega
    constructor
    · rintro ⟨_, _, ⟨⟩, hc, hshort, hrest⟩
      obtain ⟨hleast, hmost⟩ := hlength.mp hshort
      exact ⟨hleast, hmost, by simpa using hc, hrest⟩
    · rintro ⟨hleast, hmost, hc, hrest⟩
      exact ⟨c, rest, rfl, hc c rfl, hlength.mpr ⟨hleast, hmost⟩, hrest⟩

/-- The characters of an identifier are visible ASCII, and no backslash is among them. -/
theorem IsIdentifier.visible (h : f.IsIdentifier value) {c : Char} (hc : c ∈ value) :
    0x20 < c.toNat ∧ c.toNat < 0x80 ∧ c ≠ '\\' := by
  have hrange {low high : Char} (hlow : 0x20 < low.toNat) (hhigh : high.toNat < 0x80)
      (hbackslash : ¬ (low ≤ '\\' ∧ '\\' ≤ high)) (hd : low ≤ c ∧ c ≤ high) :
      0x20 < c.toNat ∧ c.toNat < 0x80 ∧ c ≠ '\\' := by
    refine ⟨Nat.lt_of_lt_of_le hlow hd.1, Nat.lt_of_le_of_lt hd.2 hhigh, ?_⟩
    rintro rfl
    exact hbackslash hd
  have hletter : f.IsLetter c → 0x20 < c.toNat ∧ c.toNat < 0x80 ∧ c ≠ '\\' := by
    rintro (hlower | ⟨-, hupper⟩)
    · exact hrange (by decide) (by decide) (by decide) hlower
    · exact hrange (by decide) (by decide) (by decide) hupper
  obtain ⟨first, rest, rfl, hfirst, -, hrest⟩ := h
  rcases List.mem_cons.mp hc with rfl | hc
  · exact hletter hfirst
  · rcases hrest c hc with h | hdigit | rfl | rfl
    · exact hletter h
    · exact hrange (by decide) (by decide) (by decide) hdigit
    · decide
    · decide

/-- What is an identifier in lower case is one in either case. -/
theorem IsIdentifier.of_postureId (h : postureId.IsIdentifier value) (f : Field) :
    f.IsIdentifier value := by
  have hletter {c : Char} : postureId.IsLetter c → f.IsLetter c := by
    rintro (hlower | ⟨hfield, -⟩)
    · exact Or.inl hlower
    · cases hfield
  obtain ⟨c, rest, hvalue, hc, hlength, hrest⟩ := h
  exact ⟨c, rest, hvalue, hletter hc, hlength, fun d hd => (hrest d hd).imp_left hletter⟩

/-- A value of a field is no violation exactly if it has from one to 63 characters, a letter first,
    and after it letters, digits, underscores and hyphens. A violation is reported for the field,
    and the pattern that is quoted is read as one that the value does not match. A control
    character, such as a line break, a blank, a backslash, or a character outside ASCII makes a
    value a violation; and a value of one field that is none is none in the others, where the
    letters are the same or more. -/
theorem violation?_exact (f : Field) (value : Text) :
    (f.violation? value = none ↔
      1 ≤ value.length ∧ value.length ≤ 63 ∧ (∀ c ∈ value.head?, f.IsLetter c) ∧
        ∀ d ∈ value.tail, f.IsLetter d ∨ ('0' ≤ d ∧ d ≤ '9') ∨ d = '_' ∨ d = '-') ∧
    (∀ v, f.violation? value = some v →
      v.field = f ∧ v.rule.name = "invalid_".toList ++ f.name ∧ v.pattern = f.formatPattern ∧
        ∃ p, Pattern.parse? v.pattern = some p ∧ p.occursIn value = false) ∧
    ((∃ c ∈ value, c.toNat ≤ 0x20 ∨ c = '\\' ∨ 0x80 ≤ c.toNat) →
      (f.violation? value).isSome = true) ∧
    (postureId.violation? value = none → ∀ g : Field, g.violation? value = none) := by
  have hnone (g : Field) : g.violation? value = none ↔ g.IsIdentifier value :=
    violation?_eq_none_iff.trans accepts_iff_isIdentifier
  refine ⟨(hnone f).trans isIdentifier_iff_length, ?rule, ?strange, ?others⟩
  case rule =>
    intro v hv
    unfold violation? at hv
    split at hv
    next => cases hv
    next hrejected =>
      cases hv
      have hname : f.formatRule.name = "invalid_".toList ++ f.name := by cases f <;> decide
      exact ⟨rfl, hname, rfl, f.format, f.parse?_formatPattern, Bool.eq_false_iff.mpr hrejected⟩
  case strange =>
    rintro ⟨c, hc, hstrange⟩
    rw [Option.isSome_iff_ne_none, Ne, hnone]
    intro hidentifier
    obtain ⟨hlow, hhigh, hbackslash⟩ := hidentifier.visible hc
    rcases hstrange with h | rfl | h
    · omega
    · exact hbackslash rfl
    · omega
  case others =>
    intro h g
    exact (hnone g).mpr (((hnone postureId).mp h).of_postureId g)

/-- A line feed at the end counts, and the range of digits in the class ends before the hyphen. -/
theorem violation?_exact_lineFeed :
    (policyId.violation? "Main\n".toList).isSome = true ∧
      (∃ p, Pattern.parse? "^[a-zA-Z][a-zA-Z0-9-_]\x7b0,62\x7d$".toList = some p ∧
        p.occursIn "Main\n".toList = false) ∧
      ∀ g : Field, g.violation? "a9-_z".toList = none := by
  obtain ⟨-, hrule, hstrange, -⟩ := violation?_exact policyId "Main\n".toList
  have hsome := hstrange ⟨'\n', by decide, by decide⟩
  obtain ⟨v, hv⟩ := Option.isSome_iff_exists.mp hsome
  obtain ⟨-, -, hpattern, hmatch⟩ := hrule v hv
  rw [hpattern] at hmatch
  exact ⟨hsome, hmatch,
    (violation?_exact postureId "a9-_z".toList).2.2.2 (by decide +kernel)⟩

end Field

end PostureAudit
