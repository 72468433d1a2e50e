import PostureAudit.Posture.Assignment
import PostureAudit.Posture.Declaration
import PostureAudit.Posture.Identifier
import PostureAudit.Proofs.Pattern

set_option autoImplicit false

/-! # Patterns of literal text and blanks

A pattern that is searched for on a line is made of pieces: characters that stand for themselves,
and runs of blanks. `writing` writes pieces down, escaping what has to be, and reading it gives the
pieces back whatever characters they are (`parse?_writing`). Such a pattern knows nothing of the
place where it is matched, so what it takes is a set of texts (`Takes`), and it occurs in a line
exactly if a text of the set is part of the line (`Takes.occursIn_iff`). -/

namespace PostureAudit

namespace Pattern

/-! ## What a pattern takes -/

/-- What the pattern takes at any place is exactly a text of the language. -/
def Takes (p : Pattern) (language : Text → Prop) : Prop :=
  ∀ (k : Cursor) (rest : Text),
    (∃ l, Matches p k l ∧ l.rest = rest) ↔ ∃ run, k.rest = run ++ rest ∧ language run

variable {p q : Pattern} {L M : Text → Prop}

theorem Takes.congr (h : Takes p L) (hsame : ∀ run, L run ↔ M run) : Takes p M := by
  intro k rest
  rw [h k rest]
  exact exists_congr fun run => and_congr_right fun _ => hsame run

theorem takes_empty : Takes .empty (· = []) := by
  intro k rest
  simp [matches_empty_iff, eq_comm]

theorem takes_one (s : CharClass) : Takes (.one s) fun run => ∃ c, run = [c] ∧ s.contains c := by
  intro k rest
  simp only [matches_one_iff]
  constructor
  · rintro ⟨l, ⟨c, t, hk, hc, rfl⟩, rfl⟩
    exact ⟨[c], hk, c, rfl, hc⟩
  · rintro ⟨_, hk, c, rfl, hc⟩
    exact ⟨_, ⟨c, rest, hk, hc, rfl⟩, rfl⟩

theorem Takes.seq (hp : Takes p L) (hq : Takes q M) :
    Takes (.seq p q) fun run => ∃ u v, run = u ++ v ∧ L u ∧ M v := by
  intro k rest
  simp only [matches_seq_iff]
  constructor
  · rintro ⟨l, ⟨m, hkm, hml⟩, hl⟩
    obtain ⟨v, hv, hM⟩ := (hq m rest).mp ⟨l, hml, hl⟩
    obtain ⟨u, hu, hL⟩ := (hp k m.rest).mp ⟨m, hkm, rfl⟩
    exact ⟨u ++ v, by rw [hu, hv, List.append_assoc], u, v, rfl, hL, hM⟩
  · rintro ⟨_, hk, u, v, rfl, hL, hM⟩
    obtain ⟨m, hkm, hm⟩ := (hp k (v ++ rest)).mpr ⟨u, by rw [hk, List.append_assoc], hL⟩
    obtain ⟨l, hml, hl⟩ := (hq m rest).mpr ⟨v, hm, hM⟩
    exact ⟨l, ⟨m, hkm, hml⟩, hl⟩

theorem Takes.alt (hp : Takes p L) (hq : Takes q M) :
    Takes (.alt p q) fun run => L run ∨ M run := by
  intro k rest
  simp only [matches_alt_iff, or_and_right, exists_or, hp k rest, hq k rest, and_or_left]

/-- Some texts of a language, one after the other. -/
inductive Runs (L : Text → Prop) : Text → Prop where
  | nil : Runs L []
  | append {u v : Text} (hu : L u) (hv : Runs L v) : Runs L (u ++ v)

theorem Takes.star (hp : Takes p L) : Takes (.star p) (Runs L) := by
  intro k rest
  simp only [matches_star_iff]
  constructor
  · rintro ⟨l, hreach, hl⟩
    induction hreach using Relation.ReflTransGen.head_induction_on with
    | refl => exact ⟨[], hl, .nil⟩
    | head hstep _ ih =>
      obtain ⟨v, hv, hruns⟩ := ih
      obtain ⟨u, hu, hL⟩ := (hp _ _).mp ⟨_, hstep, rfl⟩
      exact ⟨u ++ v, by rw [hu, hv, List.append_assoc], .append hL hruns⟩
  · rintro ⟨run, hrun, hruns⟩
    induction hruns generalizing k with
    | nil => exact ⟨k, .refl, hrun⟩
    | @append u v hL _ ih =>
      obtain ⟨m, hkm, hm⟩ := (hp k (v ++ rest)).mpr ⟨u, by rw [hrun, List.append_assoc], hL⟩
      obtain ⟨l, hreach, hl⟩ := ih m hm
      exact ⟨l, .head hkm hreach, hl⟩

/-- Some characters of a class, as many as one likes. -/
theorem takes_star_one (s : CharClass) :
    Takes (.star (.one s)) fun run => ∀ c ∈ run, s.contains c = true := by
  refine (takes_one s).star.congr fun run => ⟨fun h => ?_, fun h => ?_⟩
  · induction h with
    | nil => simp
    | append hu _ ih =>
      obtain ⟨c, rfl, hc⟩ := hu
      exact List.forall_mem_cons.mpr ⟨hc, ih⟩
  · induction run with
    | nil => exact .nil
    | cons c run ih =>
      obtain ⟨hc, hrun⟩ := List.forall_mem_cons.mp h
      exact .append ⟨c, rfl, hc⟩ (ih hrun)

/-- The texts that are left at the places of a line are its ends. -/
theorem exists_mem_all_rest_iff {t u : Text} : (∃ k ∈ Cursor.all t, k.rest = u) ↔ u <:+ t := by
  have hfrom (index : Nat) (before : Option Char) :
      (∃ k ∈ Cursor.andAfter index before t, k.rest = u) ↔ u <:+ t := by
    induction t generalizing index before with
    | nil => simp [Cursor.andAfter, eq_comm]
    | cons c t ih =>
      rw [Cursor.andAfter, List.suffix_cons_iff, ← ih (index + 1) (some c)]
      simp [eq_comm]
  exact hfrom 0 none

/-- A pattern that takes the texts of a language occurs where one of them does. -/
theorem Takes.occursIn_iff (h : Takes p L) {t : Text} :
    p.occursIn t = true ↔ ∃ run, run <:+: t ∧ L run := by
  rw [Pattern.occursIn_iff]
  constructor
  · rintro ⟨k, hk, l, hmatch⟩
    obtain ⟨run, hrun, hL⟩ := (h k l.rest).mp ⟨l, hmatch, rfl⟩
    have hend : k.rest <:+ t := exists_mem_all_rest_iff.mp ⟨k, hk, rfl⟩
    exact ⟨run, (hrun ▸ List.prefix_append run l.rest).isInfix.trans hend.isInfix, hL⟩
  · rintro ⟨run, hinfix, hL⟩
    obtain ⟨u, ⟨rest, hrest⟩, hend⟩ := List.infix_iff_prefix_suffix.mp hinfix
    obtain ⟨k, hk, hu⟩ := exists_mem_all_rest_iff.mpr hend
    obtain ⟨l, hmatch, -⟩ := (h k rest).mpr ⟨run, by rw [hu, hrest], hL⟩
    exact ⟨k, hk, l, hmatch⟩

/-! ## Pieces -/

/-- A piece of a pattern: a character that stands for itself, or a run of blanks. -/
inductive Piece where
  | char (c : Char)
  | blanks

namespace Piece

/-- How a piece is written in a pattern. -/
def written : Piece → Text
  | char c => escape [c]
  | blanks => "\\s*".toList

def tokens : Piece → List Token
  | char c => [.one (.single c)]
  | blanks => [.one (.named .space), .times 0 none]

def pattern : Piece → Pattern
  | char c => .one (.single c)
  | blanks => (Pattern.one (.named .space)).repeated 0 none

/-- The texts that a piece stands for. -/
def Spells : Piece → Text → Prop
  | char c, run => run = [c]
  | blanks, run => ∀ c ∈ run, isBlank c = true

theorem takes_pattern (piece : Piece) : Takes piece.pattern piece.Spells := by
  cases piece with
  | char c =>
    refine (takes_one (.single c)).congr fun run => ?_
    simp [Spells]
  | blanks =>
    refine (takes_empty.seq (takes_star_one (.named .space))).congr fun run => ?_
    constructor
    · rintro ⟨_, v, rfl, rfl, hall⟩
      exact hall
    · exact fun hall => ⟨[], run, rfl, rfl, hall⟩

end Piece

/-- How some pieces are written, one after the other. -/
def writing (pieces : List Piece) : Text := pieces.flatMap Piece.written

/-- The texts that some pieces stand for. -/
def Spell : List Piece → Text → Prop
  | [], run => run = []
  | piece :: pieces, run => ∃ u v, run = u ++ v ∧ piece.Spells u ∧ Spell pieces v

theorem takes_concat (pieces : List Piece) :
    Takes (concat (pieces.map Piece.pattern)) (Spell pieces) := by
  induction pieces with
  | nil => exact takes_empty
  | cons piece pieces ih => exact piece.takes_pattern.seq ih

/-! ## Reading what is written -/

theorem readToken_char {c : Char} (h : isMeta c = false) (t : Text) :
    readToken c t = some (.one (.single c), t) := by
  unfold readToken
  split
  -- every character with a case of its own has to be escaped
  all_goals first | rfl | exact absurd h (by decide)

theorem readToken_escaped {c : Char} (h : isMeta c = true) (t : Text) :
    readToken '\\' (c :: t) = some (.one (.single c), t) := by
  have hescapable : isEscapable c = true := by simp [isEscapable, h]
  simp [readToken, readEscape, hescapable]

theorem readTokens_cons {c : Char} {t rest : Text} {token : Token} {ts : List Token} {fuel : Nat}
    (hfirst : readToken c t = some (token, rest)) (hrest : readTokens fuel rest = some ts) :
    readTokens (fuel + 1) (c :: t) = some (token :: ts) := by
  rw [readTokens, hfirst]
  exact congrArg (Option.map (token :: ·)) hrest

theorem writing_cons_of_meta {c : Char} (h : isMeta c = true) (pieces : List Piece) :
    writing (.char c :: pieces) = '\\' :: c :: writing pieces := by
  simp [writing, Piece.written, escape, h]

theorem writing_cons_of_not_meta {c : Char} (h : isMeta c = false) (pieces : List Piece) :
    writing (.char c :: pieces) = c :: writing pieces := by
  simp [writing, Piece.written, escape, h]

/-- What is written never begins with a mark that a repetition before it would take for its own. -/
theorem dropLazy_writing (pieces : List Piece) : dropLazy (writing pieces) = writing pieces := by
  rcases pieces with _ | ⟨c | _, pieces⟩
  · rfl
  · cases hmeta : isMeta c with
    | true => rw [writing_cons_of_meta hmeta, dropLazy.eq_2 _ (by simp)]
    | false =>
      have hmark : c ≠ '?' := by
        rintro rfl
        exact absurd hmeta (by decide)
      rw [writing_cons_of_not_meta hmeta, dropLazy.eq_2 _ (by simp [hmark])]
  · rfl

theorem readTokens_writing (pieces : List Piece) {fuel : Nat}
    (hfuel : (writing pieces).length ≤ fuel) :
    readTokens fuel (writing pieces) = some (pieces.flatMap Piece.tokens) := by
  induction pieces generalizing fuel with
  | nil => cases fuel <;> rfl
  | cons piece pieces ih =>
    cases piece with
    | char c =>
      cases hmeta : isMeta c with
      | true =>
        rw [writing_cons_of_meta hmeta, List.length_cons, List.length_cons] at hfuel
        obtain ⟨n, rfl⟩ := Nat.exists_eq_add_of_lt hfuel
        rw [writing_cons_of_meta hmeta]
        exact readTokens_cons (readToken_escaped hmeta _) (ih (by omega))
      | false =>
        rw [writing_cons_of_not_meta hmeta, List.length_cons] at hfuel
        obtain ⟨n, rfl⟩ := Nat.exists_eq_add_of_lt hfuel
        rw [writing_cons_of_not_meta hmeta]
        exact readTokens_cons (readToken_char hmeta _) (ih (by omega))
    | blanks =>
      have hwritten : writing (.blanks :: pieces) = '\\' :: 's' :: '*' :: writing pieces := rfl
      rw [hwritten, List.length_cons, List.length_cons, List.length_cons] at hfuel
      obtain ⟨n, rfl⟩ : ∃ n, fuel = n + 1 + 1 := ⟨fuel - 2, by omega⟩
      have hstar : readToken '*' (writing pieces) = some (.times 0 none, writing pieces) := by
        rw [readToken, dropLazy_writing]
      rw [hwritten]
      exact readTokens_cons rfl (readTokens_cons hstar (ih (by omega)))

/-- The reading of some parts, all on the outermost level. -/
def Reading.ofParts (parts : List (Option Pattern)) : Reading := ⟨⟨[], parts, false⟩, [], []⟩

theorem steps?_tokens (parts : List (Option Pattern)) (pieces : List Piece) :
    (Reading.ofParts parts).steps? (pieces.flatMap Piece.tokens) =
      some (.ofParts ((pieces.map fun piece => some piece.pattern).reverse ++ parts)) := by
  induction pieces generalizing parts with
  | nil => rfl
  | cons piece pieces ih =>
    have hpiece : (Reading.ofParts parts).steps? (piece.tokens ++ pieces.flatMap Piece.tokens) =
        (Reading.ofParts (some piece.pattern :: parts)).steps? (pieces.flatMap Piece.tokens) := by
      cases piece <;> rfl
    rw [List.flatMap_cons, hpiece, ih]
    simp

theorem parse?_writing (pieces : List Piece) :
    parse? (writing pieces) = some (concat (pieces.map Piece.pattern)) := by
  have hsteps : Reading.start.steps? (pieces.flatMap Piece.tokens) = _ := steps?_tokens [] pieces
  rw [parse?, tokens?, readTokens_writing pieces (Nat.le_refl _), Option.bind_some, hsteps,
    Option.bind_some]
  simp [Reading.finish?, Reading.ofParts, Group.pattern, Group.branch, List.filterMap_map]

/-- A pattern of pieces occurs in a line exactly if a text that they stand for is part of it. -/
theorem exists_parse?_writing (pieces : List Piece) :
    ∃ p, parse? (writing pieces) = some p ∧
      ∀ t, p.occursIn t = true ↔ ∃ run, run <:+: t ∧ Spell pieces run :=
  ⟨_, parse?_writing pieces, fun _ => (takes_concat pieces).occursIn_iff⟩

/-! ## Characters that stand for themselves -/

theorem writing_map_char (t : Text) (pieces : List Piece) :
    writing (t.map .char ++ pieces) = escape t ++ writing pieces := by
  rw [writing, List.flatMap_append, List.flatMap_map, escape]
  simp [writing, Piece.written, escape]

theorem spell_map_char_iff {t run : Text} {pieces : List Piece} :
    Spell (t.map .char ++ pieces) run ↔ ∃ v, run = t ++ v ∧ Spell pieces v := by
  induction t generalizing run with
  | nil => simp
  | cons c t ih =>
    simp only [List.map_cons, List.cons_append, Spell, Piece.Spells, ih]
    constructor
    · rintro ⟨_, _, rfl, rfl, v, rfl, hv⟩
      exact ⟨v, rfl, hv⟩
    · rintro ⟨v, rfl, hv⟩
      exact ⟨[c], t ++ v, rfl, rfl, v, rfl, hv⟩

theorem spell_chars_iff {t run : Text} : Spell (t.map .char) run ↔ run = t := by
  have h := @spell_map_char_iff t run []
  simpa [Spell] using h

theorem writing_chars (t : Text) : writing (t.map .char) = escape t := by
  have h := writing_map_char t []
  simpa [writing] using h

end Pattern

namespace Field

/-- The pieces of the pattern of an assignment of a value. -/
def literalPieces (f : Field) (value : Text) : List Pattern.Piece :=
  f.name.map .char ++ .blanks :: .char '=' :: .blanks :: .char '"' ::
    (value.map .char ++ [.char '"'])

theorem literalPattern_eq_writing (f : Field) (value : Text) :
    f.literalPattern value = Pattern.writing (f.literalPieces value) := by
  have hname : Pattern.escape f.name = f.name := by cases f <;> decide
  have hsign (pieces : List Pattern.Piece) :
      Pattern.writing (.blanks :: .char '=' :: .blanks :: .char '"' :: pieces) =
        "\\s*=\\s*\"".toList ++ Pattern.writing pieces := rfl
  unfold literalPattern literalPieces
  rw [Pattern.writing_map_char, hname, hsign, Pattern.writing_map_char, List.append_assoc,
    List.append_assoc]
  rfl

/-- The search for an assignment of a value looks for the text of one, whatever characters the
    value has. -/
theorem exists_parse?_literalPattern (f : Field) (value : Text) :
    ∃ p, Pattern.parse? (f.literalPattern value) = some p ∧
      ∀ line, p.occursIn line = true ↔
        ∃ before after, (∀ c ∈ before, isBlank c = true) ∧ (∀ c ∈ after, isBlank c = true) ∧
          Assignment.text f before after value <:+: line := by
  obtain ⟨p, hp, hoccurs⟩ := Pattern.exists_parse?_writing (f.literalPieces value)
  refine ⟨p, f.literalPattern_eq_writing value ▸ hp, fun line => ?_⟩
  rw [hoccurs]
  simp only [literalPieces, Pattern.spell_map_char_iff, Pattern.Spell, Pattern.Piece.Spells]
  constructor
  · rintro ⟨_, hinfix, _, rfl, before, _, rfl, hbefore, _, _, rfl, rfl, after, _, rfl, hafter,
      _, _, rfl, rfl, _, rfl, _, _, rfl, rfl, rfl⟩
    exact ⟨before, after, hbefore, hafter, by simpa [Assignment.text] using hinfix⟩
  · rintro ⟨before, after, hbefore, hafter, hinfix⟩
    exact ⟨_, hinfix, before ++ '=' :: after ++ '"' :: value ++ ['"'], by simp [Assignment.text],
      before, _, by simp, hbefore, ['='], _, rfl, rfl, after, _, rfl, hafter, ['"'], _, rfl, rfl,
      ['"'], rfl, ['"'], [], rfl, rfl, rfl⟩

end Field

/-- The search for a declaration looks for the beginning of its header. -/
theorem Declaration.exists_parse?_opening :
    ∃ p, Pattern.parse? opening = some p ∧
      ∀ line, p.occursIn line = true ↔ opening <:+: line := by
  have hwriting : Pattern.writing (opening.map .char) = opening := by
    rw [Pattern.writing_chars]
    decide +kernel
  obtain ⟨p, hp, hoccurs⟩ := Pattern.exists_parse?_writing (opening.map .char)
  refine ⟨p, hwriting ▸ hp, fun line => ?_⟩
  simp only [hoccurs, Pattern.spell_chars_iff, exists_eq_right]

end PostureAudit
