import PostureAudit.Proofs.Decoding
import PostureAudit.Text.Lowercase
import Mathlib.Data.List.Infix

set_option autoImplicit false

/-! # Lower-casing, character by character

The lower-case text has a piece for every character. What the piece of a sigma is depends on the
characters around it, but its length does not; what comes before a text matters only to a sigma
that is its first letter (`lowerAfter_eq_iff`).

A piece that is not the image of an ASCII character, or of the Kelvin sign, does not end in an ASCII
character. So a text of ASCII characters is the end of a lower-case text exactly if it is made of
whole pieces, each of them the image of such a character (`suffix_lowerAfter_iff`). -/

namespace PostureAudit

open Utf8 (isAscii toNat_ofNat_of_isValidChar isAscii_ofNat)

/-! ## The table -/

/-- The run maps characters to characters, and to none of ASCII. -/
def CaseRun.OffAscii (r : CaseRun) : Prop :=
  0x80 ≤ r.first + r.shift ∧
    (r.last + r.shift < 0xD800 ∨ 0xE000 ≤ r.first + r.shift ∧ r.last + r.shift < 0x110000)

instance (r : CaseRun) : Decidable r.OffAscii := inferInstanceAs (Decidable (_ ∧ (_ ∨ _ ∧ _)))

/-- Besides the capital letters of ASCII only the Kelvin sign has an image in ASCII. -/
theorem offAscii_of_mem_lowercaseRuns : ∀ r ∈ lowercaseRuns,
    r = ⟨0x41, 0x5A, 1, 32⟩ ∨ r = ⟨0x212A, 0x212A, 1, -8383⟩ ∨ r.OffAscii := by
  decide +kernel

/-- The first run is that of the capital letters of ASCII, and no other one starts in ASCII. -/
theorem lowercaseRuns_eq_cons : ∃ rest, lowercaseRuns = ⟨0x41, 0x5A, 1, 32⟩ :: rest ∧
    ∀ r ∈ rest, 0x80 ≤ r.first :=
  ⟨_, rfl, by decide +kernel⟩

theorem CaseRun.apply_lowercaseRuns_of_lt {n : Nat} (hn : n < 0x80) :
    apply lowercaseRuns n = apply [⟨0x41, 0x5A, 1, 32⟩] n := by
  obtain ⟨rest, hruns, hfirst⟩ := lowercaseRuns_eq_cons
  have hnone : rest.find? (·.contains n) = none := by
    refine List.find?_eq_none.mpr fun r hr hcontains => ?_
    simp only [contains, Bool.and_eq_true, decide_eq_true_eq] at hcontains
    have := hfirst r hr
    omega
  rw [apply, apply, hruns, List.find?_cons, List.find?_cons, hnone, List.find?_nil]

namespace Text

/-- What holds of the characters with the numbers of ASCII, one by one. -/
theorem of_isAscii {P : Char → Prop} (h : ∀ n < 0x80, P (Char.ofNat n)) {c : Char}
    (hc : isAscii c = true) : P c := by
  have hsmall : c.toNat < 0x80 := of_decide_eq_true hc
  simpa only [Char.ofNat_toNat] using h c.toNat hsmall

theorem lowerChar_of_isAscii {c : Char} (hc : isAscii c = true) : lowerChar c = [c.toLower] := by
  have hdotted : c ≠ '\u0130' := by
    rintro rfl
    exact absurd hc (by decide)
  have hlower : Char.ofNat (CaseRun.apply [⟨0x41, 0x5A, 1, 32⟩] c.toNat) = c.toLower :=
    of_isAscii (P := fun c => Char.ofNat (CaseRun.apply [⟨0x41, 0x5A, 1, 32⟩] c.toNat) = c.toLower)
      (by decide +kernel) hc
  rw [lowerChar, if_neg hdotted, CaseRun.apply_lowercaseRuns_of_lt (of_decide_eq_true hc), hlower]

/-- The image of any character but those of ASCII and the Kelvin sign does not end in ASCII. -/
theorem exists_lowerChar_eq {c : Char} (hc : isAscii c = false) (hkelvin : c ≠ '\u212A') :
    ∃ front d, lowerChar c = front ++ [d] ∧ isAscii d = false := by
  have hlarge : 0x80 ≤ c.toNat := Nat.le_of_not_lt (of_decide_eq_false hc)
  unfold lowerChar
  split
  next => exact ⟨['i'], '\u0307', rfl, by decide⟩
  next =>
    refine ⟨[], _, rfl, ?_⟩
    unfold CaseRun.apply
    cases hfind : lowercaseRuns.find? (·.contains c.toNat) with
    | none => simpa only [Char.ofNat_toNat] using hc
    | some r =>
      have hcontains := List.find?_some hfind
      simp only [CaseRun.contains, Bool.and_eq_true, decide_eq_true_eq] at hcontains
      obtain ⟨⟨hfirst, hlast⟩, -⟩ := hcontains
      rcases offAscii_of_mem_lowercaseRuns r (List.mem_of_find?_eq_some hfind) with
        rfl | rfl | ⟨himage, hvalid⟩
      · dsimp only at hlast
        omega
      · refine absurd ?_ hkelvin
        rw [← Char.ofNat_toNat c, Nat.le_antisymm hlast hfirst]
      · dsimp only
        rw [isAscii_ofNat (by unfold Nat.isValidChar; omega)]
        exact decide_eq_false (by omega)

/-! ## The pieces of a lower-case text -/

/-- The piece of a character between two texts, the first of them read backwards. -/
def lowerBetween (before : Text) (c : Char) (t : Text) : Text :=
  if c = '\u03A3' then
    if startsCased before && !startsCased t then ['\u03C2'] else ['\u03C3']
  else lowerChar c

theorem lowerAfter_cons (before : Text) (c : Char) (t : Text) :
    lowerAfter before (c :: t) = lowerBetween before c t ++ lowerAfter (c :: before) t := rfl

theorem lowerBetween_of_ne {c : Char} (hc : c ≠ '\u03A3') (before t : Text) :
    lowerBetween before c t = lowerChar c := if_neg hc

theorem length_lowerBetween (before before' : Text) (c : Char) (t t' : Text) :
    (lowerBetween before c t).length = (lowerBetween before' c t').length := by
  by_cases hc : c = '\u03A3'
  · have hsigma (before t : Text) : (lowerBetween before c t).length = 1 := by
      rw [lowerBetween, if_pos hc]
      split <;> rfl
    rw [hsigma, hsigma]
  · rw [lowerBetween_of_ne hc, lowerBetween_of_ne hc]

theorem length_lowerAfter (before before' t : Text) :
    (lowerAfter before t).length = (lowerAfter before' t).length := by
  induction t generalizing before before' with
  | nil => rfl
  | cons c t ih =>
    rw [lowerAfter_cons, lowerAfter_cons, List.length_append, List.length_append,
      length_lowerBetween before before' c t t, ih (c :: before) (c :: before')]

/-- The pieces of a text come after those of a text in front of it. -/
theorem exists_lowerAfter_append (before s t : Text) :
    ∃ front, lowerAfter before (s ++ t) = front ++ lowerAfter (s.reverse ++ before) t := by
  induction s generalizing before with
  | nil => exact ⟨[], rfl⟩
  | cons c s ih =>
    obtain ⟨front, hfront⟩ := ih (c :: before)
    refine ⟨lowerBetween before c (s ++ t) ++ front, ?_⟩
    rw [List.cons_append, lowerAfter_cons, hfront, List.reverse_cons, List.append_assoc,
      List.append_assoc, List.singleton_append]

/-! ## What comes before a text -/

@[simp] theorem startsCased_nil : startsCased [] = false := rfl

theorem startsCased_cons_of_ignorable {c : Char} (hc : isCaseIgnorable c = true) (t : Text) :
    startsCased (c :: t) = startsCased t := by
  rw [startsCased, startsCased, List.dropWhile_cons_of_pos hc]

theorem startsCased_cons_of_not_ignorable {c : Char} (hc : isCaseIgnorable c = false) (t : Text) :
    startsCased (c :: t) = isCased c := by
  rw [startsCased, List.dropWhile_cons_of_neg (by simp [hc])]

/-- The first letter of the text is a capital sigma, and no letter comes after it in its word. -/
def OpensWithLastSigma (t : Text) : Prop :=
  ∃ rest, t.dropWhile isCaseIgnorable = '\u03A3' :: rest ∧ startsCased rest = false

/-- What comes before a text counts only through the letter that it ends in, if it does. -/
theorem lowerAfter_congr {before before' : Text} (h : startsCased before = startsCased before')
    (t : Text) : lowerAfter before t = lowerAfter before' t := by
  induction t generalizing before before' with
  | nil => rfl
  | cons c t ih =>
    have hnext : startsCased (c :: before) = startsCased (c :: before') := by
      cases hc : isCaseIgnorable c with
      | true => rw [startsCased_cons_of_ignorable hc, startsCased_cons_of_ignorable hc, h]
      | false => rw [startsCased_cons_of_not_ignorable hc, startsCased_cons_of_not_ignorable hc]
    rw [lowerAfter_cons, lowerAfter_cons, ih hnext, lowerBetween, lowerBetween, h]

theorem OpensWithLastSigma.mem {t : Text} (h : OpensWithLastSigma t) : '\u03A3' ∈ t := by
  obtain ⟨rest, hrest, -⟩ := h
  exact (List.dropWhile_suffix isCaseIgnorable).subset (hrest ▸ List.mem_cons_self ..)

theorem opensWithLastSigma_cons_of_ignorable {c : Char} (hc : isCaseIgnorable c = true) (t : Text) :
    OpensWithLastSigma (c :: t) ↔ OpensWithLastSigma t := by
  rw [OpensWithLastSigma, OpensWithLastSigma, List.dropWhile_cons_of_pos hc]

theorem opensWithLastSigma_cons_of_not_ignorable {c : Char} (hc : isCaseIgnorable c = false)
    (t : Text) : OpensWithLastSigma (c :: t) ↔ c = '\u03A3' ∧ startsCased t = false := by
  rw [OpensWithLastSigma, List.dropWhile_cons_of_neg (by simp [hc])]
  constructor
  · rintro ⟨rest, heq, hrest⟩
    obtain ⟨rfl, rfl⟩ := List.cons.inj heq
    exact ⟨rfl, hrest⟩
  · rintro ⟨rfl, ht⟩
    exact ⟨t, rfl, ht⟩

/-- What comes before a text makes a difference exactly if the text opens with a sigma that ends a
    word: whether it ends in a letter decides which sigma that is. -/
theorem lowerAfter_eq_iff {before before' t : Text} :
    lowerAfter before t = lowerAfter before' t ↔
      startsCased before = startsCased before' ∨ ¬ OpensWithLastSigma t := by
  induction t generalizing before before' with
  | nil => exact iff_of_true rfl (Or.inr fun ⟨_, h, _⟩ => nomatch h)
  | cons c t ih =>
    rw [lowerAfter_cons, lowerAfter_cons]
    cases hc : isCaseIgnorable c with
    | true =>
      have hsigma : c ≠ '\u03A3' := by
        rintro rfl
        exact absurd hc (by decide +kernel)
      rw [lowerBetween_of_ne hsigma, lowerBetween_of_ne hsigma, List.append_cancel_left_eq, ih,
        startsCased_cons_of_ignorable hc, startsCased_cons_of_ignorable hc,
        opensWithLastSigma_cons_of_ignorable hc]
    | false =>
      -- after this letter what comes before does not count any more
      have hrest : lowerAfter (c :: before) t = lowerAfter (c :: before') t := by
        refine lowerAfter_congr ?_ t
        rw [startsCased_cons_of_not_ignorable hc, startsCased_cons_of_not_ignorable hc]
      rw [hrest, List.append_cancel_right_eq, opensWithLastSigma_cons_of_not_ignorable hc]
      by_cases hsigma : c = '\u03A3'
      · rw [lowerBetween, lowerBetween, if_pos hsigma, if_pos hsigma]
        cases startsCased before <;> cases startsCased before' <;> cases startsCased t <;>
          simp [hsigma]
      · rw [lowerBetween_of_ne hsigma, lowerBetween_of_ne hsigma]
        exact iff_of_true rfl (Or.inr fun h => hsigma h.1)

/-! ## Pieces of ASCII -/

/-- The ASCII character that a character becomes in lower case, if it becomes one. -/
def asciiLower? (c : Char) : Option Char :=
  if isAscii c then some c.toLower else if c = '\u212A' then some 'k' else none

theorem lowerBetween_of_asciiLower? {c d : Char} (h : asciiLower? c = some d) (before t : Text) :
    lowerBetween before c t = [d] := by
  have hsigma : c ≠ '\u03A3' := by
    rintro rfl
    cases h
  rw [lowerBetween_of_ne hsigma]
  unfold asciiLower? at h
  split at h
  next hascii =>
    cases h
    exact lowerChar_of_isAscii hascii
  next =>
    split at h
    next hkelvin =>
      cases h
      rw [hkelvin]
      decide +kernel
    next => cases h

theorem exists_lowerBetween_eq {c : Char} (h : asciiLower? c = none) (before t : Text) :
    ∃ front d, lowerBetween before c t = front ++ [d] ∧ isAscii d = false := by
  by_cases hsigma : c = '\u03A3'
  · rw [lowerBetween, if_pos hsigma]
    split
    · exact ⟨[], '\u03C2', rfl, by decide⟩
    · exact ⟨[], '\u03C3', rfl, by decide⟩
  · rw [lowerBetween_of_ne hsigma]
    unfold asciiLower? at h
    split at h
    next => cases h
    next hascii =>
      split at h
      next => cases h
      next hkelvin => exact exists_lowerChar_eq (Bool.eq_false_iff.mpr hascii) hkelvin

/-- A text of ASCII characters is the lower-case text of the texts that become it character by
    character. -/
theorem lowerAfter_eq_ascii_iff {w : Text} (hw : ∀ d ∈ w, isAscii d = true) (before t : Text) :
    lowerAfter before t = w ↔ t.map asciiLower? = w.map some := by
  induction t generalizing before w with
  | nil => cases w <;> simp [lowerAfter]
  | cons c t ih =>
    rw [lowerAfter_cons, List.map_cons]
    cases hc : asciiLower? c with
    | none =>
      obtain ⟨front, d, hpiece, hd⟩ := exists_lowerBetween_eq hc before t
      refine iff_of_false ?_ ?_
      · rintro rfl
        have hmem : d ∈ lowerBetween before c t ++ lowerAfter (c :: before) t := by simp [hpiece]
        exact absurd (hw d hmem) (by simp [hd])
      · intro h
        cases w <;> cases h
    | some d =>
      rw [lowerBetween_of_asciiLower? hc, List.singleton_append]
      cases w with
      | nil => simp
      | cons e w =>
        rw [List.map_cons, List.cons.injEq, List.cons.injEq, Option.some.injEq,
          ih fun d hd => hw d (List.mem_cons_of_mem _ hd)]

theorem suffix_append_cons_iff {α : Type} {w front rest : List α} {d : α} (hd : d ∉ w) :
    w <:+ front ++ d :: rest ↔ w <:+ rest := by
  constructor
  · intro h
    rcases List.suffix_or_suffix_of_suffix h (List.suffix_append front (d :: rest)) with hw | hw
    · rcases List.suffix_cons_iff.mp hw with rfl | hw
      · exact absurd (List.mem_cons_self ..) hd
      · exact hw
    · exact absurd (hw.subset (List.mem_cons_self ..)) hd
  · intro h
    exact h.trans ((List.suffix_cons d rest).trans (List.suffix_append front _))

/-- A text of ASCII characters is the end of a lower-case text exactly if the text ends in
    characters that become it one by one. -/
theorem suffix_lowerAfter_iff {w : Text} (hw : ∀ d ∈ w, isAscii d = true) (before t : Text) :
    w <:+ lowerAfter before t ↔ w.map some <:+ t.map asciiLower? := by
  induction t generalizing before with
  | nil => simp [lowerAfter]
  | cons c t ih =>
    cases hc : asciiLower? c with
    | none =>
      obtain ⟨front, d, hpiece, hd⟩ := exists_lowerBetween_eq hc before t
      have hmem : d ∉ w := fun h => absurd (hw d h) (by simp [hd])
      rw [lowerAfter_cons, hpiece, List.append_assoc, List.singleton_append,
        suffix_append_cons_iff hmem, ih, List.map_cons, hc, ← List.nil_append (none :: _),
        suffix_append_cons_iff (by simp)]
    | some d =>
      have hwhole := lowerAfter_eq_ascii_iff hw before (c :: t)
      rw [eq_comm, @eq_comm _ _ (w.map some)] at hwhole
      rw [lowerAfter_cons, lowerBetween_of_asciiLower? hc, List.singleton_append] at hwhole ⊢
      rw [List.suffix_cons_iff, hwhole, ih, List.map_cons, List.suffix_cons_iff]

end Text

end PostureAudit
