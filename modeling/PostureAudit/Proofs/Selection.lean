import PostureAudit.Proofs.Lowercase
import PostureAudit.Settings
import Mathlib.Data.List.Forall2

set_option autoImplicit false

/-! # Which files are selected

A file is selected by the end of its name, and both the name and the extension are lower-cased
before they are compared. For an extension of ASCII characters this compares the last characters of
the name with those of the extension one by one, whatever comes before them
(`selects_ascii_iff`).

Of other extensions this cannot be said: how a capital sigma is lower-cased depends on the letters
before it, and the extension alone does not have those of the stem. A file whose name ends in a dot
and the extension, character by character, is left out for this cause and for no other
(`selects_ownExtension_iff`). -/

namespace PostureAudit

open Utf8 (isAscii)
open Text

/-! ## Extensions of ASCII characters -/

/-- The character stands for a character of an extension: it is the same one, in either case if it
    is an ASCII letter, or it is the Kelvin sign for a K. -/
def StandsFor (c e : Char) : Prop :=
  c = e.toLower ∨ c = e.toUpper ∨ c = '\u212A' ∧ (e = 'k' ∨ e = 'K')

theorem standsFor_dot_iff {c : Char} : StandsFor c '.' ↔ c = '.' := by
  simp [StandsFor]

theorem isAscii_toLower {e : Char} (he : isAscii e = true) : isAscii e.toLower = true :=
  of_isAscii (P := fun e => isAscii e.toLower = true) (by decide +kernel) he

theorem isAscii_toUpper {e : Char} (he : isAscii e = true) : isAscii e.toUpper = true :=
  of_isAscii (P := fun e => isAscii e.toUpper = true) (by decide +kernel) he

theorem toLower_eq_toLower_iff {c e : Char} (hc : isAscii c = true) (he : isAscii e = true) :
    c.toLower = e.toLower ↔ c = e.toLower ∨ c = e.toUpper := by
  have hcase : c = c.toLower ∨ c = c.toLower.toUpper :=
    of_isAscii (P := fun c => c = c.toLower ∨ c = c.toLower.toUpper) (by decide +kernel) hc
  obtain ⟨hupper, hlower, hlowerUpper⟩ : e.toLower.toUpper = e.toUpper ∧
      e.toLower.toLower = e.toLower ∧ e.toUpper.toLower = e.toLower :=
    of_isAscii (P := fun e => e.toLower.toUpper = e.toUpper ∧ e.toLower.toLower = e.toLower ∧
      e.toUpper.toLower = e.toLower) (by decide +kernel) he
  constructor
  · intro h
    rwa [h, hupper] at hcase
  · rintro (rfl | rfl)
    · exact hlower
    · exact hlowerUpper

theorem asciiLower?_eq_some_iff {c e : Char} (he : isAscii e = true) :
    asciiLower? c = some e.toLower ↔ StandsFor c e := by
  unfold asciiLower? StandsFor
  split
  next hc =>
    have hkelvin : c ≠ '\u212A' := by
      rintro rfl
      exact absurd hc (by decide)
    rw [Option.some.injEq, toLower_eq_toLower_iff hc he]
    simp [hkelvin]
  next hc =>
    have hlower : c ≠ e.toLower := by
      rintro rfl
      exact hc (isAscii_toLower he)
    have hupper : c ≠ e.toUpper := by
      rintro rfl
      exact hc (isAscii_toUpper he)
    rw [or_iff_right hlower, or_iff_right hupper]
    split
    next hkelvin =>
      rw [Option.some.injEq, and_iff_right hkelvin]
      exact of_isAscii (P := fun e => 'k' = e.toLower ↔ e = 'k' ∨ e = 'K') (by decide +kernel) he
    next hkelvin => simp [hkelvin]

theorem isAscii_of_mem_map_toLower {t : Text} (ht : ∀ e ∈ t, isAscii e = true) :
    ∀ c ∈ t.map Char.toLower, isAscii c = true := by
  intro c hc
  obtain ⟨e, he, rfl⟩ := List.mem_map.mp hc
  exact isAscii_toLower (ht e he)

theorem map_asciiLower?_eq_iff {tail e : Text} (he : ∀ c ∈ e, isAscii c = true) :
    tail.map asciiLower? = (e.map Char.toLower).map some ↔ List.Forall₂ StandsFor tail e := by
  rw [List.map_map, ← List.forall₂_eq_eq_eq, List.forall₂_map_left_iff, List.forall₂_map_right_iff,
    List.forall₂_iff_zip, List.forall₂_iff_zip]
  refine and_congr_right fun _ => ?_
  refine forall_congr' fun c => forall_congr' fun d => forall_congr' fun hmem => ?_
  exact asciiLower?_eq_some_iff (he d (List.of_mem_zip hmem).2)

theorem lower_of_isAscii {t : Text} (ht : ∀ e ∈ t, isAscii e = true) :
    lower t = t.map Char.toLower := by
  rw [lower, lowerAfter_eq_ascii_iff (isAscii_of_mem_map_toLower ht), map_asciiLower?_eq_iff ht,
    List.forall₂_same]
  exact fun e he => (asciiLower?_eq_some_iff (ht e he)).mp (if_pos (ht e he))

namespace Settings

/-- With the default extension it is the case of two letters that does not count. -/
theorem forall₂_standsFor_defaultExtension_iff {tail : Text} :
    List.Forall₂ StandsFor tail defaultExtension ↔
      ∃ t f, tail = [t, f] ∧ (t = 't' ∨ t = 'T') ∧ (f = 'f' ∨ f = 'F') := by
  have ht {t : Char} : StandsFor t 't' ↔ t = 't' ∨ t = 'T' := by simp [StandsFor]
  have hf {f : Char} : StandsFor f 'f' ↔ f = 'f' ∨ f = 'F' := by simp [StandsFor]
  rw [show defaultExtension = ['t', 'f'] from rfl]
  constructor
  · intro h
    obtain ⟨t, _, hstands, hrest, rfl⟩ := List.forall₂_cons_right_iff.mp h
    obtain ⟨f, _, hstands', hnil, rfl⟩ := List.forall₂_cons_right_iff.mp hrest
    obtain rfl := List.forall₂_nil_right_iff.mp hnil
    exact ⟨t, f, rfl, ht.mp hstands, hf.mp hstands'⟩
  · rintro ⟨t, f, rfl, hstands, hstands'⟩
    exact .cons (ht.mpr hstands) (.cons (hf.mpr hstands') .nil)

theorem selects_iff {s : Settings} {name : Text} :
    s.selects name = true ↔ ('.' :: lower s.extension) <:+ lower name :=
  List.isSuffixOf_iff_suffix

theorem selects_iff_exists_standsFor {s : Settings} (hascii : ∀ e ∈ s.extension, isAscii e = true)
    (name : Text) : s.selects name = true ↔
      ∃ stem tail, name = stem ++ tail ∧ List.Forall₂ StandsFor tail ('.' :: s.extension) := by
  have hdotted : ∀ e ∈ '.' :: s.extension, isAscii e = true :=
    List.forall_mem_cons.mpr ⟨rfl, hascii⟩
  have hlower : '.' :: lower s.extension = ('.' :: s.extension).map Char.toLower := by
    rw [lower_of_isAscii hascii, List.map_cons]
    rfl
  rw [selects_iff, hlower, lower, suffix_lowerAfter_iff (isAscii_of_mem_map_toLower hdotted)]
  constructor
  · rintro ⟨front, hfront⟩
    obtain ⟨stem, tail, rfl, -, htail⟩ := List.map_eq_append_iff.mp hfront.symm
    exact ⟨stem, tail, rfl, (map_asciiLower?_eq_iff hdotted).mp htail⟩
  · rintro ⟨stem, tail, rfl, htail⟩
    rw [List.map_append, (map_asciiLower?_eq_iff hdotted).mpr htail]
    exact List.suffix_append _ _

theorem selects_iff_exists_tail {s : Settings} (hascii : ∀ e ∈ s.extension, isAscii e = true)
    (name : Text) : s.selects name = true ↔
      ∃ stem tail, name = stem ++ '.' :: tail ∧ List.Forall₂ StandsFor tail s.extension := by
  simp only [selects_iff_exists_standsFor hascii, List.forall₂_cons_right_iff]
  constructor
  · rintro ⟨stem, _, rfl, c, tail, hdot, htail, rfl⟩
    rw [standsFor_dot_iff.mp hdot]
    exact ⟨stem, tail, rfl, htail⟩
  · rintro ⟨stem, tail, rfl, htail⟩
    exact ⟨stem, _, rfl, '.', tail, standsFor_dot_iff.mpr rfl, htail, rfl⟩

/-- As many characters as the dot and the extension have decide, whatever the stem is. -/
theorem selects_append_iff {s : Settings} (hascii : ∀ e ∈ s.extension, isAscii e = true)
    (stem : Text) {tail : Text} (hlength : tail.length = s.extension.length + 1) :
    s.selects (stem ++ tail) = true ↔ List.Forall₂ StandsFor tail ('.' :: s.extension) := by
  rw [selects_iff_exists_standsFor hascii]
  constructor
  · rintro ⟨stem', tail', heq, htail⟩
    obtain ⟨-, rfl⟩ := List.append_inj' heq (hlength.trans htail.length_eq.symm)
    exact htail
  · exact fun h => ⟨stem, tail, rfl, h⟩

/-- For an extension of ASCII characters a file is selected exactly if its name ends in a dot and
    characters that stand for those of the extension. So the stem makes no difference, and with the
    default extension it is the case of two letters that does not count. -/
theorem selects_ascii_iff {s : Settings} (hascii : ∀ c ∈ s.extension, isAscii c = true) :
    (∀ name, s.selects name = true ↔
      ∃ stem tail, name = stem ++ '.' :: tail ∧ List.Forall₂ StandsFor tail s.extension) ∧
    (∀ stem stem' tail, tail.length = s.extension.length + 1 →
      s.selects (stem ++ tail) = s.selects (stem' ++ tail)) ∧
    (s.extension = defaultExtension → ∀ name, s.selects name = true ↔
      ∃ stem t f, name = stem ++ ['.', t, f] ∧ (t = 't' ∨ t = 'T') ∧ (f = 'f' ∨ f = 'F')) := by
  refine ⟨selects_iff_exists_tail hascii, fun stem stem' tail hlength => ?_,
    fun hdefault name => ?_⟩
  · rw [Bool.eq_iff_iff, selects_append_iff hascii stem hlength,
      selects_append_iff hascii stem' hlength]
  · rw [selects_iff_exists_tail hascii, hdefault]
    constructor
    · rintro ⟨stem, tail, rfl, htail⟩
      obtain ⟨t, f, rfl, ht, hf⟩ := forall₂_standsFor_defaultExtension_iff.mp htail
      exact ⟨stem, t, f, rfl, ht, hf⟩
    · rintro ⟨stem, t, f, rfl, ht, hf⟩
      exact ⟨stem, [t, f], rfl, forall₂_standsFor_defaultExtension_iff.mpr ⟨t, f, rfl, ht, hf⟩⟩

/-- A Kelvin sign stands for the K, whatever the stem is. -/
theorem selects_ascii_iff_kelvin :
    (∀ e ∈ (default.withExtension "Kt".toList).extension, isAscii e = true) ∧
    (default.withExtension "Kt".toList).selects ['\u0130', '.', '\u212A', 'T'] = true ∧
    ∀ stem, (default.withExtension "Kt".toList).selects (stem ++ ['.', '\u212A', 'T']) = true := by
  have hascii : ∀ e ∈ (default.withExtension "Kt".toList).extension, isAscii e = true :=
    List.all_eq_true.mp (by decide)
  obtain ⟨hselects, hstem, -⟩ := selects_ascii_iff hascii
  have hdotted := (hselects ['\u0130', '.', '\u212A', 'T']).mpr
    ⟨['\u0130'], ['\u212A', 'T'], rfl,
      .cons (Or.inr (Or.inr ⟨rfl, Or.inr rfl⟩)) (.cons (Or.inr (Or.inl rfl)) .nil)⟩
  exact ⟨hascii, hdotted, fun stem => (hstem stem ['\u0130'] _ rfl).trans hdotted⟩

/-! ## Extensions as they are written -/

/-- The end of a lower-case name is the lower-case extension, read after the stem and the dot. -/
theorem exists_lower_append_dot (stem extension : Text) :
    ∃ front, lower (stem ++ '.' :: extension) =
      front ++ '.' :: lowerAfter ('.' :: stem.reverse) extension := by
  obtain ⟨front, hfront⟩ := exists_lowerAfter_append [] stem ('.' :: extension)
  refine ⟨front, ?_⟩
  rw [lower, hfront, List.append_nil, lowerAfter_cons,
    lowerBetween_of_asciiLower? (by decide : asciiLower? '.' = some '.'), List.singleton_append]

/-- Read after the stem or alone, the lower-case extension has one length. -/
theorem selects_append_dot_iff {s : Settings} {extension : Text} (hstored : s.extension = extension)
    (stem : Text) : s.selects (stem ++ '.' :: extension) = true ↔
      lower extension = lowerAfter ('.' :: stem.reverse) extension := by
  obtain ⟨front, hname⟩ := exists_lower_append_dot stem extension
  rw [selects_iff, hstored, hname]
  constructor
  · intro h
    have hlength : ('.' :: lower extension).length =
        ('.' :: lowerAfter ('.' :: stem.reverse) extension).length :=
      congrArg (· + 1) (length_lowerAfter _ _ _)
    have hend := List.suffix_of_suffix_length_le h (List.suffix_append front _) hlength.le
    exact (List.cons.inj (hend.eq_of_length hlength)).2
  · intro h
    rw [h]
    exact List.suffix_append _ _

/-- A file whose name ends in a dot and the extension as it is written is selected unless the
    extension opens with a sigma that ends its word while the stem ends in a letter: the name then
    has a final sigma where the extension alone has none. Without a capital sigma in the extension
    this does not happen. -/
theorem selects_ownExtension_iff (s : Settings) {extension : Text}
    (hdot : extension.head? ≠ some '.') (stem : Text) :
    ((s.withExtension extension).selects (stem ++ '.' :: extension) = true ↔
      ¬ (startsCased stem.reverse = true ∧ OpensWithLastSigma extension)) ∧
    ('\u03A3' ∉ extension →
      (s.withExtension extension).selects (stem ++ '.' :: extension) = true) := by
  have hstored : (s.withExtension extension).extension = extension := dropDots_eq_self hdot
  have hignorable : isCaseIgnorable '.' = true := by decide +kernel
  have hselects : (s.withExtension extension).selects (stem ++ '.' :: extension) = true ↔
      ¬ (startsCased stem.reverse = true ∧ OpensWithLastSigma extension) := by
    rw [selects_append_dot_iff hstored, lower, lowerAfter_eq_iff,
      startsCased_cons_of_ignorable hignorable, startsCased_nil, eq_comm, ← Bool.not_eq_true,
      ← not_and_or]
  exact ⟨hselects, fun hsigma => hselects.mpr fun h => hsigma h.2.mem⟩

/-- A sigma with a letter after it does no harm. -/
theorem selects_ownExtension_iff_letterAfter :
    ['\u03A3', 't'].head? ≠ some '.' ∧
    (default.withExtension ['\u03A3', 't']).selects ['a', '.', '\u03A3', 't'] = true := by
  have hdot : ['\u03A3', 't'].head? ≠ some '.' := by decide
  have hopens : ¬ OpensWithLastSigma ['\u03A3', 't'] := by
    rw [opensWithLastSigma_cons_of_not_ignorable (by decide +kernel)]
    exact fun h => absurd h.2 (by decide +kernel)
  exact ⟨hdot, (selects_ownExtension_iff default hdot ['a']).1.mpr fun h => hopens h.2⟩

/-- A sigma alone is lower-cased as a final sigma after a stem with a letter. -/
theorem not_selects_ownExtension_sigma :
    ['\u03A3'].head? ≠ some '.' ∧
    (default.withExtension ['\u03A3']).selects (['a'] ++ '.' :: ['\u03A3']) = false := by
  decide +kernel

end Settings

end PostureAudit
