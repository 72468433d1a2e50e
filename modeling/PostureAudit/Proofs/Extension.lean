import PostureAudit.Settings
import PostureAudit.Text.Blank
import Mathlib.Data.List.Infix

set_option autoImplicit false

/-! # What is left of an extension

A configuration file gives an extension with blanks around it and dots in front. The blanks at the
ends go first and the dots after them, so blanks that follow the dots stay (`strips_iff`). What is
left ends in no blank and starts with no dot, and it is left of itself only if it starts with no
blank either (`Strips.self_iff`). -/

namespace PostureAudit

namespace Text

/-- All that is around the middle of the text is blanks, and the middle has none at its ends. -/
structure Trimmed (t middle : Text) : Prop where
  around : ∃ front back, t = front ++ middle ++ back ∧
    (∀ c ∈ front, isBlank c = true) ∧ ∀ c ∈ back, isBlank c = true
  start : ∀ c ∈ middle.head?, isBlank c = false
  finish : ∀ c ∈ middle.getLast?, isBlank c = false

theorem isBlank_head?_dropBlanks (t : Text) : ∀ c ∈ (dropBlanks t).head?, isBlank c = false := by
  intro c hc
  have := List.head?_dropWhile_not isBlank t
  rw [Option.mem_def] at hc
  rwa [show t.dropWhile isBlank = dropBlanks t from rfl, hc] at this

theorem exists_dropBlanks_eq (t : Text) :
    ∃ front, t = front ++ dropBlanks t ∧ ∀ c ∈ front, isBlank c = true :=
  ⟨t.takeWhile isBlank, List.takeWhile_append_dropWhile.symm,
    fun _ hc => List.all_eq_true.mp List.all_takeWhile _ hc⟩

theorem dropBlanks_append {front t : Text} (hfront : ∀ c ∈ front, isBlank c = true)
    (hstart : ∀ c ∈ t.head?, isBlank c = false) : dropBlanks (front ++ t) = t := by
  rw [dropBlanks, List.dropWhile_append_of_pos hfront]
  cases t with
  | nil => rfl
  | cons c t => exact List.dropWhile_cons_of_neg (by simp [hstart c rfl])

theorem trimmed_trim (t : Text) : Trimmed t (trim t) := by
  obtain ⟨front, hfront, hblank⟩ := exists_dropBlanks_eq t
  obtain ⟨back, hback, hblank'⟩ := exists_dropBlanks_eq (dropBlanks t).reverse
  have hmiddle : dropBlanks t = trim t ++ back.reverse := by
    rw [trim, ← List.reverse_append, ← hback, List.reverse_reverse]
  refine ⟨⟨front, back.reverse, ?_, hblank, by simpa using hblank'⟩, ?_, ?_⟩
  · rw [List.append_assoc, ← hmiddle]
    exact hfront
  · intro c hc
    refine isBlank_head?_dropBlanks t c ?_
    rw [hmiddle, List.head?_append, hc]
    rfl
  · intro c hc
    rw [trim, List.getLast?_reverse] at hc
    exact isBlank_head?_dropBlanks _ c hc

theorem Trimmed.eq {t middle : Text} (h : Trimmed t middle) : trim t = middle := by
  obtain ⟨⟨front, back, rfl, hfront, hback⟩, hstart, hfinish⟩ := h
  cases middle with
  | nil =>
    have hall : ∀ c ∈ front ++ [] ++ back, isBlank c = true := by
      simpa [or_imp, forall_and] using ⟨hfront, hback⟩
    have hdrop : dropBlanks (front ++ [] ++ back) = [] := by
      rw [← List.append_nil (front ++ [] ++ back)]
      exact dropBlanks_append hall nofun
    rw [trim, hdrop]
    rfl
  | cons c middle =>
    have hdrop : dropBlanks (front ++ c :: middle ++ back) = c :: middle ++ back := by
      rw [List.append_assoc]
      exact dropBlanks_append hfront hstart
    have hreverse : dropBlanks (c :: middle ++ back).reverse = (c :: middle).reverse := by
      rw [List.reverse_append]
      refine dropBlanks_append (by simpa using hback) ?_
      rwa [List.head?_reverse]
    rw [trim, hdrop, hreverse, List.reverse_reverse]

end Text

open Text

/-- All that is left of a text without the blanks at its ends, and then without the dots it starts
    with. -/
def Strips (written left : Text) : Prop :=
  ∃ dots, Trimmed written (dots ++ left) ∧ (∀ c ∈ dots, c = '.') ∧ left.head? ≠ some '.'

namespace Settings

theorem dropDots_append {dots t : Text} (hdots : ∀ c ∈ dots, c = '.') (ht : t.head? ≠ some '.') :
    dropDots (dots ++ t) = t := by
  rw [dropDots, List.dropWhile_append_of_pos (by simpa using hdots)]
  exact dropDots_eq_self ht

theorem strips_iff {written left : Text} :
    dropDots (trim written) = left ↔ Strips written left := by
  constructor
  · rintro rfl
    refine ⟨(trim written).takeWhile (· = '.'), ?_, ?_, head?_dropDots_ne _⟩
    · rw [dropDots, List.takeWhile_append_dropWhile]
      exact trimmed_trim written
    · intro c hc
      simpa using List.all_eq_true.mp List.all_takeWhile c hc
  · rintro ⟨dots, htrimmed, hdots, hleft⟩
    rw [htrimmed.eq, dropDots_append hdots hleft]

end Settings

namespace Strips

variable {written left : Text}

theorem head?_ne_dot (h : Strips written left) : left.head? ≠ some '.' := by
  obtain ⟨_, -, -, hleft⟩ := h
  exact hleft

/-- What is left ends in no blank. -/
theorem finish (h : Strips written left) : ∀ c ∈ left.getLast?, isBlank c = false := by
  obtain ⟨dots, htrimmed, -⟩ := h
  intro c hc
  refine htrimmed.finish c ?_
  rw [List.getLast?_append, hc]
  rfl

/-- What is left is left of itself if it does not start with a blank, and only then. -/
theorem self_iff (h : Strips written left) :
    Strips left left ↔ ∀ c ∈ left.head?, isBlank c = false := by
  constructor
  · rintro ⟨dots, ⟨⟨front, back, hlength, -⟩, hstart, -⟩, -⟩
    have hnil : dots = [] := by
      have := congrArg List.length hlength
      simp only [List.length_append] at this
      exact List.length_eq_zero_iff.mp (by omega)
    rwa [hnil, List.nil_append] at hstart
  · intro hstart
    exact ⟨[], ⟨⟨[], [], by simp, by simp, by simp⟩, hstart, h.finish⟩, by simp, h.head?_ne_dot⟩

/-- What is left starts with a blank if one comes after the dots. -/
theorem exists_blank_iff (h : Strips written left) :
    (∃ b ∈ left.head?, isBlank b = true) ↔
      ∃ dots b rest, Trimmed written ('.' :: dots ++ b :: rest) ∧ (∀ d ∈ dots, d = '.') ∧
        isBlank b = true := by
  constructor
  · rintro ⟨b, hb, hblank⟩
    obtain ⟨rest, rfl⟩ := List.head?_eq_some_iff.mp hb
    obtain ⟨dots, htrimmed, hdots, -⟩ := h
    cases dots with
    | nil =>
      have hstart := htrimmed.start b rfl
      rw [hblank] at hstart
      cases hstart
    | cons d dots =>
      obtain ⟨rfl, hmore⟩ := List.forall_mem_cons.mp hdots
      exact ⟨dots, b, rest, htrimmed, hmore, hblank⟩
  · rintro ⟨dots, b, rest, htrimmed, hdots, hblank⟩
    have hdot : (b :: rest).head? ≠ some '.' := by
      rintro ⟨⟩
      cases hblank
    have hleft : Strips written (b :: rest) :=
      ⟨'.' :: dots, htrimmed, List.forall_mem_cons.mpr ⟨rfl, hdots⟩, hdot⟩
    rw [← Settings.strips_iff.mpr h, Settings.strips_iff.mpr hleft]
    exact ⟨b, rfl, hblank⟩

end Strips

end PostureAudit
