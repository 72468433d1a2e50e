set_option autoImplicit false

/-! # Texts and byte strings

A text is the list of its characters, so that scanning a text is recursion on the data. Offsets
into a text count UTF-8 bytes; `Text.utf8Length` is the measure. A byte string is what a file
holds and what a file name is made of; nothing says that it is text. -/

namespace PostureAudit

/-- A text, as the list of its characters. -/
abbrev Text := List Char

/-- A byte string: the content of a file, a file name, or a path. -/
abbrev Bytes := List UInt8

namespace Text

/-- The number of bytes that the text takes in UTF-8. -/
def utf8Length : Text → Nat
  | [] => 0
  | c :: t => c.utf8Size + utf8Length t

@[simp] theorem utf8Length_nil : utf8Length [] = 0 := rfl

@[simp] theorem utf8Length_cons (c : Char) (t : Text) :
    utf8Length (c :: t) = c.utf8Size + utf8Length t := rfl

theorem utf8Length_append (s t : Text) : utf8Length (s ++ t) = utf8Length s + utf8Length t := by
  induction s with
  | nil => simp
  | cons c s ih => simp [ih, Nat.add_assoc]

theorem utf8Length_eq_zero_iff {t : Text} : utf8Length t = 0 ↔ t = [] := by
  cases t with
  | nil => simp
  | cons c t =>
    have hpos := c.utf8Size_pos
    rw [utf8Length_cons]
    exact ⟨fun h => by omega, fun h => by cases h⟩

/-- The measure of a text that is not empty is the successor of a number, with which recursion on
    an offset goes on at the second character. -/
theorem exists_utf8Length_cons (c : Char) (t : Text) :
    ∃ n, utf8Length (c :: t) = n + 1 ∧ n + 1 - c.utf8Size = utf8Length t := by
  have hpos := c.utf8Size_pos
  refine ⟨c.utf8Size - 1 + utf8Length t, ?_, ?_⟩
  · rw [utf8Length_cons]
    omega
  · omega

/-- Of two fronts of a text, the one that takes fewer bytes is a front of the other. -/
theorem exists_between {front front' back back' : Text} (h : front ++ back = front' ++ back')
    (hle : utf8Length front ≤ utf8Length front') :
    ∃ between, front' = front ++ between ∧ back = between ++ back' := by
  rcases List.append_eq_append_iff.mp h with ⟨between, hfront, hback⟩ | ⟨between, hfront, hback⟩
  · exact ⟨between, hfront, hback⟩
  · have hnil : between = [] := by
      rw [hfront, utf8Length_append] at hle
      exact utf8Length_eq_zero_iff.mp (by omega)
    subst hnil
    exact ⟨[], by simpa using hfront.symm, by simpa using hback.symm⟩

/-- A front of a text is known by the bytes that it takes. -/
theorem append_inj_of_utf8Length {front front' back back' : Text}
    (h : front ++ back = front' ++ back') (hlen : utf8Length front = utf8Length front') :
    front = front' ∧ back = back' := by
  obtain ⟨between, hfront, hback⟩ := exists_between h (Nat.le_of_eq hlen)
  have hnil : between = [] := by
    rw [hfront, utf8Length_append] at hlen
    exact utf8Length_eq_zero_iff.mp (by omega)
  subst hnil
  exact ⟨by simpa using hfront.symm, hback⟩

/-- The decimal digits of a number. -/
def ofNat (n : Nat) : Text := Nat.toDigits 10 n

theorem isDigit_of_mem_ofNat {n : Nat} {c : Char} (h : c ∈ ofNat n) : c.isDigit = true :=
  Nat.isDigit_of_mem_toDigits (by decide) (by decide) h

theorem exists_ofNat_eq_cons (n : Nat) : ∃ c t, ofNat n = c :: t ∧ c.isDigit = true := by
  obtain ⟨c, t, h⟩ := List.exists_cons_of_ne_nil (Nat.toDigits_ne_nil : ofNat n ≠ [])
  exact ⟨c, t, h, isDigit_of_mem_ofNat (h ▸ List.mem_cons_self ..)⟩

/-- The rest of `t` after `lead`, if `t` starts with it. -/
def after? : Text → Text → Option Text
  | [], t => some t
  | _ :: _, [] => none
  | c :: lead, d :: t => if c = d then after? lead t else none

theorem after?_eq_some_iff {lead t rest : Text} : after? lead t = some rest ↔ t = lead ++ rest := by
  induction lead generalizing t with
  | nil => simp [after?]
  | cons c lead ih =>
    cases t with
    | nil => simp [after?]
    | cons d t =>
      by_cases h : c = d
      · subst h
        simp [after?, ih]
      · simp only [after?, if_neg h, List.cons_append, List.cons.injEq, false_iff,
          reduceCtorEq, not_and]
        intro hd
        exact absurd hd.symm h

/-- A text splits after its longest run of accepted characters exactly where a run of them ends at
    a character that is not accepted. -/
theorem span_eq_iff (accepts : Char → Bool) {t run rest : Text} {c : Char}
    (hc : accepts c = false) :
    t.takeWhile accepts = run ∧ t.dropWhile accepts = c :: rest ↔
      t = run ++ c :: rest ∧ ∀ d ∈ run, accepts d = true := by
  constructor
  · rintro ⟨rfl, hrest⟩
    refine ⟨?_, fun d hd => List.all_eq_true.mp List.all_takeWhile d hd⟩
    rw [← hrest, List.takeWhile_append_dropWhile]
  · rintro ⟨rfl, hrun⟩
    rw [List.takeWhile_append_of_pos hrun, List.dropWhile_append_of_pos hrun]
    simp [hc]

/-- Pads on the left with spaces up to `width` characters. -/
def padLeft (width : Nat) (t : Text) : Text := List.replicate (width - t.length) ' ' ++ t

end Text

end PostureAudit
