import PostureAudit.Posture.Assignment
import PostureAudit.Proofs.Scan

set_option autoImplicit false

/-! # The assignments of a text

The form of an assignment says what its text looks like: the name of the field, blanks, an equals
sign, blanks, and a value in quotes. A value is a sequence of units, which `IsValue` spells out
without reference to how values are read. `reads` ties the recogniser to the form, so everything
about the scan follows from `Scan.lean`: the assignments of a text are the leftmost ones.

A value never runs over a line feed, and no quote in it is free of a backslash that escapes it:
the number of backslashes before it is odd (`IsValue.trailingBackslashes_mod_two`). -/

namespace PostureAudit

/-- The number of backslashes that a text ends in. -/
def Text.trailingBackslashes (t : Text) : Nat := (t.reverse.takeWhile (· = '\\')).length

namespace Assignment

/-! ## Values -/

/-- The sequences of units. A unit is a character other than a quote, a backslash, a carriage
    return and a line feed, or a backslash and any one character other than a line feed. -/
inductive IsValue : Text → Prop where
  | nil : IsValue []
  | plain {c : Char} {v : Text} (hc : c ≠ '"' ∧ c ≠ '\\' ∧ c ≠ '\r' ∧ c ≠ '\n')
    (hv : IsValue v) : IsValue (c :: v)
  | escaped {c : Char} {v : Text} (hc : c ≠ '\n') (hv : IsValue v) : IsValue ('\\' :: c :: v)

/-- A character that neither ends a value nor escapes the next one is read as it is, unless it is
    part of a line end. -/
theorem readValue_cons {c : Char} (hquote : c ≠ '"') (hbackslash : c ≠ '\\') (t : Text) :
    readValue (c :: t) =
      if c = '\r' ∨ c = '\n' then none else (readValue t).map (c :: ·) := by
  rw [readValue]
  · simp [hbackslash]
  · exact hquote
  · exact fun _ _ h => absurd h hbackslash

theorem readValue_append {v : Text} (hv : IsValue v) (rest : Text) :
    readValue (v ++ '"' :: rest) = some v := by
  induction hv with
  | nil => rfl
  | @plain c v hc _ ih =>
    obtain ⟨hquote, hbackslash, hreturn, hfeed⟩ := hc
    rw [List.cons_append, readValue_cons hquote hbackslash, ih]
    simp [hreturn, hfeed]
  | @escaped c v hc _ ih =>
    rw [List.cons_append, List.cons_append, readValue, if_neg hc, ih]
    rfl

/-- What is read is a value, and a quote follows it. -/
theorem exists_of_readValue {t v : Text} (h : readValue t = some v) :
    ∃ rest, t = v ++ '"' :: rest ∧ IsValue v := by
  fun_induction readValue t generalizing v with
  | case1 => cases h
  | case2 rest =>
    cases h
    exact ⟨rest, rfl, .nil⟩
  | case3 => cases h
  | case4 c t hc ih =>
    obtain ⟨u, hu, rfl⟩ := Option.map_eq_some_iff.mp h
    obtain ⟨rest, rfl, hvalue⟩ := ih hu
    exact ⟨rest, rfl, .escaped hc hvalue⟩
  | case5 => cases h
  | case6 c t hquote _ hplain ih =>
    obtain ⟨u, hu, rfl⟩ := Option.map_eq_some_iff.mp h
    obtain ⟨rest, rfl, hvalue⟩ := ih hu
    simp only [Bool.or_eq_true, decide_eq_true_eq, not_or] at hplain
    exact ⟨rest, rfl, .plain ⟨hquote, hplain.1.1, hplain.1.2, hplain.2⟩ hvalue⟩

instance : DecidablePred IsValue := fun v =>
  decidable_of_iff (readValue (v ++ ['"']) = some v)
    ⟨fun h => (exists_of_readValue h).elim fun _ hrest => hrest.2, fun hv => readValue_append hv []⟩

theorem IsValue.lineFeed_notMem {v : Text} (hv : IsValue v) : '\n' ∉ v := by
  induction hv with
  | nil => simp
  | plain hc _ ih => simp [hc.2.2.2.symm, ih]
  | escaped hc _ ih => simp [hc.symm, ih]

theorem trailingBackslashes_cons (c : Char) (t : Text) :
    Text.trailingBackslashes (c :: t) =
      if c = '\\' ∧ Text.trailingBackslashes t = t.length then t.length + 1
      else Text.trailingBackslashes t := by
  unfold Text.trailingBackslashes
  rw [List.reverse_cons, List.takeWhile_append, List.length_reverse]
  by_cases hall : (t.reverse.takeWhile (· = '\\')).length = t.length
  · by_cases hc : c = '\\' <;> simp [hall, hc]
  · simp [hall]

/-- A unit of two characters in front changes the number by none or two. -/
theorem trailingBackslashes_escaped (c : Char) (t : Text) :
    Text.trailingBackslashes ('\\' :: c :: t) % 2 = Text.trailingBackslashes t % 2 := by
  have hle : Text.trailingBackslashes t ≤ t.length := by
    unfold Text.trailingBackslashes
    exact Nat.le_trans (List.takeWhile_sublist _).length_le (Nat.le_of_eq List.length_reverse)
  rw [trailingBackslashes_cons, trailingBackslashes_cons, List.length_cons]
  by_cases hall : c = '\\' ∧ Text.trailingBackslashes t = t.length
  · rw [if_pos hall, if_pos ⟨rfl, rfl⟩, hall.2]
    omega
  · rw [if_neg hall, if_neg (fun h => by omega)]

/-- A quote in a value is escaped. -/
theorem IsValue.trailingBackslashes_mod_two {v before after : Text} (hv : IsValue v)
    (hsplit : v = before ++ '"' :: after) : Text.trailingBackslashes before % 2 = 1 := by
  induction hv generalizing before with
  | nil => simp at hsplit
  | @plain c v hc _ ih =>
    cases before with
    | nil => exact absurd (List.cons.inj hsplit).1 hc.1
    | cons d before =>
      obtain ⟨rfl, hrest⟩ := List.cons.inj hsplit
      rw [trailingBackslashes_cons, if_neg (fun h => hc.2.1 h.1)]
      exact ih hrest
  | @escaped c v _ _ ih =>
    -- the quote is not the backslash; it is what the backslash escapes, or comes after it
    rcases before with _ | ⟨d, _ | ⟨e, before⟩⟩
    · exact absurd (List.cons.inj hsplit).1 (by decide)
    · obtain ⟨rfl, -⟩ := List.cons.inj hsplit
      decide
    · simp only [List.cons_append, List.cons.injEq] at hsplit
      obtain ⟨rfl, rfl, hrest⟩ := hsplit
      rw [trailingBackslashes_escaped]
      exact ih hrest

/-! ## The form of an assignment -/

/-- The texts of the assignments to a field, each with its value. -/
def form (f : Field) : Form Text := fun t value =>
  ∃ before after, (∀ c ∈ before, isBlank c = true) ∧ (∀ c ∈ after, isBlank c = true) ∧
    IsValue value ∧ t = text f before after value

/-- Reading succeeds exactly at the start of an assignment. -/
theorem read_eq_some_iff (f : Field) (t u value : Text) :
    read f t = some (value, u) ↔ u <+: t ∧ form f u value := by
  have hequals : isBlank '=' = false := by decide
  have hquote : isBlank '"' = false := by decide
  simp only [read, Option.bind_eq_bind, Option.bind_eq_some_iff, Text.after?_eq_some_iff,
    Option.pure_def, Option.some.injEq, Prod.mk.injEq, List.singleton_append]
  constructor
  · rintro ⟨t₁, rfl, t₂, hbefore, t₃, hafter, v, hvalue, rfl, rfl⟩
    obtain ⟨hsplit, hblanks⟩ := (Text.span_eq_iff isBlank hequals).mp ⟨rfl, hbefore⟩
    obtain ⟨hsplit', hblanks'⟩ := (Text.span_eq_iff isBlank hquote).mp ⟨rfl, hafter⟩
    obtain ⟨rest, rfl, hv⟩ := exists_of_readValue hvalue
    generalize t₁.takeWhile isBlank = before at *
    generalize t₂.takeWhile isBlank = after at *
    subst hsplit hsplit'
    exact ⟨⟨rest, by simp [text]⟩, before, after, hblanks, hblanks', hv, rfl⟩
  · rintro ⟨⟨rest, rfl⟩, before, after, hblanks, hblanks', hv, rfl⟩
    obtain ⟨htake', hdrop'⟩ := (Text.span_eq_iff isBlank hquote).mpr
      (⟨rfl, hblanks'⟩ : after ++ '"' :: (value ++ '"' :: rest) = _ ∧ _)
    obtain ⟨htake, hdrop⟩ := (Text.span_eq_iff isBlank hequals).mpr
      (⟨rfl, hblanks⟩ : before ++ '=' :: (after ++ '"' :: (value ++ '"' :: rest)) = _ ∧ _)
    refine ⟨_, by simp [text], _, hdrop, _, hdrop', value, readValue_append hv rest, rfl, ?_⟩
    rw [htake, htake']

theorem reads (f : Field) : Reads (read f) (form f) where
  read_eq_some_iff := read_eq_some_iff f
  ne_nil := by
    rintro u value ⟨before, after, -, -, -, rfl⟩
    simp [text]

end Assignment

/-- The assignments to a field are the leftmost ones, and there is no other choice of sites that
    is. What stands at an offset decides on the value and on where the assignment ends. Values
    keep to one line and have no quote that is not escaped. -/
theorem leftmost_iff_eq_assignments (f : Field) (t : Text) :
    (∀ sites, Leftmost (Assignment.form f) 0 t sites ↔ sites = assignments f t) ∧
    ((assignments f t).Pairwise fun s s' => s.offset < s'.offset) ∧
    (∀ s s' : Site Text, s.Occurs (Assignment.form f) 0 t → s'.Occurs (Assignment.form f) 0 t →
      s.offset = s'.offset → s.value = s'.value ∧ s.stop = s'.stop) ∧
    ∀ s ∈ assignments f t,
      (∃ front back, t = front ++ f.name ++ back ∧ Text.utf8Length front = s.offset) ∧
      '\n' ∉ s.value ∧
      ∀ before after, s.value = before ++ '"' :: after →
        Text.trailingBackslashes before % 2 = 1 := by
  have hreads := Assignment.reads f
  have hleftmost := hreads.leftmost_scan t
  refine ⟨hreads.leftmost_iff t, hleftmost.increasing hreads, ?_, ?_⟩
  · intro s s' hs hs' hoffset
    obtain rfl := hs.eq_of_offset_eq hreads hs' hoffset
    exact ⟨rfl, rfl⟩
  · intro s hs
    obtain ⟨front, back, rfl, hoffset, before, after, -, -, hvalue, htext⟩ :=
      hleftmost.occurs s hs
    refine ⟨⟨front, ?_, ?_, ?_⟩, hvalue.lineFeed_notMem, ?_⟩
    · exact before ++ '=' :: after ++ '"' :: s.value ++ '"' :: back
    · rw [htext]
      simp [Assignment.text]
    · rw [← hoffset, Nat.zero_add]
    · exact fun _ _ hsplit => hvalue.trailingBackslashes_mod_two hsplit

end PostureAudit
