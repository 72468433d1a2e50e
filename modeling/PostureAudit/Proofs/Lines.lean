import PostureAudit.Text.Lines

set_option autoImplicit false

/-! # Two views of the same lines

Counting line feeds and splitting a text number its lines alike: a stretch of text without a line
feed stands in the line whose number is that of the line feeds before it, even though splitting
takes carriage returns off the ends of lines (`exists_line_of_infix`). Going through the lines
finds the first one that is accepted (`findLine_eq_known_iff`), and so what stands in a line is not
found later than where it stands (`exists_findLine_eq`). -/

namespace PostureAudit.Text

/-- A character that begins no line end belongs to the first line. -/
theorem lines_cons_of_not_end {c : Char} {t : Text} (hfeed : c ≠ '\n')
    (hend : c = '\r' → t.head? ≠ some '\n') :
    lines (c :: t) =
      match lines t with
      | [] => [[c]]
      | l :: ls => (c :: l) :: ls :=
  lines.eq_4 c t (fun _ hc ht => hend hc (by rw [ht]; rfl)) hfeed

/-- The carriage return of a line end is part of no line. -/
theorem lines_return {t : Text} (hhead : t.head? = some '\n') :
    lines ('\r' :: t) = lines t := by
  cases t with
  | nil => cases hhead
  | cons d t =>
    obtain rfl : d = '\n' := Option.some.inj hhead
    exact (lines.eq_2 t).trans (lines.eq_3 t).symm

/-- A character in front of a text keeps its lines. It may move them down by one, or become part
    of the first one. -/
theorem exists_line_cons (c : Char) {t l : Text} {i : Nat} (h : (lines t)[i]? = some l) :
    ∃ l', (lines (c :: t))[i + if c = '\n' then 1 else 0]? = some l' ∧ l <:+ l' := by
  by_cases hfeed : c = '\n'
  · subst hfeed
    exact ⟨l, by rwa [if_pos rfl, lines, List.getElem?_cons_succ], List.suffix_refl l⟩
  rw [if_neg hfeed, Nat.add_zero]
  by_cases hend : c = '\r' ∧ t.head? = some '\n'
  · obtain ⟨rfl, hhead⟩ := hend
    exact ⟨l, lines_return hhead ▸ h, List.suffix_refl l⟩
  · rw [lines_cons_of_not_end hfeed fun hc hhead => hend ⟨hc, hhead⟩]
    cases hlines : lines t with
    | nil => simp [hlines] at h
    | cons first ls =>
      rw [hlines] at h
      cases i with
      | zero => exact ⟨c :: first, rfl, Option.some.inj h ▸ List.suffix_cons c first⟩
      | succ i => exact ⟨l, h, List.suffix_refl l⟩

theorem exists_line_append (front : Text) {t l : Text} {i : Nat} (h : (lines t)[i]? = some l) :
    ∃ l', (lines (front ++ t))[i + front.count '\n']? = some l' ∧ l <:+ l' := by
  induction front with
  | nil => exact ⟨l, h, List.suffix_refl l⟩
  | cons c front ih =>
    obtain ⟨l', hl', hends⟩ := ih
    obtain ⟨l'', hl'', hends'⟩ := exists_line_cons c hl'
    refine ⟨l'', ?_, hends.trans hends'⟩
    rw [List.count_cons, ← Nat.add_assoc]
    simpa using hl''

/-- A stretch without a line feed begins the first line of the text that it begins, unless it ends
    in the carriage return of a line end. -/
theorem exists_first_line {mid : Text} (hne : mid ≠ []) (hfeed : '\n' ∉ mid)
    (hlast : mid.getLast? ≠ some '\r') (back : Text) :
    ∃ l, (lines (mid ++ back))[0]? = some l ∧ mid <+: l := by
  induction mid with
  | nil => exact absurd rfl hne
  | cons c mid ih =>
    obtain ⟨hc, hrest⟩ := List.ne_and_not_mem_of_not_mem_cons hfeed
    have hend : c = '\r' → (mid ++ back).head? ≠ some '\n' := by
      rintro rfl
      cases mid with
      | nil => exact absurd rfl hlast
      | cons d mid =>
        intro hhead
        exact hrest (Option.some.inj hhead ▸ List.mem_cons_self ..)
    rw [List.cons_append, lines_cons_of_not_end hc.symm hend]
    cases mid with
    | nil =>
      cases hlines : lines ([] ++ back) with
      | nil => exact ⟨[c], rfl, List.prefix_refl _⟩
      | cons first ls => exact ⟨c :: first, rfl, by simp⟩
    | cons d mid =>
      obtain ⟨l, hl, hbegins⟩ := ih (List.cons_ne_nil d mid) hrest (by simpa using hlast)
      cases hlines : lines (d :: mid ++ back) with
      | nil =>
        rw [hlines] at hl
        cases hl
      | cons first ls =>
        rw [hlines] at hl
        exact ⟨c :: first, rfl, Option.some.inj hl ▸ (List.prefix_cons_inj c).mpr hbegins⟩

/-- The line with the number of the line feeds before it holds a stretch of text. -/
theorem exists_line_of_infix {mid : Text} (hne : mid ≠ []) (hfeed : '\n' ∉ mid)
    (hlast : mid.getLast? ≠ some '\r') (front back : Text) :
    ∃ l, (lines (front ++ mid ++ back))[front.count '\n']? = some l ∧ mid <:+: l := by
  obtain ⟨l, hl, hbegins⟩ := exists_first_line hne hfeed hlast back
  obtain ⟨l', hl', hends⟩ := exists_line_append front hl
  rw [Nat.zero_add, ← List.append_assoc] at hl'
  exact ⟨l', hl', hbegins.isInfix.trans hends.isInfix⟩

/-- A text without a line feed is one line, unless it is empty. -/
theorem lines_of_lineFeed_notMem {line : Text} (hne : line ≠ []) (hfeed : '\n' ∉ line) :
    lines line = [line] := by
  induction line with
  | nil => exact absurd rfl hne
  | cons c line ih =>
    obtain ⟨hc, hrest⟩ := List.ne_and_not_mem_of_not_mem_cons hfeed
    have hhead : line.head? ≠ some '\n' := fun h => hrest (List.mem_of_mem_head? h)
    rw [lines_cons_of_not_end hc.symm fun _ => hhead]
    cases line with
    | nil => rfl
    | cons d line => rw [ih (List.cons_ne_nil d line) hrest]

/-- What ends in a line feed has lines of its own, one for each line feed in it. -/
theorem lines_append_lineFeed (front t : Text) :
    lines (front ++ '\n' :: t) = lines (front ++ ['\n']) ++ lines t ∧
      (lines (front ++ ['\n'])).length = front.count '\n' + 1 := by
  induction front with
  | nil => exact ⟨rfl, rfl⟩
  | cons c front ih =>
    obtain ⟨ihlines, ihlength⟩ := ih
    rw [List.cons_append, List.cons_append, List.count_cons]
    by_cases hfeed : c = '\n'
    · subst hfeed
      rw [lines, lines, ihlines, List.length_cons, ihlength]
      exact ⟨rfl, by simp⟩
    rw [if_neg (by simpa using hfeed), Nat.add_zero]
    have hhead (t : Text) : (front ++ '\n' :: t).head? = (front ++ ['\n']).head? := by
      cases front <;> rfl
    by_cases hend : c = '\r' ∧ (front ++ ['\n']).head? = some '\n'
    · -- the carriage return belongs to a line end
      obtain ⟨rfl, hfirst⟩ := hend
      rw [lines_return (hhead t ▸ hfirst), lines_return hfirst]
      exact ⟨ihlines, ihlength⟩
    · have hplain : c = '\r' → (front ++ ['\n']).head? ≠ some '\n' := fun hc h => hend ⟨hc, h⟩
      rw [lines_cons_of_not_end hfeed (hhead t ▸ hplain), lines_cons_of_not_end hfeed hplain,
        ihlines]
      cases hlines : lines (front ++ ['\n']) with
      | nil => simp [hlines] at ihlength
      | cons l ls =>
        rw [hlines] at ihlength
        exact ⟨rfl, ihlength⟩

theorem lines_append {front : Text} (hlast : front.getLast? = some '\n') (t : Text) :
    lines (front ++ t) = lines front ++ lines t ∧ (lines front).length = front.count '\n' := by
  obtain ⟨front, rfl⟩ := List.getLast?_eq_some_iff.mp hlast
  obtain ⟨hlines, hlength⟩ := lines_append_lineFeed front t
  rw [List.append_assoc, List.singleton_append, List.count_append, List.count_singleton_self]
  exact ⟨hlines, hlength⟩

/-- A line holds nothing but characters of the text. -/
theorem subset_of_mem_lines {t l : Text} (hl : l ∈ lines t) : l ⊆ t := by
  fun_induction lines t generalizing l with
  | case1 => cases hl
  | case2 t ih =>
    rcases List.mem_cons.mp hl with rfl | hl
    · exact List.nil_subset _
    · exact fun c hc => List.mem_cons_of_mem _ (List.mem_cons_of_mem _ (ih hl hc))
  | case3 t ih =>
    rcases List.mem_cons.mp hl with rfl | hl
    · exact List.nil_subset _
    · exact fun c hc => List.mem_cons_of_mem _ (ih hl hc)
  | case4 c t _ _ hlines ih =>
    rw [List.mem_singleton.mp hl]
    simp
  | case5 c t _ _ first ls hlines ih =>
    rcases List.mem_cons.mp hl with rfl | hl
    · exact List.cons_subset_cons c (ih (hlines ▸ List.mem_cons_self ..))
    · exact fun d hd => List.mem_cons_of_mem _ (ih (hlines ▸ List.mem_cons_of_mem _ hl) hd)

/-- The number is that of the first of some lines with a property. -/
def FirstLine (holds : Text → Prop) (ls : List Text) (k : Nat) : Prop :=
  ∃ i line, k = i + 1 ∧ ls[i]? = some line ∧ holds line ∧
    ∀ j < i, ∀ earlier, ls[j]? = some earlier → ¬ holds earlier

variable {accepts : Text → Bool} {t : Text}

theorem findLine_eq_known_iff {k : Nat} :
    findLine accepts t = .known k ↔ FirstLine (accepts · = true) (lines t) k := by
  unfold findLine FirstLine
  constructor
  · intro h
    cases hfound : (lines t).findIdx? accepts with
    | none =>
      rw [hfound] at h
      cases h
    | some i =>
      rw [hfound] at h
      cases h
      obtain ⟨hi, haccepts, hbefore⟩ := List.findIdx?_eq_some_iff_getElem.mp hfound
      refine ⟨i, _, rfl, List.getElem?_eq_getElem hi, haccepts, fun j hj earlier hearlier => ?_⟩
      obtain ⟨-, rfl⟩ := List.getElem?_eq_some_iff.mp hearlier
      exact hbefore j hj
  · rintro ⟨i, line, rfl, hline, haccepts, hbefore⟩
    obtain ⟨hi, rfl⟩ := List.getElem?_eq_some_iff.mp hline
    have hfound : (lines t).findIdx? accepts = some i := by
      refine List.findIdx?_eq_some_iff_getElem.mpr ⟨hi, haccepts, fun j hj => ?_⟩
      exact hbefore j hj _ (List.getElem?_eq_getElem (Nat.lt_trans hj hi))
    rw [hfound]

theorem findLine_eq_unknown_iff :
    findLine accepts t = .unknown ↔ ∀ line ∈ lines t, ¬ accepts line = true := by
  unfold findLine
  cases hfound : (lines t).findIdx? accepts with
  | none => simpa using List.findIdx?_eq_none_iff.mp hfound
  | some i =>
    obtain ⟨hi, haccepts, -⟩ := List.findIdx?_eq_some_iff_getElem.mp hfound
    simp only [reduceCtorEq, false_iff]
    exact fun h => h _ (List.getElem_mem hi) haccepts

/-- A line that is accepted is found, unless an earlier one is. -/
theorem exists_findLine_eq {l : Text} {n : Nat} (hl : (lines t)[n]? = some l)
    (haccepts : accepts l = true) :
    ∃ m, findLine accepts t = .known (m + 1) ∧ m ≤ n ∧
      (m = n ↔ ∀ i < n, ∀ l', (lines t)[i]? = some l' → ¬ accepts l' = true) := by
  cases hfound : findLine accepts t with
  | unknown => exact absurd haccepts (findLine_eq_unknown_iff.mp hfound l (List.mem_of_getElem? hl))
  | known k =>
    obtain ⟨m, first, rfl, hm, hfirst, hbefore⟩ := findLine_eq_known_iff.mp hfound
    have hle : m ≤ n := Nat.le_of_not_lt fun hlt => hbefore n hlt l hl haccepts
    refine ⟨m, rfl, hle, fun heq => heq ▸ hbefore, fun hnone => ?_⟩
    exact Nat.le_antisymm hle (Nat.le_of_not_lt fun hlt => hnone m hlt first hm hfirst)

end PostureAudit.Text
