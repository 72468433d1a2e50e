import PostureAudit.Proofs.Assignment
import PostureAudit.Proofs.Declaration

set_option autoImplicit false

/-! # Scanning a text piece by piece

A text that is put together from pieces is scanned piece by piece, if one knows of each piece what
is read in it when the rest follows: nothing (`valuesIn_of_silent`), or what it is the text of
(`valuesIn_of_read`). A piece is silent where no lead of the recogniser stands (`avoids`), which is
a computation on fixed text. For text that somebody else has chosen there is `silent_quoted`: both
recognisers read up to a second quote on the line of the first one, so a quote that is escaped or
the last one on its line begins nothing. -/

namespace PostureAudit

variable {α : Type}

/-- The values that a scan finds in a text, in order. -/
def valuesIn (read : Recogniser α) (t : Text) : List α := (scan read t).map (·.value)

section Pieces

variable {read : Recogniser α} {form : Form α} {piece rest : Text}

/-- What a scan finds does not depend on where the text stands. -/
theorem map_value_scanFrom (read : Recogniser α) (offset offset' skip : Nat) (t : Text) :
    (scanFrom read offset skip t).map (·.value) =
      (scanFrom read offset' skip t).map (·.value) := by
  induction t generalizing offset offset' skip with
  | nil => cases skip <;> rfl
  | cons c t ih =>
    cases skip with
    | succ skip =>
      simp only [scanFrom]
      exact ih _ _ _
    | zero =>
      simp only [scanFrom]
      split
      · simp only [List.map_cons]
        rw [ih]
      · exact ih _ _ _

theorem valuesIn_nil (read : Recogniser α) : valuesIn read [] = [] := rfl

/-- A character at which nothing is read can be left out. -/
theorem valuesIn_cons_of_none {c : Char} {t : Text} (hnone : read (c :: t) = none) :
    valuesIn read (c :: t) = valuesIn read t := by
  unfold valuesIn scan
  simp only [scanFrom, hnone]
  exact map_value_scanFrom ..

/-- What is read at the start of a text is the first value, and the scan goes on after it. -/
theorem valuesIn_of_read (hreads : Reads read form) {value : α}
    (hsome : read (piece ++ rest) = some (value, piece)) :
    valuesIn read (piece ++ rest) = value :: valuesIn read rest := by
  obtain ⟨-, hform⟩ := (hreads.read_eq_some_iff _ _ _).mp hsome
  have hne : piece ≠ [] := hreads.ne_nil piece value hform
  have hrun := Scans.hit hsome hne (hreads.scans (0 + Text.utf8Length piece) rest)
  unfold valuesIn scan
  rw [hrun.eq, List.map_cons]
  congr 1
  exact map_value_scanFrom ..

/-! ## Silent pieces -/

/-- Nothing is read at any place of the piece when the rest follows it. -/
def Silent (read : Recogniser α) : Text → Text → Prop
  | [], _ => True
  | c :: piece, rest => read (c :: piece ++ rest) = none ∧ Silent read piece rest

theorem valuesIn_of_silent (h : Silent read piece rest) :
    valuesIn read (piece ++ rest) = valuesIn read rest := by
  induction piece with
  | nil => rfl
  | cons c piece ih =>
    obtain ⟨hnone, hsilent⟩ := h
    rw [List.cons_append] at hnone ⊢
    rw [valuesIn_cons_of_none hnone, ih hsilent]

/-- The lead begins nowhere in the piece, and cannot begin there and go on after it. -/
def avoids (lead : Text) : Text → Bool
  | [] => true
  | c :: piece =>
    !lead.isPrefixOf (c :: piece) && !(c :: piece).isPrefixOf lead && avoids lead piece

theorem silent_of_avoids {lead : Text} (hlead : ∀ t x, read t = some x → lead <+: t)
    (h : avoids lead piece = true) (rest : Text) : Silent read piece rest := by
  induction piece with
  | nil => exact trivial
  | cons c piece ih =>
    rw [avoids, Bool.and_eq_true, Bool.and_eq_true] at h
    obtain ⟨⟨hnot, hnot'⟩, hpiece⟩ := h
    refine ⟨?_, ih hpiece⟩
    by_contra hsome
    obtain ⟨x, hx⟩ := Option.ne_none_iff_exists'.mp hsome
    have hprefix := hlead _ _ hx
    rcases List.prefix_or_prefix_of_prefix hprefix (List.prefix_append (c :: piece) rest) with
      hshort | hlong
    · simp [List.isPrefixOf_iff_prefix.mpr hshort] at hnot
    · simp [List.isPrefixOf_iff_prefix.mpr hlong] at hnot'

theorem valuesIn_of_avoids {lead : Text} (hlead : ∀ t x, read t = some x → lead <+: t)
    (h : avoids lead piece = true) (rest : Text) :
    valuesIn read (piece ++ rest) = valuesIn read rest :=
  valuesIn_of_silent (silent_of_avoids hlead h rest)

/-- Pieces of one kind, one after the other, are scanned like the first of them. -/
theorem valuesIn_flatMap {β : Type} {text : β → Text} {values : β → List α} {P : β → Prop}
    (hpiece : ∀ b, P b → ∀ rest, valuesIn read (text b ++ rest) = values b ++ valuesIn read rest)
    {bs : List β} (hbs : ∀ b ∈ bs, P b) (rest : Text) :
    valuesIn read (bs.flatMap text ++ rest) = bs.flatMap values ++ valuesIn read rest := by
  induction bs with
  | nil => rfl
  | cons b bs ih =>
    obtain ⟨hb, hbs⟩ := List.forall_mem_cons.mp hbs
    rw [List.flatMap_cons, List.flatMap_cons, List.append_assoc, List.append_assoc,
      hpiece b hb, ih hbs]

theorem valuesIn_flatMap_of_none {β : Type} {text : β → Text} {P : β → Prop}
    (hpiece : ∀ b, P b → ∀ rest, valuesIn read (text b ++ rest) = valuesIn read rest)
    {bs : List β} (hbs : ∀ b ∈ bs, P b) (rest : Text) :
    valuesIn read (bs.flatMap text ++ rest) = valuesIn read rest := by
  have hnothing : ∀ b, P b → ∀ rest,
      valuesIn read (text b ++ rest) = ([] : List α) ++ valuesIn read rest := hpiece
  have hnil : bs.flatMap (fun _ => ([] : List α)) = [] :=
    List.flatMap_eq_nil_iff.mpr fun _ _ => rfl
  rw [valuesIn_flatMap hnothing hbs, hnil, List.nil_append]

/-! ## Quoted text -/

/-- What is read goes on up to a quote, and from there to a second one on the same line. Something
    comes before the first quote, and it is no backslash. -/
def ReadsPastQuote (read : Recogniser α) : Prop :=
  ∀ t x, read t = some x → ∃ head inner back, t = head ++ '"' :: (inner ++ '"' :: back) ∧
    head ≠ [] ∧ '"' ∉ head ∧ head.getLast? ≠ some '\\' ∧ '\n' ∉ inner

/-- A backslash stands in front of every quote but one that begins the text. -/
def QuotesEscaped (t : Text) : Prop :=
  ∀ before after, t = before ++ '"' :: after → before = [] ∨ before.getLast? = some '\\'

theorem QuotesEscaped.tail {c : Char} {t : Text} (h : QuotesEscaped (c :: t)) :
    QuotesEscaped t := by
  intro before after hsplit
  have hc := h (c :: before) after (by rw [hsplit, List.cons_append])
  cases before with
  | nil => exact Or.inl rfl
  | cons d before =>
    refine Or.inr ?_
    rcases hc with hnil | hlast
    · cases hnil
    · rwa [List.getLast?_cons_cons] at hlast

theorem quotesEscaped_of_notMem {t : Text} (h : '"' ∉ t) : QuotesEscaped t := by
  intro before after hsplit
  refine absurd ?_ h
  rw [hsplit]
  exact List.mem_append_right _ (List.mem_cons_self ..)

/-- There is no quote on the rest of a line that has none. -/
theorem no_quote_on_line {line inner back : Text} (hline : '"' ∉ line) (hinner : '\n' ∉ inner)
    (rest : Text) : line ++ '\n' :: rest ≠ inner ++ '"' :: back := by
  intro h
  rcases List.append_eq_append_iff.mp h with ⟨m, rfl, hm⟩ | ⟨m, rfl, hm⟩
  · cases m with
    | nil => exact absurd (List.cons.inj hm).1 (by decide)
    | cons c m =>
      have hc : '\n' = c := (List.cons.inj hm).1
      exact hinner (List.mem_append_right _ (hc ▸ List.mem_cons_self ..))
  · cases m with
    | nil => exact absurd (List.cons.inj hm).1 (by decide)
    | cons c m =>
      have hc : '"' = c := (List.cons.inj hm).1
      exact hline (List.mem_append_right _ (hc ▸ List.mem_cons_self ..))

/-- Nothing is read at the start of a text whose quotes are escaped, if a quote follows it that is
    the last one on its line. -/
theorem read_quoted_eq_none (hread : ReadsPastQuote read) {t line : Text}
    (ht : QuotesEscaped t) (hline : '"' ∉ line) (rest : Text) :
    read (t ++ '"' :: (line ++ '\n' :: rest)) = none := by
  by_contra hsome
  obtain ⟨x, hx⟩ := Option.ne_none_iff_exists'.mp hsome
  obtain ⟨head, inner, back, hsplit, hne, hquote, hlast, hinner⟩ := hread _ _ hx
  -- the first quote that is read past is the last one on its line, or an escaped one
  rcases List.append_eq_append_iff.mp hsplit with ⟨m, rfl, hm⟩ | ⟨m, rfl, hm⟩
  · cases m with
    | nil =>
      rw [List.nil_append] at hm
      exact no_quote_on_line hline hinner rest (List.cons.inj hm).2
    | cons c m =>
      have hc : '"' = c := (List.cons.inj hm).1
      exact hquote (List.mem_append_right _ (hc ▸ List.mem_cons_self ..))
  · cases m with
    | nil =>
      rw [List.nil_append] at hm
      exact no_quote_on_line hline hinner rest (List.cons.inj hm).2.symm
    | cons c m =>
      have hc : '"' = c := (List.cons.inj hm).1
      subst hc
      rcases ht head m rfl with hnil | hescape
      · exact hne hnil
      · exact hlast hescape

/-- Quoted text is silent together with the quote that ends it, if no other quote comes on that
    line. -/
theorem silent_quoted (hread : ReadsPastQuote read) {t line : Text} (ht : QuotesEscaped t)
    (hline : '"' ∉ line) (rest : Text) : Silent read (t ++ ['"']) (line ++ '\n' :: rest) := by
  induction t with
  | nil =>
    refine ⟨?_, trivial⟩
    exact read_quoted_eq_none hread ht hline rest
  | cons c t ih =>
    refine ⟨?_, ih ht.tail⟩
    have hnone := read_quoted_eq_none hread ht hline rest
    simpa using hnone

end Pieces

/-! ## The two recognisers -/

namespace Assignment

/-- A quote in a value comes after a backslash. -/
theorem IsValue.quotesEscaped {v : Text} (hv : IsValue v) : QuotesEscaped v := by
  intro before after hsplit
  have hodd := hv.trailingBackslashes_mod_two hsplit
  refine Or.inr ?_
  cases hlast : before.reverse with
  | nil =>
    rw [Text.trailingBackslashes, hlast] at hodd
    cases hodd
  | cons c rest =>
    rw [Text.trailingBackslashes, hlast, List.takeWhile_cons] at hodd
    rw [List.getLast?_eq_head?_reverse, hlast, List.head?_cons]
    split at hodd
    next hc => rw [of_decide_eq_true hc]
    next => cases hodd

theorem name_isPrefix_of_read (f : Field) (t : Text) (x : Text × Text)
    (h : read f t = some x) : f.name <+: t := by
  obtain ⟨value, u⟩ := x
  obtain ⟨hu, before, after, -, -, -, rfl⟩ := (read_eq_some_iff f t u value).mp h
  refine List.IsPrefix.trans ?_ hu
  simp only [text, List.append_assoc]
  exact List.prefix_append _ _

theorem quote_notMem_name (f : Field) : '"' ∉ f.name := by cases f <;> decide

theorem quote_notMem_of_blank {run : Text} (h : ∀ c ∈ run, isBlank c = true) : '"' ∉ run := by
  intro hmem
  exact absurd (h _ hmem) (by decide)

theorem readsPastQuote (f : Field) : ReadsPastQuote (read f) := by
  intro t x h
  obtain ⟨value, u⟩ := x
  obtain ⟨⟨back, rfl⟩, before, after, hbefore, hafter, hvalue, rfl⟩ :=
    (read_eq_some_iff f t u value).mp h
  refine ⟨f.name ++ before ++ '=' :: after, value, back, by simp [text], by simp, ?_, ?_,
    hvalue.lineFeed_notMem⟩
  · have hname := quote_notMem_name f
    have hbefore := quote_notMem_of_blank hbefore
    have hafter := quote_notMem_of_blank hafter
    simp [hname, hbefore, hafter]
  · -- the sign is the last character, or a blank after it
    rw [List.getLast?_append_cons]
    intro hlast
    have hmem : '\\' ∈ '=' :: after := List.mem_of_getLast? hlast
    rcases List.mem_cons.mp hmem with hequals | hblank
    · exact absurd hequals (by decide)
    · exact absurd (hafter _ hblank) (by decide)

/-- An assignment that stands at the start of a text is the first one found in it. -/
theorem valuesIn_text {f : Field} {before after value : Text}
    (hbefore : ∀ c ∈ before, isBlank c = true) (hafter : ∀ c ∈ after, isBlank c = true)
    (hvalue : IsValue value) (rest : Text) :
    valuesIn (read f) (text f before after value ++ rest) =
      value :: valuesIn (read f) rest := by
  refine valuesIn_of_read (reads f) ?_
  rw [read_eq_some_iff]
  exact ⟨List.prefix_append _ _, before, after, hbefore, hafter, hvalue, rfl⟩

end Assignment

namespace Declaration

theorem lead_isPrefix_of_read (t : Text) (x : Text × Text) (h : read t = some x) :
    lead <+: t := by
  obtain ⟨label, u⟩ := x
  obtain ⟨hu, blanks, -, -, rfl⟩ := (read_eq_some_iff t u label).mp h
  refine List.IsPrefix.trans ?_ hu
  rw [text_eq]
  exact List.prefix_append _ _

theorem readsPastQuote : ReadsPastQuote read := by
  intro t x h
  obtain ⟨rest, rfl⟩ := lead_isPrefix_of_read t x h
  exact ⟨"resource ".toList, resourceType, " \"".toList ++ rest, rfl, by decide, by decide,
    by decide, by decide⟩

/-- A header that stands at the start of a text is the first one found in it. -/
theorem valuesIn_text {label blanks : Text} (hlabel : '"' ∉ label)
    (hblanks : ∀ c ∈ blanks, isBlank c = true) (rest : Text) :
    valuesIn read (text label blanks ++ rest) = label :: valuesIn read rest := by
  refine valuesIn_of_read reads ?_
  rw [read_eq_some_iff]
  exact ⟨List.prefix_append _ _, blanks, hlabel, hblanks, rfl⟩

end Declaration

end PostureAudit
