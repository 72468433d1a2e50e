import PostureAudit.Posture.Declaration
import PostureAudit.Proofs.Scan
import Mathlib.Data.Set.Card

set_option autoImplicit false

/-! # The declarations of a text

A header begins with a fixed text, `lead`, which ends in the quote that opens the label. The label
may hold almost anything, but a header cannot begin inside another one (`stop_le_of_occurs`):

* not inside the lead, because no end of the lead is the beginning of another lead;
* not inside the label, because the quote that closes the label would be the first quote of the
  inner header, and what follows it would be a resource type instead of blanks and a brace;
* not after it, because a lead begins with neither a blank nor a brace.

So a scan leaves no header out, and the declarations of a text are the headers at all its
offsets (`mem_declarations_iff`). -/

namespace PostureAudit

namespace Declaration

/-- How a header begins, up to the quote that opens the label. -/
def lead : Text := opening ++ " \"".toList

/-- The texts of headers, each with its label. -/
def form : Form Text := fun t label =>
  ∃ blanks, '"' ∉ label ∧ (∀ c ∈ blanks, isBlank c = true) ∧ t = text label blanks

theorem text_eq (label blanks : Text) :
    text label blanks = lead ++ (label ++ '"' :: (blanks ++ ['\x7B'])) := by
  simp [text, lead]

theorem all_ne_quote_iff (run : Text) : (∀ c ∈ run, (c != '"') = true) ↔ '"' ∉ run := by
  simp only [bne_iff_ne]
  exact ⟨fun h hin => h _ hin rfl, fun h c hc heq => h (heq ▸ hc)⟩

/-- Reading succeeds exactly at the start of a header. -/
theorem read_eq_some_iff (t u label : Text) :
    read t = some (label, u) ↔ u <+: t ∧ form u label := by
  have hquote : ('"' != '"') = false := by decide
  have hbrace : isBlank '\x7B' = false := by decide
  simp only [read, Option.bind_eq_bind, Option.bind_eq_some_iff, Text.after?_eq_some_iff,
    Option.pure_def, Option.some.injEq, Prod.mk.injEq, List.singleton_append]
  constructor
  · rintro ⟨t₁, rfl, t₂, hlabel, t₃, hblanks, rfl, rfl⟩
    obtain ⟨hsplit, hnone⟩ := (Text.span_eq_iff (· != '"') hquote).mp ⟨rfl, hlabel⟩
    obtain ⟨hsplit', hall⟩ := (Text.span_eq_iff isBlank hbrace).mp ⟨rfl, hblanks⟩
    generalize t₁.takeWhile (· != '"') = label at *
    generalize t₂.takeWhile isBlank = blanks at *
    subst hsplit hsplit'
    exact ⟨⟨t₃, by simp [text]⟩, blanks, (all_ne_quote_iff label).mp hnone, hall, rfl⟩
  · rintro ⟨⟨rest, rfl⟩, blanks, hnone, hall, rfl⟩
    obtain ⟨htake', hdrop'⟩ := (Text.span_eq_iff isBlank hbrace).mpr
      (⟨rfl, hall⟩ : blanks ++ '\x7B' :: rest = _ ∧ _)
    obtain ⟨htake, hdrop⟩ := (Text.span_eq_iff (· != '"') hquote).mpr
      (⟨rfl, (all_ne_quote_iff label).mpr hnone⟩ :
        label ++ '"' :: (blanks ++ '\x7B' :: rest) = _ ∧ _)
    refine ⟨_, by simp [text], _, hdrop, _, hdrop', htake, ?_⟩
    rw [htake, htake']

theorem reads : Reads read form where
  read_eq_some_iff := read_eq_some_iff
  ne_nil := by
    rintro u label ⟨blanks, -, -, rfl⟩
    simp [text]

/-! ## No header begins inside another one -/

/-- No proper end of the lead is a beginning of it. -/
theorem lead_drop_not_isPrefix :
    ∀ i < lead.length, 0 < i → ¬ (lead.drop i).isPrefixOf lead = true := by
  decide +kernel

theorem not_in_lead {front inner back rest : Text} (hlead : lead = front ++ inner)
    (hfront : front ≠ []) (hinner : inner ≠ []) : inner ++ back ≠ lead ++ rest := by
  intro h
  have hlength : lead.length = front.length + inner.length := by rw [hlead, List.length_append]
  have hdrop : lead.drop front.length = inner := by rw [hlead, List.drop_left]
  have hprefix : inner <+: lead := by
    have hinner' : inner <+: lead ++ rest := h ▸ List.prefix_append _ _
    exact List.prefix_of_prefix_length_le hinner' (List.prefix_append _ _) (by omega)
  have hpos := List.length_pos_of_ne_nil hfront
  have hpos' := List.length_pos_of_ne_nil hinner
  refine lead_drop_not_isPrefix front.length (by omega) hpos ?_
  rw [hdrop]
  exact List.isPrefixOf_iff_prefix.mpr hprefix

theorem not_in_label {inner blanks : Text} (back rest : Text) (hinner : '"' ∉ inner)
    (hblanks : ∀ c ∈ blanks, isBlank c = true) :
    inner ++ '"' :: (blanks ++ '\x7B' :: back) ≠ lead ++ rest := by
  intro h
  have hquote : ('"' != '"') = false := by decide
  obtain ⟨type, htype⟩ : ∃ type, lead = "resource ".toList ++ '"' :: ('g' :: type) :=
    ⟨lead.drop 11, by decide⟩
  rw [htype, List.append_assoc] at h
  -- both sides have their first quote at the same place
  obtain ⟨-, hdrop⟩ := (Text.span_eq_iff (· != '"') hquote).mpr
    ⟨h.symm, (all_ne_quote_iff inner).mpr hinner⟩
  obtain ⟨-, hdrop'⟩ := (Text.span_eq_iff (· != '"') hquote).mpr
    ⟨rfl, (all_ne_quote_iff "resource ".toList).mpr (by decide)⟩
  rw [← List.cons_append, hdrop] at hdrop'
  have hafter := (List.cons.inj hdrop').2
  cases blanks with
  | nil => exact absurd (List.cons.inj hafter).1 (by decide)
  | cons c blanks =>
    have hc := hblanks c (List.mem_cons_self ..)
    rw [(List.cons.inj hafter).1] at hc
    exact absurd hc (by decide)

theorem not_in_end {inner back rest : Text} (hne : inner ≠ [])
    (hinner : ∀ c ∈ inner, c = '"' ∨ isBlank c = true ∨ c = '\x7B') :
    inner ++ back ≠ lead ++ rest := by
  intro h
  cases inner with
  | nil => exact hne rfl
  | cons c inner =>
    have hc : c = 'r' := (List.cons.inj h).1
    subst hc
    have := hinner 'r' (List.mem_cons_self ..)
    revert this
    decide

/-- No header begins inside a header. -/
theorem not_inside {u label front inner back rest : Text} (hform : form u label)
    (hsplit : u = front ++ inner) (hfront : front ≠ []) (hinner : inner ≠ []) :
    inner ++ back ≠ lead ++ rest := by
  obtain ⟨blanks, hlabel, hblanks, rfl⟩ := hform
  rw [text_eq] at hsplit
  rcases List.append_eq_append_iff.mp hsplit with ⟨m, hfront', htail⟩ | ⟨m, hlead, rfl⟩
  · rcases List.append_eq_append_iff.mp htail with ⟨n, -, hclosing⟩ | ⟨n, rfl, rfl⟩
    · -- from the quote that closes the label on
      refine not_in_end hinner fun c hc => ?_
      have hmem : c ∈ '"' :: (blanks ++ ['\x7B']) := hclosing ▸ List.mem_append_right _ hc
      rcases List.mem_cons.mp hmem with hquote | hmem
      · exact Or.inl hquote
      · rcases List.mem_append.mp hmem with hmem | hbrace
        · exact Or.inr (Or.inl (hblanks c hmem))
        · exact Or.inr (Or.inr (List.mem_singleton.mp hbrace))
    · -- in the label
      have hnone : '"' ∉ n := fun h => hlabel (List.mem_append_right _ h)
      have := not_in_label back rest hnone hblanks
      simpa using this
  · -- in the lead, or right after it
    by_cases hm : m = []
    · subst hm
      have := not_in_label back rest hlabel hblanks
      simpa using this
    · rw [List.append_assoc]
      exact not_in_lead hlead hfront hm

/-- A header ends before the next one begins. -/
theorem stop_le_of_occurs {start : Nat} {t : Text} {s s' : Site Text}
    (hs : s.Occurs form start t) (hs' : s'.Occurs form start t) (hlt : s.offset < s'.offset) :
    s.stop ≤ s'.offset := by
  by_contra hinside
  obtain ⟨front, back, ht, hoffset, hform⟩ := hs
  obtain ⟨front', back', ht', hoffset', blanks, -, -, htext⟩ := hs'
  rw [ht, List.append_assoc, List.append_assoc] at ht'
  obtain ⟨between, rfl, hrest⟩ := Text.exists_between ht' (by omega)
  rw [Text.utf8Length_append] at hoffset'
  unfold Site.stop at hinside
  obtain ⟨inner, htext', hinner⟩ := Text.exists_between hrest.symm (by omega)
  rw [htext, text_eq, List.append_assoc] at hinner
  refine not_inside hform htext' ?_ ?_ hinner.symm
  · rintro rfl
    simp only [Text.utf8Length_nil] at hoffset'
    omega
  · rintro rfl
    rw [htext', List.append_nil] at hinside
    omega

end Declaration

/-! ## All headers are found -/

/-- The declarations of a text are the headers in it. -/
theorem mem_declarations_iff {t : Text} {s : Site Text} :
    s ∈ declarations t ↔ s.Occurs Declaration.form 0 t := by
  have hleftmost := Declaration.reads.leftmost_scan t
  refine ⟨hleftmost.occurs s, fun hs => ?_⟩
  rcases hleftmost.covers s hs with hmem | ⟨s', hmem, hlt, hinside⟩
  · exact hmem
  · have hstop := Declaration.stop_le_of_occurs (hleftmost.occurs s' hmem) hs hlt
    omega

theorem declarations_increasing (t : Text) :
    (declarations t).Pairwise fun s s' => s.offset < s'.offset :=
  (Declaration.reads.leftmost_scan t).increasing Declaration.reads

/-- The byte offsets at which a header stands. -/
def Declaration.offsets (t : Text) : Set Nat :=
  {n | ∃ s : Site Text, s.Occurs form 0 t ∧ s.offset = n}

/-- There are as many declarations as offsets at which a header stands. -/
theorem length_declarations (t : Text) :
    (declarations t).length = (Declaration.offsets t).ncard := by
  have hset : Declaration.offsets t = ((declarations t).map Site.offset).toFinset := by
    ext n
    simp [Declaration.offsets, mem_declarations_iff]
  have hnodup : ((declarations t).map Site.offset).Nodup := by
    refine List.pairwise_map.mpr ((declarations_increasing t).imp fun hlt => ?_)
    exact Nat.ne_of_lt hlt
  rw [hset, Set.ncard_coe_finset, List.toFinset_card_of_nodup hnodup, List.length_map]

/-- Every header of a text is declared once, in order, and headers never overlap. What is declared
    in either of two texts is declared in one after the other. -/
theorem declarations_exact :
    (∀ t : Text,
      ((declarations t).Pairwise fun s s' => s.offset < s'.offset) ∧
      (∀ s, s ∈ declarations t ↔ s.Occurs Declaration.form 0 t) ∧
      (∀ s s' : Site Text, s.Occurs Declaration.form 0 t → s'.Occurs Declaration.form 0 t →
        s = s' ∨ s.stop ≤ s'.offset ∨ s'.stop ≤ s.offset) ∧
      (declarations t).length = (Declaration.offsets t).ncard) ∧
    ∀ t u : Text,
      (∀ s ∈ declarations t, s ∈ declarations (t ++ u)) ∧
      ∀ s ∈ declarations u, s.shift (Text.utf8Length t) ∈ declarations (t ++ u) := by
  constructor
  · intro t
    refine ⟨declarations_increasing t, fun s => mem_declarations_iff, ?_, length_declarations t⟩
    intro s s' hs hs'
    rcases Nat.lt_trichotomy s.offset s'.offset with hlt | heq | hgt
    · exact Or.inr (Or.inl (Declaration.stop_le_of_occurs hs hs' hlt))
    · exact Or.inl (hs.eq_of_offset_eq Declaration.reads hs' heq)
    · exact Or.inr (Or.inr (Declaration.stop_le_of_occurs hs' hs hgt))
  · intro t u
    refine ⟨fun s hs => ?_, fun s hs => ?_⟩
    · exact mem_declarations_iff.mpr (mem_declarations_iff.mp hs).append
    · have hshift := (mem_declarations_iff.mp hs).shift (n := Text.utf8Length t)
      rw [Nat.add_comm] at hshift
      exact mem_declarations_iff.mpr hshift.prepend

end PostureAudit
