import PostureAudit.Text.Scan
import Mathlib.Data.List.Basic

set_option autoImplicit false

/-! # What a scan finds

A *form* says which texts count as occurrences of something, and with which value. A recogniser
*reads* a form if it answers exactly at the starts of such texts. This file derives, once for all
recognisers, what `scan` returns: the *leftmost* sites of the form. They come in order and do not
overlap, and every occurrence that is left out starts inside one of them (`Scans.leftmost`). No
other list of sites has these properties (`Leftmost.unique`).

`Scans` is the run of a scan as a derivation, with one rule for a character that is passed over and
one for a site. Later files argue by induction on it and never open `scanFrom`. -/

namespace PostureAudit

variable {α : Type}

/-! ## Forms -/

/-- Which texts are occurrences of something, and the value that each of them holds. -/
abbrev Form (α : Type) := Text → α → Prop

/-- The recogniser reads the texts of a form and nothing else, and no such text is empty. -/
structure Reads (read : Recogniser α) (form : Form α) : Prop where
  read_eq_some_iff : ∀ (t text : Text) (value : α),
    read t = some (value, text) ↔ text <+: t ∧ form text value
  ne_nil : ∀ (text : Text) (value : α), form text value → text ≠ []

namespace Site

/-- Where a site ends, in bytes. -/
def stop (s : Site α) : Nat := s.offset + Text.utf8Length s.text

/-- The site is an occurrence of the form in a text that begins at the byte offset `start`. -/
def Occurs (form : Form α) (start : Nat) (t : Text) (s : Site α) : Prop :=
  ∃ front back, t = front ++ s.text ++ back ∧ start + Text.utf8Length front = s.offset ∧
    form s.text s.value

/-- The site, moved to the right by some bytes. -/
def shift (n : Nat) (s : Site α) : Site α := { s with offset := n + s.offset }

variable {form : Form α} {start : Nat} {t : Text} {s s' : Site α}

theorem Occurs.start_le (h : s.Occurs form start t) : start ≤ s.offset := by
  obtain ⟨front, back, -, hoffset, -⟩ := h
  omega

/-- An occurrence stays one when text is put in front. -/
theorem Occurs.prepend {u : Text} (h : s.Occurs form (start + Text.utf8Length u) t) :
    s.Occurs form start (u ++ t) := by
  obtain ⟨front, back, rfl, hoffset, hform⟩ := h
  refine ⟨u ++ front, back, by simp, ?_, hform⟩
  rw [Text.utf8Length_append]
  omega

theorem Occurs.append {u : Text} (h : s.Occurs form start t) : s.Occurs form start (t ++ u) := by
  obtain ⟨front, back, rfl, hoffset, hform⟩ := h
  exact ⟨front, back ++ u, by simp, hoffset, hform⟩

theorem Occurs.shift {n : Nat} (h : s.Occurs form start t) :
    (s.shift n).Occurs form (n + start) t := by
  obtain ⟨front, back, ht, hoffset, hform⟩ := h
  refine ⟨front, back, ht, ?_, hform⟩
  rw [Nat.add_assoc, hoffset]
  rfl

/-- An occurrence in two texts, one after the other, starts in the first one or occurs in the
    second. -/
theorem Occurs.of_append {u : Text} (h : s.Occurs form start (u ++ t)) :
    s.offset < start + Text.utf8Length u ∨ s.Occurs form (start + Text.utf8Length u) t := by
  obtain ⟨front, back, hsplit, hoffset, hform⟩ := h
  by_cases hlt : s.offset < start + Text.utf8Length u
  · exact Or.inl hlt
  · have hle : Text.utf8Length u ≤ Text.utf8Length front := by omega
    rw [List.append_assoc] at hsplit
    obtain ⟨between, rfl, ht⟩ := Text.exists_between hsplit hle
    refine Or.inr ⟨between, back, by rw [ht, List.append_assoc], ?_, hform⟩
    rw [Text.utf8Length_append] at hoffset
    omega

/-- At one place of a text a recogniser reads at most one text, with one value. -/
theorem Occurs.eq_of_offset_eq {read : Recogniser α} (hread : Reads read form)
    (h : s.Occurs form start t) (h' : s'.Occurs form start t) (hoffset : s.offset = s'.offset) :
    s = s' := by
  obtain ⟨front, back, ht, hs, hform⟩ := h
  obtain ⟨front', back', ht', hs', hform'⟩ := h'
  rw [ht, List.append_assoc, List.append_assoc] at ht'
  obtain ⟨-, hrest⟩ := Text.append_inj_of_utf8Length ht' (by omega)
  have hfirst := (hread.read_eq_some_iff (s.text ++ back) s.text s.value).mpr
    ⟨List.prefix_append _ _, hform⟩
  have hsecond := (hread.read_eq_some_iff (s.text ++ back) s'.text s'.value).mpr
    ⟨hrest ▸ List.prefix_append _ _, hform'⟩
  rw [hfirst] at hsecond
  obtain ⟨hvalue, htext⟩ := Prod.mk.inj (Option.some.inj hsecond)
  cases s
  cases s'
  subst hvalue htext hoffset
  rfl

end Site

/-! ## The run of a scan -/

/-- The run of a scan from a byte offset on. -/
inductive Scans (read : Recogniser α) : Nat → Text → List (Site α) → Prop where
  | done (offset : Nat) : Scans read offset [] []
  | miss {offset : Nat} {c : Char} {t : Text} {sites : List (Site α)}
    (hread : read (c :: t) = none) (rest : Scans read (offset + c.utf8Size) t sites) :
    Scans read offset (c :: t) sites
  | hit {offset : Nat} {text t : Text} {value : α} {sites : List (Site α)}
    (hread : read (text ++ t) = some (value, text)) (hne : text ≠ [])
    (rest : Scans read (offset + Text.utf8Length text) t sites) :
    Scans read offset (text ++ t) (⟨offset, text, value⟩ :: sites)

theorem scanFrom_length_append (read : Recogniser α) (offset : Nat) (text t : Text) :
    scanFrom read offset text.length (text ++ t) =
      scanFrom read (offset + Text.utf8Length text) 0 t := by
  induction text generalizing offset with
  | nil => simp
  | cons c text ih =>
    simp only [List.cons_append, List.length_cons, scanFrom]
    rw [ih, Text.utf8Length_cons, Nat.add_assoc]

/-- A run ends with the sites that the scan returns. -/
theorem Scans.eq {read : Recogniser α} {offset : Nat} {t : Text} {sites : List (Site α)}
    (h : Scans read offset t sites) : scanFrom read offset 0 t = sites := by
  induction h with
  | done offset => rfl
  | miss hread _ ih => simp only [scanFrom, hread, ih]
  | @hit offset text t value sites hread hne _ ih =>
    cases text with
    | nil => exact absurd rfl hne
    | cons c text =>
      rw [List.cons_append] at hread ⊢
      rw [Text.utf8Length_cons, ← Nat.add_assoc] at ih
      simp only [scanFrom, hread, List.length_cons, Nat.add_sub_cancel]
      rw [scanFrom_length_append, ih]

/-- Every scan has a run. -/
theorem Reads.scans {read : Recogniser α} {form : Form α} (hread : Reads read form)
    (offset : Nat) (t : Text) : Scans read offset t (scanFrom read offset 0 t) := by
  -- on the length of the text, because a site may take any number of its characters
  induction hlen : t.length using Nat.strongRecOn generalizing offset t with
  | _ n ih =>
    cases t with
    | nil => exact .done offset
    | cons c t =>
      rw [List.length_cons] at hlen
      cases h : read (c :: t) with
      | none =>
        have run := Scans.miss h (ih t.length (by omega) (offset + c.utf8Size) t rfl)
        exact run.eq.symm ▸ run
      | some answer =>
        obtain ⟨value, text⟩ := answer
        obtain ⟨⟨rest, hsplit⟩, hform⟩ := (hread.read_eq_some_iff _ _ _).mp h
        have hne := hread.ne_nil text value hform
        have hpos := List.length_pos_of_ne_nil hne
        have hrest : rest.length < n := by
          have := congrArg List.length hsplit
          rw [List.length_append, List.length_cons] at this
          omega
        rw [← hsplit] at h ⊢
        have run := Scans.hit h hne
          (ih rest.length hrest (offset + Text.utf8Length text) rest rfl)
        exact run.eq.symm ▸ run

/-! ## Leftmost sites -/

/-- The sites are those that one finds from left to right: they are occurrences, each of them ends
    before the next one starts, and an occurrence is only left out if it starts inside a site. -/
structure Leftmost (form : Form α) (start : Nat) (t : Text) (sites : List (Site α)) : Prop where
  occurs : ∀ s ∈ sites, s.Occurs form start t
  apart : sites.Pairwise fun s s' => s.stop ≤ s'.offset
  covers : ∀ s : Site α, s.Occurs form start t →
    s ∈ sites ∨ ∃ s' ∈ sites, s'.offset < s.offset ∧ s.offset < s'.stop

namespace Leftmost

variable {read : Recogniser α} {form : Form α} {start : Nat} {t : Text}
  {sites sites' : List (Site α)}

theorem nil (hread : Reads read form) (start : Nat) : Leftmost form start [] [] where
  occurs := by simp
  apart := .nil
  covers := by
    rintro s ⟨front, back, hsplit, -, hform⟩
    have htext : s.text = [] := by
      have := hsplit.symm
      simp only [List.append_eq_nil_iff] at this
      exact this.1.2
    exact absurd htext (hread.ne_nil _ _ hform)

/-- Passing over a character at which nothing can be read keeps the sites. -/
theorem miss (hread : Reads read form) {c : Char} (hnone : read (c :: t) = none)
    (h : Leftmost form (start + c.utf8Size) t sites) : Leftmost form start (c :: t) sites where
  occurs := by
    intro s hs
    exact Site.Occurs.prepend (u := [c]) (h.occurs s hs)
  apart := h.apart
  covers := by
    intro s hs
    rcases Site.Occurs.of_append (u := [c]) hs with hlt | hlater
    · obtain ⟨front, back, hsplit, hoffset, hform⟩ := hs
      -- a character takes a byte at least, so nothing but the very start is before its end
      have hfront : front = [] := by
        rcases front with _ | ⟨d, front⟩
        · rfl
        · rw [List.cons_append, List.cons_append, List.cons.injEq] at hsplit
          rw [← hsplit.1, Text.utf8Length_cons] at hoffset
          rw [Text.utf8Length_cons, Text.utf8Length_nil] at hlt
          omega
      subst hfront
      have hsome := (hread.read_eq_some_iff (c :: t) s.text s.value).mpr
        ⟨hsplit ▸ by simp, hform⟩
      rw [hnone] at hsome
      exact absurd hsome (by simp)
    · exact h.covers s hlater

/-- Reading a site puts it in front of the sites of what is left. -/
theorem hit (hread : Reads read form) {text : Text} {value : α}
    (hsome : read (text ++ t) = some (value, text))
    (h : Leftmost form (start + Text.utf8Length text) t sites) :
    Leftmost form start (text ++ t) (⟨start, text, value⟩ :: sites) where
  occurs := by
    intro s hs
    rcases List.mem_cons.mp hs with rfl | hs
    · exact ⟨[], t, rfl, rfl, ((hread.read_eq_some_iff _ _ _).mp hsome).2⟩
    · exact Site.Occurs.prepend (h.occurs s hs)
  apart := by
    refine List.pairwise_cons.mpr ⟨fun s hs => ?_, h.apart⟩
    exact (h.occurs s hs).start_le
  covers := by
    intro s hs
    rcases hs.of_append with hlt | hlater
    · -- an occurrence that does not start after the site is the site
      have hhere : (⟨start, text, value⟩ : Site α).Occurs form start (text ++ t) :=
        ⟨[], t, rfl, rfl, ((hread.read_eq_some_iff _ _ _).mp hsome).2⟩
      rcases Nat.eq_or_lt_of_le hs.start_le with heq | hgt
      · exact Or.inl (hhere.eq_of_offset_eq hread hs heq ▸ List.mem_cons_self ..)
      · exact Or.inr ⟨_, List.mem_cons_self .., hgt, hlt⟩
    · rcases h.covers s hlater with hmem | ⟨s', hmem, hinside⟩
      · exact Or.inl (List.mem_cons_of_mem _ hmem)
      · exact Or.inr ⟨s', List.mem_cons_of_mem _ hmem, hinside⟩

theorem lt_stop (hread : Reads read form) (h : Leftmost form start t sites) {s : Site α}
    (hs : s ∈ sites) : s.offset < s.stop := by
  obtain ⟨-, -, -, -, hform⟩ := h.occurs s hs
  have hne := mt Text.utf8Length_eq_zero_iff.mp (hread.ne_nil _ _ hform)
  unfold Site.stop
  omega

theorem increasing (hread : Reads read form) (h : Leftmost form start t sites) :
    sites.Pairwise fun s s' => s.offset < s'.offset := by
  refine h.apart.imp_of_mem fun {s s'} hs _ hstop => ?_
  exact Nat.lt_of_lt_of_le (h.lt_stop hread hs) hstop

/-- Of two sites of a list, the one that starts earlier ends before the other one starts. -/
theorem stop_le (hread : Reads read form) (h : Leftmost form start t sites) {s s' : Site α}
    (hs : s ∈ sites) (hs' : s' ∈ sites) (hlt : s.offset < s'.offset) : s.stop ≤ s'.offset := by
  obtain ⟨i, hi, rfl⟩ := List.getElem_of_mem hs
  obtain ⟨j, hj, rfl⟩ := List.getElem_of_mem hs'
  have hapart := List.pairwise_iff_getElem.mp h.apart
  rcases Nat.lt_trichotomy i j with hij | rfl | hji
  · exact hapart i j hi hj hij
  · exact absurd hlt (Nat.lt_irrefl _)
  · have hstop := hapart j i hj hi hji
    have hlength := h.lt_stop hread hs'
    omega

/-- Leftmost sites are those of any other list of leftmost sites. -/
theorem mem_of_mem (hread : Reads read form) (h : Leftmost form start t sites)
    (h' : Leftmost form start t sites') {s : Site α} (hs : s ∈ sites) : s ∈ sites' := by
  -- the site to the left that would cover `s` in the other list is also one of this list, where
  -- sites do not overlap
  induction hn : s.offset using Nat.strongRecOn generalizing s sites sites' with
  | _ n ih =>
    rcases h'.covers s (h.occurs s hs) with hmem | ⟨s', hs', hlt, hinside⟩
    · exact hmem
    · have hboth : s' ∈ sites := ih s'.offset (by omega) h' h hs' rfl
      have hstop := h.stop_le hread hboth hs hlt
      omega

/-- A text has only one list of leftmost sites. -/
theorem unique (hread : Reads read form) (h : Leftmost form start t sites)
    (h' : Leftmost form start t sites') : sites = sites' := by
  have hincreasing := h.increasing hread
  have hincreasing' := h'.increasing hread
  have hperm : sites.Perm sites' := by
    refine (List.perm_ext_iff_of_nodup ?_ ?_).mpr fun s =>
      ⟨h.mem_of_mem hread h', h'.mem_of_mem hread h⟩
    · exact hincreasing.imp fun hlt heq => by simp [heq] at hlt
    · exact hincreasing'.imp fun hlt heq => by simp [heq] at hlt
  refine hperm.eq_of_pairwise (fun s s' _ _ hlt hgt => ?_) hincreasing hincreasing'
  exact absurd hlt (Nat.lt_asymm hgt)

end Leftmost

theorem Scans.leftmost {read : Recogniser α} {form : Form α} {offset : Nat} {t : Text}
    {sites : List (Site α)} (hread : Reads read form) (run : Scans read offset t sites) :
    Leftmost form offset t sites := by
  induction run with
  | done offset => exact .nil hread offset
  | miss hnone _ ih => exact ih.miss hread hnone
  | hit hsome _ _ ih => exact ih.hit hread hsome

/-- A scan returns the leftmost sites. -/
theorem Reads.leftmost_scan {read : Recogniser α} {form : Form α} (hread : Reads read form)
    (t : Text) : Leftmost form 0 t (scan read t) :=
  (hread.scans 0 t).leftmost hread

theorem Reads.leftmost_iff {read : Recogniser α} {form : Form α} (hread : Reads read form)
    (t : Text) (sites : List (Site α)) : Leftmost form 0 t sites ↔ sites = scan read t := by
  refine ⟨fun h => h.unique hread (hread.leftmost_scan t), ?_⟩
  rintro rfl
  exact hread.leftmost_scan t

end PostureAudit
