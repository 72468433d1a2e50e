import PostureAudit.Pattern.Search
import Mathlib.Logic.Relation

set_option autoImplicit false

/-! # Searching is matching

`advance` computes with sets of places what `Matches` says of two places (`mem_advance_iff`), for
every pattern, stars of anything included: a star grows its set round by round, and since a match
that moves shortens the text that is left, no place that is new in a round has as much text left
as the rounds before it allowed. Hence a pattern occurs in a text exactly if it matches from some
place of it (`occursIn_iff`). -/

namespace PostureAudit.Pattern

open Relation (ReflTransGen)

variable {p q : Pattern} {k l : Cursor}

theorem matches_empty_iff : Matches .empty k l ↔ l = k := by
  constructor
  · rintro ⟨⟩
    rfl
  · rintro rfl
    exact .empty _

theorem matches_one_iff {s : CharClass} :
    Matches (.one s) k l ↔
      ∃ c t, k.rest = c :: t ∧ s.contains c = true ∧ l = ⟨k.index + 1, some c, t⟩ := by
  constructor
  · intro h
    cases h with
    | one hc => exact ⟨_, _, rfl, hc, rfl⟩
  · obtain ⟨index, before, rest⟩ := k
    rintro ⟨c, t, rfl, hc, rfl⟩
    exact .one hc

theorem matches_assert_iff {a : Assertion} :
    Matches (.assert a) k l ↔ l = k ∧ a.holds k = true := by
  constructor
  · intro h
    cases h with
    | assert hk => exact ⟨rfl, hk⟩
  · rintro ⟨rfl, hk⟩
    exact .assert hk

theorem matches_seq_iff : Matches (.seq p q) k l ↔ ∃ m, Matches p k m ∧ Matches q m l := by
  constructor
  · intro h
    cases h with
    | seq hp hq => exact ⟨_, hp, hq⟩
  · rintro ⟨m, hp, hq⟩
    exact .seq hp hq

theorem matches_alt_iff : Matches (.alt p q) k l ↔ Matches p k l ∨ Matches q k l := by
  constructor
  · intro h
    cases h with
    | altLeft h => exact Or.inl h
    | altRight h => exact Or.inr h
  · rintro (h | h)
    · exact .altLeft h
    · exact .altRight h

/-- A match stays where it is or moves on. -/
theorem Matches.eq_or_length_lt (h : Matches p k l) :
    l = k ∨ l.rest.length < k.rest.length := by
  induction h with
  | empty k => exact Or.inl rfl
  | one h => exact Or.inr (Nat.lt_succ_self _)
  | assert h => exact Or.inl rfl
  | altLeft _ ih => exact ih
  | altRight _ ih => exact ih
  | starNone k => exact Or.inl rfl
  | seq _ _ ihp ihq | starMore _ _ ihp ihq =>
    rcases ihp with rfl | hp
    · exact ihq
    · rcases ihq with rfl | hq
      · exact Or.inr hp
      · exact Or.inr (Nat.lt_trans hq hp)

/-- A star matches by some matches of its pattern, one after the other. -/
theorem matches_star_iff : Matches (.star p) k l ↔ ReflTransGen (Matches p) k l := by
  constructor
  · intro h
    generalize hstar : Pattern.star p = q at h
    induction h with
    | starNone k => exact .refl
    | starMore hp _ _ ih =>
      obtain rfl := Pattern.star.inj hstar
      exact .head hp (ih rfl)
    | _ => cases hstar
  · intro h
    induction h using ReflTransGen.head_induction_on with
    | refl => exact .starNone _
    | head hp _ ih => exact .starMore hp ih

/-! ## Closures -/

section Closure

variable {step : List Cursor → List Cursor} {R : Cursor → Cursor → Prop} {fuel : Nat}
  {reached latest fresh : List Cursor}

/-- From a set that no step leaves, nothing else is reached. -/
theorem exists_reflTransGen_iff_of_closed (hclosed : ∀ k ∈ reached, ∀ l, R k l → l ∈ reached)
    (l : Cursor) : (∃ k ∈ reached, ReflTransGen R k l) ↔ l ∈ reached := by
  constructor
  · rintro ⟨k, hk, hreach⟩
    induction hreach with
    | refl => exact hk
    | tail _ hstep ih => exact hclosed _ ih _ hstep
  · exact fun hl => ⟨l, hl, .refl⟩

/-- What holds before each round of a closure: the latest places are reached, all others have had
    their turn, and the rounds to come are more than the characters left at a latest place. -/
structure Frontier (R : Cursor → Cursor → Prop) (fuel : Nat) (reached latest : List Cursor) :
    Prop where
  subset : latest ⊆ reached
  turn : ∀ k ∈ reached, k ∈ latest ∨ ∀ l, R k l → l ∈ reached
  rounds : ∀ k ∈ latest, k.rest.length < fuel

namespace Frontier

/-- Without rounds to come, nothing is latest. -/
theorem closed_of_zero (h : Frontier R 0 reached latest) :
    ∀ k ∈ reached, ∀ l, R k l → l ∈ reached := by
  intro k hk
  rcases h.turn k hk with hlatest | hturn
  · exact absurd (h.rounds k hlatest) (Nat.not_lt_zero _)
  · exact hturn

theorem mem_or_mem_fresh (h : Frontier R fuel reached latest)
    (hfresh : ∀ l, l ∈ fresh ↔ (∃ k ∈ latest, R k l) ∧ l ∉ reached) {k l : Cursor}
    (hk : k ∈ reached) (hkl : R k l) : l ∈ reached ∨ l ∈ fresh := by
  by_cases hl : l ∈ reached
  · exact Or.inl hl
  · rcases h.turn k hk with hlatest | hturn
    · exact Or.inr ((hfresh l).mpr ⟨⟨k, hlatest, hkl⟩, hl⟩)
    · exact Or.inl (hturn l hkl)

/-- A round keeps the frontier. A place that is new is not where it was reached from, so there are
    fewer characters left at it. -/
theorem next (h : Frontier R (fuel + 1) reached latest)
    (hshrink : ∀ k l, R k l → l = k ∨ l.rest.length < k.rest.length)
    (hfresh : ∀ l, l ∈ fresh ↔ (∃ k ∈ latest, R k l) ∧ l ∉ reached) :
    Frontier R fuel (reached ++ fresh) fresh where
  subset := List.subset_append_right _ _
  turn := by
    intro k hk
    rcases List.mem_append.mp hk with hk | hk
    · exact Or.inr fun l hkl => List.mem_append.mpr (h.mem_or_mem_fresh hfresh hk hkl)
    · exact Or.inl hk
  rounds := by
    intro l hl
    obtain ⟨⟨k, hk, hkl⟩, hnew⟩ := (hfresh l).mp hl
    rcases hshrink k l hkl with rfl | hlt
    · exact absurd (h.subset hk) hnew
    · exact Nat.lt_of_lt_of_le hlt (Nat.le_of_lt_succ (h.rounds k hk))

/-- The places that a round adds can be reached from those that were there. -/
theorem exists_reflTransGen_append_iff (h : Frontier R fuel reached latest)
    (hfresh : ∀ l, l ∈ fresh ↔ (∃ k ∈ latest, R k l) ∧ l ∉ reached) (l : Cursor) :
    (∃ k ∈ reached ++ fresh, ReflTransGen R k l) ↔ ∃ k ∈ reached, ReflTransGen R k l := by
  constructor
  · rintro ⟨k, hk, hreach⟩
    rcases List.mem_append.mp hk with hk | hk
    · exact ⟨k, hk, hreach⟩
    · obtain ⟨⟨k', hk', hstep⟩, -⟩ := (hfresh k).mp hk
      exact ⟨k', h.subset hk', .head hstep hreach⟩
  · rintro ⟨k, hk, hreach⟩
    exact ⟨k, List.mem_append_left _ hk, hreach⟩

end Frontier

/-- A closure holds everything that can be reached. -/
theorem mem_closure_iff (hstep : ∀ ks l, l ∈ step ks ↔ ∃ k ∈ ks, R k l)
    (hshrink : ∀ k l, R k l → l = k ∨ l.rest.length < k.rest.length)
    (h : Frontier R fuel reached latest) (l : Cursor) :
    l ∈ closure step fuel reached latest ↔ ∃ k ∈ reached, ReflTransGen R k l := by
  induction fuel generalizing reached latest with
  | zero =>
    rw [exists_reflTransGen_iff_of_closed h.closed_of_zero]
    rfl
  | succ fuel ih =>
    have hfresh (l : Cursor) : l ∈ (step latest).filter (fun k => !reached.contains k) ↔
        (∃ k ∈ latest, R k l) ∧ l ∉ reached := by
      rw [List.mem_filter, hstep]
      simp
    rw [closure]
    split
    next hnone =>
      rw [hnone] at hfresh
      have hclosed : ∀ k ∈ reached, ∀ l, R k l → l ∈ reached := fun k hk l hkl =>
        (h.mem_or_mem_fresh hfresh hk hkl).resolve_right List.not_mem_nil
      rw [exists_reflTransGen_iff_of_closed hclosed]
    next fresh hsome =>
      rw [ih (h.next hshrink hfresh), h.exists_reflTransGen_append_iff hfresh]

end Closure

theorem length_rest_le_longest {ks : List Cursor} {k : Cursor} (hk : k ∈ ks) :
    k.rest.length ≤ longest ks := by
  have hgrow (ks : List Cursor) (n : Nat) :
      n ≤ ks.foldl (fun n k => max n k.rest.length) n ∧
        ∀ k ∈ ks, k.rest.length ≤ ks.foldl (fun n k => max n k.rest.length) n := by
    induction ks generalizing n with
    | nil => simp
    | cons k ks ih =>
      obtain ⟨hstart, hrest⟩ := ih (max n k.rest.length)
      refine ⟨Nat.le_trans (Nat.le_max_left ..) hstart, fun l hl => ?_⟩
      rcases List.mem_cons.mp hl with rfl | hl
      · exact Nat.le_trans (Nat.le_max_right ..) hstart
      · exact hrest l hl
  exact (hgrow ks 0).2 k hk

/-! ## Patterns -/

theorem mem_join {ks ls : List Cursor} : l ∈ join ks ls ↔ l ∈ ks ∨ l ∈ ls := by
  by_cases hl : l ∈ ks <;> simp [join, hl]

/-- Sets of places advance to the places that the pattern matches up to. -/
theorem mem_advance_iff {ks : List Cursor} : l ∈ advance p ks ↔ ∃ k ∈ ks, Matches p k l := by
  induction p generalizing ks l with
  | empty => simp [advance, matches_empty_iff]
  | one s =>
    rw [advance, List.mem_filterMap]
    refine exists_congr fun k => and_congr_right fun _ => ?_
    rw [matches_one_iff]
    cases k.rest with
    | nil => simp
    | cons c t =>
      simp only [Option.ite_none_right_eq_some, Option.some.injEq, List.cons.injEq]
      constructor
      · rintro ⟨hc, rfl⟩
        exact ⟨c, t, ⟨rfl, rfl⟩, hc, rfl⟩
      · rintro ⟨_, _, ⟨rfl, rfl⟩, hc, rfl⟩
        exact ⟨hc, rfl⟩
  | assert a => simp [advance, matches_assert_iff, and_left_comm]
  | seq p q ihp ihq =>
    simp only [advance, ihp, ihq, matches_seq_iff]
    constructor
    · rintro ⟨m, ⟨k, hk, hp⟩, hq⟩
      exact ⟨k, hk, m, hp, hq⟩
    · rintro ⟨k, hk, m, hp, hq⟩
      exact ⟨m, ⟨k, hk, hp⟩, hq⟩
  | alt p q ihp ihq =>
    simp only [advance, mem_join, ihp, ihq, matches_alt_iff, and_or_left, exists_or]
  | star p ih =>
    have hstart : Frontier (Matches p) (longest ks + 1) ks ks :=
      ⟨List.Subset.refl ks, fun k hk => Or.inl hk, fun k hk =>
        Nat.lt_succ_of_le (length_rest_le_longest hk)⟩
    rw [advance, mem_closure_iff (fun _ _ => ih) (fun _ _ h => h.eq_or_length_lt) hstart]
    exact exists_congr fun k => and_congr_right fun _ => matches_star_iff.symm

theorem occursIn_iff {t : Text} : p.occursIn t = true ↔ ∃ k ∈ Cursor.all t, ∃ l, Matches p k l := by
  rw [occursIn, Bool.not_eq_true', List.isEmpty_eq_false_iff_exists_mem]
  constructor
  · rintro ⟨l, hl⟩
    obtain ⟨k, hk, hmatch⟩ := mem_advance_iff.mp hl
    exact ⟨k, hk, l, hmatch⟩
  · rintro ⟨k, hk, l, hmatch⟩
    exact ⟨l, mem_advance_iff.mpr ⟨k, hk, hmatch⟩⟩

end PostureAudit.Pattern
