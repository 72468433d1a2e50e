import PostureAudit.ConfigFile.RuleTable
import PostureAudit.Proofs.Encoding
import PostureAudit.Settings

set_option autoImplicit false

/-! # Tables of named rules

A table of named rules is applied pair by pair, but what comes out can be said of the table as a
whole: it is refused for the first name in it that is no rule, and otherwise the last pair that
names a rule counts (`withNamedRules_eq`). So the order of two pairs matters only if they have one
name (`SameByName.withNamedRules_eq_ok`), and a table acts as a whole or not at all
(`withNamedRules_exact`).

The table of a configuration file lists a name once, in the order of the names. So the first name
that is no rule is also the smallest one, byte by byte (`withNamedRules_of_firstUnknown`), and the
only pair with a name is the last one (`withNamedRules_of_known`). -/

namespace PostureAudit

theorem Rule.ofName?_eq_none_iff {name : Text} :
    ofName? name = none ↔ ∀ r : Rule, name ≠ r.name := by
  rw [Option.eq_none_iff_forall_ne_some]
  exact forall_congr' fun r => not_congr ofName?_eq_some_iff

namespace Settings

/-! ## Tables in any order -/

/-- The first name of a table that is no rule. -/
def firstUnknown? (table : List (Text × Severity)) : Option Text :=
  (table.map (·.1)).find? fun name => (Rule.ofName? name).isNone

/-- The severity of the last pair of a table that names the rule. -/
def lastSeverity? (table : List (Text × Severity)) (r : Rule) : Option Severity :=
  (table.reverse.find? (·.1 = r.name)).map (·.2)

theorem firstUnknown?_cons (name : Text) (severity : Severity) (table : List (Text × Severity)) :
    firstUnknown? ((name, severity) :: table) =
      if (Rule.ofName? name).isNone then some name else firstUnknown? table := by
  rw [firstUnknown?, List.map_cons, List.find?_cons]
  cases (Rule.ofName? name).isNone <;> rfl

theorem lastSeverity?_cons (name : Text) (severity : Severity) (table : List (Text × Severity))
    (r : Rule) : lastSeverity? ((name, severity) :: table) r =
      (lastSeverity? table r).or (if name = r.name then some severity else none) := by
  rw [lastSeverity?, lastSeverity?, List.reverse_cons, List.find?_append, List.find?_cons,
    List.find?_nil]
  cases table.reverse.find? (·.1 = r.name) with
  | some e => rfl
  | none => by_cases h : name = r.name <;> simp [h]

/-- A table of named rules is refused for the first name that is no rule. Without such a name, it
    holds every rule that it names at the severity that it gives it last, and changes nothing
    else. -/
theorem withNamedRules_eq (s : Settings) (table : List (Text × Severity)) :
    s.withNamedRules table =
      match firstUnknown? table with
      | some name => .error (.unknownRule name)
      | none =>
        .ok { s with severity := fun r => (lastSeverity? table r).getD (s.severity r) } := by
  induction table generalizing s with
  | nil => rfl
  | cons e table ih =>
    obtain ⟨name, severity⟩ := e
    rw [withNamedRules, firstUnknown?_cons]
    cases hname : Rule.ofName? name with
    | none => rfl
    | some rule =>
      have hlast (r : Rule) : (lastSeverity? table r).getD ((s.withRule rule severity).severity r) =
          (lastSeverity? ((name, severity) :: table) r).getD (s.severity r) := by
        rw [lastSeverity?_cons, Rule.ofName?_eq_some_iff.mp hname, severity_withRule]
        cases lastSeverity? table r with
        | some last => rfl
        | none =>
          by_cases hr : r = rule
          · rw [if_pos hr, hr, if_pos rfl]
            rfl
          · rw [if_neg hr, if_neg fun h => hr (Rule.name_injective h).symm]
            rfl
      simp only [ih, hlast, extension_withRule, lineResolution_withRule]
      rfl

/-! ## What a table says of a rule -/

/-- The severity at which a rule is held once a table applies: that of the last pair that names the
    rule, or the one before if no pair does. -/
inductive HeldAfter (s : Settings) (table : List (Text × Severity)) (r : Rule) : Severity → Prop
  | named {before after : List (Text × Severity)} {severity : Severity}
    (htable : table = before ++ (r.name, severity) :: after)
    (hlast : ∀ e ∈ after, e.1 ≠ r.name) : HeldAfter s table r severity
  | kept (hnone : ∀ e ∈ table, e.1 ≠ r.name) : HeldAfter s table r (s.severity r)

variable {s s' : Settings} {table table' : List (Text × Severity)}

theorem lastSeverity?_eq_some_iff {r : Rule} {severity : Severity} :
    lastSeverity? table r = some severity ↔
      ∃ before after, table = before ++ (r.name, severity) :: after ∧
        ∀ e ∈ after, e.1 ≠ r.name := by
  rw [lastSeverity?, Option.map_eq_some_iff]
  constructor
  · rintro ⟨⟨name, _⟩, hfound, rfl⟩
    obtain ⟨hname, behind, front, hreverse, hbehind⟩ := List.find?_eq_some_iff_append.mp hfound
    obtain rfl : name = r.name := of_decide_eq_true hname
    refine ⟨front.reverse, behind.reverse, ?_, fun e he => ?_⟩
    · rw [← List.reverse_reverse table, hreverse]
      simp
    · simpa using hbehind e (List.mem_reverse.mp he)
  · rintro ⟨before, after, rfl, hafter⟩
    refine ⟨(r.name, severity), ?_, rfl⟩
    have hreverse : (before ++ (r.name, severity) :: after).reverse =
        after.reverse ++ (r.name, severity) :: before.reverse := by simp
    rw [hreverse, List.find?_eq_some_iff_append]
    exact ⟨decide_eq_true rfl, after.reverse, before.reverse, rfl, by simpa using hafter⟩

theorem lastSeverity?_eq_none_iff {r : Rule} :
    lastSeverity? table r = none ↔ ∀ e ∈ table, e.1 ≠ r.name := by
  simp [lastSeverity?]

theorem heldAfter_iff {r : Rule} {severity : Severity} :
    HeldAfter s table r severity ↔ (lastSeverity? table r).getD (s.severity r) = severity := by
  constructor
  · intro h
    cases h with
    | named htable hlast =>
      rw [lastSeverity?_eq_some_iff.mpr ⟨_, _, htable, hlast⟩, Option.getD_some]
    | kept hnone => rw [lastSeverity?_eq_none_iff.mpr hnone, Option.getD_none]
  · rintro rfl
    cases hlast : lastSeverity? table r with
    | none => exact .kept (lastSeverity?_eq_none_iff.mp hlast)
    | some severity =>
      obtain ⟨_, _, htable, hafter⟩ := lastSeverity?_eq_some_iff.mp hlast
      exact .named htable hafter

/-! ## Which tables are refused -/

theorem firstUnknown?_eq_some_iff {name : Text} :
    firstUnknown? table = some name ↔
      ∃ before severity after, table = before ++ (name, severity) :: after ∧
        (∀ e ∈ before, ∃ r : Rule, e.1 = r.name) ∧ ∀ r : Rule, name ≠ r.name := by
  have hknown {name : Text} :
      (!(Rule.ofName? name).isNone) = true ↔ ∃ r : Rule, name = r.name := by
    rw [Bool.not_eq_true', ← Bool.not_eq_true, Option.isNone_iff_eq_none,
      Rule.ofName?_eq_none_iff]
    simp
  rw [firstUnknown?, List.find?_map, Option.map_eq_some_iff]
  constructor
  · rintro ⟨⟨_, severity⟩, hfound, rfl⟩
    obtain ⟨hunknown, before, after, rfl, hbefore⟩ := List.find?_eq_some_iff_append.mp hfound
    refine ⟨before, severity, after, rfl, fun e he => hknown.mp (hbefore e he), ?_⟩
    exact Rule.ofName?_eq_none_iff.mp (Option.isNone_iff_eq_none.mp hunknown)
  · rintro ⟨before, severity, after, rfl, hbefore, hunknown⟩
    refine ⟨(name, severity), List.find?_eq_some_iff_append.mpr ⟨?_, before, after, rfl, ?_⟩, rfl⟩
    · exact Option.isNone_iff_eq_none.mpr (Rule.ofName?_eq_none_iff.mpr hunknown)
    · exact fun e he => hknown.mpr (hbefore e he)

theorem firstUnknown?_eq_none_iff :
    firstUnknown? table = none ↔ ∀ e ∈ table, ∃ r : Rule, e.1 = r.name := by
  simp [firstUnknown?, Rule.ofName?_eq_none_iff]

theorem withNamedRules_eq_ok_iff :
    s.withNamedRules table = .ok s' ↔
      (∀ e ∈ table, ∃ r : Rule, e.1 = r.name) ∧
        s'.extension = s.extension ∧ s'.lineResolution = s.lineResolution ∧
        ∀ r severity, s'.severity r = severity ↔ HeldAfter s table r severity := by
  rw [withNamedRules_eq, ← firstUnknown?_eq_none_iff]
  simp only [heldAfter_iff]
  cases firstUnknown? table with
  | some name => simp
  | none =>
    obtain ⟨extension, resolution, severity⟩ := s'
    simp only [Except.ok.injEq, mk.injEq, true_and]
    constructor
    · rintro ⟨rfl, rfl, rfl⟩
      exact ⟨rfl, rfl, fun r severity => Iff.rfl⟩
    · rintro ⟨rfl, rfl, hseverity⟩
      exact ⟨rfl, rfl, funext fun r => (hseverity r _).mp rfl⟩

theorem withNamedRules_eq_error_iff {e : SettingsError} :
    s.withNamedRules table = .error e ↔
      ∃ name, firstUnknown? table = some name ∧ e = .unknownRule name := by
  rw [withNamedRules_eq]
  cases firstUnknown? table <;> simp [eq_comm]

/-! ## Tables in another order -/

/-- The two tables have the same pairs for each name, in the same order. -/
def SameByName (table table' : List (Text × Severity)) : Prop :=
  ∀ name, table.filter (·.1 = name) = table'.filter (·.1 = name)

/-- Two pairs of different names next to each other may change places. -/
theorem SameByName.swap {e e' : Text × Severity} (h : e.1 ≠ e'.1)
    (before after : List (Text × Severity)) :
    SameByName (before ++ e :: e' :: after) (before ++ e' :: e :: after) := by
  intro name
  rw [List.filter_append, List.filter_append, List.append_cancel_left_eq]
  by_cases hname : e.1 = name
  · have hname' : e'.1 ≠ name := fun heq => h (hname.trans heq.symm)
    simp [hname, hname']
  · simp [List.filter_cons, hname]

/-- With every name once, a table in another order has the same pairs for each name. -/
theorem SameByName.of_perm (hperm : table.Perm table') (hnames : (table.map (·.1)).Nodup) :
    SameByName table table' := by
  intro name
  -- two pairs of one name cannot both be in the table
  have hone (t : List (Text × Severity)) (ht : (t.map (·.1)).Nodup) :
      (t.filter (·.1 = name)).Pairwise fun _ _ => False := by
    have hne : t.Pairwise fun e e' => e.1 ≠ e'.1 := List.pairwise_map.mp ht
    refine (hne.filter _).imp_of_mem fun {e e'} he he' hdiffer => hdiffer ?_
    have hname := of_decide_eq_true (List.mem_filter.mp he).2
    have hname' := of_decide_eq_true (List.mem_filter.mp he').2
    rw [hname, hname']
  exact (hperm.filter _).eq_of_pairwise (fun _ _ _ _ h => h.elim) (hone table hnames)
    (hone table' ((hperm.map _).nodup_iff.mp hnames))

theorem SameByName.mem_iff (h : SameByName table table') (e : Text × Severity) :
    e ∈ table ↔ e ∈ table' := by
  have hmem := congrArg (e ∈ ·) (h e.1)
  simpa [List.mem_filter] using hmem

theorem SameByName.lastSeverity?_eq (h : SameByName table table') (r : Rule) :
    lastSeverity? table r = lastSeverity? table' r := by
  have hlast (t : List (Text × Severity)) :
      lastSeverity? t r = ((t.filter (·.1 = r.name)).getLast?).map (·.2) := by
    rw [lastSeverity?, ← List.head?_filter, List.filter_reverse, List.head?_reverse]
  rw [hlast, hlast, h r.name]

/-- What a table does depends on the order of the pairs of one name only. -/
theorem SameByName.withNamedRules_eq_ok (h : SameByName table table')
    (hs : s.withNamedRules table = .ok s') : s.withNamedRules table' = .ok s' := by
  rw [withNamedRules_eq_ok_iff] at hs ⊢
  obtain ⟨hknown, hextension, hresolution, hseverity⟩ := hs
  refine ⟨fun e he => hknown e ((h.mem_iff e).mpr he), hextension, hresolution, ?_⟩
  simpa only [heldAfter_iff, h.lastSeverity?_eq] using hseverity

/-- A table of named rules applies as a whole or not at all. It applies if each of its names is that
    of a rule, letter by letter; then every rule is held as the last pair that names it says, or as
    before, and nothing else changes. Otherwise it is refused for the first name that is no rule, as
    it is written. A table may be applied in two parts, and pairs of different names may change
    places. -/
theorem withNamedRules_exact (s : Settings) (table : List (Text × Severity)) :
    ((∃ s', s.withNamedRules table = .ok s') ↔ ∀ e ∈ table, ∃ r : Rule, e.1 = r.name) ∧
    (∀ s', s.withNamedRules table = .ok s' →
      s'.extension = s.extension ∧ s'.lineResolution = s.lineResolution ∧
        ∀ r severity, s'.severity r = severity ↔ HeldAfter s table r severity) ∧
    (∀ e, s.withNamedRules table = .error e ↔
      ∃ before name severity after, table = before ++ (name, severity) :: after ∧
        (∀ e ∈ before, ∃ r : Rule, e.1 = r.name) ∧ (∀ r : Rule, name ≠ r.name) ∧
        e = .unknownRule name) ∧
    (∀ before after, table = before ++ after →
      s.withNamedRules table = (s.withNamedRules before).bind (·.withNamedRules after)) ∧
    (∀ table', SameByName table table' →
      ∀ s', s.withNamedRules table = .ok s' → s.withNamedRules table' = .ok s') ∧
    ∀ table', table.Perm table' → (table.map (·.1)).Nodup →
      ∀ s', s.withNamedRules table = .ok s' → s.withNamedRules table' = .ok s' := by
  refine ⟨?applies, fun s' hs => (withNamedRules_eq_ok_iff.mp hs).2, ?refused, ?parts,
    fun table' h s' => h.withNamedRules_eq_ok,
    fun table' hperm hnames s' => (SameByName.of_perm hperm hnames).withNamedRules_eq_ok⟩
  case applies =>
    rw [← firstUnknown?_eq_none_iff, withNamedRules_eq]
    cases firstUnknown? table <;> simp
  case refused =>
    intro e
    simp only [withNamedRules_eq_error_iff, firstUnknown?_eq_some_iff]
    constructor
    · rintro ⟨name, ⟨before, severity, after, htable, hbefore, hunknown⟩, he⟩
      exact ⟨before, name, severity, after, htable, hbefore, hunknown, he⟩
    · rintro ⟨before, name, severity, after, htable, hbefore, hunknown, he⟩
      exact ⟨name, ⟨before, severity, after, htable, hbefore, hunknown⟩, he⟩
  case parts =>
    rintro before after rfl
    exact s.withNamedRules_append before after

/-- A table that gives a rule two severities, and another rule one of its own in between. -/
def givenTwice : List (Text × Severity) :=
  [("walk_failure".toList, .off), ("missing_posture_id".toList, .warning),
    ("walk_failure".toList, .warning)]

/-- The later severity counts, also if the pair in between goes first. -/
theorem withNamedRules_exact_givenTwice :
    ∃ s', default.withNamedRules givenTwice = .ok s' ∧ s'.severity .walkFailure = .warning ∧
      default.withNamedRules [("missing_posture_id".toList, .warning),
        ("walk_failure".toList, .off), ("walk_failure".toList, .warning)] = .ok s' := by
  obtain ⟨happlies, hheld, -, -, hsame, -⟩ := withNamedRules_exact default givenTwice
  have hknown : ∀ e ∈ givenTwice, ∃ r ∈ Rule.all, e.1 = r.name := by decide +kernel
  obtain ⟨s', hs⟩ := happlies.mpr fun e he => (hknown e he).imp fun r hr => hr.2
  have hlast : givenTwice =
      givenTwice.take 2 ++ (Rule.name .walkFailure, Severity.warning) :: [] := rfl
  exact ⟨s', hs, ((hheld s' hs).2.2 .walkFailure .warning).mpr (.named hlast nofun),
    hsame _ (.swap (by decide) [] _) s' hs⟩

/-- Names are read as they are written, with their blanks. -/
example : default.withNamedRules
      [("walk_failure".toList, .off), (" walk_failure".toList, .off),
        ("Walk_failure".toList, .off)] =
    .error (.unknownRule " walk_failure".toList) := rfl

end Settings

/-! ## Tables in the order of their names -/

namespace RuleTable

/-- The table lists the name. -/
def Lists (t : RuleTable) (name : Text) : Prop := (t.get? name).isSome = true

/-- The name is the first one, in the order of bytes, of those that the table lists and that are no
    rules. -/
structure FirstUnknown (t : RuleTable) (name : Text) : Prop where
  lists : t.Lists name
  unknown : ∀ r : Rule, name ≠ r.name
  first : ∀ other, t.Lists other → (∀ r : Rule, other ≠ r.name) → other ≠ name →
    Utf8.encode name < Utf8.encode other

theorem lists_iff {t : RuleTable} {name : Text} :
    t.Lists name ↔ name ∈ t.severities.map (·.1) := by
  simp [Lists, get?, entryFor?, severities, List.find?_isSome]

theorem pairwise_names (t : RuleTable) : (t.severities.map (·.1)).Pairwise (· < ·) := by
  rw [severities, List.map_map]
  exact List.pairwise_map.mpr t.sorted

theorem firstUnknown_of_eq_some {t : RuleTable} {name : Text}
    (h : Settings.firstUnknown? t.severities = some name) : t.FirstUnknown name := by
  obtain ⟨hunknown, before, behind, hnames, hbefore⟩ := List.find?_eq_some_iff_append.mp h
  refine ⟨lists_iff.mpr (hnames ▸ List.mem_append_right _ (List.mem_cons_self ..)), ?_, ?_⟩
  · exact Rule.ofName?_eq_none_iff.mp (Option.isNone_iff_eq_none.mp hunknown)
  · intro other hother hnone hne
    have hsorted := t.pairwise_names
    rw [hnames] at hsorted
    rw [lists_iff, hnames] at hother
    rcases List.mem_append.mp hother with hother | hother
    · -- the names before are all rules
      have hrule := hbefore other hother
      rw [Rule.ofName?_eq_none_iff.mpr hnone] at hrule
      cases hrule
    · rcases List.mem_cons.mp hother with rfl | hother
      · exact absurd rfl hne
      · exact Utf8.encode_lt_encode
          ((List.pairwise_cons.mp (List.pairwise_append.mp hsorted).2.1).1 other hother)

theorem FirstUnknown.unique {t : RuleTable} {name other : Text} (h : t.FirstUnknown name)
    (h' : t.FirstUnknown other) : name = other :=
  Decidable.byContradiction fun hne =>
    List.lt_asymm (h.first other h'.lists h'.unknown fun heq => hne heq.symm)
      (h'.first name h.lists h.unknown hne)

theorem exists_firstUnknown?_iff {t : RuleTable} :
    (∃ name, Settings.firstUnknown? t.severities = some name) ↔
      ∃ name, t.Lists name ∧ ∀ r : Rule, name ≠ r.name := by
  simp only [← Option.isSome_iff_exists, Settings.firstUnknown?, List.find?_isSome, lists_iff,
    Option.isNone_iff_eq_none, Rule.ofName?_eq_none_iff]

/-- The name for which a table is refused. -/
theorem firstUnknown?_severities {t : RuleTable} {name : Text} :
    Settings.firstUnknown? t.severities = some name ↔ t.FirstUnknown name := by
  refine ⟨firstUnknown_of_eq_some, fun h => ?_⟩
  obtain ⟨other, hother⟩ := exists_firstUnknown?_iff.mpr ⟨name, h.lists, h.unknown⟩
  rw [hother, h.unique (firstUnknown_of_eq_some hother)]

theorem exists_firstUnknown_iff {t : RuleTable} :
    (∃ name, t.FirstUnknown name) ↔ ∃ name, t.Lists name ∧ ∀ r : Rule, name ≠ r.name := by
  rw [← exists_firstUnknown?_iff]
  exact exists_congr fun _ => firstUnknown?_severities.symm

/-- The severity that a table gives a rule is the one that it lists for its name. -/
theorem lastSeverity?_severities (t : RuleTable) (r : Rule) :
    Settings.lastSeverity? t.severities r = (t.get? r.name).map (·.severity) := by
  have general {entries : List (Text × RuleEntry)} (h : entries.Pairwise (·.1 < ·.1)) :
      Settings.lastSeverity? (entries.map fun e => (e.1, e.2.severity)) r =
        (entryFor? r.name entries).map (·.severity) := by
    induction entries with
    | nil => rfl
    | cons e rest ih =>
      obtain ⟨hfirst, hrest⟩ := List.pairwise_cons.mp h
      rw [List.map_cons, Settings.lastSeverity?_cons, ih hrest]
      by_cases hname : e.1 = r.name
      · have hnone : rest.find? (·.1 = r.name) = none := by
          refine List.find?_eq_none.mpr fun other hother heq => ?_
          have hlt := hfirst other hother
          rw [hname, of_decide_eq_true heq] at hlt
          exact List.lt_irrefl _ hlt
        simp [entryFor?, hname, hnone]
      · simp [entryFor?, hname]
  exact general t.sorted

/-- The table of a configuration file is refused for the first name in the order of bytes that is no
    rule. -/
theorem withNamedRules_of_firstUnknown (s : Settings) {t : RuleTable} {name : Text}
    (h : t.FirstUnknown name) : s.withNamedRules t.severities = .error (.unknownRule name) := by
  rw [Settings.withNamedRules_eq, firstUnknown?_severities.mpr h]

/-- A table that lists no other names than those of rules holds them at the severities that it
    lists. -/
theorem withNamedRules_of_known (s : Settings) {t : RuleTable}
    (h : ∀ name, t.Lists name → ∃ r : Rule, name = r.name) :
    s.withNamedRules t.severities = .ok
      { s with severity := fun r => ((t.get? r.name).map (·.severity)).getD (s.severity r) } := by
  have hnone : Settings.firstUnknown? t.severities = none := by
    refine Option.eq_none_iff_forall_ne_some.mpr fun name hname => ?_
    obtain ⟨hlists, hunknown, -⟩ := firstUnknown_of_eq_some hname
    obtain ⟨r, hr⟩ := h name hlists
    exact hunknown r hr
  simp only [Settings.withNamedRules_eq, hnone, lastSeverity?_severities]

end RuleTable

end PostureAudit
