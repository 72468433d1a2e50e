import PostureAudit.ConfigFile.Document
import Mathlib.Data.List.Nodup

set_option autoImplicit false

/-! # Keys of a configuration file

A document is accepted exactly if its keys are known ones, none of them comes twice, and each of
them takes its value (`exists_ofText?_iff`); every other key is refused. That is not so in the
mapping of a rule: beside the key of the severity, which has to be there once, any key will do that
is a text or a whole number (`ofNode?_mapping_eq_some_iff`), and what it says has no effect
(`ofNode?_mapping_other_key`). Only a mapping of one entry has no key but that one
(`keys_eq_severity_iff`). So a severity that is spelled wrong next to one that is not goes
unnoticed. -/

namespace PostureAudit

open Yaml (Node ScalarValue)

/-! ## The mapping of a rule -/

namespace RuleEntry

/-- The key of the severity, by its name or by its number. -/
def IsSeverityKey (key : Node) : Prop :=
  key.value? = some (.text "severity".toList) ∨ key.value? = some (.natural 0)

/-- Any other key that can be read. -/
def IsOtherKey (key : Node) : Prop :=
  (∃ t, t ≠ "severity".toList ∧ key.value? = some (.text t)) ∨
    ∃ n, n ≠ 0 ∧ key.value? = some (.natural n)

theorem isSeverityKey?_eq_true_iff {key : Node} :
    isSeverityKey? key = some true ↔ IsSeverityKey key := by
  unfold isSeverityKey? IsSeverityKey
  generalize "severity".toList = name
  cases key.value? with
  | none => simp
  | some v => cases v <;> simp

theorem isSeverityKey?_eq_false_iff {key : Node} :
    isSeverityKey? key = some false ↔ IsOtherKey key := by
  unfold isSeverityKey? IsOtherKey
  generalize "severity".toList = name
  cases key.value? with
  | none => simp
  | some v => cases v <;> simp

theorem severityValues?_cons_other {key : Node} (hkey : IsOtherKey key) (value : Node)
    (rest : List (Node × Node)) :
    severityValues? ((key, value) :: rest) = severityValues? rest := by
  rw [severityValues?, isSeverityKey?_eq_false_iff.mpr hkey]
  cases severityValues? rest <;> rfl

theorem severityValues?_cons_severity {key : Node} (hkey : IsSeverityKey key) (value : Node)
    (rest : List (Node × Node)) :
    severityValues? ((key, value) :: rest) = (severityValues? rest).map (value :: ·) := by
  rw [severityValues?, isSeverityKey?_eq_true_iff.mpr hkey]
  cases severityValues? rest <;> rfl

/-- In a mapping that can be read every key is that of the severity or another one. -/
theorem isSeverityKey_or_isOtherKey {key value : Node} {rest : List (Node × Node)}
    {values : List Node} (h : severityValues? ((key, value) :: rest) = some values) :
    IsSeverityKey key ∨ IsOtherKey key := by
  rw [severityValues?] at h
  cases hkey : isSeverityKey? key with
  | none =>
    rw [hkey] at h
    cases h
  | some isSeverity =>
    cases isSeverity with
    | true => exact Or.inl (isSeverityKey?_eq_true_iff.mp hkey)
    | false => exact Or.inr (isSeverityKey?_eq_false_iff.mp hkey)

/-- Other keys do not matter, wherever they stand. -/
theorem severityValues?_insert {key : Node} (hkey : IsOtherKey key) (value : Node)
    (before after : List (Node × Node)) :
    severityValues? (before ++ (key, value) :: after) = severityValues? (before ++ after) := by
  induction before with
  | nil => exact severityValues?_cons_other hkey value after
  | cons e before ih =>
    rw [List.cons_append, List.cons_append, severityValues?, severityValues?, ih]

theorem severityValues?_eq_nil_iff {entries : List (Node × Node)} :
    severityValues? entries = some [] ↔ ∀ e ∈ entries, IsOtherKey e.1 := by
  induction entries with
  | nil => simp [severityValues?]
  | cons e rest ih =>
    obtain ⟨key, value⟩ := e
    rw [List.forall_mem_cons, ← ih]
    constructor
    · intro h
      rcases isSeverityKey_or_isOtherKey h with hkey | hkey
      · rw [severityValues?_cons_severity hkey] at h
        simp at h
      · rw [severityValues?_cons_other hkey] at h
        exact ⟨hkey, h⟩
    · rintro ⟨hkey, hrest⟩
      rw [severityValues?_cons_other hkey, hrest]

theorem severityValues?_eq_singleton_iff {entries : List (Node × Node)} {value : Node} :
    severityValues? entries = some [value] ↔
      ∃ before key after, entries = before ++ (key, value) :: after ∧ IsSeverityKey key ∧
        ∀ e ∈ before ++ after, IsOtherKey e.1 := by
  constructor
  · intro h
    induction entries with
    | nil => simp [severityValues?] at h
    | cons e rest ih =>
      obtain ⟨key, first⟩ := e
      rcases isSeverityKey_or_isOtherKey h with hkey | hkey
      · rw [severityValues?_cons_severity hkey, Option.map_eq_some_iff] at h
        obtain ⟨values, hvalues, hcons⟩ := h
        obtain ⟨rfl, rfl⟩ := List.cons.inj hcons
        exact ⟨[], key, rest, rfl, hkey, severityValues?_eq_nil_iff.mp hvalues⟩
      · rw [severityValues?_cons_other hkey] at h
        obtain ⟨before, key', after, rfl, hseverity, hothers⟩ := ih h
        exact ⟨(key, first) :: before, key', after, rfl, hseverity,
          List.forall_mem_cons.mpr ⟨hkey, hothers⟩⟩
  · rintro ⟨before, key, after, rfl, hkey, hothers⟩
    have hafter := severityValues?_eq_nil_iff.mpr fun e he =>
      hothers e (List.mem_append_right before he)
    induction before with
    | nil => rw [List.nil_append, severityValues?_cons_severity hkey, hafter, Option.map_some]
    | cons e before ih =>
      rw [List.cons_append, List.forall_mem_cons] at hothers
      rw [List.cons_append, severityValues?_cons_other hothers.1, ih hothers.2]

/-- The entries of a mapping that give a rule its entry: a severity as the only key, or the key of
    the severity with a value that gives one, and other keys. -/
inductive MappingReads : List (Node × Node) → RuleEntry → Prop where
  | short {key value : Node} {severity : Severity} (hvalue : value.value? = some .null)
    (hkey : key.value?.bind (Severity.ofScalar? true) = some severity) :
    MappingReads [(key, value)] (.short severity)
  | long {before after : List (Node × Node)} {key value : Node} {severity : Severity}
    (hkey : IsSeverityKey key) (hothers : ∀ e ∈ before ++ after, IsOtherKey e.1)
    (hvalue : Severity.ofNode? value = some severity) :
    MappingReads (before ++ (key, value) :: after) (.long severity)

theorem severity_mapping_eq_some_iff {tag : Option Text} {entries : List (Node × Node)}
    {severity : Severity} :
    Severity.ofNode? (.mapping tag entries) = some severity ↔
      ∃ key value, entries = [(key, value)] ∧ value.value? = some .null ∧
        key.value?.bind (Severity.ofScalar? true) = some severity := by
  constructor
  · intro h
    unfold Severity.ofNode? at h
    split at h
    next tag' key value heq =>
      cases heq
      split at h
      next hnull => exact ⟨key, value, rfl, hnull, h⟩
      next => cases h
    next => cases h
  · rintro ⟨key, value, rfl, hnull, hkey⟩
    rw [Severity.ofNode?, if_pos hnull, hkey]

/-- Nothing gives no severity. -/
theorem severity_of_null {value : Node} (h : value.value? = some .null) :
    Severity.ofNode? value = none := by
  cases value with
  | scalar tag style t =>
    rw [Severity.ofNode?, h]
    · rfl
    · nofun
  | sequence tag items => cases h
  | mapping tag entries => cases h

theorem ofShape?_mapping_eq_short_iff {tag : Option Text} {entries : List (Node × Node)}
    {severity : Severity} :
    ofShape? (.mapping tag entries) = some (.short severity) ↔
      Severity.ofNode? (.mapping tag entries) = some severity := by
  unfold ofShape? longOfNode?
  cases Severity.ofNode? (.mapping tag entries) with
  | some other => simp
  | none =>
    dsimp only
    split <;> simp

theorem ofShape?_mapping_eq_long_iff {tag : Option Text} {entries : List (Node × Node)}
    {severity : Severity} :
    ofShape? (.mapping tag entries) = some (.long severity) ↔
      ∃ value, severityValues? entries = some [value] ∧
        Severity.ofNode? value = some severity := by
  unfold ofShape? longOfNode?
  cases hshort : Severity.ofNode? (.mapping tag entries) with
  | some other =>
    -- the value of a short form is nothing, which gives no severity
    obtain ⟨key, value, rfl, hnull, -⟩ := severity_mapping_eq_some_iff.mp hshort
    refine iff_of_false nofun ?_
    rintro ⟨value', hvalues, hvalue⟩
    obtain ⟨before, key', after, hsingle, -⟩ := severityValues?_eq_singleton_iff.mp hvalues
    have hmem : (key', value') ∈ [(key, value)] := by simp [hsingle]
    cases List.mem_singleton.mp hmem
    rw [severity_of_null hnull] at hvalue
    cases hvalue
  | none =>
    dsimp only
    split
    next value hvalues => simp [hvalues]
    next hvalues =>
      refine iff_of_false nofun ?_
      rintro ⟨value, hvalue, -⟩
      exact hvalues value hvalue

theorem ofShape?_mapping_eq_some_iff {tag : Option Text} {entries : List (Node × Node)}
    {entry : RuleEntry} :
    ofShape? (.mapping tag entries) = some entry ↔ MappingReads entries entry := by
  constructor
  · intro h
    cases entry with
    | short severity =>
      obtain ⟨key, value, rfl, hvalue, hkey⟩ :=
        severity_mapping_eq_some_iff.mp (ofShape?_mapping_eq_short_iff.mp h)
      exact .short hvalue hkey
    | long severity =>
      obtain ⟨value, hvalues, hvalue⟩ := ofShape?_mapping_eq_long_iff.mp h
      obtain ⟨before, key, after, rfl, hkey, hothers⟩ :=
        severityValues?_eq_singleton_iff.mp hvalues
      exact .long hkey hothers hvalue
  · intro h
    cases h with
    | short hvalue hkey =>
      exact ofShape?_mapping_eq_short_iff.mpr
        (severity_mapping_eq_some_iff.mpr ⟨_, _, rfl, hvalue, hkey⟩)
    | long hkey hothers hvalue =>
      exact ofShape?_mapping_eq_long_iff.mpr
        ⟨_, severityValues?_eq_singleton_iff.mpr ⟨_, _, _, rfl, hkey, hothers⟩, hvalue⟩

theorem ofNode?_mapping_eq_some_iff {tag : Option Text} {entries : List (Node × Node)}
    {entry : RuleEntry} :
    ofNode? (.mapping tag entries) = some entry ↔
      (Node.mapping tag entries).isResolved = true ∧ MappingReads entries entry := by
  rw [ofNode?, Option.filter_eq_some_iff, ofShape?_mapping_eq_some_iff, and_comm]

theorem entriesResolved_append (before after : List (Node × Node)) :
    Node.entriesResolved (before ++ after) =
      (Node.entriesResolved before && Node.entriesResolved after) := by
  induction before with
  | nil => rfl
  | cons e before ih =>
    rw [List.cons_append, Node.entriesResolved, Node.entriesResolved, ih]
    exact (Bool.and_assoc ..).symm

/-- What another key says has no effect on the severity of a rule. -/
theorem ofNode?_mapping_other_key {tag : Option Text} {before after : List (Node × Node)}
    {key value : Node} {severity : Severity} (hkey : IsOtherKey key)
    (hresolved : key.isResolved = true ∧ value.isResolved = true) :
    ofNode? (.mapping tag (before ++ (key, value) :: after)) = some (.long severity) ↔
      ofNode? (.mapping tag (before ++ after)) = some (.long severity) := by
  have hsame : (Node.mapping tag (before ++ (key, value) :: after)).isResolved =
      (Node.mapping tag (before ++ after)).isResolved := by
    rw [Node.isResolved, Node.isResolved, entriesResolved_append, entriesResolved_append,
      Node.entriesResolved, hresolved.1, hresolved.2, Bool.true_and, Bool.true_and]
  rw [ofNode?, ofNode?, Option.filter_eq_some_iff, Option.filter_eq_some_iff,
    ofShape?_mapping_eq_long_iff, ofShape?_mapping_eq_long_iff, severityValues?_insert hkey, hsame]

end RuleEntry

namespace ConfigFile

/-! ## The keys of a file -/

def keys : List Text :=
  ["extends".toList, "extension".toList, "line_resolution".toList, "rules".toList]

/-- The values that a key takes. -/
inductive Takes : Text → Node → Prop where
  | base {value : Node} (h : value.optionalSpelling?.isSome = true) : Takes "extends".toList value
  | extension {value : Node} (h : value.optionalSpelling?.isSome = true) :
    Takes "extension".toList value
  | noLineResolution {value : Node} (h : value.optionalSpelling? = some none) :
    Takes "line_resolution".toList value
  | lineResolution {value : Node} {t : Text} (h : value.optionalSpelling? = some (some t))
    (hname : (LineResolution.ofNode? value).isSome = true) : Takes "line_resolution".toList value
  | rules {value : Node} {entries : List (Node × Node)} (h : value.entries? = some entries)
    (hrules : ∀ e ∈ entries, e.1.spelling?.isSome = true ∧
      (RuleEntry.ofNode? e.2).isSome = true) : Takes "rules".toList value

theorem Takes.mem_keys {key : Text} {value : Node} (h : Takes key value) : key ∈ keys := by
  cases h <;> simp [keys]

theorem isSome_ofEntries?_iff {entries : List (Node × Node)} :
    (RuleTable.ofEntries? entries).isSome = true ↔
      ∀ e ∈ entries, e.1.spelling?.isSome = true ∧ (RuleEntry.ofNode? e.2).isSome = true := by
  rw [RuleTable.ofEntries?, Option.isSome_map]
  induction entries with
  | nil => simp
  | cons e entries ih =>
    have hpair : (RuleEntry.ofPair? e).isSome = true ↔
        e.1.spelling?.isSome = true ∧ (RuleEntry.ofNode? e.2).isSome = true := by
      unfold RuleEntry.ofPair?
      cases e.1.spelling? <;> cases RuleEntry.ofNode? e.2 <;> simp
    rw [List.forall_mem_cons, ← hpair, ← ih, List.mapM_cons]
    cases RuleEntry.ofPair? e <;> cases entries.mapM RuleEntry.ofPair? <;> simp

/-- Whether an entry is taken does not depend on what the file says so far. -/
theorem isSome_addEntry_iff {c : ConfigFile} {key : Text} {value : Node} :
    (c.addEntry key value).isSome = true ↔ Takes key value := by
  constructor
  · intro h
    unfold addEntry at h
    split at h
    next hkey =>
      rw [hkey]
      exact .base (by simpa using h)
    next =>
    split at h
    next hkey =>
      rw [hkey]
      exact .extension (by simpa using h)
    next =>
    split at h
    next hkey =>
      rw [hkey]
      split at h
      next hmissing => exact .noLineResolution hmissing
      next t hnamed => exact .lineResolution hnamed (by simpa using h)
      next => cases h
    next =>
    split at h
    next hkey =>
      rw [hkey]
      rw [Option.isSome_map] at h
      cases hentries : value.entries? with
      | none =>
        rw [hentries] at h
        cases h
      | some entries =>
        rw [hentries, Option.bind_some] at h
        exact .rules hentries (isSome_ofEntries?_iff.mp h)
    next => cases h
  · intro h
    unfold addEntry
    cases h with
    | base h => rw [if_pos rfl, Option.isSome_map, h]
    | extension h => rw [if_neg (by decide), if_pos rfl, Option.isSome_map, h]
    | noLineResolution h =>
      rw [if_neg (by decide), if_neg (by decide), if_pos rfl, h]
      rfl
    | lineResolution h hname =>
      rw [if_neg (by decide), if_neg (by decide), if_pos rfl, h]
      dsimp only
      rw [Option.isSome_map, hname]
    | rules h hrules =>
      rw [if_neg (by decide), if_neg (by decide), if_neg (by decide), if_pos rfl,
        Option.isSome_map, h, Option.bind_some, isSome_ofEntries?_iff]
      exact hrules

/-- The entries say something of keys that are known and not `seen` yet, each of them once. -/
def KeysKnown (seen : List Text) (entries : List (Node × Node)) : Prop :=
  (entries.map (·.1.spelling?)).Nodup ∧
    ∀ e ∈ entries, ∃ key, e.1.spelling? = some key ∧ key ∉ seen ∧ Takes key e.2

theorem keysKnown_cons_iff {seen : List Text} {key value : Node} {rest : List (Node × Node)} :
    KeysKnown seen ((key, value) :: rest) ↔
      ∃ name, key.spelling? = some name ∧ name ∉ seen ∧ Takes name value ∧
        KeysKnown (name :: seen) rest := by
  unfold KeysKnown
  rw [List.map_cons, List.nodup_cons, List.forall_mem_cons]
  constructor
  · rintro ⟨⟨hnew, hnodup⟩, ⟨name, hname, hseen, htakes⟩, hrest⟩
    refine ⟨name, hname, hseen, htakes, hnodup, ?_⟩
    intro e he
    obtain ⟨other, hother, hseen', htakes'⟩ := hrest e he
    refine ⟨other, hother, ?_, htakes'⟩
    rw [List.mem_cons, not_or]
    refine ⟨?_, hseen'⟩
    rintro rfl
    exact hnew (List.mem_map.mpr ⟨e, he, hother.trans hname.symm⟩)
  · rintro ⟨name, hname, hseen, htakes, hnodup, hrest⟩
    refine ⟨⟨?_, hnodup⟩, ⟨name, hname, hseen, htakes⟩, ?_⟩
    · intro hmem
      obtain ⟨e, he, heq⟩ := List.mem_map.mp hmem
      obtain ⟨other, hother, hseen', -⟩ := hrest e he
      have hsame : other = name := Option.some.inj (hother.symm.trans (heq.trans hname))
      exact hseen' (hsame ▸ List.mem_cons_self)
    · intro e he
      obtain ⟨other, hother, hseen', htakes'⟩ := hrest e he
      exact ⟨other, hother, fun h => hseen' (List.mem_cons_of_mem _ h), htakes'⟩

theorem isSome_ofEntries?_iff_keysKnown {seen : List Text} {c : ConfigFile}
    {entries : List (Node × Node)} :
    (ofEntries? seen c entries).isSome = true ↔ KeysKnown seen entries := by
  induction entries generalizing seen c with
  | nil => simp [ofEntries?, KeysKnown]
  | cons e rest ih =>
    obtain ⟨key, value⟩ := e
    rw [keysKnown_cons_iff, ofEntries?]
    cases hname : key.spelling? with
    | none => simp
    | some name =>
      simp only [Option.some.injEq, exists_eq_left']
      by_cases hseen : name ∈ seen
      · simp [hseen]
      rw [if_neg hseen, ← isSome_addEntry_iff (c := c)]
      cases c.addEntry name value with
      | none => simp
      | some c' => simp [hseen, ih]

/-- A text is accepted exactly if it is blank, or is a document that says something of known keys
    only, of each of them at most once. -/
theorem exists_ofText?_iff {t : Text} :
    (∃ c, ofText? t = some c) ↔
      Text.trim t = [] ∨ ∃ node entries, Yaml.parse? t = some node ∧
        node.entries? = some entries ∧ KeysKnown [] entries := by
  rw [← Option.isSome_iff_exists, ofText?]
  by_cases hblank : Text.trim t = []
  · simp [hblank]
  rw [if_neg hblank, or_iff_right hblank]
  cases hparse : Yaml.parse? t with
  | none => simp
  | some node =>
    cases hentries : node.entries? with
    | none => simp [ofNode?, hentries]
    | some entries => simp [ofNode?, hentries, isSome_ofEntries?_iff_keysKnown]

theorem takes_rules_iff {value : Node} :
    Takes "rules".toList value ↔ ∃ entries, value.entries? = some entries ∧
      ∀ e ∈ entries, e.1.spelling?.isSome = true ∧ (RuleEntry.ofNode? e.2).isSome = true := by
  constructor
  · intro h
    generalize hkey : "rules".toList = key at h
    cases h with
    | base => exact absurd hkey (by decide)
    | extension => exact absurd hkey (by decide)
    | noLineResolution => exact absurd hkey (by decide)
    | lineResolution => exact absurd hkey (by decide)
    | rules hentries hrules => exact ⟨_, hentries, hrules⟩
  · rintro ⟨entries, hentries, hrules⟩
    exact .rules hentries hrules

/-! ## The keys of rules -/

/-- The rules of a document that are written as mappings, each with its entries. -/
def ruleMappings (file : Node) : List (List (Node × Node)) :=
  (file.entries?.getD []).flatMap fun (key, value) =>
    if key.spelling? = some "rules".toList then
      (value.entries?.getD []).filterMap fun (_, rule) =>
        match rule with
        | .mapping _ entries => some entries
        | _ => none
    else []

theorem mem_ruleMappings_iff {file : Node} {rule : List (Node × Node)} :
    rule ∈ ruleMappings file ↔
      ∃ e ∈ file.entries?.getD [], e.1.spelling? = some "rules".toList ∧
        ∃ pair ∈ e.2.entries?.getD [], ∃ tag, pair.2 = .mapping tag rule := by
  have hrule (pair : Node × Node) :
      (match pair.2 with
        | .mapping _ entries => some entries
        | _ => none) = some rule ↔ ∃ tag, pair.2 = .mapping tag rule := by
    cases pair.2 <;> simp
  simp only [ruleMappings, List.mem_flatMap]
  refine exists_congr fun e => and_congr_right fun _ => ?_
  by_cases hkey : e.1.spelling? = some "rules".toList
  · simp only [hkey, if_true, List.mem_filterMap, hrule, true_and]
  · rw [if_neg hkey]
    exact iff_of_false List.not_mem_nil fun h => hkey h.1

/-- A rule of an accepted document that is written as a mapping can be read. -/
theorem exists_mappingReads {file : Node} {c : ConfigFile} (h : ofNode? file = some c)
    {rule : List (Node × Node)} (hrule : rule ∈ ruleMappings file) :
    ∃ entry, RuleEntry.MappingReads rule entry := by
  obtain ⟨entries, hentries, hc⟩ := Option.bind_eq_some_iff.mp h
  have hknown : KeysKnown [] entries :=
    isSome_ofEntries?_iff_keysKnown.mp (Option.isSome_iff_exists.mpr ⟨c, hc⟩)
  obtain ⟨e, he, hkey, pair, hpair, tag, hmapping⟩ := mem_ruleMappings_iff.mp hrule
  rw [hentries] at he
  obtain ⟨key, hspelled, -, htakes⟩ := hknown.2 e he
  obtain rfl : key = "rules".toList := Option.some.inj (hspelled.symm.trans hkey)
  obtain ⟨rules, hrules, hall⟩ := takes_rules_iff.mp htakes
  rw [hrules] at hpair
  obtain ⟨-, hsome⟩ := hall pair hpair
  rw [hmapping, Option.isSome_iff_exists] at hsome
  obtain ⟨entry, hentry⟩ := hsome
  exact ⟨entry, (RuleEntry.ofNode?_mapping_eq_some_iff.mp hentry).2⟩

/-- A scalar that is spelled as the key of the severity stands for nothing but that text. -/
theorem eq_text_of_resolve? {tag : Option Text} {style : Yaml.ScalarStyle} {v : ScalarValue}
    (h : Yaml.resolve? tag style "severity".toList = some v) : v = .text "severity".toList := by
  have hboolean : Yaml.isBooleanWord "severity".toList = false := by decide
  have hnull : Yaml.isNullWord "severity".toList = false := by decide
  have hfloat : Yaml.isFloat "severity".toList = false := by decide +kernel
  have hwhole : Yaml.wholeNumber? "severity".toList = none := by decide +kernel
  have hplain : Yaml.resolvePlain? "severity".toList = some (.text "severity".toList) := by
    decide +kernel
  rw [Yaml.resolve?, hboolean, hnull, hfloat, hwhole, hplain, ite_self] at h
  -- one kind of tag after the other
  repeat' split at h
  all_goals simp_all

theorem not_isOtherKey_of_spelling {key : Node} (h : key.spelling? = some "severity".toList) :
    ¬ RuleEntry.IsOtherKey key := by
  cases key with
  | scalar tag style t =>
    obtain rfl : t = "severity".toList := Option.some.inj h
    rintro (⟨other, hother, hvalue⟩ | ⟨n, -, hvalue⟩)
    · exact hother (ScalarValue.text.inj (eq_text_of_resolve? hvalue))
    · exact absurd (eq_text_of_resolve? hvalue) nofun
  | sequence tag items => cases h
  | mapping tag entries => cases h

/-- All keys of a mapping that can be read are that of the severity exactly if there is one entry,
    and it has that key. -/
theorem keys_eq_severity_iff {rule : List (Node × Node)} {entry : RuleEntry}
    (h : RuleEntry.MappingReads rule entry) :
    (∀ e ∈ rule, e.1.spelling? = some "severity".toList) ↔
      ∃ key value, rule = [(key, value)] ∧ key.spelling? = some "severity".toList := by
  constructor
  · intro hkeys
    cases h with
    | @short key value _ _ _ => exact ⟨key, value, rfl, hkeys _ (List.mem_singleton_self _)⟩
    | @long before after key value _ _ hothers _ =>
      have hnone : before ++ after = [] := by
        rw [List.eq_nil_iff_forall_not_mem]
        intro e he
        have hmem : e ∈ before ++ (key, value) :: after := by
          rcases List.mem_append.mp he with he | he
          · exact List.mem_append_left _ he
          · exact List.mem_append_right _ (List.mem_cons_of_mem _ he)
        exact not_isOtherKey_of_spelling (hkeys e hmem) (hothers e he)
      obtain ⟨rfl, rfl⟩ := List.append_eq_nil_iff.mp hnone
      exact ⟨key, value, rfl, hkeys _ (List.mem_singleton_self _)⟩
  · rintro ⟨key, value, rfl, hkey⟩ e he
    rwa [List.mem_singleton.mp he]

/-- Of a file itself nothing but known keys are accepted. A rule in mapping form has no key but
    that of the severity only if it has one entry: otherwise there are other keys beside it, which
    may be any texts or whole numbers, and whatever they say, the rule is read as if they were not
    there. -/
theorem accepted_keys_exact (t : Text) :
    ((∃ c, ofText? t = some c) ↔
      Text.trim t = [] ∨ ∃ file entries, Yaml.parse? t = some file ∧
        file.entries? = some entries ∧ (entries.map (·.1.spelling?)).Nodup ∧
        ∀ e ∈ entries, ∃ key ∈ keys, e.1.spelling? = some key ∧ Takes key e.2) ∧
    (∀ file c, Text.trim t ≠ [] → Yaml.parse? t = some file → ofText? t = some c →
      ∀ rule ∈ ruleMappings file, (∃ entry, RuleEntry.MappingReads rule entry) ∧
        ((∀ e ∈ rule, e.1.spelling? = some "severity".toList) ↔
          ∃ key value, rule = [(key, value)] ∧ key.spelling? = some "severity".toList)) ∧
    ∀ tag before after key value severity, RuleEntry.IsOtherKey key →
      key.isResolved = true → value.isResolved = true →
        (RuleEntry.ofNode? (.mapping tag (before ++ (key, value) :: after)) =
            some (.long severity) ↔
          RuleEntry.ofNode? (.mapping tag (before ++ after)) = some (.long severity)) := by
  refine ⟨?keys, ?rules, ?others⟩
  case keys =>
    have hkeys (e : Node × Node) :
        (∃ key, e.1.spelling? = some key ∧ key ∉ ([] : List Text) ∧ Takes key e.2) ↔
          ∃ key ∈ keys, e.1.spelling? = some key ∧ Takes key e.2 := by
      constructor
      · rintro ⟨key, hkey, -, htakes⟩
        exact ⟨key, htakes.mem_keys, hkey, htakes⟩
      · rintro ⟨key, -, hkey, htakes⟩
        exact ⟨key, hkey, List.not_mem_nil, htakes⟩
    rw [exists_ofText?_iff]
    simp only [KeysKnown, hkeys]
  case rules =>
    intro file c hblank hparse htext rule hrule
    rw [ofText?, if_neg hblank, hparse, Option.bind_some] at htext
    obtain ⟨entry, hreads⟩ := exists_mappingReads htext hrule
    exact ⟨⟨entry, hreads⟩, keys_eq_severity_iff hreads⟩
  case others =>
    intro tag before after key value severity hother hkey hvalue
    exact RuleEntry.ofNode?_mapping_other_key hother ⟨hkey, hvalue⟩

/-- A document that gives a rule a severity and, under a key that is spelled wrong, another. -/
def misspeltSeverity : Text :=
  "rules:\n  invalid_policy_id: \x7Bseverity: warning, severty: off\x7D\n".toList

/-- The key that is spelled wrong is accepted, and the rule has the other severity. -/
theorem ofText?_misspeltSeverity :
    (Yaml.parse? misspeltSeverity).map
        (fun file => (ruleMappings file).map fun rule => rule.map (·.1.spelling?)) =
        some [[some "severity".toList, some "severty".toList]] ∧
      ofText? misspeltSeverity = some { empty with
        rules := RuleTable.empty.insert Rule.invalidPolicyId.name (.long .warning) } := by
  decide +kernel

end ConfigFile

end PostureAudit
