import PostureAudit.Rule

set_option autoImplicit false

/-! # Rule tables

The rules of a configuration file: a severity for every name that the file lists, whether or not
the name is that of a rule. A table holds a name at most once, and its entries are in the order of
their names, code point by code point; `get?_insert` says what a table looks like after a change.
-/

namespace PostureAudit

/-- The severity of one rule, in the form in which a file gives it: alone, or in a mapping. -/
inductive RuleEntry where
  | short (severity : Severity)
  | long (severity : Severity)
  deriving DecidableEq, Repr

def RuleEntry.severity : RuleEntry → Severity
  | short s => s
  | long s => s

/-! ## Entries in the order of their names -/

/-- Gives a name an entry, in the place of the one it has. -/
def insertEntry (name : Text) (entry : RuleEntry) :
    List (Text × RuleEntry) → List (Text × RuleEntry)
  | [] => [(name, entry)]
  | (other, old) :: rest =>
    if name < other then (name, entry) :: (other, old) :: rest
    else if name = other then (name, entry) :: rest
    else (other, old) :: insertEntry name entry rest

theorem mem_insertEntry {name : Text} {entry : RuleEntry} {e : Text × RuleEntry}
    {entries : List (Text × RuleEntry)} (h : e ∈ insertEntry name entry entries) :
    e = (name, entry) ∨ e ∈ entries := by
  induction entries with
  | nil => simpa [insertEntry] using h
  | cons first rest ih =>
    obtain ⟨other, old⟩ := first
    unfold insertEntry at h
    split at h
    · simpa using h
    · split at h
      · rcases List.mem_cons.mp h with h | h
        · exact Or.inl h
        · exact Or.inr (List.mem_cons_of_mem _ h)
      · rcases List.mem_cons.mp h with h | h
        · exact Or.inr (h ▸ List.mem_cons_self ..)
        · exact (ih h).imp id (List.mem_cons_of_mem _)

theorem pairwise_insertEntry (name : Text) (entry : RuleEntry)
    {entries : List (Text × RuleEntry)} (h : entries.Pairwise (·.1 < ·.1)) :
    (insertEntry name entry entries).Pairwise (·.1 < ·.1) := by
  induction entries with
  | nil => simp [insertEntry]
  | cons first rest ih =>
    obtain ⟨other, old⟩ := first
    obtain ⟨hfirst, hrest⟩ := List.pairwise_cons.mp h
    unfold insertEntry
    split
    · rename_i hlt
      refine List.pairwise_cons.mpr ⟨fun e he => ?_, h⟩
      rcases List.mem_cons.mp he with rfl | he
      · exact hlt
      · exact List.lt_trans hlt (hfirst e he)
    · rename_i hnot
      split
      · rename_i heq
        subst heq
        exact List.pairwise_cons.mpr ⟨hfirst, hrest⟩
      · rename_i hne
        refine List.pairwise_cons.mpr ⟨fun e he => ?_, ih hrest⟩
        rcases mem_insertEntry he with rfl | he
        · exact Decidable.byContradiction fun h =>
            hne (List.le_antisymm (List.not_lt.1 h) (List.not_lt.1 hnot))
        · exact hfirst e he

def entryFor? (name : Text) (entries : List (Text × RuleEntry)) : Option RuleEntry :=
  (entries.find? (·.1 = name)).map (·.2)

theorem entryFor?_insertEntry (name other : Text) (entry : RuleEntry)
    (entries : List (Text × RuleEntry)) :
    entryFor? other (insertEntry name entry entries) =
      if other = name then some entry else entryFor? other entries := by
  induction entries with
  | nil => by_cases h : name = other <;> simp [insertEntry, entryFor?, h, eq_comm]
  | cons first rest ih =>
    obtain ⟨n, old⟩ := first
    unfold insertEntry
    split
    · by_cases h : other = name
      · simp [entryFor?, h]
      · simp [entryFor?, h, Ne.symm h]
    · split
      · rename_i heq
        subst heq
        by_cases h : other = name
        · simp [entryFor?, h]
        · simp [entryFor?, h, Ne.symm h]
      · rename_i hne
        by_cases h : n = other
        · subst h
          simp [entryFor?, Ne.symm hne]
        · have := ih
          simp only [entryFor?] at this
          simp [entryFor?, h, this]

/-! ## Tables -/

/-- A table of rule entries, in the order of their names. -/
structure RuleTable where
  entries : List (Text × RuleEntry)
  sorted : entries.Pairwise (·.1 < ·.1)
  deriving DecidableEq, Repr

namespace RuleTable

def empty : RuleTable := ⟨[], .nil⟩

def get? (t : RuleTable) (name : Text) : Option RuleEntry := entryFor? name t.entries

/-- Gives a name an entry, in the place of the one it has. -/
def insert (t : RuleTable) (name : Text) (entry : RuleEntry) : RuleTable :=
  ⟨insertEntry name entry t.entries, pairwise_insertEntry name entry t.sorted⟩

/-- Gives a name an entry, unless it has one. -/
def insertIfNew (t : RuleTable) (name : Text) (entry : RuleEntry) : RuleTable :=
  if (t.get? name).isSome then t else t.insert name entry

/-- The table of a list of entries. Of several entries with one name the last counts. -/
def ofList (entries : List (Text × RuleEntry)) : RuleTable :=
  entries.foldl (fun t (name, entry) => t.insert name entry) empty

/-- Adds the entries of a base table for the names that the table does not list. -/
def withBase (t base : RuleTable) : RuleTable :=
  base.entries.foldl (fun t (name, entry) => t.insertIfNew name entry) t

def severities (t : RuleTable) : List (Text × Severity) :=
  t.entries.map fun (name, entry) => (name, entry.severity)

theorem get?_insert (t : RuleTable) (name other : Text) (entry : RuleEntry) :
    (t.insert name entry).get? other = if other = name then some entry else t.get? other :=
  entryFor?_insertEntry name other entry t.entries

theorem get?_insertIfNew (t : RuleTable) (name other : Text) (entry : RuleEntry) :
    (t.insertIfNew name entry).get? other =
      if other = name then some ((t.get? name).getD entry) else t.get? other := by
  unfold insertIfNew
  split
  · rename_i h
    obtain ⟨old, hold⟩ := Option.isSome_iff_exists.mp h
    split
    · rename_i heq
      rw [heq, hold]
      rfl
    · rfl
  · rename_i h
    rw [get?_insert]
    have hnone : t.get? name = none := by simpa using h
    simp [hnone]

/-- The entries of a base table count where the table has none. -/
theorem get?_withBase (t base : RuleTable) (name : Text) :
    (t.withBase base).get? name = (t.get? name).or (base.get? name) := by
  have general (entries : List (Text × RuleEntry)) (t : RuleTable) :
      (entries.foldl (fun t e => t.insertIfNew e.1 e.2) t).get? name =
        (t.get? name).or (entryFor? name entries) := by
    induction entries generalizing t with
    | nil => simp [entryFor?]
    | cons e rest ih =>
      rw [List.foldl_cons, ih, get?_insertIfNew]
      by_cases h : name = e.1
      · subst h
        cases t.get? e.1 <;> simp [entryFor?]
      · cases t.get? name <;> simp [entryFor?, h, Ne.symm h]
  exact general base.entries t

def recommended : RuleTable := ofList (Rule.all.map fun r => (r.name, .short .error))

end RuleTable

end PostureAudit
