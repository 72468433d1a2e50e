import PostureAudit.Walk
import Mathlib.Algebra.GroupWithZero.Nat

set_option autoImplicit false

/-! # What a walk delivers

A walk delivers nothing but the entries below its root that are no directories and whose names are
selected, and unless it fails it delivers all of them (`mem_events_of_lists`,
`exists_lists_of_mem_events`). The order in which it goes does not matter for this: `Entries.Lists`
knows of none. -/

namespace PostureAudit

namespace Walk

theorem exists_mem_events_of_mem_concat {walks : List Walk} {e : WalkEvent}
    (he : e ∈ (concat walks).events) : ∃ w ∈ walks, e ∈ w.events := by
  induction walks with
  | nil => exact absurd he List.not_mem_nil
  | cons w walks ih =>
    rw [concat, List.foldr_cons, append] at he
    split at he
    · exact ⟨w, List.mem_cons_self .., he⟩
    · rcases List.mem_append.mp he with he | he
      · exact ⟨w, List.mem_cons_self .., he⟩
      · obtain ⟨v, hv, he⟩ := ih he
        exact ⟨v, List.mem_cons_of_mem _ hv, he⟩

/-- What cuts the walks short is the failure of one of them. -/
theorem exists_failure_of_concat {walks : List Walk} {f : WalkFailure}
    (h : (concat walks).failure = some f) : ∃ w ∈ walks, w.failure = some f := by
  induction walks with
  | nil => cases h
  | cons w walks ih =>
    rw [concat, List.foldr_cons, append] at h
    split at h
    · exact ⟨w, List.mem_cons_self .., h⟩
    · obtain ⟨v, hv, hf⟩ := ih h
      exact ⟨v, List.mem_cons_of_mem _ hv, hf⟩

/-- If no failure cuts the walks short, none of them failed and each one is heard out. -/
theorem of_concat_failure_eq_none {walks : List Walk} (h : (concat walks).failure = none) :
    ∀ w ∈ walks, w.failure = none ∧ w.events ⊆ (concat walks).events := by
  induction walks with
  | nil => exact fun w hw => absurd hw List.not_mem_nil
  | cons v walks ih =>
    rw [concat, List.foldr_cons, append] at h ⊢
    cases hv : v.failure with
    | some failure => simp [hv] at h
    | none =>
      simp only [hv] at h ⊢
      intro w hw
      rcases List.mem_cons.mp hw with rfl | hw
      · exact ⟨hv, List.subset_append_left ..⟩
      · obtain ⟨hnone, hsub⟩ := ih h w hw
        exact ⟨hnone, List.Subset.trans hsub (List.subset_append_right ..)⟩

/-- If no failure cuts the walks short, each one delivers all its events. -/
theorem length_events_concat {walks : List Walk} (h : (concat walks).failure = none) :
    (concat walks).events.length = (walks.map (·.events.length)).sum := by
  induction walks with
  | nil => rfl
  | cons v walks ih =>
    rw [concat, List.foldr_cons, append] at h ⊢
    cases hv : v.failure with
    | some failure => simp [hv] at h
    | none =>
      simp only [hv] at h ⊢
      rw [List.length_append, List.map_cons, List.sum_cons]
      exact congrArg (v.events.length + ·) (ih h)

end Walk

/-- What an attempt to read an entry delivers. -/
def WalkEvent.ofRead (path : Path) : Except OsError Bytes → WalkEvent
  | .ok content => .file path content
  | .error cause => .unreadable path cause

namespace Reader

variable {reader : Reader} {selects : Text → Bool} {path : Path} {name : Bytes}

theorem visit_eq : reader.visit selects path name =
    if selects (Utf8.decodeLossy name) then ⟨[.ofRead path (reader.readFile path)], none⟩
    else .empty := by
  unfold visit
  cases reader.readFile path <;> rfl

theorem mem_visit_events_iff {e : WalkEvent} :
    e ∈ (reader.visit selects path name).events ↔
      selects (Utf8.decodeLossy name) = true ∧ e = .ofRead path (reader.readFile path) := by
  rw [visit_eq]
  split
  next hselected => simp [hselected]
  next hother => simp [hother, Walk.empty]

theorem length_visit_events : (reader.visit selects path name).events.length =
    if selects (Utf8.decodeLossy name) then 1 else 0 := by
  rw [visit_eq]
  split <;> rfl

theorem failure_visit : (reader.visit selects path name).failure = none := by
  rw [visit_eq]
  split <;> rfl

end Reader

namespace Entries

/-- The node is in a directory with these entries or in one below it: its path, from the path of
    the directory, and its own name come with it. -/
inductive Lists : Path → Entries → Path → Bytes → FileNode → Prop where
  | here {path : Path} {entries : Entries} {name : Bytes} {node : FileNode}
    (h : (name, node) ∈ entries) : Lists path entries (path.join name) name node
  | deeper {path : Path} {entries inner : Entries} {name : Bytes} {p : Path} {n : Bytes}
    {node : FileNode} (h : (name, .dir inner) ∈ entries)
    (hinner : Lists (path.join name) inner p n node) : Lists path entries p n node

/-- The event is that of an entry below the directory that is none itself and has a selected
    name. -/
def Selects (readFile : Path → Except OsError Bytes) (selects : Text → Bool) (path : Path)
    (entries : Entries) (e : WalkEvent) : Prop :=
  ∃ p name node, Lists path entries p name node ∧ (∀ inner, node ≠ .dir inner) ∧
    selects (Utf8.decodeLossy name) = true ∧ e = .ofRead p (readFile p)

theorem induction {P : Entries → Prop}
    (h : ∀ entries, (∀ name inner, (name, FileNode.dir inner) ∈ entries → P inner) → P entries)
    (entries : Entries) : P entries :=
  h entries fun name inner hmem =>
    have := List.sizeOf_lt_of_mem hmem
    induction h inner
termination_by sizeOf entries
decreasing_by
  simp only [Prod.mk.sizeOf_spec, FileNode.dir.sizeOf_spec] at this
  omega

variable {reader : Reader} {selects : Text → Bool} {path : Path} {entries : Entries}
  {e : WalkEvent}

theorem walks_eq_map : walks reader selects path entries =
    entries.map fun item => (item.1, item.2.walk reader selects (path.join item.1) item.1) := by
  induction entries with
  | nil => rfl
  | cons item entries ih => rw [walks, ih, List.map_cons]

theorem walk_dir {name : Bytes} {inner : Entries} :
    (FileNode.dir inner).walk reader selects path name = walk reader selects path inner := by
  rw [FileNode.walk, walk]

theorem walk_of_unlistable {cause : OsError} (h : reader.unlistable? path = some cause) :
    walk reader selects path entries = ⟨[], some (.traversal path cause)⟩ := by
  rw [walk, h]

theorem walk_of_listable (h : reader.unlistable? path = none) :
    walk reader selects path entries =
      .concat ((sortByName (walks reader selects path entries)).map (·.2)) := by
  rw [walk, h]

/-- A directory through which a walk completes can be listed. -/
theorem listable_of_complete (hcomplete : (walk reader selects path entries).failure = none) :
    reader.unlistable? path = none := by
  cases h : reader.unlistable? path with
  | none => rfl
  | some cause =>
    rw [walk_of_unlistable h] at hcomplete
    cases hcomplete

/-- A walk is put together from the walks through the entries, in some order. -/
theorem mem_sorted_walks_iff {w : Walk} :
    w ∈ (sortByName (walks reader selects path entries)).map (·.2) ↔
      ∃ item ∈ entries, item.2.walk reader selects (path.join item.1) item.1 = w := by
  rw [((sortByName_perm _).map _).mem_iff, walks_eq_map, List.map_map, List.mem_map]
  rfl

theorem selects_of_mem_walk (he : e ∈ (walk reader selects path entries).events) :
    Selects reader.readFile selects path entries e := by
  induction entries using Entries.induction generalizing path with
  | h entries ih =>
    cases hlist : reader.unlistable? path with
    | some cause =>
      rw [walk_of_unlistable hlist] at he
      exact absurd he List.not_mem_nil
    | none =>
      rw [walk_of_listable hlist] at he
      obtain ⟨w, hw, he⟩ := Walk.exists_mem_events_of_mem_concat he
      obtain ⟨⟨name, node⟩, hmem, rfl⟩ := mem_sorted_walks_iff.mp hw
      cases node with
      | file content =>
        exact ⟨_, _, _, .here hmem, fun _ => nofun, Reader.mem_visit_events_iff.mp he⟩
      | link target =>
        exact ⟨_, _, _, .here hmem, fun _ => nofun, Reader.mem_visit_events_iff.mp he⟩
      | dir inner =>
        rw [walk_dir] at he
        obtain ⟨p, n, leaf, hlists, hleaf⟩ := ih name inner hmem he
        exact ⟨p, n, leaf, .deeper hmem hlists, hleaf⟩

/-- A walk through a directory fails at the directory itself or at one below it, which cannot be
    listed. -/
theorem exists_lists_of_failure {f : WalkFailure}
    (hf : (walk reader selects path entries).failure = some f) :
    ∃ p cause, f = .traversal p cause ∧ reader.unlistable? p = some cause ∧
      (p = path ∨ ∃ name inner, Lists path entries p name (.dir inner)) := by
  induction entries using Entries.induction generalizing path with
  | h entries ih =>
    cases hlist : reader.unlistable? path with
    | some cause =>
      rw [walk_of_unlistable hlist] at hf
      cases hf
      exact ⟨path, cause, rfl, hlist, Or.inl rfl⟩
    | none =>
      rw [walk_of_listable hlist] at hf
      obtain ⟨w, hw, hf⟩ := Walk.exists_failure_of_concat hf
      obtain ⟨⟨name, node⟩, hmem, rfl⟩ := mem_sorted_walks_iff.mp hw
      cases node with
      | file content => exact absurd (Reader.failure_visit.symm.trans hf) nofun
      | link target => exact absurd (Reader.failure_visit.symm.trans hf) nofun
      | dir inner =>
        rw [walk_dir] at hf
        obtain ⟨p, cause, rfl, hcause, hp⟩ := ih name inner hmem hf
        refine ⟨p, cause, rfl, hcause, Or.inr ?_⟩
        rcases hp with rfl | ⟨n, deep, hlists⟩
        · exact ⟨name, inner, .here hmem⟩
        · exact ⟨n, deep, .deeper hmem hlists⟩

theorem mem_walk_of_selects (hcomplete : (walk reader selects path entries).failure = none)
    (hselects : Selects reader.readFile selects path entries e) :
    e ∈ (walk reader selects path entries).events := by
  obtain ⟨p, n, leaf, hlists, hleaf, hevent⟩ := hselects
  induction hlists with
  | @here path entries name node hmem =>
    have hlist := listable_of_complete hcomplete
    rw [walk_of_listable hlist] at hcomplete ⊢
    obtain ⟨-, hsub⟩ := Walk.of_concat_failure_eq_none hcomplete _
      (mem_sorted_walks_iff.mpr ⟨_, hmem, rfl⟩)
    refine hsub ?_
    cases node with
    | file content => exact Reader.mem_visit_events_iff.mpr hevent
    | link target => exact Reader.mem_visit_events_iff.mpr hevent
    | dir inner => exact absurd rfl (hleaf inner)
  | @deeper path entries inner name p n leaf hmem _ ih =>
    have hlist := listable_of_complete hcomplete
    rw [walk_of_listable hlist] at hcomplete ⊢
    obtain ⟨hnone, hsub⟩ := Walk.of_concat_failure_eq_none hcomplete _
      (mem_sorted_walks_iff.mpr ⟨_, hmem, rfl⟩)
    rw [walk_dir] at hnone hsub
    exact hsub (ih hnone hleaf hevent)

theorem visited_eq_sum (selects : Text → Bool) (entries : Entries) :
    visited selects entries =
      (entries.map fun item => item.2.visited selects item.1).sum := by
  induction entries with
  | nil => rfl
  | cons item entries ih => rw [visited, ih, List.map_cons, List.sum_cons]

/-- A walk that does not fail delivers one event for every entry that it visits. -/
theorem length_events_walk (hcomplete : (walk reader selects path entries).failure = none) :
    (walk reader selects path entries).events.length = visited selects entries := by
  induction entries using Entries.induction generalizing path with
  | h entries ih =>
    have hlist := listable_of_complete hcomplete
    rw [walk_of_listable hlist] at hcomplete ⊢
    have hparts := Walk.of_concat_failure_eq_none hcomplete
    have hitem : ∀ item ∈ entries,
        (item.2.walk reader selects (path.join item.1) item.1).events.length =
          item.2.visited selects item.1 := by
      rintro ⟨name, node⟩ hmem
      cases node with
      | file content => exact Reader.length_visit_events
      | link target => exact Reader.length_visit_events
      | dir inner =>
        obtain ⟨hnone, -⟩ := hparts _ (mem_sorted_walks_iff.mpr ⟨_, hmem, rfl⟩)
        rw [walk_dir] at hnone ⊢
        rw [FileNode.visited]
        exact ih name inner hmem hnone
    -- the order of the siblings does not matter for a sum
    have hperm := ((sortByName_perm (walks reader selects path entries)).map (·.2)).map
      (·.events.length)
    rw [Walk.length_events_concat hcomplete, hperm.sum_nat, walks_eq_map, visited_eq_sum,
      List.map_map, List.map_map]
    exact congrArg List.sum (List.map_congr_left hitem)

end Entries

/-- The event is that of an entry below the root that is no directory and has a selected name. -/
def FileSystem.Selects (fs : FileSystem) (selects : Text → Bool) (root : Path) (e : WalkEvent) :
    Prop :=
  ∃ trail entries, fs.resolve .entry root = .ok (.found trail (.dir entries)) ∧
    Entries.Selects fs.readFile selects root entries e

theorem FileSystem.selects_of_mem_walk {fs : FileSystem} {selects : Text → Bool} {root : Path}
    {e : WalkEvent} (he : e ∈ (fs.walk selects root).events) : fs.Selects selects root e := by
  unfold FileSystem.walk at he
  split at he
  case h_3 trail entries hroot => exact ⟨trail, entries, hroot, Entries.selects_of_mem_walk he⟩
  -- a link that is the root ends the walk in a failure, whatever it leads to
  case h_5 => split at he <;> exact absurd he List.not_mem_nil
  all_goals exact absurd he List.not_mem_nil

theorem FileSystem.mem_walk_of_selects {fs : FileSystem} {selects : Text → Bool} {root : Path}
    {e : WalkEvent} (hcomplete : (fs.walk selects root).failure = none)
    (hselects : fs.Selects selects root e) : e ∈ (fs.walk selects root).events := by
  obtain ⟨trail, entries, hroot, hselects⟩ := hselects
  have hwalk : fs.walk selects root = Entries.walk fs.reader selects root entries := by
    rw [FileSystem.walk, hroot]
  rw [hwalk] at hcomplete ⊢
  exact Entries.mem_walk_of_selects hcomplete hselects

/-- A walk from a root that does not fail delivers one event for every entry that it visits. -/
theorem FileSystem.length_events_walk {fs : FileSystem} {selects : Text → Bool} {root : Path}
    (hcomplete : (fs.walk selects root).failure = none) :
    (fs.walk selects root).events.length = fs.visited selects root := by
  unfold FileSystem.walk at hcomplete ⊢
  unfold FileSystem.visited
  cases hroot : fs.resolve .entry root with
  | error cause => simp [hroot] at hcomplete
  | ok place =>
    simp only [hroot] at hcomplete ⊢
    cases place with
    | vacant trail name => simp at hcomplete
    | found trail node =>
      cases node with
      | dir entries => exact Entries.length_events_walk hcomplete
      | file content => simp at hcomplete
      | link target =>
        simp only at hcomplete
        split at hcomplete <;> cases hcomplete

end PostureAudit
