import PostureAudit.Proofs.Arrival
import PostureAudit.Proofs.Layout

set_option autoImplicit false

/-! # Walking through what a layout made

In a tree that a layout made (`Layout.Built`) every path leads to what the layout gives there
(`Layout.WellFormed.readBy`). So the walk finds every file that the layout gives and whose name is
selected, with what the last entry for it says, and no directory is in its way. A layout in which
no file is in the way of another entry is read back by any walk (`ofLayout_walk`). -/

namespace PostureAudit

namespace Layout

variable {root : Path} {layout : Layout} {entries : Entries} {reader : Reader}
  {selects : Text → Bool}

/-- By the paths below the root the reader comes by what the tree has. -/
structure ReadBy (entries : Entries) (root : Path) (reader : Reader) : Prop where
  file : ∀ names content, entries.LeadsTo names (.file content) →
    reader.readFile (root.along names) = .ok content
  dir : ∀ names inner, entries.LeadsTo names (.dir inner) →
    reader.unlistable? (root.along names) = none
  root : reader.unlistable? root = none

/-- The path has a file in the layout, and its last component is selected. -/
def SelectsFile (layout : Layout) (selects : Text → Bool) (p : Path) : Prop :=
  (∃ content, .file p content ∈ layout) ∧
    ∃ name, p.fileName? = some name ∧ selects (Utf8.decodeLossy name) = true

/-- The event of the file at a path, with the content of the last entry for it. -/
def DeliversLast (layout : Layout) (root p : Path) (e : WalkEvent) : Prop :=
  ∃ content, layout.Last (.file p content) ∧ e = .file (root.join p) content

namespace WellFormed

/-- At the end of a trail there is a file exactly if the layout has one there. -/
theorem exists_last_of_leadsTo (h : layout.WellFormed root) (hbuilt : layout.Built entries)
    {trail : Trail} {node : FileNode} (hleads : entries.LeadsTo trail node)
    (hleaf : ∀ inner, node ≠ .dir inner) :
    ∃ p content, layout.Last (.file p content) ∧ trail = p.names ∧ node = .file content := by
  have hgives := (hbuilt.shapeAt trail node.shape).mp (hleads.shapeAt_eq hbuilt.distinct)
  have hnotDir : node.shape ≠ .dir := by
    cases node with
    | file content => nofun
    | link target => nofun
    | dir inner => exact absurd rfl (hleaf inner)
  generalize hshape : node.shape = shape at hgives hnotDir
  cases hgives with
  | root => exact absurd rfl hnotDir
  | @entry e hlast =>
    cases e with
    | file p content =>
      cases node with
      | file other =>
        cases hshape
        exact ⟨p, content, hlast, rfl, rfl⟩
      | link target => cases hshape
      | dir inner => cases hshape
    | dir p => exact absurd rfl hnotDir
    | link p target => exact absurd hlast.mem (h.noLink p target)
  | above _ _ _ => exact absurd rfl hnotDir

theorem leadsTo_of_last (h : layout.WellFormed root) (hbuilt : layout.Built entries) {p : Path}
    {content : Bytes} (hlast : layout.Last (.file p content)) :
    entries.LeadsTo p.names (.file content) := by
  have hshape : entries.shapeAt p.names = some (.file content) :=
    (hbuilt.shapeAt _ _).mpr (.entry hlast)
  have hne := (h.ordinary _ hlast.mem).names_ne_nil
  obtain ⟨node, hleads, hnode⟩ := Entries.exists_leadsTo_of_shapeAt hbuilt.distinct hne hshape
  cases node with
  | file other =>
    cases hnode
    exact hleads
  | link target => cases hnode
  | dir inner => cases hnode

/-- Every trail in the tree is the beginning of an entry's. -/
theorem exists_entry_of_leadsTo (hbuilt : layout.Built entries) {trail : Trail} {node : FileNode}
    (hleads : entries.LeadsTo trail node) : ∃ e ∈ layout, trail <+: e.path.names := by
  have hgives := (hbuilt.shapeAt trail _).mp (hleads.shapeAt_eq hbuilt.distinct)
  generalize node.shape = shape at hgives
  cases hgives with
  | root => exact absurd rfl hleads.ne_nil
  | entry hlast => exact ⟨_, hlast.mem, List.prefix_rfl⟩
  | above hmem hfront _ => exact ⟨_, hmem, hfront⟩

/-- The paths below the root lead to what was made there, unless something is refused. -/
theorem readBy (h : layout.WellFormed root) (hbuilt : layout.Built entries) {fs : FileSystem}
    {trail : Trail} (hroot : fs.resolve .entry root = .ok (.found trail (.dir entries)))
    (hallowed : ∀ use t, fs.refusal? use (trail ++ t) = none) : ReadBy entries root fs.reader := by
  have htarget := FileSystem.resolve_target_of_entry hroot
  have hway {names : Trail} {node : FileNode} (hleads : entries.LeadsTo names node) :
      (∀ name ∈ names, Path.IsName name) ∧ (root.along names).length < maxPathLength := by
    obtain ⟨e, he, hfront⟩ := exists_entry_of_leadsTo hbuilt hleads
    have hordinary := h.ordinary e he
    constructor
    · intro name hname
      have hmem := hfront.subset hname
      rw [hordinary.names_eq] at hmem
      exact hordinary.isName hmem
    · have hle := Path.length_along_le root hfront
      have hshort := h.short e he
      rw [hordinary.along_names root] at hle
      omega
  refine ⟨fun names content hleads => ?_, fun names inner hleads => ?_, ?_⟩
  · exact FileSystem.readFile_along hbuilt.distinct hleads htarget (hway hleads).1 hallowed
      (hway hleads).2
  · exact FileSystem.unlistable?_along hbuilt.distinct hleads htarget (hway hleads).1 hallowed
      (hway hleads).2
  · have hlist : fs.unlistable? root = fs.refusal? .read trail := by
      rw [FileSystem.unlistable?, htarget]
    exact hlist.trans (by simpa using hallowed .read [])

/-- The events that are due below the root are those of the selected files. -/
theorem due_iff (h : layout.WellFormed root) (hbuilt : layout.Built entries)
    (hread : ReadBy entries root reader) {trail : Trail} {e : WalkEvent} :
    entries.Due reader selects root trail e ↔
      ∃ p, trail = p.names ∧ layout.SelectsFile selects p ∧ layout.DeliversLast root p e := by
  have hevent {p : Path} {content : Bytes} (hlast : layout.Last (.file p content)) :
      WalkEvent.ofRead (root.along p.names) (reader.readFile (root.along p.names)) =
        .file (root.join p) content := by
    have hordinary : p.Ordinary := h.ordinary _ hlast.mem
    rw [hread.file _ _ (h.leadsTo_of_last hbuilt hlast), hordinary.along_names root]
    rfl
  have hname {p : Path} {content : Bytes} (hlast : layout.Last (.file p content)) :
      p.names.getLast? = p.fileName? := by
    have hordinary : p.Ordinary := h.ordinary _ hlast.mem
    rw [hordinary.names_eq]
    rfl
  constructor
  · rintro ⟨name, node, hleads, hend, hleaf, hselected, rfl⟩
    obtain ⟨p, content, hlast, rfl, rfl⟩ := h.exists_last_of_leadsTo hbuilt hleads hleaf
    rw [hname hlast] at hend
    exact ⟨p, rfl, ⟨⟨content, hlast.mem⟩, name, hend, hselected⟩, content, hlast, hevent hlast⟩
  · rintro ⟨p, rfl, ⟨-, name, hend, hselected⟩, content, hlast, rfl⟩
    rw [← hname hlast] at hend
    exact ⟨name, .file content, h.leadsTo_of_last hbuilt hlast, hend, fun _ => nofun, hselected,
      (hevent hlast).symm⟩

/-- No directory is in the way. -/
theorem not_shut (hread : ReadBy entries root reader) {trail : Trail} {f : WalkFailure} :
    ¬ entries.Shut reader root trail f := by
  rintro ⟨rfl | ⟨inner, hleads⟩, cause, hcause, -⟩
  · cases hread.root.symm.trans hcause
  · cases (hread.dir _ _ hleads).symm.trans hcause

/-- A path that has a file in the layout has a last one. -/
theorem exists_last_file (h : layout.WellFormed root) {p : Path} {content : Bytes}
    (hmem : .file p content ∈ layout) : ∃ content', layout.Last (.file p content') := by
  obtain ⟨last, hlast, hpath⟩ := exists_last hmem
  have hreplaces := h.replaces hmem hlast.mem hpath.symm
  cases last with
  | file p' content' =>
    obtain rfl : p' = p := hpath
    exact ⟨content', hlast⟩
  | dir p' => cases hreplaces
  | link p' target => cases hreplaces

theorem exists_due_iff (h : layout.WellFormed root) (hbuilt : layout.Built entries)
    (hread : ReadBy entries root reader) {trail : Trail} :
    (∃ e, entries.Due reader selects root trail e) ↔
      ∃ p, trail = p.names ∧ layout.SelectsFile selects p := by
  simp only [h.due_iff hbuilt hread]
  constructor
  · rintro ⟨e, p, htrail, hselected, -⟩
    exact ⟨p, htrail, hselected⟩
  · rintro ⟨p, htrail, hselected⟩
    obtain ⟨content, hmem⟩ := hselected.1
    obtain ⟨content', hlast⟩ := h.exists_last_file hmem
    exact ⟨_, p, htrail, hselected, content', hlast, rfl⟩

theorem ofPieces_names (h : layout.WellFormed root) {p : Path}
    (hselects : layout.SelectsFile selects p) : Path.ofPieces p.names = p := by
  obtain ⟨⟨content, hmem⟩, -⟩ := hselects
  have hordinary : p.Ordinary := h.ordinary _ hmem
  exact hordinary.ofPieces_names

/-- A walk through the tree delivers the selected files of the layout, each of them once. -/
theorem walk_built (h : layout.WellFormed root) (hbuilt : layout.Built entries)
    (hread : ReadBy entries root reader) :
    (entries.walk reader selects root).failure = none ∧
      ∃ paths : List Path, paths.Nodup ∧ (∀ p, p ∈ paths ↔ layout.SelectsFile selects p) ∧
        List.Forall₂ (layout.DeliversLast root) paths
          (entries.walk reader selects root).events := by
  obtain ⟨trails, hwalk⟩ : ∃ trails, Walk.GoesAlong (entries.Due reader selects root)
      (entries.Shut reader root) trails (entries.walk reader selects root) :=
    Entries.goesAlong_walk hbuilt.distinct
  have hnone : (entries.walk reader selects root).failure = none := by
    cases hend : (entries.walk reader selects root).failure with
    | none => rfl
    | some f =>
      obtain ⟨first, hshut, -⟩ := hwalk.aborted f hend
      exact absurd hshut (not_shut hread)
  have hmem (t : Trail) : t ∈ trails ↔ ∃ p, t = p.names ∧ layout.SelectsFile selects p := by
    rw [← h.exists_due_iff hbuilt hread]
    exact (hwalk.complete hnone).2 t
  refine ⟨hnone, trails.map Path.ofPieces, ?once, ?all, ?delivers⟩
  case once =>
    have hnodup : trails.Nodup := by
      refine hwalk.increasing.imp ?_
      rintro t _ hlt rfl
      exact List.lt_irrefl t hlt
    refine hnodup.map_on ?_
    intro t ht t' ht' hsame
    obtain ⟨p, rfl, hp⟩ := (hmem t).mp ht
    obtain ⟨p', rfl, hp'⟩ := (hmem t').mp ht'
    rw [h.ofPieces_names hp, h.ofPieces_names hp'] at hsame
    rw [hsame]
  case all =>
    intro p
    rw [List.mem_map]
    constructor
    · rintro ⟨t, ht, rfl⟩
      obtain ⟨p, rfl, hp⟩ := (hmem t).mp ht
      rwa [h.ofPieces_names hp]
    · intro hp
      exact ⟨p.names, (hmem _).mpr ⟨p, rfl, hp⟩, h.ofPieces_names hp⟩
  case delivers =>
    refine List.forall₂_map_left_iff.mpr (hwalk.delivers.imp ?_)
    intro t e hdue
    obtain ⟨p, rfl, hp, hdelivers⟩ := (h.due_iff hbuilt hread).mp hdue
    rwa [h.ofPieces_names hp]

end WellFormed

/-- A layout of files and directories in which no file is in the way of another entry can be made,
    and any walk from a root that leads to what was made, and that may be used, completes. It
    delivers an event for each path of a file whose last component is selected, one and no other,
    with the content of the last entry for the path. -/
theorem ofLayout_walk (h : layout.WellFormed root) :
    ∃ tree, Entries.ofLayout layout = .ok tree ∧
      ∀ (s : Settings) (fs : FileSystem) trail,
        fs.resolve .entry root = .ok (.found trail (.dir tree)) →
        (∀ use t, fs.refusal? use (trail ++ t) = none) →
          (fs.walk s.selects root).failure = none ∧
            ∃ paths : List Path, paths.Nodup ∧
              (∀ p, p ∈ paths ↔ layout.SelectsFile s.selects p) ∧
              List.Forall₂ (layout.DeliversLast root) paths (fs.walk s.selects root).events := by
  obtain ⟨tree, htree, hbuilt⟩ := h.exists_ofLayout
  refine ⟨tree, htree, ?_⟩
  intro s fs trail hroot hallowed
  have hwalk : fs.walk s.selects root = tree.walk fs.reader s.selects root := by
    rw [FileSystem.walk, hroot]
  rw [hwalk]
  exact h.walk_built hbuilt (h.readBy hbuilt hroot hallowed)

/-- A directory that comes after what is in it, and a file that comes twice. -/
def overwritten : Layout :=
  [.file (Path.ofText "a/x.tf".toList) [0x31], .dir (Path.ofText "a/b".toList),
    .file (Path.ofText "a.md".toList) [], .file (Path.ofText "a/x.tf".toList) [0x32],
    .dir (Path.ofText "a".toList)]

/-- The working directory of a file system with nothing else has the entries. -/
theorem resolve_ofEntries (home : Trail) (tree : Entries) :
    (FileSystem.ofEntries home tree).resolve .entry [Path.dot] = .ok (.found home (.dir tree)) := by
  have hbelow : (tree.nest home).below? home = some tree := by
    induction home with
    | nil => rfl
    | cons name home ih => simpa [Entries.nest, Entries.below?, Entries.get?] using ih
  have hresolve : (FileSystem.ofEntries home tree).resolve .entry [Path.dot] =
      Target.directory (tree.nest home) home := rfl
  rw [hresolve, Target.directory, hbelow]

/-- Of a file that comes twice the second content is read. -/
theorem ofLayout_walk_overwritten :
    overwritten.WellFormed [Path.dot] ∧
      ∃ tree, Entries.ofLayout overwritten = .ok tree ∧
        let fs := FileSystem.ofEntries [Path.ofText "work".toList] tree
        (fs.walk Settings.default.selects [Path.dot]).failure = none ∧
        (∃ paths : List Path, paths.Nodup ∧
          (∀ p, p ∈ paths ↔ overwritten.SelectsFile Settings.default.selects p) ∧
          List.Forall₂ (overwritten.DeliversLast [Path.dot]) paths
            (fs.walk Settings.default.selects [Path.dot]).events) ∧
        (fs.walk Settings.default.selects [Path.dot]).events =
          [.file (Path.ofText "./a/x.tf".toList) [0x32]] := by
  let files := [Path.ofText "a/x.tf".toList, Path.ofText "a.md".toList]
  have hfile {path : Path} {content : Bytes} (h : .file path content ∈ overwritten) :
      path ∈ files := by
    simp only [overwritten, List.mem_cons, LayoutEntry.file.injEq, reduceCtorEq, false_or,
      or_false, List.not_mem_nil] at h
    rcases h with ⟨rfl, -⟩ | ⟨rfl, -⟩ | ⟨rfl, -⟩ <;> decide
  have hnotDir : ∀ path ∈ files, .dir path ∉ overwritten := by decide +kernel
  have hnotAncestor : ∀ path ∈ files, ∀ e ∈ overwritten, ¬ path.IsAncestor e.path := by
    decide +kernel
  have hwellFormed : overwritten.WellFormed [Path.dot] :=
    { noLink := fun path target h => by simp [overwritten] at h
      ordinary := by decide +kernel
      short := by decide +kernel
      notDir := fun path _ h => hnotDir path (hfile h)
      notAncestor := fun path _ h => hnotAncestor path (hfile h) }
  refine ⟨hwellFormed, ?_⟩
  obtain ⟨tree, htree, hwalk⟩ := ofLayout_walk hwellFormed
  let fs := FileSystem.ofEntries [Path.ofText "work".toList] tree
  obtain ⟨hnone, hpaths⟩ := hwalk .default fs _ (resolve_ofEntries _ tree) fun _ _ => rfl
  have hevents : (Entries.ofLayout overwritten).toOption.map (fun tree =>
      ((FileSystem.ofEntries [Path.ofText "work".toList] tree).walk Settings.default.selects
        [Path.dot]).events) = some [.file (Path.ofText "./a/x.tf".toList) [0x32]] := by
    decide +kernel
  rw [htree] at hevents
  exact ⟨tree, htree, hnone, hpaths, Option.some.inj hevents⟩

end Layout

end PostureAudit
