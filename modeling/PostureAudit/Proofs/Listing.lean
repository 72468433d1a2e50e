import PostureAudit.Audit.Tree
import PostureAudit.FileSystem.Edit
import PostureAudit.Proofs.Resolve
import PostureAudit.Proofs.Trails

set_option autoImplicit false

/-! # The order of a listing

Two trees are the same up to the order in which their directories list the entries
(`Entries.Reordered`). As long as names differ, nothing depends on this order: a name is looked up
with the same result, so a path leads to the same place, and siblings are sorted before a walk
goes through them. With `Entries.goesAlong_walk`, this says all there is to say about the order of
a walk (`FileSystem.walk_goesAlong`). -/

namespace PostureAudit

/-- The same entries, with the same below them, in any order. -/
inductive Entries.Reordered : Entries → Entries → Prop where
  | nil : Reordered [] []
  | cons {entries entries' : Entries} (item : Bytes × FileNode)
    (h : Reordered entries entries') : Reordered (item :: entries) (item :: entries')
  | dir {inner inner' entries entries' : Entries} (name : Bytes) (hinner : Reordered inner inner')
    (h : Reordered entries entries') :
    Reordered ((name, .dir inner) :: entries) ((name, .dir inner') :: entries')
  | swap (item other : Bytes × FileNode) (entries : Entries) :
    Reordered (item :: other :: entries) (other :: item :: entries)
  | trans {entries middle entries' : Entries} (h : Reordered entries middle)
    (h' : Reordered middle entries') : Reordered entries entries'

/-- The same node, up to the order of listings. -/
inductive FileNode.Reordered : FileNode → FileNode → Prop where
  | refl (node : FileNode) : Reordered node node
  | dir {inner inner' : Entries} (h : inner.Reordered inner') :
    Reordered (.dir inner) (.dir inner')

/-- Paths that lead to the same, up to the order of listings. -/
inductive Target.Reordered : Except OsError Target → Except OsError Target → Prop where
  | refl (answer : Except OsError Target) : Reordered answer answer
  | dir {inner inner' : Entries} (trail : Trail) (h : inner.Reordered inner') :
    Reordered (.ok (.found trail (.dir inner))) (.ok (.found trail (.dir inner')))

/-- The same file system, up to the order of listings. -/
structure FileSystem.Reordered (fs fs' : FileSystem) : Prop where
  entries : fs.entries.Reordered fs'.entries
  workingDirectory : fs'.workingDirectory = fs.workingDirectory
  refusal? : fs'.refusal? = fs.refusal?

theorem FileNode.Reordered.trans {a b c : FileNode} (h : a.Reordered b) (h' : b.Reordered c) :
    a.Reordered c := by
  cases h with
  | refl => exact h'
  | dir hinner =>
    cases h' with
    | refl => exact .dir hinner
    | dir hinner' => exact .dir (hinner.trans hinner')

namespace Entries

variable {entries entries' inner : Entries} {name : Bytes} {node : FileNode}

theorem Reordered.refl (entries : Entries) : entries.Reordered entries := by
  induction entries with
  | nil => exact .nil
  | cons item entries ih => exact .cons item ih

theorem Reordered.symm (h : entries.Reordered entries') : entries'.Reordered entries := by
  induction h with
  | nil => exact .nil
  | cons item _ ih => exact .cons item ih
  | dir name _ _ ihinner ih => exact .dir name ihinner ih
  | swap item other entries => exact .swap other item entries
  | trans _ _ ih ih' => exact ih'.trans ih

theorem Reordered.names_perm (h : entries.Reordered entries') :
    (entries.map (·.1)).Perm (entries'.map (·.1)) := by
  induction h with
  | nil => exact .nil
  | cons item _ ih => exact ih.cons item.1
  | dir name _ _ _ ih => exact ih.cons name
  | swap item other entries => exact .swap other.1 item.1 _
  | trans _ _ ih ih' => exact ih.trans ih'

theorem Reordered.exists_mem (h : entries.Reordered entries') (hmem : (name, node) ∈ entries) :
    ∃ node', (name, node') ∈ entries' ∧ node.Reordered node' := by
  induction h generalizing node with
  | nil => exact absurd hmem List.not_mem_nil
  | cons item _ ih =>
    rcases List.mem_cons.mp hmem with rfl | hmem
    · exact ⟨node, List.mem_cons_self .., .refl node⟩
    · obtain ⟨node', hmem', hnode⟩ := ih hmem
      exact ⟨node', List.mem_cons_of_mem _ hmem', hnode⟩
  | dir other hinner _ _ ih =>
    rcases List.mem_cons.mp hmem with hhead | hmem
    · cases hhead
      exact ⟨_, List.mem_cons_self .., .dir hinner⟩
    · obtain ⟨node', hmem', hnode⟩ := ih hmem
      exact ⟨node', List.mem_cons_of_mem _ hmem', hnode⟩
  | swap item other entries =>
    exact ⟨node, (List.Perm.swap other item entries).mem_iff.mp hmem, .refl node⟩
  | trans _ _ ih ih' =>
    obtain ⟨middle, hmem', hnode⟩ := ih hmem
    obtain ⟨node', hmem'', hnode'⟩ := ih' hmem'
    exact ⟨node', hmem'', hnode.trans hnode'⟩

theorem Distinct.of_reordered (hdistinct : entries.Distinct) (h : entries.Reordered entries') :
    entries'.Distinct := by
  induction hdistinct generalizing entries' with
  | @intro entries names inner ih =>
    refine .intro (h.names_perm.nodup_iff.mp names) fun name inner' hmem => ?_
    obtain ⟨node, hmem', hnode⟩ := h.symm.exists_mem hmem
    cases hnode with
    | refl => exact inner name inner' hmem'
    | dir hinner => exact ih name _ hmem' hinner.symm

theorem Distinct.tail {item : Bytes × FileNode} (h : Distinct (item :: entries)) :
    entries.Distinct :=
  .intro (List.nodup_cons.mp h.names).2 fun _ _ hmem => h.inner (List.mem_cons_of_mem _ hmem)

theorem Distinct.nil : Distinct [] := .intro .nil fun _ _ hmem => absurd hmem List.not_mem_nil

theorem Distinct.cons (hname : name ∉ entries.map (·.1))
    (hnode : ∀ inner, node = .dir inner → Distinct inner) (h : entries.Distinct) :
    Distinct ((name, node) :: entries) := by
  refine .intro (List.nodup_cons.mpr ⟨hname, h.names⟩) fun other inner hmem => ?_
  rcases List.mem_cons.mp hmem with hhead | hmem
  · exact hnode inner (Prod.mk.inj hhead).2.symm
  · exact h.inner hmem

/-! ## Looking up -/

theorem get?_eq_some_iff (h : entries.Distinct) :
    entries.get? name = some node ↔ (name, node) ∈ entries := by
  constructor
  · intro hget
    obtain ⟨⟨n, found⟩, hfind, rfl⟩ := Option.map_eq_some_iff.mp hget
    obtain rfl : n = name := by simpa using List.find?_some hfind
    exact List.mem_of_find?_eq_some hfind
  · intro hmem
    cases hget : entries.get? name with
    | none =>
      have hnone := List.find?_eq_none.mp (Option.map_eq_none_iff.mp hget) _ hmem
      simp at hnone
    | some found =>
      obtain ⟨⟨n, other⟩, hfind, rfl⟩ := Option.map_eq_some_iff.mp hget
      obtain rfl : n = name := by simpa using List.find?_some hfind
      rw [h.eq_of_mem hmem (List.mem_of_find?_eq_some hfind)]

theorem Reordered.get? (h : entries.Reordered entries') (hdistinct : entries.Distinct)
    (name : Bytes) : Option.Rel FileNode.Reordered (entries.get? name) (entries'.get? name) := by
  have hdistinct' := hdistinct.of_reordered h
  cases hget : entries.get? name with
  | some node =>
    obtain ⟨node', hmem, hnode⟩ := h.exists_mem ((get?_eq_some_iff hdistinct).mp hget)
    rw [(get?_eq_some_iff hdistinct').mpr hmem]
    exact .some hnode
  | none =>
    cases hget' : entries'.get? name with
    | none => exact .none
    | some node' =>
      obtain ⟨node, hmem, -⟩ := h.symm.exists_mem ((get?_eq_some_iff hdistinct').mp hget')
      rw [(get?_eq_some_iff hdistinct).mpr hmem] at hget
      cases hget

theorem Distinct.below? (hdistinct : entries.Distinct) {trail : Trail}
    (h : entries.below? trail = some inner) : inner.Distinct := by
  induction trail generalizing entries with
  | nil => exact Option.some.inj h ▸ hdistinct
  | cons name trail ih =>
    rw [Entries.below?] at h
    split at h
    next next hget => exact ih (hdistinct.inner ((get?_eq_some_iff hdistinct).mp hget)) h
    next => cases h

theorem Reordered.below? (h : entries.Reordered entries') (hdistinct : entries.Distinct)
    (trail : Trail) :
    Option.Rel Reordered (entries.below? trail) (entries'.below? trail) := by
  induction trail generalizing entries entries' with
  | nil => exact .some h
  | cons name trail ih =>
    have hget := h.get? hdistinct name
    have hinner {inner : Entries} (hdir : entries.get? name = some (.dir inner)) :
        inner.Distinct := hdistinct.inner ((get?_eq_some_iff hdistinct).mp hdir)
    rw [Entries.below?, Entries.below?]
    generalize entries.get? name = found, entries'.get? name = found' at hget hinner ⊢
    cases hget with
    | none => exact .none
    | @some node _ hnode =>
      cases hnode with
      | refl =>
        cases node with
        | file content => exact .none
        | link target => exact .none
        | dir inner => exact ih (.refl inner) (hinner rfl)
      | dir hreordered => exact ih hreordered (hinner rfl)

theorem Reordered.lookup (h : entries.Reordered entries') (hdistinct : entries.Distinct)
    (trail : Trail) (name : Bytes) :
    Option.Rel FileNode.Reordered (entries.lookup trail name) (entries'.lookup trail name) := by
  have hbelow := h.below? hdistinct trail
  have hinner {inner : Entries} (hdir : entries.below? trail = some inner) : inner.Distinct :=
    hdistinct.below? hdir
  unfold Entries.lookup
  generalize entries.below? trail = found, entries'.below? trail = found' at hbelow hinner ⊢
  cases hbelow with
  | none => exact .none
  | some hreordered => exact hreordered.get? (hinner rfl) name

end Entries

/-- Resolving a path does not depend on the order of listings. -/
theorem FileSystem.Reordered.agrees {fs fs' : FileSystem} (h : fs.Reordered fs')
    (hdistinct : fs.entries.Distinct) (access : Access) :
    Access.Agrees Target.Reordered fs fs' access access where
  error _ := .refl _
  workingDirectory := h.workingDirectory
  search trail := by rw [h.refusal?]
  target trail := by
    have hbelow := h.entries.below? hdistinct trail
    unfold Target.directory
    generalize fs.entries.below? trail = found, fs'.entries.below? trail = found' at hbelow ⊢
    cases hbelow with
    | none => exact .refl _
    | some hreordered => exact .dir trail hreordered
  enter trail name rest := by
    have hbelow := h.entries.below? hdistinct trail
    have hlookup := h.entries.lookup hdistinct trail name
    refine Move.Agrees.enter (fun _ => .refl _) ?_ ?_
    · generalize fs.entries.below? trail = found, fs'.entries.below? trail = found' at hbelow ⊢
      cases hbelow <;> rfl
    · generalize fs.entries.lookup trail name = found, fs'.entries.lookup trail name = found'
        at hlookup ⊢
      cases hlookup with
      | none => exact .stop (.refl _)
      | some hnode =>
        cases hnode with
        | refl => exact Move.Agrees.refl .refl _
        | dir _ => exact .go _

/-! ## Sorting and walking -/

/-- Items with different names are sorted in one way. -/
theorem sortByName_eq_of_perm {α : Type} {items items' : List (Bytes × α)}
    (h : items.Perm items') (hnames : (items.map (·.1)).Nodup) :
    sortByName items = sortByName items' := by
  have hnames' : (items'.map (·.1)).Nodup := (h.map _).nodup_iff.mp hnames
  have hperm : (sortByName items).Perm (sortByName items') :=
    (sortByName_perm items).trans (h.trans (sortByName_perm items').symm)
  refine hperm.eq_of_pairwise (fun a b _ _ hlt hgt => ?_) (sortByName_strict hnames)
    (sortByName_strict hnames')
  exact absurd hgt (List.lt_asymm hlt)

namespace Entries

variable {reader : Reader} {selects : Text → Bool} {path : Path} {entries entries' : Entries}

theorem map_fst_walks :
    (walks reader selects path entries).map (·.1) = entries.map (·.1) := by
  rw [walks_eq_map, List.map_map]
  rfl

theorem walk_eq_of_perm (hdistinct : entries.Distinct)
    (h : (walks reader selects path entries).Perm (walks reader selects path entries')) :
    walk reader selects path entries = walk reader selects path entries' := by
  rw [walk, walk, sortByName_eq_of_perm h (map_fst_walks.symm ▸ hdistinct.names)]

theorem Reordered.walks_perm (h : entries.Reordered entries') (hdistinct : entries.Distinct) :
    (walks reader selects path entries).Perm (walks reader selects path entries') := by
  induction h generalizing path with
  | nil => exact .nil
  | cons item _ ih => exact (ih hdistinct.tail).cons _
  | dir name _ _ ihinner ih =>
    have hinner := hdistinct.inner (List.mem_cons_self ..)
    rw [walks, walks, walk_dir, walk_dir, walk_eq_of_perm hinner (ihinner hinner)]
    exact (ih hdistinct.tail).cons _
  | swap item other entries => exact .swap _ _ _
  | trans h _ ih ih' => exact (ih hdistinct).trans (ih' (hdistinct.of_reordered h))

end Entries

namespace FileSystem

variable {fs fs' : FileSystem}

theorem Reordered.resolve (h : fs.Reordered fs') (hdistinct : fs.entries.Distinct)
    (access : Access) (p : Path) :
    Target.Reordered (fs.resolve access p) (fs'.resolve access p) :=
  resolve_related (h.agrees hdistinct access) p

theorem Reordered.reader_eq (h : fs.Reordered fs') (hdistinct : fs.entries.Distinct) :
    fs'.reader = fs.reader := by
  have hread : fs'.readFile = fs.readFile := by
    funext p
    have htarget := h.resolve hdistinct .target p
    unfold readFile
    rw [h.refusal?]
    generalize fs.resolve .target p = answer, fs'.resolve .target p = answer' at htarget ⊢
    cases htarget with
    | refl => rfl
    | dir trail _ => cases hrefusal : fs.refusal? .read trail <;> simp [hrefusal]
  have hlist : fs'.unlistable? = fs.unlistable? := by
    funext p
    have htarget := h.resolve hdistinct .target p
    unfold unlistable?
    rw [h.refusal?]
    generalize fs.resolve .target p = answer, fs'.resolve .target p = answer' at htarget ⊢
    cases htarget <;> rfl
  rw [reader, reader, hread, hlist]

/-- A directory that a path leads to has different names, as those above it. -/
theorem distinct_of_resolve {access : Access} {root : Path} {trail : Trail}
    {entries : Entries} (hdistinct : fs.entries.Distinct)
    (h : fs.resolve access root = .ok (.found trail (.dir entries))) : entries.Distinct := by
  have hreal := fs.resolve_real access root
  rw [h] at hreal
  generalize hnode : FileNode.dir entries = node at hreal
  cases hreal with
  | dir hbelow =>
    cases hnode
    exact hdistinct.below? hbelow
  | entry _ hother => exact absurd hnode.symm (hother entries)

/-- A walk does not depend on the order of listings. -/
theorem Reordered.walk_eq (h : fs.Reordered fs') (hdistinct : fs.entries.Distinct)
    (selects : Text → Bool) (root : Path) : fs'.walk selects root = fs.walk selects root := by
  have hentry := h.resolve hdistinct .entry root
  have htarget := h.resolve hdistinct .target root
  have hroot {trail : Trail} {entries : Entries}
      (hfound : fs.resolve .entry root = .ok (.found trail (.dir entries))) : entries.Distinct :=
    distinct_of_resolve hdistinct hfound
  unfold walk
  rw [h.reader_eq hdistinct]
  generalize fs.resolve .entry root = answer, fs'.resolve .entry root = answer' at hentry hroot ⊢
  generalize fs.resolve .target root = beyond, fs'.resolve .target root = beyond' at htarget ⊢
  cases hentry with
  | refl =>
    -- a link at the root is looked at once more
    cases htarget <;> rfl
  | dir trail hreordered =>
    have hinner := hroot rfl
    exact (Entries.walk_eq_of_perm hinner (hreordered.walks_perm hinner)).symm

/-- A walk from a directory delivers the selected entries in the order of their trails, each of
    them once: all of them if it completes, and otherwise those before the first directory that
    cannot be listed. Neither the walk nor what comes of it depends on the order in which
    directories list their entries. -/
theorem walk_goesAlong (s : Settings) (fs : FileSystem) (root : Path)
    (hdistinct : fs.entries.Distinct) :
    (∀ trail (entries : Entries), fs.resolve .entry root = .ok (.found trail (.dir entries)) →
      ∃ trails, Walk.GoesAlong (entries.Due fs.reader s.selects root)
        (entries.Shut fs.reader root) trails (fs.walk s.selects root)) ∧
    ∀ fs' : FileSystem, fs.Reordered fs' →
      fs'.walk s.selects root = fs.walk s.selects root ∧
        auditTree s fs' root = auditTree s fs root := by
  constructor
  · intro trail entries hroot
    have hwalk : fs.walk s.selects root = entries.walk fs.reader s.selects root := by
      rw [walk, hroot]
    rw [hwalk]
    exact Entries.goesAlong_walk (distinct_of_resolve hdistinct hroot)
  · intro fs' h
    have hwalk := h.walk_eq hdistinct s.selects root
    exact ⟨hwalk, by rw [auditTree, auditTree, hwalk]⟩

/-- A directory beside a file whose name begins with that of the directory, and another one whose
    name ends as that of a file. -/
def sideBySide : FileSystem :=
  .ofEntries [] [(Path.ofText "z.tf".toList, .file []), (Path.ofText "a.tf".toList, .file []),
    (Path.ofText "m.tf".toList, .dir [(Path.ofText "b.tf".toList, .link (Path.ofText "..".toList)),
      (Path.ofText "a.md".toList, .file [])]),
    (Path.ofText "a".toList, .dir [(Path.ofText "x.tf".toList, .file [])])]

/-- What is in the directory comes before the file beside it, although its path is greater. -/
theorem walk_goesAlong_sideBySide :
    sideBySide.entries.Distinct ∧
      (∃ trails, Walk.GoesAlong
        (sideBySide.entries.Due sideBySide.reader Settings.default.selects [Path.dot])
        (sideBySide.entries.Shut sideBySide.reader [Path.dot]) trails
        (sideBySide.walk Settings.default.selects [Path.dot])) ∧
      sideBySide.walk Settings.default.selects [Path.dot] =
        ⟨[.file (Path.ofText "./a/x.tf".toList) [], .file (Path.ofText "./a.tf".toList) [],
          .unreadable (Path.ofText "./m.tf/b.tf".toList) .isADirectory,
          .file (Path.ofText "./z.tf".toList) []], none⟩ := by
  have hdistinct : sideBySide.entries.Distinct := by
    have hm : Entries.Distinct [(Path.ofText "b.tf".toList, .link (Path.ofText "..".toList)),
        (Path.ofText "a.md".toList, .file [])] :=
      .cons (by decide) (fun _ => nofun) (.cons (by decide) (fun _ => nofun) .nil)
    have ha : Entries.Distinct [(Path.ofText "x.tf".toList, .file [])] :=
      .cons (by decide) (fun _ => nofun) .nil
    refine .cons (by decide) (fun _ => nofun) (.cons (by decide) (fun _ => nofun) ?_)
    refine .cons (by decide) (fun inner h => FileNode.dir.inj h ▸ hm) ?_
    exact .cons (by decide) (fun inner h => FileNode.dir.inj h ▸ ha) .nil
  refine ⟨hdistinct, (walk_goesAlong .default sideBySide [Path.dot] hdistinct).1 [] _ rfl, ?_⟩
  decide +kernel

/-- A directory that may not be listed ends the walk, here one that begins above the working
    directory. -/
example :
    ({ sideBySide with
      workingDirectory := [Path.ofText "a".toList]
      refusal? := fun use trail =>
        if use = .read ∧ trail = [Path.ofText "m.tf".toList] then some .permissionDenied
        else none } : FileSystem).walk Settings.default.selects (Path.ofText "..".toList) =
      ⟨[.file (Path.ofText "../a/x.tf".toList) [], .file (Path.ofText "../a.tf".toList) []],
        some (.traversal (Path.ofText "../m.tf".toList) .permissionDenied)⟩ := by
  decide +kernel

end FileSystem

end PostureAudit
