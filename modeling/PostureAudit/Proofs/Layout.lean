import PostureAudit.FileSystem.Edit
import PostureAudit.Proofs.Listing
import PostureAudit.Proofs.Pathnames
import Mathlib.Data.List.Induction

set_option autoImplicit false

/-! # What a layout makes

A tree is told by what is at the end of each trail of names (`Entries.shapeAt`). Putting an entry
into it succeeds if there is room for it, and changes this at the end of its trail and on the way
there, and nowhere else (`exists_plant`).

A layout puts its entries into a tree one after the other, in any order: a directory may come after
what is in it, and a path may come again. If no file is in the way of another entry, all of it
succeeds, and what is then at the end of a trail is what the last entry for it says, or a directory
if the trail goes on to some entry (`exists_ofLayout`). -/

namespace PostureAudit

/-! ## What is at the end of a trail -/

/-- What is at the end of a trail, apart from what is in it. -/
inductive Shape where
  | file (content : Bytes)
  | link (target : Path)
  | dir
  deriving DecidableEq, Repr

def FileNode.shape : FileNode → Shape
  | .file content => .file content
  | .link target => .link target
  | .dir _ => .dir

/-- A file may take the place of a file, and a directory that is there may stay. -/
inductive Shape.Replaces : Shape → Shape → Prop where
  | file (content old : Bytes) : Replaces (.file content) (.file old)
  | dir : Replaces .dir .dir

namespace Entries

/-- The shape of what is at the end of a trail. -/
def shapeAt : Entries → Trail → Option Shape
  | _, [] => some .dir
  | entries, name :: trail =>
    match entries.get? name with
    | some (.dir inner) => shapeAt inner trail
    | some node => if trail = [] then some node.shape else none
    | none => none

variable {entries inner inner' : Entries} {name other : Bytes} {node leaf : FileNode}
  {t trail : Trail}

theorem shapeAt_nil : entries.shapeAt [] = some .dir := by
  rw [shapeAt]

theorem shapeAt_cons_of_none (h : entries.get? name = none) :
    entries.shapeAt (name :: t) = none := by
  rw [shapeAt, h]

theorem shapeAt_cons_of_dir (h : entries.get? name = some (.dir inner)) :
    entries.shapeAt (name :: t) = inner.shapeAt t := by
  rw [shapeAt, h]

theorem shapeAt_cons_of_leaf (h : entries.get? name = some node)
    (hnode : ∀ inner, node ≠ .dir inner) :
    entries.shapeAt (name :: t) = if t = [] then some node.shape else none := by
  rw [shapeAt, h]
  cases node with
  | file content => rfl
  | link target => rfl
  | dir inner => exact absurd rfl (hnode inner)

theorem shapeAt_singleton (h : entries.get? name = some node) :
    entries.shapeAt [name] = some node.shape := by
  rw [shapeAt, h]
  cases node with
  | file content => rfl
  | link target => rfl
  | dir inner => exact shapeAt_nil

theorem shapeAt_empty (hne : t ≠ []) : shapeAt [] t = none := by
  cases t with
  | nil => exact absurd rfl hne
  | cons name t => rfl

theorem shapeAt_set_of_ne (h : other ≠ name) :
    (entries.set name node).shapeAt (other :: t) = entries.shapeAt (other :: t) := by
  rw [shapeAt, shapeAt, get?_set_of_ne entries node h]

theorem shapeAt_set_leaf (hleaf : ∀ inner, leaf = .dir inner → inner = []) :
    (entries.set name leaf).shapeAt (name :: t) = if t = [] then some leaf.shape else none := by
  have hget : (entries.set name leaf).get? name = some leaf := get?_set_self ..
  by_cases hdir : ∃ inner, leaf = .dir inner
  · obtain ⟨inner, rfl⟩ := hdir
    obtain rfl := hleaf inner rfl
    rw [shapeAt_cons_of_dir hget]
    split
    next hnil => rw [hnil, shapeAt_nil]; rfl
    next hne => exact shapeAt_empty hne
  · exact shapeAt_cons_of_leaf hget fun inner h => hdir ⟨inner, h⟩

/-- What is found at the end of a trail is there. -/
theorem LeadsTo.shapeAt_eq (hdistinct : entries.Distinct) (h : entries.LeadsTo trail node) :
    entries.shapeAt trail = some node.shape := by
  induction h with
  | here hmem => exact shapeAt_singleton ((get?_eq_some_iff hdistinct).mpr hmem)
  | deeper hmem _ ih =>
    rw [shapeAt_cons_of_dir ((get?_eq_some_iff hdistinct).mpr hmem)]
    exact ih (hdistinct.inner hmem)

theorem exists_leadsTo_of_shapeAt {shape : Shape} (hdistinct : entries.Distinct)
    (hne : trail ≠ []) (h : entries.shapeAt trail = some shape) :
    ∃ node, entries.LeadsTo trail node ∧ node.shape = shape := by
  induction trail generalizing entries with
  | nil => exact absurd rfl hne
  | cons name trail ih =>
    cases hget : entries.get? name with
    | none =>
      rw [shapeAt_cons_of_none hget] at h
      cases h
    | some node =>
      have hmem := (get?_eq_some_iff hdistinct).mp hget
      by_cases htrail : trail = []
      · subst htrail
        rw [shapeAt_singleton hget] at h
        exact ⟨node, .here hmem, Option.some.inj h⟩
      · cases node with
        | dir inner =>
          rw [shapeAt_cons_of_dir hget] at h
          obtain ⟨node, hleads, hshape⟩ := ih (hdistinct.inner hmem) htrail h
          exact ⟨node, .deeper hmem hleads, hshape⟩
        | file content => simp [shapeAt_cons_of_leaf hget, htrail] at h
        | link target => simp [shapeAt_cons_of_leaf hget, htrail] at h

/-! ## Putting an entry into a tree -/

theorem mem_names_set {n : Bytes} :
    n ∈ (entries.set name node).map (·.1) ↔ n = name ∨ n ∈ entries.map (·.1) := by
  induction entries with
  | nil => simp [set]
  | cons e rest ih =>
    obtain ⟨first, old⟩ := e
    rw [set]
    split
    next h => simp [h]
    next =>
      rw [List.map_cons, List.mem_cons, ih, List.map_cons, List.mem_cons]
      exact or_left_comm

theorem Distinct.set (h : entries.Distinct) (hnode : ∀ inner, node = .dir inner → Distinct inner) :
    (entries.set name node).Distinct := by
  induction entries with
  | nil => exact .cons List.not_mem_nil hnode .nil
  | cons e rest ih =>
    obtain ⟨first, old⟩ := e
    have hfirst : first ∉ rest.map (·.1) := (List.nodup_cons.mp h.names).1
    rw [Entries.set]
    split
    next => exact .cons hfirst hnode h.tail
    next hne =>
      refine .cons ?_ ?_ (ih h.tail)
      · rw [mem_names_set, not_or]
        exact ⟨hne, hfirst⟩
      · rintro inner rfl
        exact h.inner (List.mem_cons_self ..)

/-- There is room for a leaf at the end of a trail: on the way there is nothing but directories,
    and at the end there is nothing, or something that may give way. -/
structure Room (leaf : FileNode) (entries : Entries) (trail : Trail) : Prop where
  way : ∀ t shape, t <+: trail → t ≠ trail → entries.shapeAt t = some shape → shape = .dir
  last : ∀ shape, entries.shapeAt trail = some shape → leaf.shape.Replaces shape

/-- A leaf has been put at the end of a trail, and directories on the way. -/
structure Planted (leaf : FileNode) (trail : Trail) (entries entries' : Entries) : Prop where
  distinct : entries.Distinct → entries'.Distinct
  shapeAt : ∀ t, entries'.shapeAt t =
    if t = trail then some leaf.shape
    else if t <+: trail then some .dir else entries.shapeAt t

theorem Room.empty (hne : trail ≠ []) : Room leaf [] trail where
  way := by
    intro t shape _ _ h
    cases t with
    | nil => exact (Option.some.inj h).symm
    | cons name t => cases h
  last := by
    intro shape h
    rw [shapeAt_empty hne] at h
    cases h

theorem Room.below (h : Room leaf entries (name :: trail))
    (hget : entries.get? name = some (.dir inner)) : Room leaf inner trail where
  way := by
    intro t shape hfront hne hshape
    refine h.way (name :: t) shape ?_ ?_ ?_
    · simpa using hfront
    · simpa using hne
    · rwa [shapeAt_cons_of_dir hget]
  last := by
    intro shape hshape
    refine h.last shape ?_
    rwa [shapeAt_cons_of_dir hget]

theorem Planted.here (hleaf : ∀ inner, leaf = .dir inner → inner = [])
    (hbelow : ∀ t, t ≠ [] → entries.shapeAt (name :: t) = none) :
    Planted leaf [name] entries (entries.set name leaf) where
  distinct := by
    intro h
    refine h.set fun inner hinner => ?_
    rw [hleaf inner hinner]
    exact .nil
  shapeAt := by
    intro t
    cases t with
    | nil => simp [shapeAt_nil]
    | cons other t =>
      by_cases hother : other = name
      · subst hother
        rw [shapeAt_set_leaf hleaf]
        by_cases ht : t = []
        · simp [ht]
        · simp [ht, hbelow t ht]
      · rw [shapeAt_set_of_ne hother]
        simp [hother]

/-- A directory that is there already takes nothing to be there. -/
theorem Planted.kept (h : entries.shapeAt [name] = some leaf.shape) :
    Planted leaf [name] entries entries where
  distinct := id
  shapeAt := by
    intro t
    cases t with
    | nil => simp [shapeAt_nil]
    | cons other t =>
      by_cases hother : other :: t = [name]
      · rw [if_pos hother, hother, h]
      · have hnot : ¬ other :: t <+: [name] := by
          intro hfront
          obtain ⟨rfl, hrest⟩ := List.cons_prefix_cons.mp hfront
          exact hother (by rw [List.prefix_nil.mp hrest])
        rw [if_neg hother, if_neg hnot]

theorem Planted.deeper (h : Planted leaf trail inner inner') (hne : trail ≠ [])
    (hinner : entries.Distinct → inner.Distinct)
    (hshape : ∀ t, t ≠ [] → entries.shapeAt (name :: t) = inner.shapeAt t) :
    Planted leaf (name :: trail) entries (entries.set name (.dir inner')) where
  distinct := by
    intro hdistinct
    refine hdistinct.set fun inner hdir => ?_
    obtain rfl := FileNode.dir.inj hdir
    exact h.distinct (hinner hdistinct)
  shapeAt := by
    intro t
    cases t with
    | nil => simp [shapeAt_nil]
    | cons other t =>
      by_cases hother : other = name
      · subst hother
        rw [shapeAt_cons_of_dir (get?_set_self ..), h.shapeAt t]
        by_cases ht : t = []
        · simp [ht, hne.symm]
        · simp [hshape t ht]
      · rw [shapeAt_set_of_ne hother]
        simp [hother]

theorem plant_singleton (leaf : FileNode) (entries : Entries)
    (hlength : name.length ≤ maxNameLength) :
    plant leaf entries [name] =
      match entries.get? name, leaf with
      | none, _ => .ok (entries.set name leaf)
      | some (.file _), .file _ => .ok (entries.set name leaf)
      | some (.dir _), .dir _ => .ok entries
      | some (.dir _), .file _ => .error .isADirectory
      | _, _ => .error .exists := by
  rw [plant.eq_def]
  dsimp only
  exact (if_neg (by omega)).trans (if_pos rfl)

theorem plant_cons (leaf : FileNode) (entries : Entries)
    (hlength : name.length ≤ maxNameLength) (hne : trail ≠ []) :
    plant leaf entries (name :: trail) =
      match entries.get? name with
      | none => (plant leaf [] trail).map fun inner => entries.set name (.dir inner)
      | some (.dir inner) => (plant leaf inner trail).map fun inner => entries.set name (.dir inner)
      | some _ => .error .notADirectory := by
  rw [plant.eq_def]
  dsimp only
  exact (if_neg (by omega)).trans (if_neg hne)

/-- Where there is room for a leaf, it is put there, and nothing else changes. -/
theorem exists_plant (hleaf : ∀ inner, leaf = .dir inner → inner = []) (hne : trail ≠ [])
    (hnames : ∀ name ∈ trail, name.length ≤ maxNameLength) (hroom : Room leaf entries trail) :
    ∃ entries', plant leaf entries trail = .ok entries' ∧ Planted leaf trail entries entries' := by
  induction trail generalizing entries with
  | nil => exact absurd rfl hne
  | cons name trail ih =>
    obtain ⟨hlength, htrail⟩ := List.forall_mem_cons.mp hnames
    by_cases hend : trail = []
    · subst hend
      rw [plant_singleton leaf entries hlength]
      cases hget : entries.get? name with
      | none => exact ⟨_, rfl, .here hleaf fun t _ => shapeAt_cons_of_none hget⟩
      | some node =>
        have hreplaces := hroom.last node.shape (shapeAt_singleton hget)
        cases node with
        | file old =>
          cases leaf with
          | file content =>
            refine ⟨_, rfl, .here hleaf fun t ht => ?_⟩
            rw [shapeAt_cons_of_leaf hget fun _ => nofun, if_neg ht]
          | link target => cases hreplaces
          | dir inner => cases hreplaces
        | link old => cases leaf <;> cases hreplaces
        | dir inner =>
          cases leaf with
          | file content => cases hreplaces
          | link target => cases hreplaces
          | dir empty =>
            refine ⟨entries, rfl, .kept ?_⟩
            rw [shapeAt_singleton hget]
            rfl
    · rw [plant_cons leaf entries hlength hend]
      cases hget : entries.get? name with
      | none =>
        obtain ⟨inner', hplant, hplanted⟩ := ih hend htrail (Room.empty hend)
        dsimp only
        rw [hplant]
        refine ⟨_, rfl, hplanted.deeper hend (fun _ => .nil) fun t ht => ?_⟩
        rw [shapeAt_cons_of_none hget, shapeAt_empty ht]
      | some node =>
        have hdir := hroom.way [name] node.shape (by simp) (by simpa using Ne.symm hend)
          (shapeAt_singleton hget)
        cases node with
        | file content => cases hdir
        | link target => cases hdir
        | dir inner =>
          obtain ⟨inner', hplant, hplanted⟩ := ih hend htrail (hroom.below hget)
          dsimp only
          rw [hplant]
          refine ⟨_, rfl, hplanted.deeper hend ?_ fun t _ => shapeAt_cons_of_dir hget⟩
          intro hdistinct
          exact hdistinct.inner ((get?_eq_some_iff hdistinct).mp hget)

end Entries

/-! ## Layouts -/

namespace LayoutEntry

def path : LayoutEntry → Path
  | file path _ => path
  | dir path => path
  | link path _ => path

/-- What an entry puts at the end of its trail. -/
def leaf : LayoutEntry → FileNode
  | file _ content => .file content
  | dir _ => .dir []
  | link _ target => .link target

theorem leaf_eq_nil {e : LayoutEntry} {inner : Entries} (h : e.leaf = .dir inner) :
    inner = [] := by
  cases e with
  | file path content => cases h
  | dir path => exact (FileNode.dir.inj h).symm
  | link path target => cases h

end LayoutEntry

/-- The entries of a tree to lay out, in the order in which they are put into it. -/
abbrev Layout := List LayoutEntry

theorem Entries.place_eq (entries : Entries) (e : LayoutEntry) :
    entries.place e = entries.plant e.leaf e.path.names := by
  cases e <;> rfl

namespace Layout

/-- The layout has files and directories at paths of ordinary names, which stay short enough below
    the root, and no file is in the way of another entry. -/
structure WellFormed (root : Path) (layout : Layout) : Prop where
  noLink : ∀ path target, .link path target ∉ layout
  ordinary : ∀ e ∈ layout, e.path.Ordinary
  short : ∀ e ∈ layout, (root.join e.path).length < maxPathLength
  notDir : ∀ path content, .file path content ∈ layout → .dir path ∉ layout
  notAncestor : ∀ path content, .file path content ∈ layout →
    ∀ e ∈ layout, ¬ path.IsAncestor e.path

/-- The entry is the last one for its path. -/
def Last (layout : Layout) (e : LayoutEntry) : Prop :=
  ∃ before after, layout = before ++ e :: after ∧ ∀ other ∈ after, other.path ≠ e.path

/-- What a layout puts at the end of a trail. -/
inductive Gives (layout : Layout) : Trail → Shape → Prop where
  | root : Gives layout [] .dir
  | entry {e : LayoutEntry} (h : layout.Last e) : Gives layout e.path.names e.leaf.shape
  | above {t : Trail} {e : LayoutEntry} (h : e ∈ layout) (hfront : t <+: e.path.names)
    (hne : t ≠ e.path.names) : Gives layout t .dir

/-- A tree has what a layout gives, and nothing else. -/
structure Built (layout : Layout) (entries : Entries) : Prop where
  distinct : entries.Distinct
  shapeAt : ∀ t shape, entries.shapeAt t = some shape ↔ layout.Gives t shape

variable {root : Path} {layout done : Layout} {e e' : LayoutEntry} {entries : Entries}

theorem Last.mem (h : layout.Last e) : e ∈ layout := by
  obtain ⟨before, after, rfl, -⟩ := h
  exact List.mem_append_right before (List.mem_cons_self ..)

theorem last_concat_iff :
    Last (layout ++ [e]) e' ↔ e' = e ∨ e.path ≠ e'.path ∧ layout.Last e' := by
  constructor
  · rintro ⟨before, after, hsplit, hafter⟩
    rcases List.eq_nil_or_concat after with rfl | ⟨after, last, rfl⟩
    · obtain ⟨-, hlast⟩ := List.append_inj' hsplit rfl
      exact Or.inl (List.singleton_inj.mp hlast).symm
    · rw [List.concat_eq_append] at hsplit hafter
      rw [← List.cons_append, ← List.append_assoc] at hsplit
      obtain ⟨rfl, hlast⟩ := List.append_inj' hsplit rfl
      obtain rfl := List.singleton_inj.mp hlast
      exact Or.inr ⟨hafter e (by simp), before, after, rfl,
        fun other hother => hafter other (List.mem_append_left _ hother)⟩
  · rintro (rfl | ⟨hne, before, after, rfl, hafter⟩)
    · exact ⟨layout, [], rfl, fun _ h => absurd h List.not_mem_nil⟩
    · refine ⟨before, after ++ [e], by simp, fun other hother => ?_⟩
      rcases List.mem_append.mp hother with hother | hother
      · exact hafter other hother
      · rwa [List.mem_singleton.mp hother]

/-- Of the entries for a path there is a last one. -/
theorem exists_last (h : e ∈ layout) : ∃ last, layout.Last last ∧ last.path = e.path := by
  induction layout using List.reverseRecOn with
  | nil => exact absurd h List.not_mem_nil
  | append_singleton layout other ih =>
    by_cases hsame : other.path = e.path
    · exact ⟨other, last_concat_iff.mpr (Or.inl rfl), hsame⟩
    · rcases List.mem_append.mp h with h | h
      · obtain ⟨last, hlast, hpath⟩ := ih h
        refine ⟨last, last_concat_iff.mpr (Or.inr ⟨?_, hlast⟩), hpath⟩
        rwa [hpath]
      · exact absurd (congrArg LayoutEntry.path (List.mem_singleton.mp h)).symm hsame

namespace WellFormed

/-- Entries for one path are both files or both directories. -/
theorem replaces (h : layout.WellFormed root) (he : e ∈ layout) (he' : e' ∈ layout)
    (hpath : e.path = e'.path) : e.leaf.shape.Replaces e'.leaf.shape := by
  cases e with
  | file path content =>
    cases e' with
    | file path' content' => exact .file content content'
    | dir path' =>
      obtain rfl : path = path' := hpath
      exact absurd he' (h.notDir path content he)
    | link path' target => exact absurd he' (h.noLink path' target)
  | dir path =>
    cases e' with
    | file path' content =>
      obtain rfl : path = path' := hpath
      exact absurd he (h.notDir path content he')
    | dir path' => exact .dir
    | link path' target => exact absurd he' (h.noLink path' target)
  | link path target => exact absurd he (h.noLink path target)

theorem path_eq (h : layout.WellFormed root) (he : e ∈ layout) (he' : e' ∈ layout)
    (hnames : e.path.names = e'.path.names) : e.path = e'.path :=
  (h.ordinary e he).eq_of_names_eq (h.ordinary e' he') hnames

/-- Above an entry there are only directories. -/
theorem shape_eq_dir (h : layout.WellFormed root) (he : e ∈ layout) (he' : e' ∈ layout)
    (hfront : e.path.names <+: e'.path.names) (hne : e.path.names ≠ e'.path.names) :
    e.leaf.shape = .dir := by
  cases e with
  | file path content =>
    have hancestor := (h.ordinary _ he).isAncestor (h.ordinary e' he') hfront hne
    exact absurd hancestor (h.notAncestor path content he e' he')
  | dir path => rfl
  | link path target => exact absurd he (h.noLink path target)

/-- There is always room for the next entry. -/
theorem room (h : layout.WellFormed root) (hdone : done ⊆ layout) (he : e ∈ layout)
    (hbuilt : Built done entries) : Entries.Room e.leaf entries e.path.names where
  way := by
    intro t shape hfront hne hshape
    cases (hbuilt.shapeAt t shape).mp hshape with
    | root => rfl
    | entry hlast => exact h.shape_eq_dir (hdone hlast.mem) he hfront hne
    | above _ _ _ => rfl
  last := by
    intro shape hshape
    have hgives := (hbuilt.shapeAt _ shape).mp hshape
    generalize hnames : e.path.names = t at hgives
    cases hgives with
    | root => exact absurd hnames (h.ordinary e he).names_ne_nil
    | entry hlast => exact h.replaces he (hdone hlast.mem) (h.path_eq he (hdone hlast.mem) hnames)
    | above hmem hfront hne =>
      subst hnames
      rw [h.shape_eq_dir he (hdone hmem) hfront hne]
      exact .dir

/-- What the layout gives with one entry more. -/
theorem gives_concat_iff (h : layout.WellFormed root) (hdone : done ⊆ layout) (he : e ∈ layout)
    {t : Trail} {shape : Shape} :
    Gives (done ++ [e]) t shape ↔
      if t = e.path.names then e.leaf.shape = shape
      else if t <+: e.path.names then .dir = shape else done.Gives t shape := by
  have hmem {e' : LayoutEntry} (he' : e' ∈ done ++ [e]) : e' ∈ layout := by
    rcases List.mem_append.mp he' with he' | he'
    · exact hdone he'
    · rwa [List.mem_singleton.mp he']
  split
  next hend =>
    constructor
    · intro hgives
      cases hgives with
      | root => exact absurd hend.symm (h.ordinary e he).names_ne_nil
      | @entry e' hlast =>
        rcases last_concat_iff.mp hlast with rfl | ⟨hother, -⟩
        · rfl
        · exact absurd (h.path_eq he (hmem hlast.mem) hend.symm) hother
      | @above _ e' he' hfront hne =>
        rw [hend] at hfront hne
        exact h.shape_eq_dir he (hmem he') hfront hne
    · rintro rfl
      rw [hend]
      exact .entry (last_concat_iff.mpr (Or.inl rfl))
  next hend =>
    split
    next hfront =>
      constructor
      · intro hgives
        cases hgives with
        | root => rfl
        | entry hlast => exact (h.shape_eq_dir (hmem hlast.mem) he hfront hend).symm
        | above _ _ _ => rfl
      · rintro rfl
        exact .above (List.mem_append_right _ (List.mem_singleton_self e)) hfront hend
    next hfront =>
      constructor
      · intro hgives
        cases hgives with
        | root => exact .root
        | entry hlast =>
          rcases last_concat_iff.mp hlast with rfl | ⟨-, hlast⟩
          · exact absurd rfl hend
          · exact .entry hlast
        | above he' hfront' hne =>
          rcases List.mem_append.mp he' with he' | he'
          · exact .above he' hfront' hne
          · rw [List.mem_singleton.mp he'] at hfront'
            exact absurd hfront' hfront
      · intro hgives
        cases hgives with
        | root => exact .root
        | entry hlast =>
          refine .entry (last_concat_iff.mpr (Or.inr ⟨?_, hlast⟩))
          intro hpath
          exact hend (by rw [hpath])
        | above he' hfront' hne => exact .above (List.mem_append_left _ he') hfront' hne

/-- One entry more is put into the tree. -/
theorem exists_place (h : layout.WellFormed root) (hdone : done ⊆ layout) (he : e ∈ layout)
    (hbuilt : Built done entries) :
    ∃ entries', entries.place e = .ok entries' ∧ Built (done ++ [e]) entries' := by
  have hordinary := h.ordinary e he
  obtain ⟨entries', hplant, hplanted⟩ := Entries.exists_plant (fun _ => LayoutEntry.leaf_eq_nil)
    hordinary.names_ne_nil hordinary.length_le (h.room hdone he hbuilt)
  refine ⟨entries', ?_, hplanted.distinct hbuilt.distinct, fun t shape => ?_⟩
  · rw [Entries.place_eq, hplant]
  · rw [hplanted.shapeAt, h.gives_concat_iff hdone he, ← hbuilt.shapeAt]
    split
    · exact Option.some_inj
    split
    · exact Option.some_inj
    · exact Iff.rfl

theorem exists_placeAll (h : layout.WellFormed root) {rest : Layout} (hdone : done ⊆ layout)
    (hrest : rest ⊆ layout) (hbuilt : Built done entries) :
    ∃ tree, entries.placeAll rest = .ok tree ∧ Built (done ++ rest) tree := by
  induction rest generalizing done entries with
  | nil => exact ⟨entries, rfl, by rwa [List.append_nil]⟩
  | cons e rest ih =>
    obtain ⟨he, hrest⟩ := List.cons_subset.mp hrest
    obtain ⟨entries', hplace, hbuilt'⟩ := h.exists_place hdone he hbuilt
    have hdone' : done ++ [e] ⊆ layout :=
      List.append_subset.mpr ⟨hdone, List.cons_subset.mpr ⟨he, List.nil_subset _⟩⟩
    obtain ⟨tree, hplaceAll, htree⟩ := ih hdone' hrest hbuilt'
    rw [Entries.placeAll, hplace]
    exact ⟨tree, hplaceAll, by simpa using htree⟩

/-- A layout in which no file is in the way of another entry can be made. -/
theorem exists_ofLayout (h : layout.WellFormed root) :
    ∃ tree, Entries.ofLayout layout = .ok tree ∧ Built layout tree := by
  have hempty : Built [] [] := by
    refine ⟨.nil, fun t shape => ⟨fun hshape => ?_, fun hgives => ?_⟩⟩
    · cases t with
      | nil =>
        obtain rfl := Option.some.inj hshape
        exact .root
      | cons name t => cases hshape
    · cases hgives with
      | root => rfl
      | entry hlast => exact absurd hlast.mem List.not_mem_nil
      | above hmem _ _ => exact absurd hmem List.not_mem_nil
  exact h.exists_placeAll (List.nil_subset _) (List.Subset.refl _) hempty

end WellFormed

end Layout

end PostureAudit
