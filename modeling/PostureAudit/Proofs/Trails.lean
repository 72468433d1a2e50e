import PostureAudit.Proofs.Walk
import Mathlib.Data.List.Forall2
import Mathlib.Data.List.Nodup

set_option autoImplicit false

/-! # The order of a walk

A *trail* is the names on the way from a directory to something below it, and trails are compared
name by name, byte by byte. This is not the order of the paths: `a/x` comes before `a.tf`, because
`a` does. A walk goes through the trails in order (`Walk.GoesAlong`). If it completes, it has
delivered the event of every trail that leads to a selected entry; if it is cut short, it has
delivered those before the first directory that cannot be listed, and none after.

Names in a directory have to differ for this (`Entries.Distinct`), as they do in any file system.
-/

namespace PostureAudit

/-- The path of what is at the end of a trail. -/
def Path.along (directory : Path) (trail : Trail) : Path := trail.foldl Path.join directory

namespace Entries

/-- The node is at the end of the trail. -/
inductive LeadsTo : Entries → Trail → FileNode → Prop where
  | here {entries : Entries} {name : Bytes} {node : FileNode} (h : (name, node) ∈ entries) :
    LeadsTo entries [name] node
  | deeper {entries inner : Entries} {name : Bytes} {trail : Trail} {node : FileNode}
    (h : (name, .dir inner) ∈ entries) (hinner : LeadsTo inner trail node) :
    LeadsTo entries (name :: trail) node

/-- No two entries of one directory have the same name. -/
inductive Distinct : Entries → Prop where
  | intro {entries : Entries} (names : (entries.map (·.1)).Nodup)
    (inner : ∀ name inner, (name, FileNode.dir inner) ∈ entries → Distinct inner) :
    Distinct entries

theorem Distinct.names {entries : Entries} (h : entries.Distinct) :
    (entries.map (·.1)).Nodup := by
  cases h with
  | intro names _ => exact names

theorem Distinct.inner {entries inner : Entries} {name : Bytes} (h : entries.Distinct)
    (hmem : (name, .dir inner) ∈ entries) : inner.Distinct := by
  cases h with
  | intro _ hinner => exact hinner name inner hmem

/-- The event of what is at the end of the trail, which is no directory and has a name of its own
    that is selected. -/
def Due (reader : Reader) (selects : Text → Bool) (path : Path) (entries : Entries)
    (trail : Trail) (e : WalkEvent) : Prop :=
  ∃ name node, entries.LeadsTo trail node ∧ trail.getLast? = some name ∧
    (∀ inner, node ≠ .dir inner) ∧ selects (Utf8.decodeLossy name) = true ∧
    e = .ofRead (path.along trail) (reader.readFile (path.along trail))

/-- The failure to list the directory at the end of the trail, or the one where the walk starts. -/
def Shut (reader : Reader) (path : Path) (entries : Entries) (trail : Trail) (f : WalkFailure) :
    Prop :=
  (trail = [] ∨ ∃ inner, entries.LeadsTo trail (.dir inner)) ∧
    ∃ cause, reader.unlistable? (path.along trail) = some cause ∧
      f = .traversal (path.along trail) cause

end Entries

namespace Walk

/-- The walk delivers the events of the trails, one by one and in order. If it completes, no
    directory is shut, and the trails are all those for which an event is due. If it is cut short,
    this is at the first directory that is shut, and the trails are those before it. -/
structure GoesAlong (due : Trail → WalkEvent → Prop) (shut : Trail → WalkFailure → Prop)
    (trails : List Trail) (w : Walk) : Prop where
  increasing : trails.Pairwise (· < ·)
  delivers : List.Forall₂ due trails w.events
  complete : w.failure = none →
    (∀ trail f, ¬ shut trail f) ∧ ∀ trail, trail ∈ trails ↔ ∃ e, due trail e
  aborted : ∀ f, w.failure = some f →
    ∃ first, shut first f ∧ (∀ other f', shut other f' → first ≤ other) ∧
      ∀ trail, trail ∈ trails ↔ (∃ e, due trail e) ∧ trail < first

/-- There is an event due at the trail, or a directory shut. -/
def Concerns (due : Trail → WalkEvent → Prop) (shut : Trail → WalkFailure → Prop) (t : Trail) :
    Prop :=
  (∃ e, due t e) ∨ ∃ f, shut t f

namespace GoesAlong

variable {due due' : Trail → WalkEvent → Prop} {shut shut' : Trail → WalkFailure → Prop}
  {trails trails' : List Trail} {w v : Walk}

theorem congr (h : GoesAlong due shut trails w) (hdue : ∀ t e, due' t e ↔ due t e)
    (hshut : ∀ t f, shut' t f ↔ shut t f) : GoesAlong due' shut' trails w := by
  have hdue' : due' = due := funext fun t => funext fun e => propext (hdue t e)
  have hshut' : shut' = shut := funext fun t => funext fun f => propext (hshut t f)
  rwa [hdue', hshut']

/-- Nothing is delivered twice or by chance. -/
theorem exists_due_of_mem (h : GoesAlong due shut trails w) {t : Trail} (ht : t ∈ trails) :
    ∃ e, due t e := by
  cases hend : w.failure with
  | none => exact ((h.complete hend).2 t).mp ht
  | some f =>
    obtain ⟨_, -, -, hmem⟩ := h.aborted f hend
    exact ((hmem t).mp ht).1

/-- The walk through nothing of interest. -/
theorem empty (hdue : ∀ t e, ¬ due t e) (hshut : ∀ t f, ¬ shut t f) :
    GoesAlong due shut [] Walk.empty where
  increasing := .nil
  delivers := .nil
  complete := fun _ => ⟨hshut, fun t => iff_of_false List.not_mem_nil fun ⟨e, he⟩ => hdue t e he⟩
  aborted := fun _ hf => absurd hf nofun

/-- The walk that delivers the only event there is. -/
theorem single {t : Trail} {e : WalkEvent} (hdue : ∀ t' e', due t' e' ↔ t' = t ∧ e' = e)
    (hshut : ∀ t f, ¬ shut t f) : GoesAlong due shut [t] ⟨[e], none⟩ where
  increasing := List.pairwise_singleton ..
  delivers := .cons ((hdue t e).mpr ⟨rfl, rfl⟩) .nil
  complete := fun _ => ⟨hshut, fun t' => by simp [hdue]⟩
  aborted := fun _ hf => absurd hf nofun

/-- The walk that fails at the start. -/
theorem fail {t : Trail} {f : WalkFailure} (hshut : shut t f)
    (hleast : ∀ t', Concerns due shut t' → t ≤ t') : GoesAlong due shut [] ⟨[], some f⟩ where
  increasing := .nil
  delivers := .nil
  complete := fun hnone => absurd hnone nofun
  aborted := by
    rintro f' hf'
    obtain rfl : f = f' := Option.some.inj hf'
    refine ⟨t, hshut, fun t' f' hshut' => hleast t' (Or.inr ⟨f', hshut'⟩), fun t' => ?_⟩
    exact iff_of_false List.not_mem_nil fun ⟨hdue, hlt⟩ => hleast t' (Or.inl hdue) hlt

/-- One walk after another goes along the trails of both, if what concerns the first one comes
    first. -/
theorem append (hw : GoesAlong due shut trails w) (hv : GoesAlong due' shut' trails' v)
    (hbefore : ∀ t t', Concerns due shut t → Concerns due' shut' t' → t < t') :
    ∃ trails'', GoesAlong (fun t e => due t e ∨ due' t e) (fun t f => shut t f ∨ shut' t f)
      trails'' (w.append v) := by
  unfold Walk.append
  cases hfailure : w.failure with
  | some f =>
    -- nothing of the second walk comes before the directory at which the first one ends
    obtain ⟨first, hfirst, hleast, hmem⟩ := hw.aborted f hfailure
    have hlater (t : Trail) : Concerns due' shut' t → first < t :=
      hbefore first t (Or.inr ⟨f, hfirst⟩)
    refine ⟨trails, hw.increasing, hw.delivers.imp fun _ _ => Or.inl,
      fun hnone => absurd (hfailure.symm.trans hnone) nofun, fun f' hf' => ?_⟩
    obtain rfl : f = f' := Option.some.inj (hfailure.symm.trans hf')
    refine ⟨first, Or.inl hfirst, fun other f' hother => ?_, fun t => ?_⟩
    · rcases hother with hother | hother
      · exact hleast other f' hother
      · exact List.le_of_lt (hlater other (Or.inr ⟨f', hother⟩))
    · rw [hmem, exists_or, or_and_right]
      refine (or_iff_left fun ⟨hdue, hlt⟩ => ?_).symm
      exact absurd hlt (List.lt_asymm (hlater t (Or.inl hdue)))
  | none =>
    obtain ⟨hopen, hmem⟩ := hw.complete hfailure
    have hearlier : ∀ t ∈ trails, ∀ t', Concerns due' shut' t' → t < t' :=
      fun t ht t' ht' => hbefore t t' (Or.inl ((hmem t).mp ht)) ht'
    refine ⟨trails ++ trails', ?increasing, ?delivers, fun hnone => ?complete, fun f hf => ?aborted⟩
    case increasing =>
      exact List.pairwise_append.mpr ⟨hw.increasing, hv.increasing, fun t ht t' ht' =>
        hearlier t ht t' (Or.inl (hv.exists_due_of_mem ht'))⟩
    case delivers =>
      exact List.rel_append (hw.delivers.imp fun _ _ => Or.inl) (hv.delivers.imp fun _ _ => Or.inr)
    case complete =>
      obtain ⟨hopen', hmem'⟩ := hv.complete hnone
      refine ⟨fun t f h => h.elim (hopen t f) (hopen' t f), fun t => ?_⟩
      rw [List.mem_append, hmem, hmem', exists_or]
    case aborted =>
      obtain ⟨first, hfirst, hleast, hmem'⟩ := hv.aborted f hf
      refine ⟨first, Or.inr hfirst, fun other f' hother => ?_, fun t => ?_⟩
      · exact hother.elim (fun h => absurd h (hopen other f')) (hleast other f')
      · rw [List.mem_append, hmem', exists_or, or_and_right, ← hmem]
        refine or_congr_left ⟨fun ht => ⟨ht, ?_⟩, And.left⟩
        exact hearlier t ht first (Or.inr ⟨f, hfirst⟩)

/-- A walk below a directory, with the name of the directory in front of every trail. -/
theorem cons (name : Bytes) (h : GoesAlong due shut trails w) :
    GoesAlong (fun t e => ∃ t', t = name :: t' ∧ due t' e)
      (fun t f => ∃ t', t = name :: t' ∧ shut t' f) (trails.map (name :: ·)) w := by
  have hlt {t t' : Trail} : name :: t < name :: t' ↔ t < t' := by simp
  refine ⟨?increasing, ?delivers, fun hnone => ?complete, fun f hf => ?aborted⟩
  case increasing => exact List.pairwise_map.mpr (h.increasing.imp hlt.mpr)
  case delivers => exact List.forall₂_map_left_iff.mpr (h.delivers.imp fun t _ he => ⟨t, rfl, he⟩)
  case complete =>
    obtain ⟨hopen, hmem⟩ := h.complete hnone
    refine ⟨fun t f ⟨t', _, hf⟩ => hopen t' f hf, fun t => ?_⟩
    simp only [List.mem_map, hmem]
    constructor
    · rintro ⟨t', ⟨e, he⟩, rfl⟩
      exact ⟨e, t', rfl, he⟩
    · rintro ⟨e, t', rfl, he⟩
      exact ⟨t', ⟨e, he⟩, rfl⟩
  case aborted =>
    obtain ⟨first, hfirst, hleast, hmem⟩ := h.aborted f hf
    refine ⟨name :: first, ⟨first, rfl, hfirst⟩, ?_, fun t => ?_⟩
    · rintro _ f' ⟨other, rfl, hother⟩
      exact fun hless => hleast other f' hother (hlt.mp hless)
    · simp only [List.mem_map, hmem]
      constructor
      · rintro ⟨t', ⟨⟨e, he⟩, hless⟩, rfl⟩
        exact ⟨⟨e, t', rfl, he⟩, hlt.mpr hless⟩
      · rintro ⟨⟨e, t', rfl, he⟩, hless⟩
        exact ⟨t', ⟨⟨e, he⟩, hlt.mp hless⟩, rfl⟩

/-- Walks in the order of their names go along all trails that begin with one of the names, if
    each of them goes along those that begin with its own. -/
theorem concat {items : List (Bytes × Walk)} (hsorted : items.Pairwise (·.1 < ·.1))
    (hitems : ∀ item ∈ items, ∃ trails,
      GoesAlong (fun t e => t.head? = some item.1 ∧ due t e)
        (fun t f => t.head? = some item.1 ∧ shut t f) trails item.2) :
    ∃ trails, GoesAlong (fun t e => (∃ item ∈ items, t.head? = some item.1) ∧ due t e)
      (fun t f => (∃ item ∈ items, t.head? = some item.1) ∧ shut t f) trails
      (Walk.concat (items.map (·.2))) := by
  induction items with
  | nil =>
    exact ⟨[], .nil, .nil, fun _ => ⟨by simp, by simp⟩, fun f hf => absurd hf nofun⟩
  | cons item items ih =>
    obtain ⟨hfirst, hrest⟩ := List.pairwise_cons.mp hsorted
    obtain ⟨⟨trails, hitem⟩, hitems⟩ := List.forall_mem_cons.mp hitems
    obtain ⟨trails', hrest'⟩ := ih hrest hitems
    have hbefore : ∀ t t' : Trail, t.head? = some item.1 →
        (∃ other ∈ items, t'.head? = some other.1) → t < t' := by
      rintro t t' ht ⟨other, hother, ht'⟩
      obtain ⟨u, rfl⟩ := List.head?_eq_some_iff.mp ht
      obtain ⟨u', rfl⟩ := List.head?_eq_some_iff.mp ht'
      exact List.cons_lt_cons_iff.mpr (Or.inl (hfirst other hother))
    obtain ⟨trails'', h⟩ := hitem.append hrest' fun t t' ht ht' =>
      hbefore t t' (ht.elim (fun ⟨_, h⟩ => h.1) fun ⟨_, h⟩ => h.1)
        (ht'.elim (fun ⟨_, h⟩ => h.1) fun ⟨_, h⟩ => h.1)
    have hnames (t : Trail) : (∃ x ∈ item :: items, t.head? = some x.1) ↔
        t.head? = some item.1 ∨ ∃ x ∈ items, t.head? = some x.1 := by
      simp only [List.mem_cons, or_and_right, exists_or, exists_eq_left]
    exact ⟨trails'', h.congr (fun t e => by rw [hnames, or_and_right])
      fun t f => by rw [hnames, or_and_right]⟩

end GoesAlong

end Walk

/-! ## The walk through a tree -/

/-- Sorted items with different names are in strict order. -/
theorem sortByName_strict {α : Type} {items : List (Bytes × α)}
    (hnames : (items.map (·.1)).Nodup) : (sortByName items).Pairwise (·.1 < ·.1) := by
  have hdistinct : (sortByName items).Pairwise (·.1 ≠ ·.1) :=
    List.pairwise_map.mp (((sortByName_perm items).map Prod.fst).nodup_iff.mpr hnames)
  refine ((sortByName_sorted items).and hdistinct).imp fun ⟨hle, hne⟩ => ?_
  exact Decidable.byContradiction fun hnot =>
    hne (List.le_antisymm (List.not_lt.1 hle) (List.not_lt.1 hnot))

namespace Entries

variable {reader : Reader} {selects : Text → Bool} {path : Path} {entries inner : Entries}
  {name : Bytes} {node leaf : FileNode} {trail : Trail}

theorem LeadsTo.ne_nil (h : entries.LeadsTo trail node) : trail ≠ [] := by
  cases h <;> exact List.cons_ne_nil _ _

theorem LeadsTo.exists_mem (h : entries.LeadsTo trail node) :
    ∃ item ∈ entries, trail.head? = some item.1 := by
  cases h with
  | here hmem => exact ⟨_, hmem, rfl⟩
  | deeper hmem _ => exact ⟨_, hmem, rfl⟩

/-- An entry is known by its name. -/
theorem Distinct.eq_of_mem (h : entries.Distinct) (hmem : (name, node) ∈ entries)
    (hmem' : (name, leaf) ∈ entries) : node = leaf := by
  have hinjective := List.inj_on_of_nodup_map h.names hmem hmem' rfl
  exact (Prod.mk.inj hinjective).2

theorem leadsTo_leaf_iff (h : entries.Distinct) (hmem : (name, node) ∈ entries)
    (hnode : ∀ inner, node ≠ .dir inner) :
    entries.LeadsTo (name :: trail) leaf ↔ trail = [] ∧ leaf = node := by
  constructor
  · rintro (hmem' | ⟨hmem', -⟩)
    · exact ⟨rfl, h.eq_of_mem hmem' hmem⟩
    · exact absurd (h.eq_of_mem hmem hmem') (hnode _)
  · rintro ⟨rfl, rfl⟩
    exact .here hmem

theorem leadsTo_dir_iff (h : entries.Distinct) (hmem : (name, .dir inner) ∈ entries) :
    entries.LeadsTo (name :: trail) leaf ↔
      (trail = [] ∧ leaf = .dir inner) ∨ inner.LeadsTo trail leaf := by
  constructor
  · rintro (hmem' | ⟨hmem', hinner⟩)
    · exact Or.inl ⟨rfl, h.eq_of_mem hmem' hmem⟩
    · obtain rfl := FileNode.dir.inj (h.eq_of_mem hmem' hmem)
      exact Or.inr hinner
  · rintro (⟨rfl, rfl⟩ | hinner)
    · exact .here hmem
    · exact .deeper hmem hinner

/-- The walk through an entry that is no directory goes along its trail, if it is selected. -/
theorem goesAlong_leaf (h : entries.Distinct) (hmem : (name, node) ∈ entries)
    (hnode : ∀ inner, node ≠ .dir inner) :
    ∃ trails, Walk.GoesAlong
      (fun t e => t.head? = some name ∧ entries.Due reader selects path t e)
      (fun t f => t.head? = some name ∧ entries.Shut reader path t f) trails
      (reader.visit selects (path.join name) name) := by
  have hdue (t : Trail) (e : WalkEvent) :
      t.head? = some name ∧ entries.Due reader selects path t e ↔
        selects (Utf8.decodeLossy name) = true ∧ t = [name] ∧
          e = .ofRead (path.join name) (reader.readFile (path.join name)) := by
    constructor
    · rintro ⟨hhead, last, leaf, hleads, hlast, -, hselected, he⟩
      obtain ⟨t, rfl⟩ := List.head?_eq_some_iff.mp hhead
      obtain ⟨rfl, rfl⟩ := (leadsTo_leaf_iff h hmem hnode).mp hleads
      obtain rfl : name = last := Option.some.inj hlast
      exact ⟨hselected, rfl, he⟩
    · rintro ⟨hselected, rfl, he⟩
      exact ⟨rfl, name, node, .here hmem, rfl, hnode, hselected, he⟩
  have hshut (t : Trail) (f : WalkFailure) :
      ¬ (t.head? = some name ∧ entries.Shut reader path t f) := by
    rintro ⟨hhead, rfl | ⟨inner, hleads⟩, -⟩
    · cases hhead
    · obtain ⟨t, rfl⟩ := List.head?_eq_some_iff.mp hhead
      exact hnode inner ((leadsTo_leaf_iff h hmem hnode).mp hleads).2.symm
  rw [Reader.visit_eq]
  split
  next hselected => exact ⟨[[name]], .single (fun t e => by simp [hdue, hselected]) hshut⟩
  next hother => exact ⟨[], .empty (fun t e => by simp [hdue, hother]) hshut⟩

/-- The walk through a directory goes along the trails that begin with its name. -/
theorem goesAlong_dir (h : entries.Distinct) (hmem : (name, .dir inner) ∈ entries)
    (hinner : ∃ trails, Walk.GoesAlong (inner.Due reader selects (path.join name))
      (inner.Shut reader (path.join name)) trails (inner.walk reader selects (path.join name))) :
    ∃ trails, Walk.GoesAlong
      (fun t e => t.head? = some name ∧ entries.Due reader selects path t e)
      (fun t f => t.head? = some name ∧ entries.Shut reader path t f) trails
      ((FileNode.dir inner).walk reader selects (path.join name) name) := by
  rw [walk_dir]
  obtain ⟨trails, hinner⟩ := hinner
  refine ⟨_, (hinner.cons name).congr (fun t e => ?_) fun t f => ?_⟩
  · constructor
    · rintro ⟨hhead, last, leaf, hleads, hlast, hleaf, hevent⟩
      obtain ⟨t, rfl⟩ := List.head?_eq_some_iff.mp hhead
      rcases (leadsTo_dir_iff h hmem).mp hleads with ⟨-, rfl⟩ | hleads
      · exact absurd rfl (hleaf inner)
      · rw [List.getLast?_cons_of_ne_nil hleads.ne_nil] at hlast
        exact ⟨t, rfl, last, leaf, hleads, hlast, hleaf, hevent⟩
    · rintro ⟨t, rfl, last, leaf, hleads, hlast, hleaf, hevent⟩
      rw [← List.getLast?_cons_of_ne_nil hleads.ne_nil] at hlast
      exact ⟨rfl, last, leaf, .deeper hmem hleads, hlast, hleaf, hevent⟩
  · constructor
    · rintro ⟨hhead, hdir, hcause⟩
      obtain ⟨t, rfl⟩ := List.head?_eq_some_iff.mp hhead
      refine ⟨t, rfl, ?_, hcause⟩
      obtain ⟨leaf, hleads⟩ := hdir.resolve_left (List.cons_ne_nil _ _)
      exact ((leadsTo_dir_iff h hmem).mp hleads).imp And.left fun hleads => ⟨leaf, hleads⟩
    · rintro ⟨t, rfl, hdir, hcause⟩
      refine ⟨rfl, Or.inr ?_, hcause⟩
      rcases hdir with rfl | ⟨leaf, hleads⟩
      · exact ⟨inner, .here hmem⟩
      · exact ⟨leaf, .deeper hmem hleads⟩

/-- The walk through a directory goes along the trails in it. -/
theorem goesAlong_walk (h : entries.Distinct) :
    ∃ trails, Walk.GoesAlong (entries.Due reader selects path) (entries.Shut reader path) trails
      (entries.walk reader selects path) := by
  induction h generalizing path with
  | @intro entries names inner ih =>
    have h : entries.Distinct := .intro names inner
    cases hlist : reader.unlistable? path with
    | some cause =>
      -- the directory itself comes before everything in it
      rw [walk_of_unlistable hlist]
      exact ⟨[], .fail (t := []) ⟨Or.inl rfl, cause, hlist, rfl⟩ fun t _ => List.nil_le t⟩
    | none =>
      have hitem : ∀ item ∈ entries, ∃ trails, Walk.GoesAlong
          (fun t e => t.head? = some item.1 ∧ entries.Due reader selects path t e)
          (fun t f => t.head? = some item.1 ∧ entries.Shut reader path t f) trails
          (item.2.walk reader selects (path.join item.1) item.1) := by
        rintro ⟨name, node⟩ hmem
        cases node with
        | file content => exact goesAlong_leaf h hmem fun _ => nofun
        | link target => exact goesAlong_leaf h hmem fun _ => nofun
        | dir inner => exact goesAlong_dir h hmem (ih name inner hmem)
      have hperm := sortByName_perm (walks reader selects path entries)
      have hnames : ((walks reader selects path entries).map (·.1)).Nodup := by
        rw [walks_eq_map, List.map_map]
        exact names
      obtain ⟨trails, hwalk⟩ :=
        Walk.GoesAlong.concat (sortByName_strict hnames) fun item hitem' => by
          rw [hperm.mem_iff, walks_eq_map] at hitem'
          obtain ⟨item, hmem, rfl⟩ := List.mem_map.mp hitem'
          exact hitem item hmem
      -- every trail begins with the name of an entry
      have hhead {t : Trail} {leaf : FileNode} (hleads : entries.LeadsTo t leaf) :
          ∃ item ∈ sortByName (walks reader selects path entries), t.head? = some item.1 := by
        obtain ⟨item, hmem, hhead⟩ := hleads.exists_mem
        refine ⟨(item.1, item.2.walk reader selects (path.join item.1) item.1),
          hperm.mem_iff.mpr ?_, hhead⟩
        rw [walks_eq_map]
        exact List.mem_map_of_mem hmem
      rw [walk_of_listable hlist]
      refine ⟨trails, hwalk.congr (fun t e => ?_) fun t f => ?_⟩
      · exact (and_iff_right_of_imp fun ⟨_, _, hleads, _⟩ => hhead hleads).symm
      · refine (and_iff_right_of_imp ?_).symm
        rintro ⟨rfl | ⟨_, hleads⟩, cause, hcause, -⟩
        · cases hlist.symm.trans hcause
        · exact hhead hleads

end Entries

end PostureAudit
