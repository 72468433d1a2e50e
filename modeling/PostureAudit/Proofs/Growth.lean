import PostureAudit.FileSystem.Edit
import PostureAudit.Proofs.Resolve

set_option autoImplicit false

/-! # A file more

What a new file changes. It is put where a directory has its name free, so every file and every
link that was there is still there, as it was (`Entries.Grows.lookup`), and may be used as before.
A path that led to something leads to it still, and a path that led to the free name leads to the
new file (`FileSystem.Grows.agrees`). To write to a path that leads to nothing makes a new file or
changes nothing, whether or not all bytes are stored (`FileSystem.Admits.writeFile_eq`,
`FileSystem.exists_writeFile_eq_error`). -/

namespace PostureAudit

namespace Entries

/-- The same tree with a new file, under a name that was free in the directory at the end of the
    trail. -/
inductive Grows (name content : Bytes) : Trail → Entries → Entries → Prop where
  | here {entries entries' : Entries} (hfree : entries.get? name = none)
    (hnew : entries'.get? name = some (.file content))
    (hothers : ∀ other, other ≠ name → entries'.get? other = entries.get? other) :
    Grows name content [] entries entries'
  | deeper {entries entries' inner inner' : Entries} {next : Bytes} {trail : Trail}
    (hnext : entries.get? next = some (.dir inner))
    (hnext' : entries'.get? next = some (.dir inner')) (h : Grows name content trail inner inner')
    (hothers : ∀ other, other ≠ next → entries'.get? other = entries.get? other) :
    Grows name content (next :: trail) entries entries'

/-- What is found under a name before and after: the same, or a directory both times. -/
inductive Alike : Option FileNode → Option FileNode → Prop where
  | refl (found : Option FileNode) : Alike found found
  | dir (inner inner' : Entries) : Alike (some (.dir inner)) (some (.dir inner'))

variable {entries entries' inner : Entries} {trail t : Trail} {name content n : Bytes}

theorem lookup_nil : entries.lookup [] name = entries.get? name := rfl

theorem lookup_cons {next : Bytes} : entries.lookup (next :: t) n =
    match entries.get? next with
    | some (.dir inner) => Entries.lookup inner t n
    | _ => none := by
  rw [lookup, below?]
  cases entries.get? next with
  | none => rfl
  | some node => cases node <;> rfl

/-- Putting a file where a name is free makes a tree grow. -/
theorem grows_modifyBelow (hbelow : entries.below? trail = some inner)
    (hfree : inner.get? name = none) :
    Grows name content trail entries (entries.modifyBelow (·.set name (.file content)) trail) := by
  induction trail generalizing entries with
  | nil =>
    obtain rfl := Option.some.inj hbelow
    exact .here hfree (get?_set_self ..) fun other hother => get?_set_of_ne _ _ hother
  | cons next trail ih =>
    rw [below?] at hbelow
    split at hbelow
    next outer hnext =>
      rw [modifyBelow, hnext]
      exact .deeper hnext (get?_set_self ..) (ih hbelow)
        fun other hother => get?_set_of_ne _ _ hother
    next => cases hbelow

theorem Grows.lookup_new (h : Grows name content trail entries entries') :
    entries'.lookup trail name = some (.file content) := by
  induction h with
  | here _ hnew _ => exact hnew
  | deeper _ hnext' _ _ ih => rw [lookup_cons, hnext']; exact ih

theorem Grows.lookup_free (h : Grows name content trail entries entries') :
    entries.lookup trail name = none := by
  induction h with
  | here hfree _ _ => exact hfree
  | deeper hnext _ _ _ ih => rw [lookup_cons, hnext]; exact ih

/-- Under every other name there is what was there before. -/
theorem Grows.lookup (h : Grows name content trail entries entries') (t : Trail) (n : Bytes) :
    (t = trail ∧ n = name) ∨ Alike (entries.lookup t n) (entries'.lookup t n) := by
  induction h generalizing t with
  | here hfree hnew hothers =>
    cases t with
    | nil =>
      by_cases hn : n = name
      · exact Or.inl ⟨rfl, hn⟩
      · rw [lookup_nil, lookup_nil, hothers n hn]
        exact Or.inr (.refl _)
    | cons next t =>
      right
      rw [lookup_cons, lookup_cons]
      by_cases hnext : next = name
      · rw [hnext, hfree, hnew]
        exact .refl _
      · rw [hothers next hnext]
        exact .refl _
  | @deeper entries entries' inner inner' next trail hnext hnext' _ hothers ih =>
    cases t with
    | nil =>
      right
      by_cases hn : n = next
      · rw [lookup_nil, lookup_nil, hn, hnext, hnext']
        exact .dir _ _
      · rw [lookup_nil, lookup_nil, hothers n hn]
        exact .refl _
    | cons other t =>
      rw [lookup_cons, lookup_cons]
      by_cases hother : other = next
      · rw [hother, hnext, hnext']
        exact (ih t).imp_left fun ⟨ht, hn⟩ => ⟨congrArg _ ht, hn⟩
      · rw [hothers other hother]
        exact Or.inr (.refl _)

/-- What was found under a name that is no directory is found there still. -/
theorem Grows.lookup_of_leaf {node : FileNode} (h : Grows name content trail entries entries')
    (hlookup : entries.lookup t n = some node) (hnode : ∀ inner, node ≠ .dir inner) :
    entries'.lookup t n = some node := by
  rcases h.lookup t n with ⟨rfl, rfl⟩ | halike
  · rw [h.lookup_free] at hlookup
    cases hlookup
  · generalize entries'.lookup t n = found at halike ⊢
    rw [hlookup] at halike
    cases halike with
    | refl => rfl
    | dir inner => exact absurd rfl (hnode inner)

theorem Grows.below? (h : Grows name content trail entries entries') (t : Trail) :
    (entries.below? t).isSome = (entries'.below? t).isSome := by
  rcases List.eq_nil_or_concat t with rfl | ⟨t, n, rfl⟩
  · rfl
  rw [List.concat_eq_append, below?_concat, below?_concat]
  rcases h.lookup t n with ⟨rfl, rfl⟩ | halike
  · rw [h.lookup_free, h.lookup_new]
  · generalize entries.lookup t n = found, entries'.lookup t n = found' at halike ⊢
    cases halike <;> rfl

end Entries

/-- The same file system with a new file, under a name that was free in the directory at the end
    of the trail. The new file may be read, and whatever was there may be used as before. -/
structure FileSystem.Grows (name content : Bytes) (trail : Trail) (fs fs' : FileSystem) : Prop where
  entries : fs.entries.Grows name content trail fs'.entries
  workingDirectory : fs'.workingDirectory = fs.workingDirectory
  search : ∀ t, fs'.refusal? .search t = fs.refusal? .search t
  new : fs'.refusal? .read (trail ++ [name]) = none
  others : ∀ use t, t ≠ trail ++ [name] → fs'.refusal? use t = fs.refusal? use t

/-- What a path leads to before and after a file is put under a free name. -/
inductive Target.Kept (trail : Trail) (name content : Bytes) :
    Except OsError Target → Except OsError Target → Prop where
  | refl (answer : Except OsError Target) : Kept trail name content answer answer
  /-- A path that led nowhere may lead somewhere now. -/
  | error (cause : OsError) (answer : Except OsError Target) :
    Kept trail name content (.error cause) answer
  | dir (t : Trail) (inner inner' : Entries) :
    Kept trail name content (.ok (.found t (.dir inner))) (.ok (.found t (.dir inner')))
  | new : Kept trail name content (.ok (.vacant trail name))
    (.ok (.found (trail ++ [name]) (.file content)))

namespace FileSystem

variable {fs fs' : FileSystem} {trail : Trail} {name content : Bytes} {p : Path}

/-- A path that led to something leads to it still when a file is new. -/
theorem Grows.agrees (h : fs.Grows name content trail fs') (access : Access) :
    Access.Agrees (Target.Kept trail name content) fs fs' access access where
  error _ := .refl _
  workingDirectory := h.workingDirectory
  search := h.search
  target t := by
    have hbelow := h.entries.below? t
    unfold Target.directory
    cases hfound : fs.entries.below? t with
    | none => exact .error _ _
    | some inner =>
      rw [hfound, eq_comm] at hbelow
      obtain ⟨inner', hfound'⟩ := Option.isSome_iff_exists.mp hbelow
      rw [hfound']
      exact .dir t inner inner'
  enter t n rest := by
    refine Move.Agrees.enter (fun _ => .refl _) (h.entries.below? t) ?_
    rcases h.entries.lookup t n with ⟨rfl, rfl⟩ | halike
    · rw [h.entries.lookup_free, h.entries.lookup_new]
      refine .stop ?_
      split
      · exact .new
      · exact .error _ _
    · generalize fs.entries.lookup t n = found, fs'.entries.lookup t n = found' at halike ⊢
      cases halike with
      | refl => exact Move.Agrees.refl .refl _
      | dir => exact .go _

/-- A path that led to the free name leads to the new file. -/
theorem Grows.resolve_target_new (h : fs.Grows name content trail fs')
    (hvacant : fs.resolve .target p = .ok (.vacant trail name)) :
    fs'.resolve .target p = .ok (.found (trail ++ [name]) (.file content)) := by
  have hkept : Target.Kept trail name content (fs.resolve .target p) (fs'.resolve .target p) :=
    resolve_related (h.agrees .target) p
  have hreal := fs'.resolve_real .target p
  rw [hvacant] at hkept
  generalize fs'.resolve .target p = answer at hkept hreal ⊢
  cases hkept with
  | new => rfl
  | refl =>
    -- the name is not free any more
    cases hreal with
    | vacant hbelow hfree =>
      have hnew := h.entries.lookup_new
      rw [Entries.lookup, hbelow, Option.bind_some, hfree] at hnew
      cases hnew

/-- A file that was there is not at the trail of the new one. -/
theorem Grows.ne_of_resolve (h : fs.Grows name content trail fs') {t : Trail} {node : FileNode}
    (hfound : fs.resolve .target p = .ok (.found t node)) (hnode : ∀ inner, node ≠ .dir inner) :
    t ≠ trail ++ [name] := by
  rintro rfl
  have hreal := fs.resolve_real .target p
  rw [hfound] at hreal
  generalize hanswer : Target.found (trail ++ [name]) node = target at hreal
  cases hreal with
  | dir => exact hnode _ (Target.found.inj hanswer).2
  | vacant => cases hanswer
  | entry hlookup _ =>
    obtain ⟨htrail, -⟩ := Target.found.inj hanswer
    obtain ⟨rfl, hname⟩ := List.append_inj' htrail rfl
    rw [← List.singleton_inj.mp hname, h.entries.lookup_free] at hlookup
    cases hlookup

/-- A file that could be read can be read still, and has the content that it had. -/
theorem Grows.readFile (h : fs.Grows name content trail fs') {old : Bytes}
    (hread : fs.readFile p = .ok old) : fs'.readFile p = .ok old := by
  obtain ⟨t, hfound, hallowed⟩ := readFile_eq_ok_iff.mp hread
  have hkept : Target.Kept trail name content (fs.resolve .target p) (fs'.resolve .target p) :=
    resolve_related (h.agrees .target) p
  have hfound' : fs'.resolve .target p = .ok (.found t (.file old)) := by
    rw [hfound] at hkept
    generalize fs'.resolve .target p = answer at hkept
    cases hkept
    rfl
  refine readFile_eq_ok_iff.mpr ⟨t, hfound', ?_⟩
  rw [h.others .read t (h.ne_of_resolve hfound fun _ => nofun), hallowed]

/-! ## Where a new file is written -/

/-- A path that can be written to leads to the same when it is read. -/
theorem agrees_creation_target (fs : FileSystem) :
    Access.Agrees (fun a b => ∀ target, a = .ok target → b = .ok target) fs fs .creation
      .target where
  error _ _ he := he
  workingDirectory := rfl
  search _ := rfl
  target _ _ he := he
  enter t n rest := by
    by_cases hslash : rest = [.slash]
    · simp only [Entries.enter, hslash]
      refine .end fun b target h => ?_
      cases h
    · -- a link at the end is followed for both purposes
      have hlookup (found : Option FileNode) :
          Move.ofLookup .creation t n rest found = .ofLookup .target t n rest found := by
        rcases found with _ | _ | _ | _ <;> simp [Move.ofLookup]
      simp only [Entries.enter, hslash, hlookup, decide_false, Bool.and_false, reduceCtorEq]
      exact Move.Agrees.refl (fun _ _ he => he) _

/-- A new file is written where the path leads when it is read. -/
theorem resolve_target_of_creation {target : Target} (h : fs.resolve .creation p = .ok target) :
    fs.resolve .target p = .ok target :=
  resolve_related (agrees_creation_target fs) p target h

/-- The path leads to a free name, and the directory may get a new entry. -/
structure Admits (fs : FileSystem) (p : Path) (trail : Trail) (name : Bytes) : Prop where
  vacant : fs.resolve .creation p = .ok (.vacant trail name)
  allowed : fs.refusal? .write trail = none

theorem Admits.grows_addFile (h : fs.Admits p trail name) (content : Bytes) :
    fs.Grows name content trail (fs.addFile trail name content) := by
  have hreal := fs.resolve_real .creation p
  rw [h.vacant] at hreal
  cases hreal with
  | vacant hbelow hfree =>
    exact
      { entries := Entries.grows_modifyBelow hbelow hfree
        workingDirectory := rfl
        search := fun t => if_neg fun h => h.2 rfl
        new := if_pos ⟨rfl, nofun⟩
        others := fun _ _ hother => if_neg fun h => hother h.1 }

theorem Admits.writeFile_eq (h : fs.Admits p trail name) (content : Bytes) (transfer : Transfer) :
    fs.writeFile p content transfer =
      (transfer.answer, fs.addFile trail name (transfer.stored content)) := by
  simp only [writeFile, openForWriting, h.vacant, h.allowed]

/-- Where nothing is and no file can be made, writing fails and changes nothing. -/
theorem exists_writeFile_eq_error (hnone : fs.pathExists p = false)
    (hnot : ∀ trail name, ¬ fs.Admits p trail name) (content : Bytes) (transfer : Transfer) :
    ∃ cause, fs.writeFile p content transfer = (.error cause, fs) := by
  have hopen : ∃ cause, fs.openForWriting p = .error cause := by
    unfold openForWriting
    cases hcreation : fs.resolve .creation p with
    | error cause => exact ⟨cause, rfl⟩
    | ok target =>
      cases target with
      | vacant trail name =>
        dsimp only
        cases hallowed : fs.refusal? .write trail with
        | some cause => exact ⟨cause, rfl⟩
        | none => exact absurd ⟨hcreation, hallowed⟩ (hnot trail name)
      | found trail node =>
        rw [pathExists, resolve_target_of_creation hcreation] at hnone
        cases hnone
  obtain ⟨cause, hopen⟩ := hopen
  exact ⟨cause, by rw [writeFile, hopen]⟩

end FileSystem

end PostureAudit
