import PostureAudit.Proofs.Listing
import PostureAudit.Proofs.Pathnames

set_option autoImplicit false

/-! # The path of an entry leads to it

A walk comes by an entry below its root along a trail of names, and reads it by the path that they
make. As long as the names are such as directories have, the path leads to the same entry
(`FileSystem.resolve_along`). So a file is read as it is, and a directory can be listed, unless
the path is too long or the operating system refuses it (`FileSystem.readFile_along`,
`FileSystem.unlistable?_along`). -/

namespace PostureAudit

namespace FileSystem

variable {fs : FileSystem} {p : Path} {name : Bytes} {trail names : Trail} {inner : Entries}
  {node : FileNode}

/-- The path is one that can be followed at all. -/
structure Follows (p : Path) : Prop where
  nul : 0 ∉ p
  nonempty : p ≠ []
  short : p.length < maxPathLength

theorem resolve_of_follows (h : Follows p) (access : Access) :
    fs.resolve access p =
      followLinks fs access maxLinks (p.startFrom fs.workingDirectory) p.steps := by
  rw [resolve, if_neg (by simpa using h.nul), if_neg h.nonempty, if_neg (by have := h.short; omega)]

theorem follows_of_resolve {access : Access} {target : Target}
    (h : fs.resolve access p = .ok target) : Follows p := by
  unfold resolve at h
  split at h
  · cases h
  next hnul =>
    split at h
    · cases h
    next hnonempty =>
      split at h
      · cases h
      next hshort => exact ⟨by simpa using hnul, hnonempty, by omega⟩

/-- A name joined to the path of a directory leads to what the directory has under it. -/
theorem resolve_join (hname : Path.IsName name)
    (h : fs.resolve .target p = .ok (.found trail (.dir inner)))
    (hallowed : fs.refusal? .search trail = none) (hshort : (p.join name).length < maxPathLength)
    (hget : inner.get? name = some node) (hnode : ∀ target, node ≠ .link target) :
    fs.resolve .target (p.join name) = .ok (.found (trail ++ [name]) node) := by
  have hp := follows_of_resolve h
  have hjoin : Follows (p.join name) :=
    ⟨Path.nul_notMem_join hp.nul hname, Path.join_ne_nil p hname.ne_nil, hshort⟩
  have hbelow : fs.entries.below? trail = some inner := by
    have hreal := fs.resolve_real .target p
    rw [h] at hreal
    cases hreal with
    | dir hbelow => exact hbelow
    | entry _ hother => exact absurd rfl (hother inner)
  have hmove : (PathStep.into name).move fs .target trail [] =
      .ofLookup .target trail name [] (some node) := by
    unfold PathStep.move
    rw [hallowed]
    simp [Entries.enter, Nat.not_lt.mpr hname.length_le, hbelow, hget]
  have hlast (chase : Trail → List PathStep → Except OsError Target) :
      follow fs .target chase trail [.into name] = .ok (.found (trail ++ [name]) node) := by
    rw [follow, hmove]
    cases node with
    | file content => rfl
    | link target => exact absurd rfl (hnode target)
    | dir deeper =>
      have hdeeper : fs.entries.below? (trail ++ [name]) = some deeper := by
        rw [Entries.below?_concat, Entries.lookup, hbelow, Option.bind_some, hget]
      dsimp only [Move.ofLookup]
      rw [follow, Target.directory, hdeeper]
  obtain ⟨front, tail, htail, hsteps, hsteps'⟩ := Path.exists_steps_join hname p
  rw [resolve_of_follows hp, hsteps] at h
  rw [resolve_of_follows hjoin, Path.startFrom_join hp.nonempty, hsteps']
  exact followLinks_append htail hlast maxLinks _ front h

/-- The path along a trail of names leads to what is at the end of the trail. -/
theorem resolve_along (hdistinct : inner.Distinct) (hleads : inner.LeadsTo names node)
    (h : fs.resolve .target p = .ok (.found trail (.dir inner)))
    (hnames : ∀ name ∈ names, Path.IsName name)
    (hallowed : ∀ t, fs.refusal? .search (trail ++ t) = none)
    (hshort : (p.along names).length < maxPathLength) (hnode : ∀ target, node ≠ .link target) :
    fs.resolve .target (p.along names) = .ok (.found (trail ++ names) node) := by
  induction hleads generalizing p trail with
  | @here inner name node hmem =>
    refine resolve_join (hnames name (List.mem_singleton_self name)) h ?_ hshort ?_ hnode
    · simpa using hallowed []
    · exact (Entries.get?_eq_some_iff hdistinct).mpr hmem
  | @deeper inner deeper name names node hmem _ ih =>
    obtain ⟨hname, hnames⟩ := List.forall_mem_cons.mp hnames
    have hle : (p.join name).length ≤ (p.along (name :: names)).length :=
      Path.length_le_length_along (p.join name) names
    have hdir :
        fs.resolve .target (p.join name) = .ok (.found (trail ++ [name]) (.dir deeper)) := by
      refine resolve_join hname h ?_ (by omega) ?_ fun _ => nofun
      · simpa using hallowed []
      · exact (Entries.get?_eq_some_iff hdistinct).mpr hmem
    have hlast := ih (hdistinct.inner hmem) hdir hnames
      (fun t => by simpa using hallowed (name :: t)) hshort hnode
    rwa [List.append_assoc] at hlast

/-- A file that may be read is read by its path as it is. -/
theorem readFile_along {content : Bytes} (hdistinct : inner.Distinct)
    (hleads : inner.LeadsTo names (.file content))
    (h : fs.resolve .target p = .ok (.found trail (.dir inner)))
    (hnames : ∀ name ∈ names, Path.IsName name)
    (hallowed : ∀ use t, fs.refusal? use (trail ++ t) = none)
    (hshort : (p.along names).length < maxPathLength) :
    fs.readFile (p.along names) = .ok content :=
  readFile_eq_ok_iff.mpr ⟨trail ++ names,
    resolve_along hdistinct hleads h hnames (hallowed .search) hshort fun _ => nofun,
    hallowed .read names⟩

/-- A directory that may be read is listed by its path. -/
theorem unlistable?_along {deeper : Entries} (hdistinct : inner.Distinct)
    (hleads : inner.LeadsTo names (.dir deeper))
    (h : fs.resolve .target p = .ok (.found trail (.dir inner)))
    (hnames : ∀ name ∈ names, Path.IsName name)
    (hallowed : ∀ use t, fs.refusal? use (trail ++ t) = none)
    (hshort : (p.along names).length < maxPathLength) :
    fs.unlistable? (p.along names) = none := by
  rw [unlistable?,
    resolve_along hdistinct hleads h hnames (hallowed .search) hshort fun _ => nofun]
  exact hallowed .read names

end FileSystem

end PostureAudit
