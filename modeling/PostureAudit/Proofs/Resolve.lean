import PostureAudit.FileSystem.Resolve

set_option autoImplicit false

/-! # Resolving a path, step by step

Two resolutions that agree step by step, until one of them ends, agree in the end
(`FileSystem.resolve_related`). What a path leads to is there (`FileSystem.resolve_real`). Steps
that lead to a directory lead on from there, by whatever links the directory was reached
(`followLinks_append`). -/

namespace PostureAudit

/-- What is at the end of a trail of directory names and a name. -/
def Entries.lookup (entries : Entries) (trail : Trail) (name : Bytes) : Option FileNode :=
  (entries.below? trail).bind (·.get? name)

/-! ## Resolutions that agree -/

/-- Two moves agree: they go on in the same way, or they end in related answers, or the first one
    ends in an answer that is related to any. -/
inductive Move.Agrees (related : Except OsError Target → Except OsError Target → Prop) :
    Move → Move → Prop where
  | stop {a b : Except OsError Target} (h : related a b) : Agrees related (.stop a) (.stop b)
  | end {a : Except OsError Target} {m : Move} (h : ∀ b, related a b) : Agrees related (.stop a) m
  | go (trail : Trail) : Agrees related (.go trail) (.go trail)
  | chase (trail : Trail) (steps : List PathStep) :
    Agrees related (.chase trail steps) (.chase trail steps)

theorem Move.Agrees.refl {related : Except OsError Target → Except OsError Target → Prop}
    (hrelated : ∀ answer, related answer answer) (m : Move) : Move.Agrees related m m := by
  cases m with
  | stop answer => exact .stop (hrelated answer)
  | go trail => exact .go trail
  | chase trail steps => exact .chase trail steps

/-- To enter a name agrees if the directory is there or not in both trees, and what is looked up
    agrees. -/
theorem Move.Agrees.enter {related : Except OsError Target → Except OsError Target → Prop}
    {entries entries' : Entries} {access : Access} {trail : Trail} {name : Bytes}
    {rest : List PathStep} (herror : ∀ cause, related (.error cause) (.error cause))
    (hbelow : (entries.below? trail).isSome = (entries'.below? trail).isSome)
    (hlookup : Move.Agrees related (.ofLookup access trail name rest (entries.lookup trail name))
      (.ofLookup access trail name rest (entries'.lookup trail name))) :
    Move.Agrees related (entries.enter access trail name rest)
      (entries'.enter access trail name rest) := by
  unfold Entries.enter
  split
  · exact .stop (herror _)
  split
  · exact .stop (herror _)
  unfold Entries.lookup at hlookup
  cases hfound : entries.below? trail with
  | none =>
    rw [hfound, Option.isSome_none, eq_comm, Option.isSome_eq_false_iff,
      Option.isNone_iff_eq_none] at hbelow
    rw [hbelow]
    exact .stop (herror _)
  | some inner =>
    rw [hfound, Option.isSome_some, eq_comm, Option.isSome_iff_exists] at hbelow
    obtain ⟨inner', hfound'⟩ := hbelow
    rw [hfound, hfound'] at hlookup
    rw [hfound']
    exact hlookup

/-- What makes resolutions in two file systems, or for two purposes, agree. -/
structure Access.Agrees (related : Except OsError Target → Except OsError Target → Prop)
    (fs fs' : FileSystem) (access access' : Access) : Prop where
  error : ∀ cause, related (.error cause) (.error cause)
  workingDirectory : fs'.workingDirectory = fs.workingDirectory
  search : ∀ trail, fs'.refusal? .search trail = fs.refusal? .search trail
  target : ∀ trail,
    related (Target.directory fs.entries trail) (Target.directory fs'.entries trail)
  enter : ∀ trail name rest, Move.Agrees related (fs.entries.enter access trail name rest)
    (fs'.entries.enter access' trail name rest)

section

variable {related : Except OsError Target → Except OsError Target → Prop} {fs fs' : FileSystem}
  {access access' : Access}

theorem Access.Agrees.move (h : Access.Agrees related fs fs' access access') (trail : Trail)
    (rest : List PathStep) (step : PathStep) :
    Move.Agrees related (step.move fs access trail rest) (step.move fs' access' trail rest) := by
  unfold PathStep.move
  rw [h.search trail]
  cases fs.refusal? .search trail with
  | some cause =>
    cases step with
    | slash => exact .go trail
    | here => exact .stop (h.error cause)
    | up => exact .stop (h.error cause)
    | into name => exact .stop (h.error cause)
  | none =>
    cases step with
    | slash => exact .go trail
    | here => exact .go trail
    | up => exact .go trail.dropLast
    | into name => exact h.enter trail name rest

theorem follow_related (h : Access.Agrees related fs fs' access access')
    {chase chase' : Trail → List PathStep → Except OsError Target}
    (hchase : ∀ trail steps, related (chase trail steps) (chase' trail steps)) (trail : Trail)
    (steps : List PathStep) :
    related (follow fs access chase trail steps) (follow fs' access' chase' trail steps) := by
  induction steps generalizing trail with
  | nil => exact h.target trail
  | cons step rest ih =>
    have hmove := h.move trail rest step
    rw [follow, follow]
    generalize step.move fs access trail rest = m, step.move fs' access' trail rest = m'
      at hmove ⊢
    cases hmove with
    | stop hanswer => exact hanswer
    | «end» hanswer => exact hanswer _
    | go trail => exact ih trail
    | chase trail steps => exact hchase trail steps

theorem followLinks_related (h : Access.Agrees related fs fs' access access') (links : Nat)
    (trail : Trail) (steps : List PathStep) :
    related (followLinks fs access links trail steps)
      (followLinks fs' access' links trail steps) := by
  induction links generalizing trail steps with
  | zero => exact follow_related h (fun _ _ => h.error _) trail steps
  | succ links ih => exact follow_related h ih trail steps

/-- Resolutions that agree step by step have related answers. -/
theorem FileSystem.resolve_related (h : Access.Agrees related fs fs' access access') (p : Path) :
    related (fs.resolve access p) (fs'.resolve access' p) := by
  unfold FileSystem.resolve
  split
  · exact h.error _
  split
  · exact h.error _
  split
  · exact h.error _
  · rw [h.workingDirectory]
    exact followLinks_related h maxLinks _ p.steps

end

/-! ## What a path leads to -/

namespace Entries

variable {entries inner : Entries} {trail : Trail} {name : Bytes}

theorem below?_append (trail suffix : Trail) :
    entries.below? (trail ++ suffix) = (entries.below? trail).bind (·.below? suffix) := by
  induction trail generalizing entries with
  | nil => rfl
  | cons name trail ih =>
    rw [List.cons_append, below?, below?]
    split
    · exact ih
    · rfl

theorem below?_concat : entries.below? (trail ++ [name]) =
    match entries.lookup trail name with
    | some (.dir inner) => some inner
    | _ => none := by
  rw [below?_append, lookup]
  cases entries.below? trail with
  | none => rfl
  | some outer => rfl

end Entries

/-- What a path leads to is there, or is a name that is free in a directory that is there. -/
inductive Target.Real (entries : Entries) : Except OsError Target → Prop where
  | error (cause : OsError) : Real entries (.error cause)
  | dir {trail : Trail} {inner : Entries} (h : entries.below? trail = some inner) :
    Real entries (.ok (.found trail (.dir inner)))
  | entry {trail : Trail} {name : Bytes} {node : FileNode}
    (h : entries.lookup trail name = some node) (hnode : ∀ inner, node ≠ .dir inner) :
    Real entries (.ok (.found (trail ++ [name]) node))
  | vacant {trail : Trail} {name : Bytes} {inner : Entries}
    (hbelow : entries.below? trail = some inner) (h : inner.get? name = none) :
    Real entries (.ok (.vacant trail name))

theorem Access.agrees_real (fs : FileSystem) (access : Access) :
    Access.Agrees (fun answer _ => Target.Real fs.entries answer) fs fs access access where
  error := .error
  workingDirectory := rfl
  search _ := rfl
  target trail := by
    unfold Target.directory
    cases hbelow : fs.entries.below? trail with
    | none => exact .error _
    | some inner => exact .dir hbelow
  enter trail name rest := by
    unfold Entries.enter
    split
    · exact .stop (.error _)
    split
    · exact .stop (.error _)
    cases hbelow : fs.entries.below? trail with
    | none => exact .stop (.error _)
    | some inner =>
      have hlookup {node : FileNode} (hget : inner.get? name = some node) :
          fs.entries.lookup trail name = some node := by
        rw [Entries.lookup, hbelow, Option.bind_some, hget]
      dsimp only
      cases hget : inner.get? name with
      | none =>
        refine .stop ?_
        split
        · exact .vacant hbelow hget
        · exact .error _
      | some node =>
        cases node with
        | dir deeper => exact .go _
        | file content =>
          refine .stop ?_
          split
          · exact .entry (hlookup hget) fun _ => nofun
          · exact .error _
        | link target =>
          dsimp only [Move.ofLookup]
          split
          · exact .stop (.entry (hlookup hget) fun _ => nofun)
          split
          · exact .stop (.error _)
          · exact .chase _ _

theorem FileSystem.resolve_real (fs : FileSystem) (access : Access) (p : Path) :
    Target.Real fs.entries (fs.resolve access p) :=
  resolve_related (Access.agrees_real fs access) p

/-- A path is read if it leads to a file that may be read. -/
theorem FileSystem.readFile_eq_ok_iff {fs : FileSystem} {p : Path} {content : Bytes} :
    fs.readFile p = .ok content ↔
      ∃ trail, fs.resolve .target p = .ok (.found trail (.file content)) ∧
        fs.refusal? .read trail = none := by
  unfold readFile
  constructor
  · intro h
    split at h
    · cases h
    · cases h
    next trail node hresolve =>
      split at h
      · cases h
      next old hallowed =>
        cases h
        exact ⟨trail, hresolve, hallowed⟩
      · cases h
  · rintro ⟨trail, hresolve, hallowed⟩
    simp only [hresolve, hallowed]

/-! ## Links at the end -/

/-- A directory that is found without following a link at the end is found with it, too. -/
theorem Access.agrees_entry_target (fs : FileSystem) :
    Access.Agrees (fun a b => ∀ trail inner, a = .ok (.found trail (.dir inner)) → b = a)
      fs fs .entry .target where
  error _ _ _ _ := rfl
  workingDirectory := rfl
  search _ := rfl
  target _ _ _ _ := rfl
  enter trail name rest := by
    have hrefl : ∀ m, Move.Agrees (fun a b => ∀ trail inner,
        a = .ok (.found trail (.dir inner)) → b = a) m m :=
      Move.Agrees.refl fun _ _ _ _ => rfl
    unfold Entries.enter
    simp only [reduceCtorEq, decide_false, Bool.false_and, Bool.false_eq_true, if_false]
    split
    · exact hrefl _
    cases fs.entries.below? trail with
    | none => exact hrefl _
    | some inner =>
      dsimp only
      cases inner.get? name with
      | none => exact hrefl _
      | some node =>
        cases node with
        | dir deeper => exact hrefl _
        | file content => exact hrefl _
        | link target =>
          by_cases hend : rest = []
          · -- the link itself is no directory
            simp only [Move.ofLookup, hend]
            exact .end fun _ _ _ => nofun
          · simp only [Move.ofLookup, hend, decide_false, Bool.false_and, Bool.and_false,
              Bool.false_eq_true, if_false, reduceCtorEq]
            exact hrefl _

theorem FileSystem.resolve_target_of_entry {fs : FileSystem} {p : Path} {trail : Trail}
    {inner : Entries} (h : fs.resolve .entry p = .ok (.found trail (.dir inner))) :
    fs.resolve .target p = .ok (.found trail (.dir inner)) :=
  (resolve_related (Access.agrees_entry_target fs) p trail inner h).trans h

/-! ## Names joined to a path -/

/-- What a component does when links at the end are followed: whether it goes on, and where to,
    does not depend on the components that come after it, and if it ends the resolution this is not
    at a directory. -/
theorem PathStep.move_target (fs : FileSystem) (trail : Trail) (step : PathStep) :
    (∃ t, ∀ rest, step.move fs .target trail rest = .go t) ∨
    (∃ t steps, ∀ rest, step.move fs .target trail rest = .chase t (steps ++ rest)) ∨
    ∀ rest, ∃ answer, step.move fs .target trail rest = .stop answer ∧
      ∀ t inner, answer ≠ .ok (.found t (.dir inner)) := by
  have herror (cause : OsError) (t : Trail) (inner : Entries) :
      Except.error cause ≠ .ok (Target.found t (.dir inner)) := nofun
  unfold PathStep.move
  cases fs.refusal? .search trail with
  | some cause =>
    cases step with
    | slash => exact Or.inl ⟨trail, fun _ => rfl⟩
    | here => exact Or.inr (Or.inr fun _ => ⟨_, rfl, herror cause⟩)
    | up => exact Or.inr (Or.inr fun _ => ⟨_, rfl, herror cause⟩)
    | into name => exact Or.inr (Or.inr fun _ => ⟨_, rfl, herror cause⟩)
  | none =>
    cases step with
    | slash => exact Or.inl ⟨trail, fun _ => rfl⟩
    | here => exact Or.inl ⟨trail, fun _ => rfl⟩
    | up => exact Or.inl ⟨trail.dropLast, fun _ => rfl⟩
    | into name =>
      simp only [Entries.enter, reduceCtorEq, decide_false, Bool.false_and, Bool.false_eq_true,
        if_false]
      split
      · exact Or.inr (Or.inr fun _ => ⟨_, rfl, herror _⟩)
      cases fs.entries.below? trail with
      | none => exact Or.inr (Or.inr fun _ => ⟨_, rfl, herror _⟩)
      | some directory =>
        dsimp only
        cases directory.get? name with
        | none =>
          refine Or.inr (Or.inr fun rest => ⟨_, rfl, fun t inner => ?_⟩)
          split <;> nofun
        | some node =>
          cases node with
          | dir inner => exact Or.inl ⟨_, fun _ => rfl⟩
          | file content =>
            refine Or.inr (Or.inr fun rest => ⟨_, rfl, fun t inner => ?_⟩)
            split <;> nofun
          | link target =>
            refine Or.inr (Or.inl ⟨target.startFrom trail, target.steps, fun rest => ?_⟩)
            simp [Move.ofLookup]

section

variable {fs : FileSystem} {more tail : List PathStep} {last : Trail} {inner : Entries}
  {answer : Except OsError Target}

/-- What leads to a directory leads on from there. A slash at its end does not matter. -/
theorem follow_append {chase chase' : Trail → List PathStep → Except OsError Target}
    (htail : tail = [] ∨ tail = [.slash])
    (hmore : follow fs .target chase' last more = answer)
    (hchase : ∀ trail steps, chase trail (steps ++ tail) = .ok (.found last (.dir inner)) →
      chase' trail (steps ++ more) = answer)
    (trail : Trail) (steps : List PathStep)
    (h : follow fs .target chase trail (steps ++ tail) = .ok (.found last (.dir inner))) :
    follow fs .target chase' trail (steps ++ more) = answer := by
  induction steps generalizing trail with
  | nil =>
    have hend : Target.directory fs.entries trail = .ok (.found last (.dir inner)) := by
      rcases htail with rfl | rfl <;> exact h
    unfold Target.directory at hend
    split at hend
    · cases hend
      exact hmore
    · cases hend
  | cons step steps ih =>
    rw [List.cons_append, follow] at h ⊢
    rcases step.move_target fs trail with ⟨t, hmove⟩ | ⟨t, front, hmove⟩ | hmove
    · rw [hmove] at h ⊢
      exact ih t h
    · rw [hmove, ← List.append_assoc] at h ⊢
      exact hchase t _ h
    · obtain ⟨answer', hstop, hother⟩ := hmove (steps ++ tail)
      rw [hstop] at h
      exact absurd h (hother last inner)

theorem followLinks_append (htail : tail = [] ∨ tail = [.slash])
    (hmore : ∀ chase, follow fs .target chase last more = answer) (links : Nat) (trail : Trail)
    (steps : List PathStep)
    (h : followLinks fs .target links trail (steps ++ tail) = .ok (.found last (.dir inner))) :
    followLinks fs .target links trail (steps ++ more) = answer := by
  induction links generalizing trail steps with
  | zero => exact follow_append htail (hmore _) (fun _ _ h => by cases h) trail steps h
  | succ links ih => exact follow_append htail (hmore _) ih trail steps h

end

end PostureAudit
