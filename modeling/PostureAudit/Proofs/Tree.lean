import PostureAudit.Proofs.Audit
import PostureAudit.Proofs.Walk

set_option autoImplicit false

/-! # A tree is the sum of its files

One outcome is handed from event to event along a walk, and to the end of the walk, whatever the
end is. Each of them only adds to it, and what it adds does not depend on what is there already
(`Outcome.receive_eq`). So the outcome of a tree is put together from those of its files, each
checked on its own, a diagnostic for each entry that could not be read, and one for a walk that
failed (`auditTree_eq_sum`). -/

namespace PostureAudit

/-- What is reported of a finding: nothing if its rule is off. -/
def Settings.reported (s : Settings) (f : Finding) : List Diagnostic :=
  match s.severity f.rule with
  | .error => [⟨f, .error⟩]
  | .warning => [⟨f, .warning⟩]
  | .off => []

theorem Settings.toList_grade (s : Settings) (f : Finding) :
    (s.grade f).toList = s.reported f := by
  unfold grade reported
  cases s.severity f.rule <;> rfl

/-- A diagnostic of the rule at the level of its severity, without a line; or none if the rule is
    off. -/
inductive Settings.SaysOnce (s : Settings) (rule : Rule) (file message : Text) :
    List Diagnostic → Prop where
  | once {level : Level} (h : (s.severity rule).level? = some level) :
    SaysOnce s rule file message [⟨⟨rule, file, .unknown, message⟩, level⟩]
  | never (h : s.severity rule = .off) : SaysOnce s rule file message []

theorem Settings.saysOnce_reported (s : Settings) (rule : Rule) (file message : Text) :
    s.SaysOnce rule file message (s.reported ⟨rule, file, .unknown, message⟩) := by
  rw [← toList_grade, grade]
  cases h : s.severity rule with
  | error => exact .once (by rw [h]; rfl)
  | warning => exact .once (by rw [h]; rfl)
  | off => exact .never h

namespace WalkEvent

/-- Holds of the events of files that could be read. -/
def isFile : WalkEvent → Bool
  | file _ _ => true
  | unreadable _ _ => false

/-- What an event adds to the diagnostics: those of its file, as if it were the only one. -/
def diagnostics (s : Settings) : WalkEvent → List Diagnostic
  | file path content => (auditFile s (Utf8.decodeLossy content) path.text).diagnostics
  | unreadable path cause => s.reported (unreadableFinding path cause)

end WalkEvent

/-- What the end of a walk adds to the diagnostics. -/
def WalkFailure.diagnostics (s : Settings) (root : Path) : Option WalkFailure → List Diagnostic
  | some failure => s.reported (walkFinding root failure)
  | none => []

namespace Outcome

theorem record_eq (s : Settings) (o : Outcome) (f : Finding) :
    o.record s f = ⟨o.diagnostics ++ s.reported f, o.filesChecked⟩ := by
  rw [← s.toList_grade, ← record_diagnostics, ← record_filesChecked s o f]

/-- A file is checked in the same way whatever was recorded before it. -/
theorem checkFile_eq (s : Settings) (o : Outcome) (content file : Text) :
    o.checkFile s content file =
      ⟨o.diagnostics ++ (auditFile s content file).diagnostics, o.filesChecked + 1⟩ := by
  have hdiagnostics : (o.checkFile s content file).diagnostics =
      o.diagnostics ++ (auditFile s content file).diagnostics := by
    rw [auditFile, checkFile, checkFile, recordAll_diagnostics, recordAll_diagnostics]
    rfl
  have hfiles : (o.checkFile s content file).filesChecked = o.filesChecked + 1 := by
    rw [checkFile, recordAll_filesChecked, countFile]
  rw [← hdiagnostics, ← hfiles]

/-- What one event adds. -/
theorem receive_eq (s : Settings) (o : Outcome) (e : WalkEvent) :
    o.receive s e =
      ⟨o.diagnostics ++ e.diagnostics s, o.filesChecked + if e.isFile then 1 else 0⟩ := by
  cases e with
  | file path content => exact checkFile_eq s o _ _
  | unreadable path cause => exact record_eq s o _

theorem foldl_receive_eq (s : Settings) (o : Outcome) (events : List WalkEvent) :
    events.foldl (receive s) o =
      ⟨o.diagnostics ++ events.flatMap (WalkEvent.diagnostics s),
        o.filesChecked + events.countP WalkEvent.isFile⟩ := by
  induction events generalizing o with
  | nil => simp
  | cons e events ih =>
    rw [List.foldl_cons, ih, receive_eq, List.flatMap_cons, List.countP_cons,
      Nat.add_comm (events.countP _)]
    simp only [List.append_assoc, Nat.add_assoc]

theorem finish_eq (s : Settings) (o : Outcome) (root : Path) (failure : Option WalkFailure) :
    o.finish s root failure =
      ⟨o.diagnostics ++ WalkFailure.diagnostics s root failure, o.filesChecked⟩ := by
  cases failure with
  | none => simp [finish, WalkFailure.diagnostics]
  | some failure => exact record_eq s o _

end Outcome

/-- A walk of any shape adds up. -/
theorem Walk.outcome_eq (s : Settings) (root : Path) (w : Walk) :
    w.outcome s root =
      ⟨w.events.flatMap (WalkEvent.diagnostics s) ++ WalkFailure.diagnostics s root w.failure,
        w.events.countP WalkEvent.isFile⟩ := by
  rw [outcome, Outcome.finish_eq, Outcome.foldl_receive_eq]
  simp [Outcome.empty]

/-- What an event adds stands together in the diagnostics of the tree. -/
theorem WalkEvent.diagnostics_infix_auditTree {s : Settings} {fs : FileSystem} {root : Path}
    {e : WalkEvent} (he : e ∈ (fs.walk s.selects root).events) :
    e.diagnostics s <:+: (auditTree s fs root).diagnostics := by
  obtain ⟨before, after, hevents⟩ := List.append_of_mem he
  refine ⟨before.flatMap (diagnostics s), after.flatMap (diagnostics s) ++
    WalkFailure.diagnostics s root (fs.walk s.selects root).failure, ?_⟩
  rw [auditTree, Walk.outcome_eq, hevents, List.flatMap_append, List.flatMap_cons]
  simp only [List.append_assoc]

/-- The outcome of a tree is the sum of its files: the diagnostics of the events of the walk in
    order, and of its end. For a file these are the ones that it has alone; for an entry that could
    not be read there is one that names its path and the cause, and for a walk that failed one that
    names the root and what went wrong, unless the rule is off. Whatever else the walk meets at one
    entry, and however it ends, what comes of the entries before and after that one is the same,
    and stands where it stood. -/
theorem auditTree_eq_sum (s : Settings) (fs : FileSystem) (root : Path) :
    let w := fs.walk s.selects root
    (auditTree s fs root).diagnostics =
        w.events.flatMap (WalkEvent.diagnostics s) ++
          WalkFailure.diagnostics s root w.failure ∧
      (∀ path content, (WalkEvent.file path content).diagnostics s =
        (auditFile s (Utf8.decodeLossy content) path.text).diagnostics) ∧
      (∀ path cause, s.SaysOnce .unreadableFile path.text
        ("Error: Could not read Terraform file: ".toList ++ path.text ++ ". Details: ".toList ++
          cause.message) ((WalkEvent.unreadable path cause).diagnostics s)) ∧
      (∀ failure, s.SaysOnce .walkFailure root.text
        ("Error: Could not walk the directory: ".toList ++ failure.message)
        (WalkFailure.diagnostics s root (some failure))) ∧
      WalkFailure.diagnostics s root none = [] ∧
      (auditTree s fs root).filesChecked = w.events.countP WalkEvent.isFile ∧
      (w.failure = none → fs.visited s.selects root = w.events.length) ∧
      ∀ before e after, w.events = before ++ e :: after →
        ∃ front back,
          (auditTree s fs root).diagnostics =
            front ++ e.diagnostics s ++ back ++ WalkFailure.diagnostics s root w.failure ∧
          ∀ (other : WalkEvent) (failure : Option WalkFailure),
            (Walk.outcome s root ⟨before ++ other :: after, failure⟩).diagnostics =
              front ++ other.diagnostics s ++ back ++
                WalkFailure.diagnostics s root failure := by
  intro w
  have hsum : auditTree s fs root =
      ⟨w.events.flatMap (WalkEvent.diagnostics s) ++ WalkFailure.diagnostics s root w.failure,
        w.events.countP WalkEvent.isFile⟩ := w.outcome_eq s root
  refine ⟨by rw [hsum], fun _ _ => rfl, fun _ _ => s.saysOnce_reported _ _ _,
    fun _ => s.saysOnce_reported _ _ _, rfl, by rw [hsum],
    fun h => (FileSystem.length_events_walk h).symm, ?_⟩
  intro before e after hevents
  have hsplit (x : WalkEvent) : (before ++ x :: after).flatMap (WalkEvent.diagnostics s) =
      before.flatMap (WalkEvent.diagnostics s) ++ x.diagnostics s ++
        after.flatMap (WalkEvent.diagnostics s) := by
    rw [List.flatMap_append, List.flatMap_cons, List.append_assoc]
  refine ⟨before.flatMap (WalkEvent.diagnostics s), after.flatMap (WalkEvent.diagnostics s),
    ?_, fun other failure => ?_⟩
  · rw [hsum, hevents, hsplit]
  · rw [Walk.outcome_eq, hsplit]

end PostureAudit
