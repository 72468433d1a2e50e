import PostureAudit.Linter
import PostureAudit.Proofs.Growth

set_option autoImplicit false

/-! # A new configuration file

A new configuration file takes no file's place. Either there is an entry under one of the two names
already, or no file can be made, and nothing happens; or a file is put where nothing was
(`create_cases`). Even if the storage gives out while it is written, this new file is all that is
left behind. What a complete one says is what a run without a configuration does anyway
(`starter_settings`), so with it a run has the same outcome as without (`create_safe`). -/

namespace PostureAudit

/-- Holding a rule as seriously as before changes nothing. -/
theorem Settings.withRule_eq_self {s : Settings} {rule : Rule} {severity : Severity}
    (h : s.severity rule = severity) : s.withRule rule severity = s := by
  have hseverity : (s.withRule rule severity).severity = s.severity := by
    funext other
    rw [severity_withRule]
    split
    next heq => rw [heq, h]
    next => rfl
  obtain ⟨extension, resolution, severities⟩ := s
  exact congrArg (Settings.mk extension resolution) hseverity

/-- A table that holds every rule as seriously as before changes nothing. -/
theorem Settings.withNamedRules_eq_self {s : Settings} {table : List (Text × Severity)}
    (h : ∀ e ∈ table, ∃ r, Rule.ofName? e.1 = some r ∧ s.severity r = e.2) :
    s.withNamedRules table = .ok s := by
  induction table with
  | nil => rfl
  | cons e table ih =>
    obtain ⟨⟨r, hname, hseverity⟩, hrest⟩ := List.forall_mem_cons.mp h
    rw [withNamedRules, hname]
    dsimp only
    rw [withRule_eq_self hseverity, ih hrest]

namespace ConfigFile

/-! ## What a new file says -/

/-- A new file is read as what it was written for. -/
theorem ofText?_starterText : ofText? starterText = some starter := by decide +kernel

theorem decode?_starterText : Utf8.decode? (Utf8.encode starterText) = some starterText := by
  decide +kernel

/-- A new file, together with its base, leads to the default settings. -/
theorem starter_settings : starter.settings = .ok .default := by
  have hextended : starter.extended =
      .ok { starter with base := none, rules := starter.rules.withBase recommended.rules } := rfl
  have hextension : applyExtension .default starter.extension = .ok .default := rfl
  have hrules : ∀ e ∈ (starter.rules.withBase recommended.rules).severities,
      ∃ r, Rule.ofName? e.1 = some r ∧ Severity.error = e.2 := by decide +kernel
  have happly :
      applyTo { starter with
        base := none, rules := starter.rules.withBase recommended.rules } .default =
      .ok .default := by
    rw [applyTo, hextension]
    exact Settings.withNamedRules_eq_self hrules
  rw [settings, hextended]
  dsimp only
  rw [happly]
  rfl

/-! ## Where a new file is -/

section

variable {fs fs' : FileSystem} {directory path : Path} {trail : Trail} {transfer : Transfer}

theorem find?_candidates (found : Path → Bool) (directory : Path) :
    (candidates directory).find? found =
      if found (directory.join preferredName) then some (directory.join preferredName)
      else if found (directory.join (Path.ofText ".posturelint.yaml".toList)) then
        some (directory.join (Path.ofText ".posturelint.yaml".toList))
      else none := by
  rw [candidates, fileNames, List.map_cons, List.map_cons, List.map_nil, List.find?_cons,
    List.find?_cons, List.find?_nil]
  cases found (directory.join preferredName) <;>
    cases found (directory.join (Path.ofText ".posturelint.yaml".toList)) <;> rfl

theorem find?_candidates_eq_some_iff {found : Path → Bool} :
    (candidates directory).find? found = some path ↔
      found path = true ∧ (path = directory.join preferredName ∨
        path = directory.join (Path.ofText ".posturelint.yaml".toList) ∧
          found (directory.join preferredName) = false) := by
  rw [find?_candidates]
  by_cases hfirst : found (directory.join preferredName) = true
  · rw [if_pos hfirst]
    constructor
    · rintro ⟨⟩
      exact ⟨hfirst, Or.inl rfl⟩
    · rintro ⟨-, rfl | ⟨-, hnone⟩⟩
      · rfl
      · cases hfirst.symm.trans hnone
  rw [if_neg hfirst]
  by_cases hsecond : found (directory.join (Path.ofText ".posturelint.yaml".toList)) = true
  · rw [if_pos hsecond]
    constructor
    · rintro ⟨⟩
      exact ⟨hsecond, Or.inr ⟨rfl, Bool.eq_false_iff.mpr hfirst⟩⟩
    · rintro ⟨hexists, rfl | ⟨rfl, -⟩⟩
      · exact absurd hexists hfirst
      · rfl
  · rw [if_neg hsecond]
    refine iff_of_false nofun ?_
    rintro ⟨hexists, rfl | ⟨rfl, -⟩⟩
    · exact hfirst hexists
    · exact hsecond hexists

/-- What can happen when a new file is asked for: there is an entry already; or no file can be
    made; or a new file is made, and gets what the storage takes. -/
theorem create_cases (fs : FileSystem) (directory : Path) (transfer : Transfer) :
    (∃ path, (candidates directory).find? fs.pathExists = some path ∧
      create fs directory transfer = (.error (.configExists path), fs)) ∨
    (candidates directory).find? fs.pathExists = none ∧
      ((∃ cause, (∀ trail name, ¬ fs.Admits (directory.join preferredName) trail name) ∧
        create fs directory transfer = (.error (.os cause), fs)) ∨
      ∃ trail name, fs.Admits (directory.join preferredName) trail name ∧
        create fs directory transfer =
          (match transfer with
            | .complete => .ok (directory.join preferredName)
            | .broken _ cause => .error (.os cause),
          fs.addFile trail name (transfer.stored (Utf8.encode starterText)))) := by
  unfold create
  cases hfind : (candidates directory).find? fs.pathExists with
  | some path => exact Or.inl ⟨path, rfl, rfl⟩
  | none =>
    refine Or.inr ⟨rfl, ?_⟩
    have hnone : fs.pathExists (directory.join preferredName) = false := by
      have hpreferred : directory.join preferredName ∈ candidates directory :=
        List.mem_map_of_mem (List.mem_cons_self ..)
      exact Bool.eq_false_iff.mpr (List.find?_eq_none.mp hfind _ hpreferred)
    by_cases hadmits :
        ∃ trail name, fs.Admits (directory.join preferredName) trail name
    · obtain ⟨trail, name, hadmits⟩ := hadmits
      refine Or.inr ⟨trail, name, hadmits, ?_⟩
      dsimp only
      rw [hadmits.writeFile_eq]
      cases transfer <;> rfl
    · have hnot : ∀ trail name, ¬ fs.Admits (directory.join preferredName) trail name :=
        fun trail name h => hadmits ⟨trail, name, h⟩
      obtain ⟨cause, hwrite⟩ := FileSystem.exists_writeFile_eq_error hnone hnot
        (Utf8.encode starterText) transfer
      refine Or.inl ⟨cause, hnot, ?_⟩
      dsimp only
      rw [hwrite]

/-- A new file is refused for the first entry that is there already, and for no other one. -/
theorem create_eq_configExists_iff :
    (create fs directory transfer).1 = .error (.configExists path) ↔
      (candidates directory).find? fs.pathExists = some path := by
  rcases create_cases fs directory transfer with
    ⟨other, hfind, hcreate⟩ | ⟨hfind, ⟨cause, -, hcreate⟩ | ⟨trail, name, -, hcreate⟩⟩
  · rw [hfind, hcreate]
    constructor
    · rintro ⟨⟩
      rfl
    · rintro ⟨⟩
      rfl
  · rw [hfind, hcreate]
    exact iff_of_false nofun nofun
  · rw [hfind, hcreate]
    refine iff_of_false ?_ nofun
    cases transfer <;> nofun

/-- Where there is no entry under either name, a new file is made if that can be done, and it is
    complete if the storage takes it. -/
theorem exists_create_iff : (∃ path, (create fs directory transfer).1 = .ok path) ↔
    (∀ candidate ∈ candidates directory, fs.pathExists candidate = false) ∧
      (∃ trail name, fs.Admits (directory.join preferredName) trail name) ∧
        transfer = .complete := by
  have hnone : (candidates directory).find? fs.pathExists = none ↔
      ∀ candidate ∈ candidates directory, fs.pathExists candidate = false := by
    simp only [List.find?_eq_none, Bool.not_eq_true]
  rw [← hnone]
  rcases create_cases fs directory transfer with
    ⟨other, hfind, hcreate⟩ | ⟨hfind, ⟨cause, hnot, hcreate⟩ | ⟨trail, name, hadmits, hcreate⟩⟩
  · rw [hcreate, hfind]
    exact iff_of_false (fun ⟨_, h⟩ => nomatch h) fun ⟨h, _⟩ => nomatch h
  · rw [hcreate]
    exact iff_of_false (fun ⟨_, h⟩ => nomatch h) fun ⟨_, ⟨t, n, h⟩, _⟩ => hnot t n h
  · rw [hcreate, and_iff_right hfind, and_iff_right ⟨trail, name, hadmits⟩]
    cases transfer with
    | complete => exact iff_of_true ⟨_, rfl⟩ rfl
    | broken stored cause => exact iff_of_false (fun ⟨_, h⟩ => nomatch h) nofun

/-- A file more is all that can change. -/
theorem create_snd (fs : FileSystem) (directory : Path) (transfer : Transfer) :
    (create fs directory transfer).2 = fs ∨
      ∃ trail name, fs.Grows name (transfer.stored (Utf8.encode starterText)) trail
        (create fs directory transfer).2 := by
  rcases create_cases fs directory transfer with
    ⟨_, -, hcreate⟩ | ⟨-, ⟨_, -, hcreate⟩ | ⟨trail, name, hadmits, hcreate⟩⟩
  · exact Or.inl (by rw [hcreate])
  · exact Or.inl (by rw [hcreate])
  · refine Or.inr ⟨trail, name, ?_⟩
    rw [hcreate]
    exact hadmits.grows_addFile _

/-- A new file is where the path leads, with all that it was meant to hold. -/
theorem of_create_eq_ok (h : create fs directory transfer = (.ok path, fs')) :
    path = directory.join preferredName ∧
      ∃ trail, fs'.resolve .target path = .ok (.found trail (.file (Utf8.encode starterText))) ∧
        fs'.refusal? .read trail = none := by
  rcases create_cases fs directory transfer with
    ⟨other, -, hcreate⟩ | ⟨-, ⟨cause, -, hcreate⟩ | ⟨trail, name, hadmits, hcreate⟩⟩
  · cases h.symm.trans hcreate
  · cases h.symm.trans hcreate
  · cases transfer with
    | broken stored cause => cases h.symm.trans hcreate
    | complete =>
      obtain ⟨hpath, hfs⟩ := Prod.mk.inj (h.symm.trans hcreate)
      obtain rfl := Except.ok.inj hpath
      have hgrows := hadmits.grows_addFile (Utf8.encode starterText)
      rw [hfs]
      refine ⟨rfl, trail ++ [name], hgrows.resolve_target_new ?_, hgrows.new⟩
      exact FileSystem.resolve_target_of_creation hadmits.vacant

theorem load_eq_starter
    (h : fs.resolve .target (directory.join preferredName) =
      .ok (.found trail (.file (Utf8.encode starterText))))
    (hallowed : fs.refusal? .read trail = none) :
    load fs none directory = .ok (some starter) := by
  have hfile : fs.isFile (directory.join preferredName) = true := by
    rw [FileSystem.isFile, h]
  have hlocate : locate? fs directory = some (directory.join preferredName) := by
    rw [locate?, find?_candidates, hfile, if_pos rfl]
  have hread : fs.readFile (directory.join preferredName) = .ok (Utf8.encode starterText) :=
    FileSystem.readFile_eq_ok_iff.mpr ⟨trail, h, hallowed⟩
  have htext : fs.readText (directory.join preferredName) = .ok starterText := by
    simp only [FileSystem.readText, hread, decode?_starterText]
  rw [load, hlocate]
  simp only [Option.none_or, read, htext, ofText?_starterText]
  rfl

end

/-- A link that leads nowhere. -/
def danglingLink : FileSystem :=
  .ofEntries [] [(preferredName, .link (Path.ofText "lint.yml".toList))]

/-- What the storage took before it gave out stays behind. -/
example :
    let answer := create danglingLink [Path.dot] (.broken 2 .noSpace)
    answer.1 = .error (.os .noSpace) ∧
      answer.2.readFile (Path.ofText "lint.yml".toList) = .ok [0x23, 0x20] :=
  ⟨rfl, rfl⟩

end ConfigFile

end PostureAudit
