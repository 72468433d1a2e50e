import PostureAudit.FileSystem.Resolve

set_option autoImplicit false

/-! # Walking a directory

A walk goes through a directory and the directories below it, siblings in the order of the bytes
of their names, and delivers an event for every entry that is no directory and whose name is
selected. It comes to directories and files by their paths. Links are not followed by the walk
itself, but a selected link is read through. A directory that cannot be listed ends the walk:
nothing after it is delivered. -/

namespace PostureAudit

/-- What a walk delivers for a selected entry. -/
inductive WalkEvent where
  | file (path : Path) (content : Bytes)
  | unreadable (path : Path) (cause : OsError)
  deriving DecidableEq, Repr

def WalkEvent.path : WalkEvent → Path
  | file path _ => path
  | unreadable path _ => path

/-- Why a walk cannot begin or go on. -/
inductive WalkFailure where
  | notADirectory (root : Path)
  | traversal (path : Path) (cause : OsError)
  deriving DecidableEq, Repr

def WalkFailure.message : WalkFailure → Text
  | notADirectory root => root.text ++ ": not a directory".toList
  | traversal path cause =>
    "IO error for operation on ".toList ++ path.text ++ ": ".toList ++ cause.message

/-- The events of a walk, and what ended it before its time, if anything did. -/
structure Walk where
  events : List WalkEvent
  failure : Option WalkFailure
  deriving DecidableEq, Repr

namespace Walk

/-- The walk through nothing. -/
def empty : Walk := ⟨[], none⟩

/-- One walk after the other. A walk that failed is the last one. -/
def append (w v : Walk) : Walk :=
  match w.failure with
  | some _ => w
  | none => ⟨w.events ++ v.events, v.failure⟩

/-- Some walks, one after the other. -/
def concat (walks : List Walk) : Walk := walks.foldr append empty

end Walk

/-! ## The order of siblings -/

/-- Inserts a named item in front of the first one whose name is not smaller. -/
def insertByName {α : Type} (item : Bytes × α) : List (Bytes × α) → List (Bytes × α)
  | [] => [item]
  | other :: rest =>
    if other.1 < item.1 then other :: insertByName item rest else item :: other :: rest

def sortByName {α : Type} (items : List (Bytes × α)) : List (Bytes × α) :=
  items.foldr insertByName []

theorem insertByName_perm {α : Type} (item : Bytes × α) (items : List (Bytes × α)) :
    (insertByName item items).Perm (item :: items) := by
  induction items with
  | nil => exact List.Perm.refl _
  | cons other rest ih =>
    unfold insertByName
    split
    · exact (ih.cons other).trans (List.Perm.swap item other rest)
    · exact List.Perm.refl _

theorem sortByName_perm {α : Type} (items : List (Bytes × α)) :
    (sortByName items).Perm items := by
  induction items with
  | nil => exact List.Perm.refl _
  | cons item rest ih => exact (insertByName_perm item _).trans (ih.cons item)

theorem insertByName_sorted {α : Type} (item : Bytes × α) {items : List (Bytes × α)}
    (h : items.Pairwise fun a b => ¬ b.1 < a.1) :
    (insertByName item items).Pairwise fun a b => ¬ b.1 < a.1 := by
  induction items with
  | nil => simp [insertByName]
  | cons other rest ih =>
    obtain ⟨hother, hrest⟩ := List.pairwise_cons.mp h
    unfold insertByName
    split
    · rename_i hlt
      refine List.pairwise_cons.mpr ⟨fun e he => ?_, ih hrest⟩
      rcases List.mem_cons.mp ((insertByName_perm item rest).mem_iff.mp he) with rfl | he
      · exact fun h => List.lt_irrefl _ (List.lt_trans hlt h)
      · exact hother e he
    · rename_i hnot
      refine List.pairwise_cons.mpr ⟨fun e he => ?_, h⟩
      rcases List.mem_cons.mp he with rfl | he
      · exact hnot
      · intro hlt
        have hne : ¬ e.1 < other.1 := hother e he
        by_cases heq : item.1 = other.1
        · exact hne (heq ▸ hlt)
        · have hless : item.1 < other.1 := Decidable.byContradiction fun h =>
            heq (List.le_antisymm (List.not_lt.1 hnot) (List.not_lt.1 h))
          exact hne (List.lt_trans hlt hless)

/-- Sorted items are in the order of their names. -/
theorem sortByName_sorted {α : Type} (items : List (Bytes × α)) :
    (sortByName items).Pairwise fun a b => ¬ b.1 < a.1 := by
  induction items with
  | nil => exact .nil
  | cons item rest ih => exact insertByName_sorted item ih

/-! ## The walk -/

/-- How a walk comes by what is at a path. -/
structure Reader where
  /-- The content of the file that a path leads to. -/
  readFile : Path → Except OsError Bytes
  /-- Why the directory that a path leads to cannot be listed, if it cannot. -/
  unlistable? : Path → Option OsError

/-- The event of an entry that is no directory, if its name is selected. -/
def Reader.visit (reader : Reader) (selects : Text → Bool) (path : Path) (name : Bytes) : Walk :=
  if selects (Utf8.decodeLossy name) then
    match reader.readFile path with
    | .ok content => ⟨[.file path content], none⟩
    | .error cause => ⟨[.unreadable path cause], none⟩
  else .empty

mutual

/-- The walk through one entry. -/
def FileNode.walk (reader : Reader) (selects : Text → Bool) (path : Path) (name : Bytes) :
    FileNode → Walk
  | .file _ => reader.visit selects path name
  | .link _ => reader.visit selects path name
  | .dir entries =>
    match reader.unlistable? path with
    | some cause => ⟨[], some (.traversal path cause)⟩
    | none => .concat ((sortByName (Entries.walks reader selects path entries)).map (·.2))

/-- The walks through the entries of a directory, with their names, in the order of the listing. -/
def Entries.walks (reader : Reader) (selects : Text → Bool) (path : Path) :
    List (Bytes × FileNode) → List (Bytes × Walk)
  | [] => []
  | (name, node) :: rest =>
    (name, node.walk reader selects (path.join name) name) ::
      Entries.walks reader selects path rest

end

/-- The walk through a directory, siblings in order. -/
def Entries.walk (reader : Reader) (selects : Text → Bool) (path : Path) (entries : Entries) :
    Walk :=
  match reader.unlistable? path with
  | some cause => ⟨[], some (.traversal path cause)⟩
  | none => .concat ((sortByName (Entries.walks reader selects path entries)).map (·.2))

namespace FileSystem

def reader (fs : FileSystem) : Reader := ⟨fs.readFile, fs.unlistable?⟩

/-- The walk from a root. The root has to be a directory itself: a link to one is none. A link
    that leads nowhere is a failure of its own. -/
def walk (fs : FileSystem) (selects : Text → Bool) (root : Path) : Walk :=
  match fs.resolve .entry root with
  | .error cause => ⟨[], some (.traversal root cause)⟩
  | .ok (.vacant _ _) => ⟨[], some (.traversal root .notFound)⟩
  | .ok (.found _ (.dir entries)) => Entries.walk fs.reader selects root entries
  | .ok (.found _ (.file _)) => ⟨[], some (.notADirectory root)⟩
  | .ok (.found _ (.link _)) =>
    match fs.resolve .target root with
    | .error cause => ⟨[], some (.traversal root cause)⟩
    | .ok (.vacant _ _) => ⟨[], some (.traversal root .notFound)⟩
    | .ok _ => ⟨[], some (.notADirectory root)⟩

end FileSystem

/-! ## How many entries a walk visits -/

mutual

/-- The number of entries that a walk visits from one entry on: those that are no directories and
    have a selected name, whether or not they can be read. -/
def FileNode.visited (selects : Text → Bool) (name : Bytes) : FileNode → Nat
  | .file _ => if selects (Utf8.decodeLossy name) then 1 else 0
  | .link _ => if selects (Utf8.decodeLossy name) then 1 else 0
  | .dir entries => Entries.visited selects entries

/-- The number of entries that a walk visits in a directory and below it. -/
def Entries.visited (selects : Text → Bool) : List (Bytes × FileNode) → Nat
  | [] => 0
  | (name, node) :: rest => node.visited selects name + Entries.visited selects rest

end

/-- The number of entries that a walk from a root visits, if it goes on to the end. -/
def FileSystem.visited (fs : FileSystem) (selects : Text → Bool) (root : Path) : Nat :=
  match fs.resolve .entry root with
  | .ok (.found _ (.dir entries)) => Entries.visited selects entries
  | _ => 0

end PostureAudit
