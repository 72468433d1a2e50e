import PostureAudit.FileSystem.Path
import PostureAudit.FileSystem.OsError

set_option autoImplicit false

/-! # File systems

A file system is a tree of files, links and directories below a root, one directory of which is the
working directory. A directory lists its entries in some order; looking an entry up by name does
not depend on it while the names differ. The operating system may refuse to let an entry be read,
written to or passed through, for want of a permission or because a device fails. -/

namespace PostureAudit

/-- A file, a symbolic link, or a directory with named entries. -/
inductive FileNode where
  | file (content : Bytes)
  | link (target : Path)
  | dir (entries : List (Bytes × FileNode))
  deriving Repr

/-- The entries of a directory. -/
abbrev Entries := List (Bytes × FileNode)

/-- The names on the way from a directory to something below it. -/
abbrev Trail := List Bytes

/-- What a file or a directory is used for. -/
inductive Use where
  /-- Reading a file, or listing a directory. -/
  | read
  /-- Writing to a file, or giving a directory an entry or taking one from it. -/
  | write
  /-- Passing through a directory. -/
  | search
  deriving DecidableEq, Repr

/-- All files, and the directory from which paths that are not absolute start. -/
structure FileSystem where
  /-- The entries of the root. -/
  entries : Entries
  /-- The way from the root to the working directory. -/
  workingDirectory : Trail
  /-- Why the operating system refuses a use of what is at the end of a trail, if it does. -/
  refusal? : Use → Trail → Option OsError

namespace Entries

def get? (entries : Entries) (name : Bytes) : Option FileNode :=
  (entries.find? (·.1 = name)).map (·.2)

/-- Gives a name an entry, in the place of the one it has, or at the end. -/
def set : Entries → Bytes → FileNode → Entries
  | [], name, node => [(name, node)]
  | (n, old) :: rest, name, node =>
    if n = name then (n, node) :: rest else (n, old) :: set rest name node

/-- Removes the entry with a name. -/
def erase (entries : Entries) (name : Bytes) : Entries := entries.filter (·.1 ≠ name)

/-- The entries of the directory at the end of a trail. -/
def below? : Entries → Trail → Option Entries
  | entries, [] => some entries
  | entries, name :: trail =>
    match get? entries name with
    | some (.dir inner) => below? inner trail
    | _ => none

/-- Changes the entries of the directory at the end of a trail. A trail that leads to no directory
    changes nothing. -/
def modifyBelow (f : Entries → Entries) : Entries → Trail → Entries
  | entries, [] => f entries
  | entries, name :: trail =>
    match get? entries name with
    | some (.dir inner) => set entries name (.dir (modifyBelow f inner trail))
    | _ => entries

@[simp] theorem get?_set_self (entries : Entries) (name : Bytes) (node : FileNode) :
    get? (set entries name node) name = some node := by
  induction entries with
  | nil => simp [set, get?]
  | cons e rest ih =>
    obtain ⟨n, old⟩ := e
    by_cases h : n = name
    · simp [set, get?, h]
    · simpa [set, get?, h] using ih

theorem get?_set_of_ne (entries : Entries) {name other : Bytes} (node : FileNode)
    (h : other ≠ name) : get? (set entries name node) other = get? entries other := by
  induction entries with
  | nil => simp [set, get?, Ne.symm h]
  | cons e rest ih =>
    obtain ⟨n, old⟩ := e
    by_cases hn : n = name
    · subst hn
      simp [set, get?, Ne.symm h]
    · by_cases ho : n = other
      · subst ho
        simp [set, get?, hn]
      · simpa [set, get?, hn, ho] using ih

end Entries

end PostureAudit
