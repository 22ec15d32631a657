import VirtualFs.Kernel.Call
import VirtualFs.Kernel.Locked

/-!
# Directories of mount nodes

The built-in driver of a file system: a node without a driver of its own can be opened as a
directory and read entry by entry.  An open directory remembers the name of its last entry and
looks its node up again on every reading, so the mount graph may change in between: an entry that
comes later in the order of siblings is found whenever it was added, and a node that is gone may
come back.

Once the end has been reported, reading on is an error.
-/

namespace VirtualFs.Action

/-- Open the node at a path as a directory. -/
def openDirectory (v : VfsId) (path : Path) : Action (Except Error Handle) := do
  if ← onGraph v fun g => pure (g.contains path) then
    unlocked do
      let s ← get
      set { s with openDirectories := s.openDirectories.push ⟨path, .start⟩ }
      return .ok (.directory s.openDirectories.size)
  else
    return .error .notFound

/-- The open directory with a number. -/
def directory (serial : Nat) : Action Directory :=
  unlocked do Section.orUnknown (← get).openDirectories[serial]?

/-- Move the cursor of an open directory. -/
def setCursor (serial : Nat) (d : Directory) (cursor : Cursor) : Action Unit :=
  unlocked do
    let d : Directory := { d with cursor := cursor }
    modify fun s => { s with openDirectories := s.openDirectories.setIfInBounds serial d }

/-- The next entry after a name, of the directory at a path. -/
def entryAfter (v : VfsId) (path : Path) (after : Option Segment) :
    Action (Except Error (Option DirEntry)) :=
  onGraph v fun g => pure (g.entryAfter path after)

/-- Read an open directory on, with the mount graph of file system `v`.  A failed reading keeps the
cursor. -/
def advance (v : VfsId) (serial : Nat) : Action (Except Error ReadDir) := do
  let d ← directory serial
  let next ← match d.cursor with
    | .start => entryAfter v d.path none
    | .after name => entryAfter v d.path (some name)
    | .finished => pure (.error .invalidArgument)
  match next with
  | .error e => return .error e
  | .ok (some entry) =>
    setCursor serial d (.after entry.name)
    return .ok (.entry entry)
  | .ok none =>
    setCursor serial d .finished
    return .ok .finished

/-- Read the directory behind a handle on; only handles of directories can be read so. -/
def readDirectory (v : VfsId) : Handle → Action (Except Error ReadDir)
  | .external _ => return .error .invalidArgument
  | .directory serial => holding (.cursor serial) (advance v serial)

end VirtualFs.Action
