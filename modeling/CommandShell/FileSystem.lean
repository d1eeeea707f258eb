/-
  CommandShell.FileSystem — files, directories and links, by their place in the tree.

  A location is the list of names that lead to a node, the innermost first, so that the location of an entry is
  its name in front of its directory's location. A file system says which node stands at which location. Files and
  directories have permission bits for their owner, for their group and for all others; every access goes by those of
  the class that the user of the shell is in.
-/

import CommandShell.Text.Native

namespace CommandShell

/-- The names from a node outwards to the root. -/
abbrev Location := List Native

namespace Location

def ofNames (names : List String) : Location := (names.map Native.text).reverse

/-- Where a location lies after the tree at `top` was removed: the names of that tree give way to ones that no
    entry can have, so nothing leads there any more, while the way out stays the same. -/
def afterRemoval (l top : Location) : Location :=
  if top.isSuffixOf l then List.replicate (l.length - top.tail.length) (.raw []) ++ top.tail else l

def path (l : Location) : String := "/" ++ "/".intercalate (l.reverse.map Native.shown)

end Location

structure Permissions where
  bits : Nat
  /-- The file belongs to the user that the shell runs as. -/
  owned : Bool := true
  /-- Its group is the group that the shell runs as. -/
  grouped : Bool := true
  deriving DecidableEq, Repr

namespace Permissions

instance (bits : Nat) : OfNat Permissions bits := ⟨{ bits }⟩

/-- Of the three bits for a kind of access, the one that counts for the user. -/
def grants (m : Permissions) (access : Nat) : Bool :=
  m.bits.testBit (access + if m.owned then 6 else if m.grouped then 3 else 0)

def mayRead (m : Permissions) : Bool := m.grants 2

def mayWrite (m : Permissions) : Bool := m.grants 1

/-- May the file be run, or the directory be passed through? -/
def mayEnter (m : Permissions) : Bool := m.grants 0

end Permissions

inductive Node where
  | file (mode : Permissions) (data : Bytes)
  | directory (mode : Permissions)
  | link (target : Native)
  /-- A device that takes everything. -/
  | null
  /-- A device that has no room. -/
  | full
  deriving DecidableEq, Repr

namespace Node

def fileMode? : Node → Option Permissions
  | file mode _ => some mode
  | _ => none

def takesEntries : Node → Bool
  | directory mode => mode.mayWrite
  | _ => false

end Node

structure FileSystem where
  entries : List (Location × Node)
  deriving DecidableEq, Repr

namespace FileSystem

def node? (fs : FileSystem) (l : Location) : Option Node := fs.entries.lookup l

def put (fs : FileSystem) (l : Location) (n : Node) : FileSystem :=
  ⟨(l, n) :: fs.entries.filter fun entry => entry.1 ≠ l⟩

def erase (fs : FileSystem) (l : Location) : FileSystem :=
  ⟨fs.entries.filter fun entry => !l.isSuffixOf entry.1⟩

def names (fs : FileSystem) (l : Location) : List Native :=
  fs.entries.filterMap fun entry =>
    match entry.1 with
    | name :: dir => if dir = l then some name else none
    | [] => none

/-- What the bits of a directory say. Nothing is refused where no directory is. -/
def directoryGrants (fs : FileSystem) (l : Location) (may : Permissions → Bool) : Bool :=
  match fs.node? l with
  | some (.directory mode) => may mode
  | _ => true

/-- Set a node, and make the directories that lead to it where they are missing. -/
def install (fs : FileSystem) : Location → Node → FileSystem
  | [], node => fs.put [] node
  | name :: dir, node =>
    let fs := if (fs.node? dir).isSome then fs else fs.install dir (.directory 0o755)
    fs.put (name :: dir) node

/-- A tree with the devices and a directory for temporary files. The devices' own directory cannot be written to. -/
def bare : FileSystem :=
  ⟨[([], .directory 0o755),
    (.ofNames ["dev"], .directory 0o555),
    (.ofNames ["dev", "null"], .null),
    (.ofNames ["dev", "full"], .full),
    (.ofNames ["tmp"], .directory 0o755)]⟩

end FileSystem

end CommandShell
