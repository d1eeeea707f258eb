/-
  CommandShell.FileSystem.Access — reading, writing and making files and directories.

  An open file remembers its location and, unless it writes at the end, how far it has got.
-/

import CommandShell.FileSystem.Lookup
import CommandShell.Token

namespace CommandShell

structure OpenFile where
  location : Location
  mode : OpenMode
  offset : Nat := 0
  deriving DecidableEq, Repr

namespace FileSystem

def newFileMode : Permissions := 0o644

def newDirectoryMode : Permissions := 0o755

/-- Open a location that holds a node. Opening empties a file unless it is to be written at the end. -/
def openNode (fs : FileSystem) (l : Location) (node : Node) (mode : OpenMode) : Except Fault FileSystem :=
  match node with
  | .file bits _ =>
    if !bits.mayWrite then .error (.system .notPermitted)
    else match mode with
      | .truncate => .ok (fs.put l (.file bits []))
      | .append => .ok fs
  | .directory _ => .error (.system .isDirectory)
  | _ => .ok fs

def create (fs : FileSystem) (dir : Location) (name : Native) (node : Node) : Except Fault FileSystem :=
  match fs.node? dir with
  | some parent => if parent.takesEntries then .ok (fs.put (name :: dir) node) else .error (.system .notPermitted)
  | none => .error (.system .noEntry)

/-- Open a file for writing; a missing one is made. `full` tells that no descriptor is left. -/
def openForWriting (fs : FileSystem) (cwd : Location) (full : Bool) (path : Native) (mode : OpenMode) :
    Except Fault (OpenFile × FileSystem) := do
  checkPath path
  if full then .error (.system .tooManyOpen)
  else
    match fs.follow .make cwd path (Path.steps path) with
    | .error errno => .error (.system errno)
    | .ok (.directory _) => .error (.system .isDirectory)
    | .ok (.leaf location node) =>
      let fs ← fs.openNode location node mode
      .ok (⟨location, mode, 0⟩, fs)
    | .ok (.absent dir name) =>
      let fs ← fs.create dir name (.file newFileMode [])
      .ok (⟨name :: dir, mode, 0⟩, fs)

def write (fs : FileSystem) (f : OpenFile) (data : Bytes) : Except Fault (OpenFile × FileSystem) :=
  if data.isEmpty then .ok (f, fs)
  else match fs.node? f.location with
    | some (.file bits content) =>
      match f.mode with
      | .append => .ok (f, fs.put f.location (.file bits (content ++ data)))
      | .truncate =>
        .ok ({ f with offset := f.offset + data.length },
          fs.put f.location (.file bits (content.overwrite f.offset data)))
    | some .full => .error (.system .noSpace)
    | _ => .ok (f, fs)

def read (fs : FileSystem) (cwd : Location) (full : Bool) (path : Native) : Except Fault Bytes := do
  checkPath path
  if full then .error (.system .tooManyOpen)
  else
    match ← fs.lookup cwd path with
    | .leaf _ (.file bits data) => if bits.mayRead then .ok data else .error (.system .notPermitted)
    | .directory _ => .error (.system .isDirectory)
    | _ => .ok []

def list (fs : FileSystem) (cwd : Location) (full : Bool) (path : Native) : Except Fault (List Native) := do
  checkPath path
  if full then .error (.system .tooManyOpen)
  else
    let location ← fs.directoryAt cwd path
    if fs.directoryGrants location Permissions.mayRead then .ok (fs.names location) else .error (.system .notPermitted)

/-- Make one directory. A path that ends in dots leads to one that is there already. -/
def makeDirectory (fs : FileSystem) (cwd : Location) (path : Native) : Except Fault FileSystem := do
  checkPath path
  let dir ← fs.parentOf cwd path
  match (Path.innerSteps path).getLast? with
  | some (.into name) =>
    if (fs.node? (name :: dir)).isSome then .error (.system .exists_)
    else if maxName < name.size then .error (.system (fs.longNameError dir))
    else fs.create dir name (.directory newDirectoryMode)
  | _ => .error (.system .exists_)

/-- Make the first of these directories, after the others if it cannot be made at once. -/
def makeEach (fs : FileSystem) (cwd : Location) : List Native → Except Fault Unit × FileSystem
  | [] => (.ok (), fs)
  | path :: above =>
    if path.isEmpty then (.ok (), fs)
    else match fs.makeDirectory cwd path with
      | .ok fs => (.ok (), fs)
      | .error fault =>
        if !fault.isNotFound then (if fs.isDirectory cwd path then .ok () else .error fault, fs)
        else match fs.makeEach cwd above with
          | (.error fault, fs) => (.error fault, fs)
          | (.ok _, fs) =>
            match fs.makeDirectory cwd path with
            | .ok fs => (.ok (), fs)
            | .error fault => (if fs.isDirectory cwd path then .ok () else .error fault, fs)

/-- The path and the paths above it, the innermost first. -/
def pathsUp (path : Native) : List Native :=
  let start : Native := if Path.isAbsolute path then "/" else ""
  let items := Path.components path
  path :: (List.range items.length).reverse.map fun n => start ++ Path.intercalate "/" (items.take n)

def makeDirectories (fs : FileSystem) (cwd : Location) (path : Native) : Except Fault Unit × FileSystem :=
  fs.makeEach cwd (pathsUp path)

end FileSystem

end CommandShell
