/-
  CommandShell.FileSystem.Lookup — where a path leads.

  A path is followed step by step from the root or from the working directory. Links are followed, but no more
  than forty of them; the steps along a link's target take the place of the link, so a link to `d/` is possible
  in front of a directory only. Every step out of a directory needs leave to pass through it. A path whose last name is
  missing leads to the place where it would stand.
-/

import CommandShell.Fault
import CommandShell.FileSystem
import CommandShell.Path

namespace CommandShell

inductive Target where
  | directory (location : Location)
  | leaf (location : Location) (node : Node)
  /-- A name that its directory lacks. -/
  | absent (directory : Location) (name : Native)
  deriving DecidableEq, Repr

namespace FileSystem

/-- The largest size of a name and of a path, in bytes. -/
def maxName : Nat := 255

def maxPath : Nat := 4095

def maxLinks : Nat := 40

inductive Purpose where
  | find
  | make
  deriving DecidableEq, Repr

/-- The error of a name that is too long. In a directory that is gone nothing is looked for. -/
def longNameError (fs : FileSystem) (dir : Location) : Errno :=
  if (fs.node? dir).isSome then .nameTooLong else .noEntry

/-- A step out of a directory. -/
def leaving (fs : FileSystem) (here : Location) (step : Except Errno Target) : Except Errno Target :=
  if fs.directoryGrants here Permissions.mayEnter then step else .error .notPermitted

/-- Follow steps up to the first link, which `follow` takes over. A file that is to be made cannot have a slash
    behind its name, whatever the name stands for. -/
def walkWith (follow : Location → List Path.Step → Except Errno Target) (fs : FileSystem) (purpose : Purpose)
    (here : Location) : List Path.Step → Except Errno Target
  | [] => .ok (.directory here)
  | .slash :: rest => fs.walkWith follow purpose here rest
  | .stay :: rest => fs.leaving here (fs.walkWith follow purpose here rest)
  | .up :: rest => fs.leaving here (fs.walkWith follow purpose here.tail rest)
  | .into name :: rest =>
    fs.leaving here <|
      if purpose = .make && rest = [.slash] then .error .isDirectory
      else if maxName < name.size then .error (fs.longNameError here)
      else
        let there := name :: here
        match fs.node? there with
        | none => if rest.isEmpty then .ok (.absent here name) else .error .noEntry
        | some (.directory _) => fs.walkWith follow purpose there rest
        | some (.link target) => follow (if Path.isAbsolute target then [] else here) (Path.steps target ++ rest)
        | some node => if rest.isEmpty then .ok (.leaf there node) else .error .notDirectory

def walk (fs : FileSystem) (purpose : Purpose) : (links : Nat) → Location → List Path.Step → Except Errno Target
  | 0 => fs.walkWith (fun _ _ => .error .tooManyLinks) purpose
  | links + 1 => fs.walkWith (fs.walk purpose links) purpose

def checkPath (path : Native) : Except Fault Unit :=
  if path.has '\x00' then .error .nulInName
  else if path.isEmpty then .error (.system .noEntry)
  else if maxPath < path.size then .error (.system .nameTooLong)
  else .ok ()

/-- Follow steps of a path, where relative paths begin at `cwd`. -/
def follow (fs : FileSystem) (purpose : Purpose) (cwd : Location) (path : Native) (steps : List Path.Step) :
    Except Errno Target :=
  fs.walk purpose maxLinks (if Path.isAbsolute path then [] else cwd) steps

def present : Except Errno Target → Except Fault Target
  | .error errno => .error (.system errno)
  | .ok (.absent _ _) => .error (.system .noEntry)
  | .ok target => .ok target

def lookup (fs : FileSystem) (cwd : Location) (path : Native) : Except Fault Target := do
  checkPath path
  present (fs.follow .find cwd path (Path.steps path))

/-- What stands at the path that leads to an entry of a directory. -/
def lookupEntry (fs : FileSystem) (cwd : Location) (dir : Native) (name : Native) : Except Fault Target :=
  if maxPath < (Path.join dir "").size + name.size then .error (.system .nameTooLong)
  else present (fs.follow .find cwd dir (Path.innerSteps dir ++ [.into name]))

def exists_ (fs : FileSystem) (cwd : Location) (path : Native) : Bool := (fs.lookup cwd path).isOk

def isDirectory (fs : FileSystem) (cwd : Location) (path : Native) : Bool :=
  match fs.lookup cwd path with
  | .ok (.directory _) => true
  | _ => false

def directoryAt (fs : FileSystem) (cwd : Location) (path : Native) : Except Fault Location := do
  match ← fs.lookup cwd path with
  | .directory location => .ok location
  | _ => .error (.system .notDirectory)

/-- The directory at a path, if it can be worked in. -/
def enter (fs : FileSystem) (cwd : Location) (path : Native) : Except Fault Location := do
  let location ← fs.directoryAt cwd path
  if fs.directoryGrants location Permissions.mayEnter then .ok location else .error (.system .notPermitted)

/-- The directory in which the last step of a path is made. -/
def parentOf (fs : FileSystem) (cwd : Location) (path : Native) : Except Fault Location :=
  match fs.follow .find cwd path (Path.innerSteps path).dropLast with
  | .error errno => .error (.system errno)
  | .ok (.directory location) =>
    if fs.directoryGrants location Permissions.mayEnter then .ok location else .error (.system .notPermitted)
  | .ok (.leaf _ _) => .error (.system .notDirectory)
  | .ok (.absent _ _) => .error (.system .noEntry)

/-- Where an entry lies when links are followed: those on the way to it, and the entry itself if it is one. -/
def behindLinks (fs : FileSystem) : Location → Location
  | [] => []
  | name :: dir =>
    let dir := fs.behindLinks dir
    match fs.node? (name :: dir) with
    | some (.link target) =>
      match fs.follow .find dir target (Path.steps target) with
      | .ok (.directory location) => location
      | .ok (.leaf location _) => location
      | .ok (.absent dir name) => name :: dir
      | .error _ => name :: dir
    | _ => name :: dir

/-- Where an entry lies when links on the way to it are followed. -/
def entryBehindLinks (fs : FileSystem) : Location → Location
  | [] => []
  | name :: dir => name :: fs.behindLinks dir

end FileSystem

end CommandShell
