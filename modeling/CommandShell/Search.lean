/-
  CommandShell.Search — finding programs.

  A name with a slash is the path of a program. Any other name is looked for in the directories of the search
  path, in order; an empty item of the search path means the working directory. A program is a regular file that
  may be run, and links to such files count. What is found is a path as the system has it, which need not be a text.
-/

import CommandShell.World

namespace CommandShell.Search

def directories (path : Native) : List Native :=
  (Path.items ':' path).map fun item => if item.isEmpty then "." else item

def mayRun : Target → Bool
  | .leaf _ node => node.fileMode?.any fun mode => Path.mayExecute mode.bits mode.owned mode.grouped
  | _ => false

/-- The directories to search; it is an error of the environment if there is no search path. -/
def searchPath (w : World) : List Native × World :=
  match w.env.get? "PATH" with
  | some path => (directories path, w)
  | none => ([], w.note .pathUnset)

/-- May what was found at this path be run? A failure to tell is noted, unless there is no such file. -/
def judge (path : Native) (found : Except Fault Target) (w : World) : Bool × World :=
  match found with
  | .ok target => (mayRun target, w)
  | .error fault => (false, if fault.isNotFound then w else w.note (.metadataUnreadable path fault))

def isExecutable (path : Native) (w : World) : Bool × World := judge path (w.files.lookup w.cwd path) w

def isExecutableEntry (dir name : Native) (w : World) : Bool × World :=
  judge (Path.join dir name) (w.files.lookupEntry w.cwd dir name) w

def findIn (name : String) : List Native → World → Option Native × World
  | [], w => (none, w)
  | dir :: rest, w =>
    match w.files.list w.cwd w.exhausted dir with
    | .error fault => findIn name rest (if fault.isNotFound then w else w.note (.directoryUnreadable dir fault))
    | .ok names =>
      if names.contains (.text name) then
        match isExecutableEntry dir name w with
        | (true, w) => (some (Path.join dir name), w)
        | (false, w) => findIn name rest w
      else findIn name rest w

def find (name : String) (w : World) : Option Native × World :=
  if name.isEmpty then (none, w)
  else if name.toList.contains '/' then
    match isExecutable name w with
    | (true, w) => (some (.text name), w)
    | (false, w) => (none, w)
  else
    let (dirs, w) := searchPath w
    findIn name dirs w

/-- Of these names in a directory, those of programs. A program whose name is no text cannot be called, but it is
    looked at. -/
def programsIn (dir : Native) : List Native → World → List String × World
  | [], w => ([], w)
  | name :: rest, w =>
    let (found, w) := isExecutableEntry dir name w
    let (names, w) := programsIn dir rest w
    (if found then name.text?.toList ++ names else names, w)

def programs : List Native → World → List String × World
  | [], w => ([], w)
  | dir :: rest, w =>
    let (here, w) := programsIn dir ((w.files.list w.cwd w.exhausted dir).toOption.getD []) w
    let (others, w) := programs rest w
    (here ++ others, w)

def all (w : World) : List String × World :=
  let (dirs, w) := searchPath w
  let (names, w) := programs dirs w
  ((names.mergeSort fun a b => decide (a ≤ b)).eraseReps, w)

end CommandShell.Search
