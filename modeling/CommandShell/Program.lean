/-
  CommandShell.Program — programs that are not the shell's own, from their start to their end.

  A file is run if the system knows its content for a program, or if it names an interpreter. The program that was
  started does its work when the shell waits for it, or else when the line has been dealt with.
-/

import CommandShell.Search

namespace CommandShell

namespace Program

def isNewline (b : UInt8) : Bool := b = Bytes.newline

def isSpacing (b : UInt8) : Bool := b = 32 || b = 9

def interpreterMark : Bytes := Bytes.ofString "#!"

/-- The size of the piece of a file by which the system tells how to run it. A shorter file counts as filled
    up with zeros. -/
def headSize : Nat := 256

def headOf (data : Bytes) : Bytes := (data ++ List.replicate headSize 0).take headSize

def endsName (b : UInt8) : Bool := isSpacing b || b = 0

def trimSpacing (line : Bytes) : Bytes := (line.reverse.dropWhile isSpacing).reverse.dropWhile isSpacing

/-- The first line of a file behind its mark, without spacing around it. Without a newline the whole piece is
    the line, but for its last byte; then the name of the interpreter has to end within it. -/
def interpreterLine? (body : Bytes) : Option Bytes :=
  let line := body.takeWhile fun b => !(isNewline b || b = 0)
  if body[line.length]?.any isNewline then some (trimSpacing line)
  else if (body.dropWhile isSpacing).any endsName then some (trimSpacing body.dropLast)
  else none

/-- The interpreter that a file names, and the one argument it may give to it. -/
def interpreter? (data : Bytes) : Option (Bytes × List Native) := do
  if !interpreterMark.isPrefixOf data then none
  else
    let line ← interpreterLine? ((headOf data).drop interpreterMark.length)
    if line.isEmpty then none
    else
      let rest := line.dropWhile fun b => !endsName b
      let argument := Native.ofBytes ((rest.dropWhile isSpacing).takeWhile (· ≠ 0))
      some (line.takeWhile fun b => !endsName b, if rest.head?.any isSpacing then [argument] else [])

/-- The node at a path, if it may be run. A file that is open for writing, as those at `written` are, may not. -/
def runnable (fs : FileSystem) (cwd : Location) (written : List Location) (path : Native) :
    Except Fault (Location × Node) := do
  match ← fs.lookup cwd path with
  | .leaf location node =>
    if !node.fileMode?.any Permissions.mayEnter then .error (.system .notPermitted)
    else if written.contains location then .error (.system .inUse)
    else .ok (location, node)
  | _ => .error (.system .notPermitted)

/-- The interpreter of a name. An empty name stands for the working directory. -/
def runnableInterpreter (fs : FileSystem) (cwd : Location) (written : List Location) (name : Bytes) :
    Except Fault (Native × Location × Node) :=
  if name.isEmpty then .error (.system .notPermitted)
  else (runnable fs cwd written (.ofBytes name)).map fun found => (.ofBytes name, found)

def maxInterpreters : Nat := 5

/-- The program that runs when a node is run with these words, and the words it gets. A file that names an
    interpreter is handed to it, and that may be such a file again, up to `depth` times. -/
def loadNode (isProgram : Bytes → Bool) (fs : FileSystem) (cwd : Location) (written : List Location) (depth : Nat)
    (path : Native) (location : Location) (node : Node) (argv : List Native) : Except Fault (Location × List Native) :=
  match node with
  | .file _ data =>
    if isProgram data then .ok (location, argv)
    else match interpreter? data with
      | none => .error (.system .notExecutable)
      | some (name, args) =>
        match runnableInterpreter fs cwd written name, depth with
        | .error fault, _ => .error fault
        | .ok _, 0 => .error (.system .tooManyLinks)
        | .ok (name, location, node), depth + 1 =>
          loadNode isProgram fs cwd written depth name location node (name :: args ++ path :: argv.tail)
  | _ => .error (.system .notPermitted)

def maxWord : Nat := 131071

def load (isProgram : Bytes → Bool) (fs : FileSystem) (cwd : Location) (written : List Location) (path : Native)
    (argv : List String) : Except Fault (Location × List Native) := do
  let (location, node) ← runnable fs cwd written path
  if argv.any fun word => maxWord < word.utf8ByteSize then .error (.system .tooManyArguments)
  else loadNode isProgram fs cwd written maxInterpreters path location node (argv.map .text)

end Program

namespace World

/-- Write the pieces of a performance. A piece that cannot be written is lost. -/
def writePieces (job : Job) : List (OutStream × Bytes) → World → World
  | [], w => w
  | (stream, data) :: rest, w =>
    let h := match stream with
      | .stdout => job.stdout
      | .stderr => job.stderr
    writePieces job rest (w.write h data).2

/-- The input of a program. Of the shell's own input it leaves what it does not take. -/
def jobInput (job : Job) (w : World) : Bytes × World :=
  if w.host.programs.readsInput job then
    let (data, w) := w.readAll job.stdin
    match job.stdin with
    | .standard .stdin => (data, { w with input := data.drop (w.host.programs.reach job data) })
    | _ => (data, w)
  else ([], w)

def perform (job : Job) (w : World) : ExitStatus × World :=
  let (input, w) := w.jobInput job
  let p := w.host.programs.perform w.files job input
  let w := writePieces job p.writes w
  (p.status, ((w.release job.stdin).release job.stdout).release job.stderr)

/-- The program that a process runs that is to write to these streams, and the words it gets. While it is loaded the
    shell still holds its streams. -/
def loaded (path : Native) (argv : List String) (stdout stderr : Handle) (w : World) :
    Except Fault (Location × List Native) :=
  match w.noProcess with
  | some fault => .error fault
  | none =>
    let written := w.writtenThrough [stdout, stderr] ++ w.written
    Program.load w.host.programs.isProgram w.files w.cwd written path argv

/-- Start a program with these words and streams. -/
def spawn (path : Native) (argv : List String) (stdin stdout stderr : Handle) (w : World) : Except Fault Nat × World :=
  if argv.any fun arg => arg.toList.contains '\x00' then (.error .nulInArgument, w)
  else match w.loaded path argv stdout stderr with
    | .error fault => (.error fault, w)
    | .ok (program, argv) =>
      let job : Job := { program, argv, stdin, stdout, stderr, cwd := w.cwd }
      let w := ((w.share stdin).share stdout).share stderr
      (.ok w.jobs.length, { w with jobs := w.jobs ++ [job] })

def finishJob (number : Nat) (w : World) : ExitStatus × World :=
  match w.jobs[number]? with
  | none => (.code 0, w)
  | some job =>
    match job.status with
    | some status => (status, w)
    | none =>
      let (status, w) := w.perform job
      (status, { w with jobs := w.jobs.set number { job with status := some status } })

/-- Wait for a program to end, and ask how it did. -/
def waitJob (number : Nat) (w : World) : Except Fault ExitStatus × World :=
  let (status, ended) := w.finishJob number
  match w.noStatus with
  | none => (.ok status, ended)
  | some fault => (.error fault, ended)

/-- Let the programs below this number end, the one started last first. -/
def settleBelow : Nat → World → World
  | 0, w => w
  | number + 1, w => settleBelow number (w.finishJob number).2

def settle (w : World) : World := settleBelow w.jobs.length w

end World

end CommandShell
