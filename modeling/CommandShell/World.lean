/-
  CommandShell.World — everything a command can see or change.

  The world is the tree of files, the working directory, the environment, the shell's own streams, the pipes,
  open files and programs in use, the history and the log. The shell's own streams are taken to work: what is written
  to them arrives.

  The system has a supply of descriptors for the shell. A file that is opened takes one for as long as it stays open,
  a pipe takes two, and so does every second descriptor for a stream that is not the shell's own take one. Whoever
  closes a stream gives its descriptor back.
-/

import CommandShell.Fanout
import CommandShell.FileSystem.Access
import CommandShell.History
import CommandShell.Host
import CommandShell.Pipeline
import CommandShell.Text.ControlSequence

namespace CommandShell

inductive LogTarget where
  | file (number : Nat)
  | stderr
  deriving DecidableEq, Repr

structure Logger where
  threshold : Threshold
  targets : List LogTarget
  deriving DecidableEq, Repr

structure World where
  host : Host
  files : FileSystem
  cwd : Location
  env : Environment := []
  /-- How many more descriptors are to be had. -/
  spare : Nat := 1024
  /-- Why no thread is to be had, if none is. -/
  noThread : Option Fault := none
  /-- Why no process is to be had, if none is. -/
  noProcess : Option Fault := none
  /-- Why the system does not tell how a program ended, if it does not. -/
  noStatus : Option Fault := none
  input : Bytes := []
  output : Bytes := []
  errors : Bytes := []
  pipes : Pipes := []
  opened : List OpenFile := []
  jobs : List Job := []
  history : History := {}
  /-- Somebody broke down while holding the history. -/
  historyPoisoned : Bool := false
  notices : List Notice := []
  logger : Option Logger := none

namespace World

/-! ## Output and the log -/

def print (text : String) (w : World) : World := { w with output := w.output ++ Bytes.ofString text }

def printError (text : String) (w : World) : World := { w with errors := w.errors ++ Bytes.ofString text }

def writeFile (number : Nat) (data : Bytes) (w : World) : Except Fault Unit × World :=
  match w.opened[number]? with
  | none => (.error (.system .badDescriptor), w)
  | some file =>
    match w.files.write file data with
    | .ok (file, files) => (.ok (), { w with files, opened := w.opened.set number file })
    | .error fault => (.error fault, w)

def writeLog (data : Bytes) (target : LogTarget) (w : World) : Except Fault Unit × LogTarget × World :=
  match target with
  | .file number => let (answer, w) := w.writeFile number data; (answer, target, w)
  | .stderr => (.ok (), target, { w with errors := w.errors ++ data })

def logLine (n : Notice) (w : World) : String :=
  s!"[PID:{w.host.process}][{n.level.name}] {w.host.clock w.notices.length} - {n.text}\n"

/-- Take down a notice, and write it to the log if its threshold admits it. What would steer a terminal does not
    get into the log. -/
def note (n : Notice) (w : World) : World :=
  let noted := { w with notices := w.notices ++ [n] }
  match w.logger with
  | none => noted
  | some logger =>
    if logger.threshold.admits n.level then
      (Fanout.write writeLog (Text.plain (Bytes.ofString (w.logLine n))) logger.targets noted).2.2
    else noted

/-! ## Handles -/

def write (h : Handle) (data : Bytes) (w : World) : Except Fault Unit × World :=
  match h with
  | .standard .stderr => (.ok (), { w with errors := w.errors ++ data })
  | .standard _ => (.ok (), { w with output := w.output ++ data })
  | .pipeEnd e => let (answer, pipes) := w.pipes.write e data; (answer, { w with pipes })
  | .opened number => w.writeFile number data

def exhausted (w : World) : Bool := w.spare = 0

/-- Close everything that was opened since, but for pipes. -/
def closeSince (before w : World) : World := { w with spare := before.spare }

/-- Get a second descriptor for the same stream. The shell's own streams need none. -/
def duplicate (h : Handle) (w : World) : Except Fault Unit × World :=
  match h with
  | .standard _ => (.ok (), w)
  | _ => if w.exhausted then (.error (.system .tooManyOpen), w) else (.ok (), { w with spare := w.spare - 1 })

/-- Get second descriptors, up to the first that is not to be had. -/
def duplicateAll : List Handle → World → Except Fault Unit × World
  | [], w => (.ok (), w)
  | h :: rest, w =>
    match w.duplicate h with
    | (.ok _, w) => duplicateAll rest w
    | (.error fault, w) => (.error fault, w)

def share (h : Handle) (w : World) : World :=
  match h with
  | .pipeEnd e => { w with pipes := w.pipes.share e }
  | _ => w

def release (h : Handle) (w : World) : World :=
  match h with
  | .pipeEnd e => { w with pipes := w.pipes.release e }
  | _ => w

/-- The shell itself holds a stream no more. -/
def close (h : Handle) (w : World) : World :=
  match h with
  | .standard _ => w
  | .pipeEnd e => { w with pipes := w.pipes.release e, spare := w.spare + 1 }
  | .opened _ => { w with spare := w.spare + 1 }

def readPipe (e : PipeEnd) (w : World) : Except Fault Bytes × World :=
  let (answer, pipes) := w.pipes.read e
  (answer, { w with pipes })

/-- Read to the end what a program gets as its input. -/
def readAll (h : Handle) (w : World) : Bytes × World :=
  match h with
  | .standard .stdin => (w.input, { w with input := [] })
  | .pipeEnd e => let (answer, w) := w.readPipe e; (answer.toOption.getD [], w)
  | _ => ([], w)

def writtenThrough (handles : List Handle) (w : World) : List Location :=
  handles.filterMap fun h =>
    match h with
    | .opened number => (w.opened[number]?).map OpenFile.location
    | _ => none

def runningJobs (w : World) : List Job := w.jobs.filter Job.isRunning

def written (w : World) : List Location :=
  w.writtenThrough (w.runningJobs.flatMap fun job => [job.stdout, job.stderr])

/-- Open a file for writing. A program cannot be written to while it runs. -/
def openFile (path : Native) (mode : OpenMode) (w : World) : Except Fault Nat × World :=
  match w.files.openForWriting w.cwd w.exhausted path mode with
  | .ok (file, files) =>
    if w.runningJobs.any fun job => job.program = file.location then (.error (.system .inUse), w)
    else (.ok w.opened.length, { w with files, opened := w.opened ++ [file] })
  | .error fault => (.error fault, w)

/-- Open a file that stays open. -/
def keepOpen (path : Native) (mode : OpenMode) (w : World) : Except Fault Nat × World :=
  match w.openFile path mode with
  | (.ok number, w) => (.ok number, { w with spare := w.spare - 1 })
  | (.error fault, w) => (.error fault, w)

/-- Open the target of a redirection, if there is one, for the command of this name. -/
def openRedirection (name : String) (r : Option Redirection) (w : World) :
    Except StageError (Option Handle) × World :=
  match r with
  | none => (.ok none, w)
  | some r =>
    match (w.note (.redirecting r.target r.mode)).keepOpen r.target r.mode with
    | (.ok number, w) => (.ok (some (.opened number)), w)
    | (.error fault, w) => (.error (.cannotOpen name r.target fault), w)

def makePipe (w : World) : Except Errno (PipeEnd × PipeEnd) × World :=
  if w.spare < 2 then (.error .tooManyOpen, w)
  else let (ends, pipes) := w.pipes.create; (.ok ends, { w with pipes, spare := w.spare - 2 })

instance : Surroundings World where
  makePipe := makePipe
  dropEnd e w := w.close (.pipeEnd e)
  note := note
  complain style message w := w.printError (style message ++ "\n")

/-! ## The working directory -/

/-- Remove a file or a whole tree. A working directory in it can be left, but not found again. -/
def remove (l : Location) (w : World) : World :=
  { w with files := w.files.erase l, cwd := w.cwd.afterRemoval l }

/-- The path of the working directory; none if it has been removed. -/
def workingDirectory? (w : World) : Option String :=
  if (w.files.node? w.cwd).isSome then some w.cwd.path else none

/-! ## History -/

def lockHistory (w : World) : World := if w.historyPoisoned then w.note .historyPoisoned else w

def pushHistory (line : String) (w : World) : World :=
  let w := w.lockHistory
  { w with history := w.history.push line }

instance : Storage World where
  readLines path w := (w.files.read w.cwd w.exhausted path).map Bytes.textLines
  openFile := openFile
  writeFile := writeFile

def readHistory (path : Native) (w : World) : Except Fault Nat × World :=
  match w.history.readFrom path w with
  | (.ok count, history) => (.ok count, { w with history }.note (.historyRead path count))
  | (.error fault, history) => (.error fault, { w with history })

def writeHistory (path : Native) (w : World) : Except Fault Unit × World := w.history.writeTo path w

def appendHistory (path : Native) (w : World) : Except Fault Unit × World :=
  let (answer, history, w) := w.history.appendTo path w
  (answer, { w with history })

end World

end CommandShell
