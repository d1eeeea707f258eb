/-
  CommandShell.Stage — one command of a pipeline on its way from start to end.

  Starting a stage opens the targets of its redirections and then carries out a builtin or starts a program. A
  command that is not found is no failure: the stage says so on its own output and is done. Waiting gives the
  result once; a stage that was waited for has ended, and waiting again finds nothing wrong.
-/

import CommandShell.Builtin
import CommandShell.Command
import CommandShell.Program

namespace CommandShell

inductive Progress where
  | pending
  | skipped
  | external (job : Nat)
  | builtin (outcome : Outcome)
  | finished

structure Stage where
  command : Command
  stdin : Handle := .standard .stdin
  stdout : Handle := .standard .stdout
  stderr : Handle := .standard .stderr
  progress : Progress := .pending

namespace Stage

def name (s : Stage) : String := s.command.name

structure Outputs where
  stdout : Handle
  stderr : Handle

namespace Outputs

def handle (o : Outputs) : OutStream → Handle
  | .stdout => o.stdout
  | .stderr => o.stderr

def outlet (o : Outputs) : Outlet World where
  write stream data w := w.write (o.handle stream) data
  flush _ w := (.ok (), w)

end Outputs

/-- Open the targets of the redirections, standard output first. What is not redirected stays as it is wired. -/
def redirected (s : Stage) (w : World) : Except StageError Outputs × World :=
  match w.openRedirection s.name s.command.stdout with
  | (.error error, w) => (.error error, w)
  | (.ok stdout, w) =>
    match w.openRedirection s.name s.command.stderr with
    | (.error error, w) => (.error error, w)
    | (.ok stderr, w) => (.ok ⟨stdout.getD s.stdout, stderr.getD s.stderr⟩, w)

def duplicate (s : Stage) (handles : List Handle) (w : World) : Except StageError Unit × World :=
  match w.duplicateAll handles with
  | (.ok _, w) => (.ok (), w)
  | (.error fault, w) => (.error (.io s.name fault), w)

/-- Get the outputs of a builtin, and a thread for it. -/
def prepare (s : Stage) (w : World) : Except StageError Outputs × World :=
  match s.redirected w with
  | (.error error, w) => (.error error, w)
  | (.ok outputs, w) =>
    match s.duplicate [outputs.stdout, outputs.stderr] w with
    | (.error error, w) => (.error error, w)
    | (.ok _, w) =>
      match w.noThread with
      | some fault => (.error (.cannotStart s.name fault), w)
      | none => (.ok outputs, w)

def startAction (s : Stage) (action : Builtin.Action) (w : World) : Except StageError Unit × Stage × World :=
  match s.prepare w with
  | (.error error, w) => (.error error, s, w)
  | (.ok outputs, w) =>
    let (reply, w) := action s.command.arguments w
    let (outcome, w) := reply.deliver s.name outputs.outlet w
    (.ok (), { s with progress := .builtin outcome }, w)

def sayNotFound (s : Stage) (outputs : Outputs) (w : World) : Except StageError Unit × Stage × World :=
  let w := w.note (.commandNotFound s.name)
  match s.duplicate [outputs.stdout] w with
  | (.error error, w) => (.error error, s, w)
  | (.ok _, w) =>
    match w.write outputs.stdout (Bytes.ofString s!"{s.name}: command not found\n") with
    | (.error fault, w) => (.error (.io s.name fault), s, w)
    | (.ok _, w) => (.ok (), { s with progress := .skipped }, w)

/-- A way to start programs: with a path, the words and the streams. -/
abbrev Spawner := Native → List String → Handle → Handle → Handle → World → Except Fault Nat × World

def launched (s : Stage) : Except Fault Nat × World → Except StageError Unit × Stage × World
  | (.error fault, w) => (.error (.cannotStart s.name fault), s, w)
  | (.ok job, w) => (.ok (), { s with progress := .external job }, w)

def startProgram (spawn : Spawner) (s : Stage) (w : World) : Except StageError Unit × Stage × World :=
  match s.redirected w with
  | (.error error, w) => (.error error, s, w)
  | (.ok outputs, w) =>
    match Search.find s.name w with
    | (none, w) => s.sayNotFound outputs w
    | (some path, w) =>
      match s.duplicate [s.stdin, outputs.stdout, outputs.stderr] w with
      | (.error error, w) => (.error error, s, w)
      | (.ok _, w) => s.launched (spawn path s.command.argv s.stdin outputs.stdout outputs.stderr w)

/-- Carry out a builtin, if `find?` has one, or else start a program. -/
def dispatch (find? : String → Option Builtin.Action) (spawn : Spawner) (s : Stage) (w : World) :
    Except StageError Unit × Stage × World :=
  match find? s.name with
  | some action => s.startAction action w
  | none => s.startProgram spawn w

/-- Start a stage, where `find?` tells the builtins and `spawn` starts programs. All that the start has opened for
    itself is closed when it is over. -/
def startWith (find? : String → Option Builtin.Action) (spawn : Spawner) (s : Stage) (w : World) :
    Except StageError Unit × Stage × World :=
  if s.command.isEmpty then (.ok (), { s with progress := .skipped }, w)
  else
    let (answer, s, w') := s.dispatch find? spawn (w.note (.starting s.command.argv))
    (answer, s, w.closeSince w')

def start (s : Stage) (w : World) : Except StageError Unit × Stage × World :=
  s.startWith Builtin.actionOf? World.spawn w

def exitResult (name : String) (status : ExitStatus) : Except StageError Unit :=
  if status = .code 0 then .ok () else .error (.exited name status.value)

def wait (s : Stage) (w : World) : Except StageError Unit × Stage × World :=
  let done := { s with progress := .finished }
  match s.progress with
  | .external job =>
    match w.waitJob job with
    | (.ok status, w) => (exitResult s.name status, done, w.note (.programEnded s.name status))
    | (.error fault, w) => (.error (.io s.name fault), done, w)
  | .builtin (.result result) => (result, done, w)
  | .builtin (.crashed message) =>
    let message := message.getD "unknown panic"
    (.error (.brokeDown s.name message), done, w.note (.builtinCrashed s.name message))
  | _ => (.ok (), done, w)

def attachInput (s : Stage) (e : PipeEnd) (w : World) : Stage × World := ({ s with stdin := .pipeEnd e }, w)

def attachOutput (s : Stage) (e : PipeEnd) (w : World) : Stage × World := ({ s with stdout := .pipeEnd e }, w)

def detachInput (s : Stage) (w : World) : Stage × World :=
  ({ s with stdin := .standard .stdin }, w.close s.stdin)

def detachOutput (s : Stage) (w : World) : Stage × World :=
  ({ s with stdout := .standard .stdout }, w.close s.stdout)

def drop (s : Stage) (w : World) : World := (w.close s.stdin).close s.stdout

end Stage

instance : StageLike Stage World where
  outputRedirected s := s.command.stdout.isSome
  attachInput := Stage.attachInput
  attachOutput := Stage.attachOutput
  start := Stage.start
  wait := Stage.wait
  detachInput := Stage.detachInput
  detachOutput := Stage.detachOutput

end CommandShell
