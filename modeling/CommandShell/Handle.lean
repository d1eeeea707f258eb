/-
  CommandShell.Handle — what a stage reads from and writes to.

  A handle is one of the shell's own streams, which nobody closes, an end of a pipe, which the pipeline closes
  when the stage has ended, or a file that the stage opened for itself.
-/

import CommandShell.FileSystem
import CommandShell.Log
import CommandShell.Pipe

namespace CommandShell

inductive StandardStream where
  | stdin
  | stdout
  | stderr
  deriving DecidableEq, Repr

inductive Handle where
  | standard (stream : StandardStream)
  | pipeEnd (e : PipeEnd)
  | opened (file : Nat)
  deriving DecidableEq, Repr

/-- A program that was started: where it is installed, its words, its streams and the directory it works in. It
    does its work when the shell waits for it, or else when the line has been dealt with. -/
structure Job where
  program : Location
  argv : List Native
  stdin : Handle
  stdout : Handle
  stderr : Handle
  cwd : Location
  status : Option ExitStatus := none
  deriving DecidableEq, Repr

def Job.isRunning (job : Job) : Bool := job.status.isNone

end CommandShell
