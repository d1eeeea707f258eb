/-
  CommandShell.StageError — the ways a stage of a pipeline ends badly.

  A command that ran and ended with a code other than zero has said itself what was wrong, and a request to
  leave the shell is none of its troubles: these two are silent. All others are shown to the user.
-/

import CommandShell.Fault

namespace CommandShell

inductive StageError where
  | cannotStart (name : String) (cause : Fault)
  /-- The target of a redirection could not be opened. -/
  | cannotOpen (name path : String) (cause : Fault)
  /-- A command ended with a code other than zero. -/
  | exited (name : String) (code : Int)
  | io (name : String) (cause : Fault)
  /-- A builtin broke down. -/
  | brokeDown (name message : String)
  | noPipe (errno : Errno)
  | exitRequested (code : Int)
  deriving DecidableEq, Repr

namespace StageError

def message : StageError → String
  | cannotStart name cause => s!"{name}: {cause.message}"
  | cannotOpen name path cause => s!"{name}: {path}: {cause.message}"
  | exited name code => s!"{name}: exit status {code}"
  | io name cause => s!"{name}: {cause.message}"
  | brokeDown name message => s!"{name}: internal error: {message}"
  | noPipe errno => s!"pipe: {errno.symbolText}"
  | exitRequested code => s!"exit requested with status {code}"

def isSilent : StageError → Bool
  | exited .. => true
  | exitRequested .. => true
  | _ => false

end StageError

end CommandShell
