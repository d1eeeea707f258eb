/-
  CommandShell.Host — what the shell takes from the system as it comes.

  How a tilde at the start of a path is read, what programs do that are not the shell's own, and which process number
  and which time a record of the log gets: the shell decides none of this, and nothing is assumed about it.
-/

import CommandShell.Handle
import CommandShell.Settings

namespace CommandShell

structure Performance where
  writes : List (OutStream × Bytes) := []
  status : ExitStatus := .code 0
  deriving DecidableEq, Repr, Inhabited

/-- The programs of a system. A program does all its work in one go: it reads, writes and ends. -/
structure Programs where
  isProgram : Bytes → Bool
  readsInput : Job → Bool
  /-- How much a program takes of the input that there is. -/
  reach : Job → Bytes → Nat
  perform : FileSystem → Job → Bytes → Performance
  deriving Inhabited

structure Host where
  expandTilde : Environment → String → String
  programs : Programs
  process : Nat
  /-- The time of the record that so many others came before. -/
  clock : Nat → String
  deriving Inhabited

end CommandShell
