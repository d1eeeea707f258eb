/-
  CommandShell.Fault — what can go wrong when the system is asked for something.

  Most faults are system errors and are shown with their number. A few come up before the system is asked.
-/

import CommandShell.Errno

namespace CommandShell

inductive Fault where
  | system (errno : Errno)
  | notUtf8
  | nulInName
  | nulInArgument
  /-- A failure known by its text alone. -/
  | other (text : String)
  deriving DecidableEq, Repr

namespace Fault

def message : Fault → String
  | system e => s!"{e.text} (os error {e.code})"
  | notUtf8 => "stream did not contain valid UTF-8"
  | nulInName => "file name contained an unexpected NUL byte"
  | nulInArgument => "nul byte found in provided data"
  | other text => text

def isNotFound (f : Fault) : Bool := f = system .noEntry

end Fault

end CommandShell
