/-
  CommandShell.Completion.Commands — the commands that can be completed.

  They are the builtins, and the programs that the search path leads to at the time.
-/

import CommandShell.Builtin
import CommandShell.Completion

namespace CommandShell.Completion

/-- The names of all commands. Getting them looks through the search path once. -/
def commands (w : World) : PrefixTree × World :=
  let (programs, w) := Search.all w
  (.ofWords (Builtin.all.map Builtin.name ++ programs), w)

end CommandShell.Completion
