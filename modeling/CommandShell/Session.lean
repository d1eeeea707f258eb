/-
  CommandShell.Session — carrying out one line.

  A line is remembered as it was entered, then read as a pipeline and run. A blank line is nothing at all.
-/

import CommandShell.Command.Parser
import CommandShell.Stage
import CommandShell.Token.Scanner

namespace CommandShell

namespace Session

/-- Run the commands of a pipeline. Whatever still runs afterwards runs to its end. -/
def runCommands (style : String → String) (commands : List Command) (w : World) : Next × World :=
  let stages := commands.map fun command => ({ command } : Stage)
  let (next, stages, w) := Pipeline.run style stages w
  (next, (stages.foldl (fun w s => s.drop w) w).settle)

def carryOut (style : String → String) (line : String) (w : World) : Next × World :=
  if Text.allBlank line then (.goOn, w)
  else
    let w := w.pushHistory line
    let commands := pipelineOf (tokensOf line)
    runCommands style commands (w.note (.parsed commands.length))

end Session

end CommandShell
