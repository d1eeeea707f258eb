/-
  CommandShell.Main — the shell as a command.

  It works on a tree of files in memory that holds the home directory and the tools.
  Lines come from standard input; what the shell writes is passed on, and its code is the code of the command.
-/

import CommandShell.Program.Tools
import CommandShell.Shell.Launch

namespace CommandShell

def settingNames : List String :=
  ["HOME", "TMPDIR", "TERM", "HISTFILE", "KOSH_THEME", "KOSH_EDITOR", "KOSH_LOG_LEVEL", "KOSH_LOG_DIR",
   "KOSH_LOG_STDERR", "CLICOLOR_FORCE"]

def World.initial (env : Environment) (input : Bytes) : World :=
  let home : Location := (Path.components ((env.get? "HOME").getD "/home")).reverse
  let files := FileSystem.bare.install home (.directory 0o755)
  let files := Tools.table.foldl (fun fs tool => fs.install (.ofNames ["bin", tool.1]) (.file 0o755 Tools.content)) files
  { host := Tools.host, files, cwd := home, env := env.set "PATH" "/bin", input }

partial def readToEnd (stream : IO.FS.Stream) (data : ByteArray) : IO ByteArray := do
  let chunk ← stream.read 65536
  if chunk.isEmpty then return data else readToEnd stream (data ++ chunk)

end CommandShell

open CommandShell in
def main : IO UInt32 := do
  let env ← settingNames.filterMapM fun key => return (← IO.getEnv key).map fun value => (key, .text value)
  let input ← readToEnd (← IO.getStdin) .empty
  let (code, w) := Shell.launch "today" (World.initial env input.toList)
  (← IO.getStdout).write ⟨w.output.toArray⟩
  (← IO.getStderr).write ⟨w.errors.toArray⟩
  return UInt32.ofNat code
