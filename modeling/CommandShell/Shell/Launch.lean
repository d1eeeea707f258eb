/-
  CommandShell.Shell.Launch — starting the shell from nothing but the world.

  The settings come from the environment and from a file of variables. Then the log begins, and the shell runs.
-/

import CommandShell.Settings.EnvFile
import CommandShell.Shell

namespace CommandShell

namespace Settings

/-- The settings from the environment and the file beside it. The directory for the history is made if it can be. -/
def load (w : World) : Settings × World :=
  let env := EnvFile.apply w.files w.exhausted w.cwd w.env
  let settings := ofEnvironment env
  let files := match Path.parent? settings.historyFile with
    | some parent => (w.files.makeDirectories w.cwd parent).2
    | none => w.files
  (settings, { w with env, files })

def logFile (s : Settings) (date : String) : Native := Path.join s.logDirectory s!"kosh_{date}.log"

def openLog (s : Settings) (date : String) (w : World) : Except Fault Nat × World :=
  match w.files.makeDirectories w.cwd s.logDirectory with
  | (.error fault, files) => (.error fault, { w with files })
  | (.ok _, files) => { w with files }.keepOpen (s.logFile date) .append

/-- Begin to log. Without a file only warnings are logged, to standard error, unless more was asked for there. -/
def startLog (s : Settings) (date : String) (w : World) : World :=
  match s.openLog date w with
  | (.ok number, w) =>
    let targets := .file number :: (if s.logsToStderr then [.stderr] else [])
    { w with logger := some ⟨s.threshold, targets⟩ }.note (.thresholdSet s.threshold)
  | (.error fault, w) =>
    let threshold := if s.logsToStderr then s.threshold else s.threshold.min (some .warn)
    ({ w with logger := some ⟨threshold, [.stderr]⟩ }.note (.logFileUnusable s.logDirectory fault)).note
      (.thresholdSet threshold)

end Settings

namespace Shell

def forcesColour (env : Environment) : Bool := (env.text? "CLICOLOR_FORCE").any (· ≠ "0")

/-- Start from nothing but the world, and run. The code of a process is one byte. -/
def launch (date : String) (w : World) : Nat × World :=
  let (settings, w) := Settings.load w
  let w := (settings.startLog date w).note (.settingsLoaded settings.directory)
  let (shell, w) := ofSettings settings (forcesColour w.env) w
  let (code, w) := shell.run w
  ((code % 256).toNat, w)

end Shell

end CommandShell
