/-
  CommandShell.Settings — the settings of the shell.

  Settings start from defaults below a directory of the shell's own and are then overridden, one by one, by
  environment variables.
-/

import CommandShell.Log
import CommandShell.Path

namespace CommandShell

/-- The environment: names and values, each name once. -/
abbrev Environment := List (String × Native)

namespace Environment

def get? (env : Environment) (key : String) : Option Native := List.lookup key env

def text? (env : Environment) (key : String) : Option String := (env.get? key).bind Native.text?

/-- The text behind `name=` in the entries, which are `NAME=VALUE` to the system: a name with an equals sign in it
    reaches into a value. -/
def textBehind? (env : Environment) (name : String) : Option String :=
  let start := Bytes.ofString (name ++ "=")
  let value? := env.findSome? fun (key, value) =>
    let entry := Bytes.ofString (key ++ "=") ++ value.bytes
    if start.isPrefixOf entry then some (Native.ofBytes (entry.drop start.length)) else none
  value?.bind Native.text?

def unset (env : Environment) (key : String) : Environment := env.filter fun entry => entry.1 ≠ key

/-- Set a variable unless it has a text for its value. -/
def setDefault (env : Environment) (key value : String) : Environment :=
  if (env.text? key).isSome then env else env.unset key ++ [(key, .text value)]

def set (env : Environment) (key : String) (value : Native) : Environment := (key, value) :: env.unset key

end Environment

inductive EditingKeys where
  | emacs
  | vi
  deriving DecidableEq, Repr

structure Settings where
  name : String := "kosh"
  directory : Native
  theme : String := "default"
  historyFile : Native
  editing : String := "emacs"
  logLevel : String := "warn"
  logDirectory : Native
  logsToStderr : Bool := false
  deriving DecidableEq, Repr

namespace Settings

/-- The shell's own directory: below the home directory, or else below the one for temporary files. -/
def defaultDirectory (env : Environment) : Native :=
  match env.text? "HOME" with
  | some home => Path.join home ".config/kosh"
  | none => Path.join ((env.get? "TMPDIR").getD "/tmp") "kosh"

def defaults (env : Environment) : Settings :=
  let dir := defaultDirectory env
  { directory := dir, historyFile := Path.join dir ".kosh_history", logDirectory := Path.join dir "logs" }

def isYes (flag : String) : Bool := ["1", "true", "yes"].contains (flag.map Char.toLower)

def override (env : Environment) (s : Settings) : Settings :=
  { s with
    theme := (env.text? "KOSH_THEME").getD s.theme
    editing := (env.text? "KOSH_EDITOR").getD s.editing
    historyFile := (((env.text? "HISTFILE").filter (· ≠ "")).map Native.text).getD s.historyFile
    logLevel := (env.text? "KOSH_LOG_LEVEL").getD s.logLevel
    logDirectory := ((env.text? "KOSH_LOG_DIR").map Native.text).getD s.logDirectory
    logsToStderr := ((env.text? "KOSH_LOG_STDERR").map isYes).getD s.logsToStderr }

def ofEnvironment (env : Environment) : Settings := (defaults env).override env

def editingKeys (s : Settings) : EditingKeys :=
  if s.editing.map Char.toLower = "vi" then .vi else .emacs

/-- The threshold for the log; an unknown word means warnings. -/
def threshold (s : Settings) : Threshold :=
  match s.logLevel.map Char.toLower with
  | "off" => none
  | "error" => some .error
  | "info" => some .info
  | "debug" => some .debug
  | "trace" => some .trace
  | _ => some .warn

end Settings

end CommandShell
