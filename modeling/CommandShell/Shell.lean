/-
  CommandShell.Shell — the shell from its start to its end.

  The shell loads the stored history, reads lines and carries them out until it is told to leave or the input
  ends, and then stores the history. Its end has a code.
-/

import CommandShell.Completion.Commands
import CommandShell.LineSource
import CommandShell.Session
import CommandShell.Settings
import CommandShell.Theme

namespace CommandShell

structure Shell where
  theme : Theme
  coloured : Bool
  historyFile : Native
  prompts : Bool
  deriving DecidableEq, Repr

namespace Shell

/-! ## The stored history -/

def warnOfHistory (s : Shell) (use : HistoryUse) (fault : Fault) (w : World) : World :=
  let message := s!"kosh: history: {s.historyFile}: {fault.message}"
  (w.note (.historyUnusable use s.historyFile fault)).printError (s.theme.warning.paint s.coloured message ++ "\n")

def restoreHistory (s : Shell) (w : World) : World :=
  if !w.files.exists_ w.cwd s.historyFile then w.note (.historyAbsent s.historyFile)
  else match w.lockHistory.readHistory s.historyFile with
    | (.ok _, w) => w.lockHistory
    | (.error fault, w) => s.warnOfHistory .reading fault w

/-- Store the history. A history without entries makes no file. -/
def storeHistory (s : Shell) (w : World) : World :=
  let w := w.lockHistory
  if w.history.entries.isEmpty && !w.files.exists_ w.cwd s.historyFile then w
  else
    match (w.note (.historySaving w.history.entries.length s.historyFile)).writeHistory s.historyFile with
    | (.ok _, w) => w
    | (.error fault, w) => s.warnOfHistory .saving fault w

/-! ## Reading and carrying out -/

def prompt (s : Shell) (w : World) : World :=
  if s.prompts then w.print (s.theme.prompt s.coloured) else w

def endInput (w : World) : Int × World := (0, (w.note .inputEnded).print "\n")

def failInput (s : Shell) (fault : Fault) (w : World) : Int × World :=
  let message := s.theme.error.paint s.coloured s!"kosh: {fault.message}"
  (1, (w.note (.inputFailed fault.message)).printError (message ++ "\n"))

/-- Deal with what was delivered. Gives the code with which the session ends, if it does. -/
def take (s : Shell) (delivery : LineSource.Delivery) (w : World) : Option Int × World :=
  match delivery with
  | .ended => let (code, w) := endInput w; (some code, w)
  | .failed fault => let (code, w) := s.failInput fault w; (some code, w)
  | .interrupted => (none, w.note .interrupted)
  | .line text =>
    if Text.allBlank text then (none, w)
    else match Session.carryOut (s.theme.error.paint s.coloured) text w with
      | (.leave code, w) => (some code, w)
      | (.goOn, w) => (none, w)

def readLines (s : Shell) : List LineSource.Delivery → World → Int × World
  | [], w => endInput (s.prompt w)
  | delivery :: rest, w =>
    match s.take delivery (s.prompt w) with
    | (some code, w) => (code, w)
    | (none, w) => s.readLines rest w

/-- Carry out the lines of standard input, where `ahead` has been read already. A line is at least one byte, so
    `limit` need not be more than the number of bytes. -/
def readInput (s : Shell) : (limit : Nat) → (ahead : Bytes) → World → Int × World
  | 0, _, w => endInput (s.prompt w)
  | limit + 1, ahead, w =>
    let (line, ahead, input) := LineSource.takeLine ahead w.input
    match s.take (LineSource.deliverNext line) (s.prompt { w with input }) with
    | (some code, w) => (code, w)
    | (none, w) => s.readInput limit ahead w

def goodbye (s : Shell) (w : World) : World :=
  if s.theme.goodbyeText.isEmpty then w else w.print (s.theme.goodbye s.coloured ++ "\n")

def session (s : Shell) (lines : World → Int × World) (w : World) : Int × World :=
  let (code, w) := lines (s.restoreHistory (w.note .shellStarting))
  (code, (s.goodbye (s.storeHistory w)).note (.shellEnding code))

/-- A session over standard input. It is read ahead: the programs that the shell runs get what is left. -/
def run (s : Shell) (w : World) : Int × World := s.session (s.readInput w.input.length []) w

/-- A shell with these settings. Getting ready for input means to know the commands that can be completed. -/
def ofSettings (settings : Settings) (coloured : Bool) (w : World) : Shell × World :=
  let (_, w) := Completion.commands w
  let shell : Shell :=
    { theme := .named settings.theme, coloured, historyFile := settings.historyFile,
      prompts := LineSource.showsPrompt (w.env.text? "TERM") }
  (shell, w.note .inputReady)

end Shell

end CommandShell
