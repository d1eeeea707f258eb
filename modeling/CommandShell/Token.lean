/-
  CommandShell.Token — the tokens of a command line.
-/

namespace CommandShell

inductive OutStream where
  | stdout
  | stderr
  deriving DecidableEq, Repr

/-- How a redirected file is opened: emptied, or written at its end. -/
inductive OpenMode where
  | truncate
  | append
  deriving DecidableEq, Repr

inductive Token where
  | word (text : String)
  | pipe
  | redirect (stream : OutStream) (mode : OpenMode)
  | eof
  deriving DecidableEq, Repr

def Token.text : Token → String
  | .word text => text
  | .pipe => "|"
  | .redirect .stdout .truncate => ">"
  | .redirect .stdout .append => ">>"
  | .redirect .stderr .truncate => "2>"
  | .redirect .stderr .append => "2>>"
  | .eof => ""

end CommandShell
