/-
  CommandShell.Command — one command of a pipeline: its words and where its output goes.
-/

import CommandShell.Token

namespace CommandShell

structure Redirection where
  mode : OpenMode
  target : String
  deriving DecidableEq, Repr

structure Command where
  argv : List String := []
  stdout : Option Redirection := none
  stderr : Option Redirection := none
  deriving DecidableEq, Repr

namespace Command

def program? (c : Command) : Option String := c.argv.head?

def arguments (c : Command) : List String := c.argv.tail

def name (c : Command) : String := c.program?.getD ""

def isEmpty (c : Command) : Bool := c.argv.isEmpty

def addWord (c : Command) (word : String) : Command := { c with argv := c.argv ++ [word] }

/-- Send a stream to a file; an earlier redirection of the same stream is forgotten. -/
def redirect (c : Command) (stream : OutStream) (r : Redirection) : Command :=
  match stream with
  | .stdout => { c with stdout := some r }
  | .stderr => { c with stderr := some r }

end Command

end CommandShell
