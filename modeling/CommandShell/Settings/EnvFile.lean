/-
  CommandShell.Settings.EnvFile — variables from a file.

  The file has one `NAME=VALUE` a line, perhaps after the word `export` and with blanks around the equals sign.
  Blank lines and lines that begin with a hash sign are skipped. A value is bare or has parts in quotes:
  - in single quotes everything stands for itself;
  - elsewhere a backslash escapes a few characters and a dollar sign puts in the value of a variable;
  - a bare blank ends the value, and only a comment may follow.
  A variable that is set keeps its value. The first line that cannot be read ends the reading.
-/

import CommandShell.Settings
import CommandShell.FileSystem.Access
import CommandShell.Text.Alphanumeric
import CommandShell.Text.Blank

namespace CommandShell.EnvFile

/-! ## Values -/

inductive Quote where
  | bare
  | single
  | double
  deriving DecidableEq, Repr

inductive Phase where
  | plain
  | escaped
  /-- In the name of a variable, given in reverse. -/
  | naming (name : List Char)
  /-- In the name of a variable in braces, given in reverse. -/
  | braced (name : List Char)
  | ended
  | comment
  deriving DecidableEq, Repr

structure Reading where
  quote : Quote := .bare
  phase : Phase := .plain
  value : List Char := []
  deriving DecidableEq, Repr

namespace Reading

def take (r : Reading) (c : Char) : Reading := { r with phase := .plain, value := c :: r.value }

/-- Put in the value of a variable; one that is not set has none. -/
def putVariable (env : Environment) (name : List Char) (r : Reading) : Reading :=
  { r with value := ((env.textBehind? (String.ofList name.reverse)).getD "").toList.reverse ++ r.value }

/-- A character outside of single quotes that is neither escaped nor part of a name. -/
def plainStep (r : Reading) (c : Char) : Reading :=
  if c = '$' then { r with phase := .naming [] }
  else if c = '\\' then { r with phase := .escaped }
  else if r.quote = .double then (if c = '"' then { r with quote := .bare } else r.take c)
  else if c = '\'' then { r with quote := .single }
  else if c = '"' then { r with quote := .double }
  else if c = ' ' || c = '\t' then { r with phase := .ended }
  else r.take c

/-- A character that may go on or end the name of a variable. The one that ends it is never special, unless it
    begins another name. -/
def nameStep (env : Environment) (name : List Char) (r : Reading) (c : Char) : Reading :=
  if Text.isAlphanumeric c then { r with phase := .naming (c :: name) }
  else if c = '\x7b' && name.isEmpty then { r with phase := .braced [] }
  else if c = '$' then { r.putVariable env name with phase := .naming [] }
  else (r.putVariable env name).take c

/-- One character of a value; `none` if it cannot stand there. -/
def step (env : Environment) (r : Reading) (c : Char) : Option Reading :=
  match r.phase with
  | .comment => some r
  | .ended =>
    if c = ' ' || c = '\t' then some r
    else if c = '#' then some { r with phase := .comment }
    else none
  | .escaped =>
    if c = '\\' || c = '\'' || c = '"' || c = '$' || c = ' ' then some (r.take c)
    else if c = 'n' then some (r.take '\n')
    else none
  | .naming name => some (r.nameStep env name c)
  | .braced name =>
    if c = '\x7d' then some { r.putVariable env name with phase := .plain }
    else some { r with phase := .braced (c :: name) }
  | .plain =>
    if r.quote = .single then some (if c = '\'' then { r with quote := .bare } else r.take c)
    else some (r.plainStep c)

/-- The value that was read; `none` if a quote or a brace is still open. -/
def finish (env : Environment) (r : Reading) : Option String :=
  if r.quote ≠ .bare then none
  else match r.phase with
    | .braced _ => none
    | .naming name => some (String.ofList (r.putVariable env name).value.reverse)
    | _ => some (String.ofList r.value.reverse)

end Reading

def value? (env : Environment) (cs : List Char) : Option String := do
  let r ← cs.foldlM (Reading.step env) {}
  r.finish env

/-! ## Lines -/

def isNameStart (c : Char) : Bool := c.isAlpha || c = '_'

def isNamePart (c : Char) : Bool := c.isAlphanum || c = '_' || c = '.'

def name? (cs : List Char) : Option (List Char × List Char) :=
  if cs.head?.any isNameStart then some (cs.takeWhile isNamePart, Text.trimStart (cs.dropWhile isNamePart)) else none

def afterEquals? : List Char → Option (List Char)
  | '=' :: rest => some (Text.trimStart rest)
  | _ => none

/-- Read the name that a line sets, and the text of its value. -/
def setting? (cs : List Char) : Option (List Char × List Char) := do
  let (name, rest) ← name? cs
  match afterEquals? rest with
  | some value => some (name, value)
  | none =>
    if name = "export".toList then
      let (name, rest) ← name? rest
      let value ← afterEquals? rest
      some (name, value)
    else none

def isComment (cs : List Char) : Bool := cs.head?.all (· = '#')

inductive Line where
  | nothing
  | set (name value : String)
  | malformed
  deriving DecidableEq, Repr

def readLine (env : Environment) (line : String) : Line :=
  let cs := Text.trimStart (Text.trimEnd line.toList)
  if isComment cs then .nothing
  else match setting? cs with
    | none => .malformed
    | some (name, value) =>
      if isComment value then .set (String.ofList name) ""
      else match value? env value with
        | some value => .set (String.ofList name) value
        | none => .malformed

/-- Set the variables of these lines that are not set, up to the first line that cannot be read. -/
def load (env : Environment) : List Bytes → Environment
  | [] => env
  | line :: rest =>
    match line.toString? with
    | none => env
    | some text =>
      match readLine env text with
      | .nothing => load env rest
      | .set name value => load (env.setDefault name value) rest
      | .malformed => env

/-! ## The file -/

def fileName : String := ".env.development"

/-- The content of the file in one directory, or else what was found above it. -/
def findIn? (fs : FileSystem) (full : Bool) (dir : Location) (above : Option Bytes) : Option Bytes :=
  match fs.lookup dir fileName with
  | .ok (.leaf _ node) => if node.fileMode?.isSome then (fs.read dir full fileName).toOption else above
  | .ok _ => above
  | .error fault => if fault.isNotFound then above else none

/-- The content of the file, from this directory or the nearest one above that has it. -/
def find? (fs : FileSystem) (full : Bool) : Location → Option Bytes
  | [] => findIn? fs full [] none
  | name :: above => findIn? fs full (name :: above) (find? fs full above)

/-- The environment after the file was read. `full` tells that no descriptor is left. -/
def apply (fs : FileSystem) (full : Bool) (cwd : Location) (env : Environment) : Environment :=
  if (fs.node? cwd).isSome then
    match find? fs full cwd with
    | some data => load env data.lines
    | none => env
  else env

end CommandShell.EnvFile
