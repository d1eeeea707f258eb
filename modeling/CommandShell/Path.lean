/-
  CommandShell.Path — paths.

  A path is a text of the system with slashes. Its components are what stands between them; empty ones and single
  dots do not count. For following a path more is kept: a single dot is a step that stays, and a slash behind the last
  name is a step of its own, because both are possible in directories only.
-/

import CommandShell.Text.Native

namespace CommandShell.Path

def isAbsolute : Native → Bool
  | .text s => s.toList.head? = some '/'
  | .raw b => b.head? = some '/'.toUInt8

def endsInSlash : Native → Bool
  | .text s => s.toList.getLast? = some '/'
  | .raw b => b.getLast? = some '/'.toUInt8

/-- A path below another one. An absolute path stays what it is. -/
def join (base part : Native) : Native :=
  if isAbsolute part then part
  else if base.isEmpty || endsInSlash base then base ++ part
  else base ++ ("/" : Native) ++ part

def splitAux {α : Type} [DecidableEq α] (item : List α) (sep : α) : List α → List (List α)
  | [] => [item.reverse]
  | c :: cs => if c = sep then item.reverse :: splitAux [] sep cs else splitAux (c :: item) sep cs

/-- The items between separators; there is always one more than there are separators. -/
def split (sep : Char) (text : String) : List String := (splitAux [] sep text.toList).map String.ofList

def items (sep : Char) : Native → List Native
  | .text s => (split sep s).map .text
  | .raw b => (splitAux [] sep.toUInt8 b).map .ofBytes

def intercalate (sep : Native) : List Native → Native
  | [] => ""
  | [item] => item
  | item :: rest => item ++ sep ++ intercalate sep rest

def components (path : Native) : List Native :=
  (items '/' path).filter fun item => item ≠ "" && item ≠ "."

inductive Step where
  | stay
  | up
  | into (name : Native)
  | slash
  deriving DecidableEq, Repr

def Step.ofItem (item : Native) : Step :=
  if item = "." then .stay else if item = ".." then .up else .into item

def Step.isInto : Step → Bool
  | .into _ => true
  | _ => false

def innerSteps (path : Native) : List Step := ((items '/' path).filter fun item => !item.isEmpty).map Step.ofItem

def steps (path : Native) : List Step :=
  if endsInSlash path && (innerSteps path).getLast?.any Step.isInto then innerSteps path ++ [.slash]
  else innerSteps path

/-- The name of the file that a path ends in; none if it ends in two dots or has no component. -/
def fileName? (path : Native) : Option Native :=
  (components path).getLast?.filter (· ≠ "..")

/-- The part of a file's name behind its last dot. A dot that begins the name does not count. -/
def extension? (path : Native) : Option String := do
  let name ← (← fileName? path).text?
  let tail := (name.toList.reverse.takeWhile (· ≠ '.')).reverse
  if tail.length + 1 < name.length then some (String.ofList tail) else none

/-- The path without its last component; none if there is none. -/
def parent? (path : Native) : Option Native :=
  match components path with
  | [] => none
  | items => some ((if isAbsolute path then ("/" : Native) else "") ++ intercalate "/" items.dropLast)

/-- The endings by which a file is a program, where permissions do not tell. -/
def programExtensions : List String := ["exe", "bat", "cmd", "com", "ps1"]

def hasProgramExtension (path : Native) : Bool :=
  match extension? path with
  | some ext => programExtensions.contains (ext.map Char.toLower)
  | none => false

def mayExecute (mode : Nat) (owner group : Bool) : Bool :=
  (owner && mode.testBit 6) || (group && mode.testBit 3) || mode.testBit 0

end CommandShell.Path
