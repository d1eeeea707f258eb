/-
  CommandShell.History — the lines that were entered.

  Entries are only ever added. The history also knows how many of its entries a file has got already, so that
  appending to a file adds each entry once. On disk there is one entry a line. The files themselves are somebody
  else's: a history asks for their lines and for lines to be written, and puts up with every failure.
-/

import CommandShell.Fault
import CommandShell.Text.Blank
import CommandShell.Text.Native
import CommandShell.Token

namespace CommandShell

/-- The lines of a stored text, each read by itself. -/
def Bytes.textLines (data : Bytes) : List (Except Fault String) :=
  data.lines.map fun line =>
    match line.toString? with
    | some text => .ok text
    | none => .error .notUtf8

/-- The files that a history is kept in. Whatever is asked of them may fail. -/
class Storage (W : Type) where
  readLines : Native → W → Except Fault (List (Except Fault String))
  openFile : Native → OpenMode → W → Except Fault Nat × W
  writeFile : Nat → Bytes → W → Except Fault Unit × W

structure History where
  entries : List String := []
  /-- How many entries are in a file, from the last time one was read or appended to. -/
  saved : Nat := 0
  deriving DecidableEq, Repr

namespace History

def push (h : History) (line : String) : History := { h with entries := h.entries ++ [line] }

/-- Add the entries of stored lines: trimmed, and without the blank ones. A line that cannot be read ends the
    reading, after the lines before it were added. -/
def addLines (h : History) : List (Except Fault String) → Except Fault Nat × History
  | [] => (.ok 0, h)
  | .error fault :: _ => (.error fault, h)
  | .ok text :: rest =>
    let entry := Text.trim text
    if entry.isEmpty then h.addLines rest
    else
      let (count, h) := (h.push entry).addLines rest
      (count.map (· + 1), h)

def load (h : History) (lines : List (Except Fault String)) : Except Fault Nat × History :=
  match h.addLines lines with
  | (.ok count, h) => (.ok count, { h with saved := h.entries.length })
  | (.error fault, h) => (.error fault, h)

def storedLine (entry : String) : Bytes := Bytes.ofString (entry ++ "\n")

def fresh (h : History) : List String := h.entries.drop h.saved

def markSaved (h : History) : History := { h with saved := h.entries.length }

/-! ## Files -/

section Files

variable {W : Type} [Storage W]

def readFrom (path : Native) (h : History) (w : W) : Except Fault Nat × History :=
  match Storage.readLines path w with
  | .error fault => (.error fault, h)
  | .ok lines => h.load lines

/-- Write entries to an open file, up to the first that cannot be written. -/
def writeEach (number : Nat) : List String → W → Except Fault Unit × W
  | [], w => (.ok (), w)
  | entry :: rest, w =>
    match Storage.writeFile number (storedLine entry) w with
    | (.ok _, w) => writeEach number rest w
    | (.error fault, w) => (.error fault, w)

def writeTo (path : Native) (h : History) (w : W) : Except Fault Unit × W :=
  match Storage.openFile path .truncate w with
  | (.error fault, w) => (.error fault, w)
  | (.ok number, w) => writeEach number h.entries w

/-- Put the entries that no file has got at the end of a file. -/
def appendTo (path : Native) (h : History) (w : W) : Except Fault Unit × History × W :=
  match Storage.openFile path .append w with
  | (.error fault, w) => (.error fault, h, w)
  | (.ok number, w) =>
    match writeEach number h.fresh w with
    | (.ok _, w) => (.ok (), h.markSaved, w)
    | (.error fault, w) => (.error fault, h, w)

end Files

/-! ## Listing -/

def listed (entry : String × Nat) : String := s!"    {entry.2}  {entry.1}\n"

def listing (h : History) (last : Option Nat) : String :=
  let skip := match last with
    | some n => h.entries.length - n
    | none => 0
  String.join (((h.entries.zipIdx 1).drop skip).map listed)

end History

end CommandShell
