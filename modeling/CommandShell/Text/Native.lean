/-
  CommandShell.Text.Native — texts of the system.

  The names of directory entries, paths and the values of variables are bytes to the system. Most of them are texts,
  and only those can be typed; one that is none is kept as it is and shown with a mark for what cannot be read.
-/

import CommandShell.Text.Bytes

namespace CommandShell

inductive Native where
  | text (s : String)
  /-- Bytes that are no text. -/
  | raw (b : Bytes)
  deriving DecidableEq, Repr

namespace Native

instance : Coe String Native := ⟨text⟩

def ofBytes (b : Bytes) : Native :=
  match b.toString? with
  | some s => .text s
  | none => .raw b

def bytes : Native → Bytes
  | text s => Bytes.ofString s
  | raw b => b

def text? : Native → Option String
  | text s => some s
  | raw _ => none

def shown : Native → String
  | text s => s
  | raw b => b.shown

instance : ToString Native := ⟨shown⟩

def size : Native → Nat
  | text s => s.utf8ByteSize
  | raw b => b.length

def isEmpty : Native → Bool
  | text s => s.isEmpty
  | raw b => b.isEmpty

/-- Does this ASCII character occur? -/
def has (c : Char) : Native → Bool
  | text s => s.toList.contains c
  | raw b => b.contains c.toUInt8

def append : Native → Native → Native
  | text s, text t => .text (s ++ t)
  | a, b => .ofBytes (a.bytes ++ b.bytes)

instance : Append Native := ⟨append⟩

end Native

end CommandShell
