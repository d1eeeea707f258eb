/-
  CommandShell.Text.Bytes — byte strings, their reading as UTF-8 and their lines.

  Files, pipes and the standard streams carry bytes. A text goes out as its UTF-8 encoding; coming in, a line
  is a text only if it is valid UTF-8.
-/

namespace CommandShell

abbrev Bytes := List UInt8

namespace Bytes

def ofString (s : String) : Bytes := s.toList.flatMap String.utf8EncodeChar

def toString? (b : Bytes) : Option String := String.fromUTF8? ⟨b.toArray⟩

/-- How many bytes that begin with `b` make up one character, and in which range the second of them lies. -/
def shape? (b : UInt8) : Option (Nat × UInt8 × UInt8) :=
  if b < 0x80 then some (1, 0x80, 0xbf)
  else if 0xc2 ≤ b && b ≤ 0xdf then some (2, 0x80, 0xbf)
  else if b = 0xe0 then some (3, 0xa0, 0xbf)
  else if b = 0xed then some (3, 0x80, 0x9f)
  else if 0xe1 ≤ b && b ≤ 0xef then some (3, 0x80, 0xbf)
  else if b = 0xf0 then some (4, 0x90, 0xbf)
  else if b = 0xf4 then some (4, 0x80, 0x8f)
  else if 0xf1 ≤ b && b ≤ 0xf3 then some (4, 0x80, 0xbf)
  else none

/-- The size of the longest beginning of `rest` that can follow `b` in a character. -/
def following (b : UInt8) (rest : Bytes) : Nat :=
  match shape? b, rest with
  | some (size, low, high), c :: rest =>
    if 1 < size && low ≤ c && c ≤ high then 1 + ((rest.take (size - 2)).takeWhile fun d => 0x80 ≤ d && d ≤ 0xbf).length
    else 0
  | _, _ => 0

/-- The characters of a byte string. Bytes that are the beginning of a character and no more, or not even that,
    are shown as the mark for what cannot be read. `skip` bytes belong to the character before. -/
def shownFrom : (skip : Nat) → Bytes → List Char
  | _, [] => []
  | skip + 1, _ :: rest => shownFrom skip rest
  | 0, b :: rest =>
    let n := following b rest
    (match toString? (b :: rest.take n) with
      | some s => s.toList
      | none => ['\ufffd']) ++ shownFrom n rest

def shown (b : Bytes) : String := String.ofList (shownFrom 0 b)

def newline : UInt8 := 10

def carriageReturn : UInt8 := 13

/-- A finished line loses one carriage return at its end. -/
def dropReturn (line : Bytes) : Bytes :=
  if line.getLast? = some carriageReturn then line.dropLast else line

/-- The lines that begin with the bytes of `start`, given in reverse. -/
def linesFrom (start : Bytes) : Bytes → List Bytes
  | [] => if start.isEmpty then [] else [start.reverse]
  | b :: rest =>
    if b = newline then dropReturn start.reverse :: linesFrom [] rest else linesFrom (b :: start) rest

/-- Cut into lines. A newline ends a line and takes a carriage return before it along; bytes after the last
    newline are a line too, and keep theirs. -/
def lines (b : Bytes) : List Bytes := linesFrom [] b

/-- Put `data` at `offset`; a gap before it is filled with zeros. -/
def overwrite (content : Bytes) (offset : Nat) (data : Bytes) : Bytes :=
  content.take offset ++ List.replicate (offset - content.length) 0 ++ data ++ content.drop (offset + data.length)

end Bytes

end CommandShell
