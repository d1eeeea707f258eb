/-
  CommandShell.LineSource — the lines that the shell is given when nobody types them.

  The input is cut at newlines. In a line each backspace takes back the character before it, as a reader counts
  characters. A line that is not UTF-8 is an error of the input. The input is read in pieces, ahead of the lines
  that are asked for; whoever else reads it gets what comes behind the last piece.
-/

import CommandShell.Fault
import CommandShell.Text.Blank
import CommandShell.Text.Bytes
import CommandShell.Text.Grapheme

namespace CommandShell.LineSource

def backspace : Char := '\x08'

/-- Drop characters from the front, as many as fit into so many bytes. -/
def dropBytes : Nat → List Char → List Char
  | 0, cs => cs
  | _ + 1, [] => []
  | n + 1, c :: cs => if c.utf8Size ≤ n + 1 then dropBytes (n + 1 - c.utf8Size) cs else c :: cs

def byteSize (cs : List Char) : Nat := cs.foldr (fun c n => c.utf8Size + n) 0

/-- The text kept so far, in reverse, and the sizes of its clusters, the last first. A size is kept in one byte. -/
structure Kept where
  text : List Char := []
  sizes : List Nat := []
  deriving DecidableEq, Repr

def Kept.add (k : Kept) (cluster : List Char) : Kept :=
  if cluster = [backspace] then
    match k.sizes with
    | size :: sizes => ⟨dropBytes size k.text, sizes⟩
    | [] => k
  else ⟨cluster.reverse ++ k.text, byteSize cluster % 256 :: k.sizes⟩

/-- Carry out the backspaces of a line. A line without any stays as it is. -/
def withoutBackspaces (line : String) : String :=
  if line.toList.contains backspace then
    String.ofList ((Text.clusters line.toList).foldl Kept.add {}).text.reverse
  else line

def isLineEnd (c : Char) : Bool := c = '\n' || c = '\r'

inductive Delivery where
  | line (text : String)
  /-- The line was given up before its end. -/
  | interrupted
  | ended
  | failed (fault : Fault)
  deriving DecidableEq, Repr

def deliver (line : Bytes) : Delivery :=
  match line.toString? with
  | none => .failed .notUtf8
  | some text => .line (Text.dropEndWhile isLineEnd (withoutBackspaces text))

/-- Everything that an input delivers, if nobody else reads it. -/
def deliveries (input : Bytes) : List Delivery := input.lines.map deliver ++ [.ended]

/-! ## Reading ahead -/

def chunk : Nat := 8192

/-- The next line of the input with its newline, where `ahead` has been read and `rest` has not. More is read only
    when all that was read is used up. Gives back the line, what was read beyond it, and what is still unread. -/
def takeLine (ahead rest : Bytes) : Bytes × Bytes × Bytes :=
  let line := ahead.takeWhile (· ≠ Bytes.newline)
  if line.length < ahead.length then (ahead.take (line.length + 1), ahead.drop (line.length + 1), rest)
  else match rest with
    | [] => (ahead, [], [])
    | b :: more =>
      let (line, ahead', rest) := takeLine ((b :: more).take chunk) ((b :: more).drop chunk)
      (ahead ++ line, ahead', rest)
termination_by rest.length
decreasing_by
  simp only [List.length_drop, List.length_cons, chunk]
  omega

/-- What a line with its newline is as a delivery. No bytes at all are the end. -/
def deliverNext (line : Bytes) : Delivery := (line.lines.head?.map deliver).getD .ended

/-- The terminals that get a prompt although nobody types. -/
def plainTerminals : List String := ["dumb", "cons25", "emacs"]

def showsPrompt (term : Option String) : Bool :=
  match term with
  | some term => plainTerminals.contains (term.map Char.toLower)
  | none => false

end CommandShell.LineSource
