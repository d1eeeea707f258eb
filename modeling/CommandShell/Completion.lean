/-
  CommandShell.Completion — what could be meant by the first word of a line that is being typed.

  Only the command's name is completed: white space before it is skipped, and behind it there is nothing to
  offer. A single candidate brings a space along.
-/

import CommandShell.Completion.PrefixTree
import CommandShell.Text.Blank

namespace CommandShell

structure Candidate where
  display : String
  replacement : String
  deriving DecidableEq, Repr

/-- Candidates, and the byte of the line where they are put. -/
structure Offer where
  start : Nat
  candidates : List Candidate
  deriving DecidableEq, Repr

namespace Completion

/-- The first `n` bytes of a text, if a character ends there. -/
def takeBytes : Nat → List Char → Option (List Char)
  | 0, _ => some []
  | _ + 1, [] => none
  | n + 1, c :: cs =>
    if c.utf8Size ≤ n + 1 then (takeBytes (n + 1 - c.utf8Size) cs).map (c :: ·) else none

def byteLength (cs : List Char) : Nat := cs.foldr (fun c n => c.utf8Size + n) 0

/-- A name that is the only one gets a space behind it. -/
def candidates : List String → List Candidate
  | [name] => [⟨name, name ++ " "⟩]
  | names => names.map fun name => ⟨name, name⟩

/-- The offer for a cursor that stands in or right behind the first word. -/
def offer? (words : PrefixTree) (line : String) (pos : Nat) : Option Offer := do
  let head ← takeBytes pos line.toList
  let stem := Text.trimStart head
  if stem.isEmpty || stem.any Text.isBlank then none
  else some ⟨byteLength head - byteLength stem, candidates (words.startingWith (String.ofList stem))⟩

/-- The offer at a byte of the line; anywhere else it is empty and stands at the cursor. -/
def offer (words : PrefixTree) (line : String) (pos : Nat) : Offer :=
  (offer? words line pos).getD ⟨pos, []⟩

end Completion

end CommandShell
