/-
  CommandShell.Text.Blank — white space, and cutting it off the ends of a text.

  A line of input is skipped when nothing is left of it after trimming, and the lines of a history file are
  trimmed. Both use every character that Unicode calls white space, not only the ASCII ones; what separates
  the words of a command line is the plain space alone and is the scanner's business.
-/

import CommandShell.Text.Ranges

namespace CommandShell.Text

def blankRanges : Ranges :=
  [(0x09, 0x0d), (0x20, 0x20), (0x85, 0x85), (0xa0, 0xa0), (0x1680, 0x1680), (0x2000, 0x200a),
   (0x2028, 0x2029), (0x202f, 0x202f), (0x205f, 0x205f), (0x3000, 0x3000)]

def isBlank (c : Char) : Bool := blankRanges.has c

def trimStart (cs : List Char) : List Char := cs.dropWhile isBlank

def trimEnd (cs : List Char) : List Char := (cs.reverse.dropWhile isBlank).reverse

def trim (s : String) : String := String.ofList (trimEnd (trimStart s.toList))

def allBlank (s : String) : Bool := s.toList.all isBlank

def dropEndWhile (p : Char → Bool) (s : String) : String :=
  String.ofList ((s.toList.reverse.dropWhile p).reverse)

end CommandShell.Text
