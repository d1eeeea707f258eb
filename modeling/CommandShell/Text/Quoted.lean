/-
  CommandShell.Text.Quoted — words in single quotes.

  A word in single quotes is read back as it stands; a quote inside it is written by closing the quotes,
  escaping the quote and opening them again.
-/

namespace CommandShell.Text

def quoteBody : List Char → List Char
  | [] => []
  | c :: cs => if c = '\'' then '\'' :: '\\' :: '\'' :: '\'' :: quoteBody cs else c :: quoteBody cs

def quoted (word : List Char) : List Char := '\'' :: quoteBody word ++ ['\'']

/-- The characters that make a word need quotes when a command is shown. -/
def needsQuotes (c : Char) : Bool :=
  "|&;<>()$\x60\\\"' \t\n*?[#~=%".toList.contains c

/-- A word as it is shown: bare if nothing in it is special, else in single quotes. -/
def shown (word : String) : String :=
  if word.isEmpty || word.toList.any needsQuotes then String.ofList (quoted word.toList) else word

def shownWords (words : List String) : String := " ".intercalate (words.map shown)

end CommandShell.Text
