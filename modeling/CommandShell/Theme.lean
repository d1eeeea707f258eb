/-
  CommandShell.Theme — the prompt, the words of farewell and the colours of messages.
-/

namespace CommandShell

/-- The codes of a terminal style, without the escape around them; `none` leaves the text as it is. -/
structure Style where
  codes : Option String
  deriving DecidableEq, Repr

namespace Style

def plain : Style := ⟨none⟩

def reset : String := "\x1b[0m"

/-- Put `mark` behind each reset in the text, so that the style goes on after it. -/
def renew (mark : List Char) : List Char → List Char
  | '\x1b' :: '[' :: '0' :: 'm' :: rest => '\x1b' :: '[' :: '0' :: 'm' :: mark ++ renew mark rest
  | c :: rest => c :: renew mark rest
  | [] => []

/-- The text in this style; without colours it stays as it is. -/
def paint (coloured : Bool) (style : Style) (text : String) : String :=
  match style.codes with
  | some codes =>
    if coloured then
      let mark := "\x1b[" ++ codes ++ "m"
      mark ++ String.ofList (renew mark.toList text.toList) ++ reset
    else text
  | none => text

end Style

structure Theme where
  promptText : String
  promptStyle : Style
  goodbyeText : String
  goodbyeStyle : Style
  error : Style
  warning : Style
  deriving DecidableEq, Repr

namespace Theme

def standard : Theme where
  promptText := "$ "
  promptStyle := ⟨"96"⟩
  goodbyeText := ""
  goodbyeStyle := .plain
  error := ⟨"91"⟩
  warning := ⟨"33"⟩

def plain : Theme where
  promptText := "$ "
  promptStyle := .plain
  goodbyeText := ""
  goodbyeStyle := .plain
  error := .plain
  warning := .plain

def verbose : Theme where
  promptText := "kosh$ "
  promptStyle := ⟨"92"⟩
  goodbyeText := "bye"
  goodbyeStyle := ⟨"94"⟩
  error := ⟨"1;31"⟩
  warning := ⟨"93"⟩

/-- The theme of a name; an unknown name means the standard one. -/
def named : String → Theme
  | "plain" => plain
  | "verbose" => verbose
  | _ => standard

def prompt (coloured : Bool) (t : Theme) : String := t.promptStyle.paint coloured t.promptText

def goodbye (coloured : Bool) (t : Theme) : String := t.goodbyeStyle.paint coloured t.goodbyeText

end Theme

end CommandShell
