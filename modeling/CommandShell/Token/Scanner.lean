/-
  CommandShell.Token.Scanner — from the characters of a line to its tokens.

  The scanner keeps a stack of modes over the characters it reads. Quotes and backslashes push a mode, their
  end pops it:
  - normal: a space ends the word, `|` and `>` are operators, and a `1` or `2` that begins a word right before
    `>` names the stream it redirects;
  - in single quotes every character but the quote stands for itself;
  - in double quotes a backslash escapes;
  - after a backslash one character is taken literally, except that in double quotes the backslash stays unless
    it stands before a double quote or a backslash.
  A word exists only by its characters: quotes around nothing make none. What is still open at the end of the
  line is closed there.
-/

import CommandShell.Token

namespace CommandShell

inductive Mode where
  | normal
  | singleQuoted
  | doubleQuoted
  | escaped
  deriving DecidableEq, Repr

structure Scanner where
  /-- The modes entered and not left, the innermost first. -/
  modes : List Mode
  /-- The characters of the word being read, the last first. -/
  word : List Char
  /-- The finished tokens, the last first. -/
  tokens : List Token
  deriving DecidableEq, Repr

namespace Scanner

def start : Scanner := { modes := [.normal], word := [], tokens := [] }

def mode (s : Scanner) : Mode := s.modes.headD .normal

def enter (s : Scanner) (m : Mode) : Scanner := { s with modes := m :: s.modes }

/-- Leave the innermost mode; the outermost one is never left. -/
def leave (s : Scanner) : Scanner :=
  match s.modes with
  | _ :: m :: rest => { s with modes := m :: rest }
  | _ => s

def take (s : Scanner) (c : Char) : Scanner := { s with word := c :: s.word }

def emit (s : Scanner) (t : Token) : Scanner := { s with tokens := t :: s.tokens }

/-- End the word being read, if it has any character. -/
def flush (s : Scanner) : Scanner :=
  if s.word.isEmpty then s
  else { s with word := [], tokens := .word (String.ofList s.word.reverse) :: s.tokens }

/-- A character after a backslash. -/
def takeEscaped (s : Scanner) (c : Char) : Scanner :=
  let outer := s.leave
  if outer.mode = .doubleQuoted && c ≠ '"' && c ≠ '\\' then (outer.take '\\').take c else outer.take c

def operator (s : Scanner) (stream : OutStream) (mode : OpenMode) : Scanner :=
  s.flush.emit (.redirect stream mode)

def run (s : Scanner) : List Char → Scanner
  | [] => s
  | c :: rest =>
    match s.mode with
    | .singleQuoted => if c = '\'' then s.leave.run rest else (s.take c).run rest
    | .doubleQuoted =>
      if c = '"' then s.leave.run rest
      else if c = '\\' then (s.enter .escaped).run rest
      else (s.take c).run rest
    | .escaped => (s.takeEscaped c).run rest
    | .normal =>
      if c = '\'' then (s.enter .singleQuoted).run rest
      else if c = '"' then (s.enter .doubleQuoted).run rest
      else if c = '\\' then (s.enter .escaped).run rest
      else if c = ' ' then s.flush.run rest
      else if c = '|' then (s.flush.emit .pipe).run rest
      else if c = '>' then
        match rest with
        | '>' :: rest' => (s.operator .stdout .append).run rest'
        | rest' => (s.operator .stdout .truncate).run rest'
      else if c = '1' && s.word.isEmpty then
        match rest with
        | '>' :: '>' :: rest' => (s.operator .stdout .append).run rest'
        | '>' :: rest' => (s.operator .stdout .truncate).run rest'
        | rest' => (s.take c).run rest'
      else if c = '2' && s.word.isEmpty then
        match rest with
        | '>' :: '>' :: rest' => (s.operator .stderr .append).run rest'
        | '>' :: rest' => (s.operator .stderr .truncate).run rest'
        | rest' => (s.take c).run rest'
      else (s.take c).run rest

def finish (s : Scanner) : List Token := (s.flush.emit .eof).tokens.reverse

end Scanner

def tokensOf (line : String) : List Token := (Scanner.start.run line.toList).finish

end CommandShell
