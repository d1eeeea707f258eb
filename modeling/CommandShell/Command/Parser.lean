/-
  CommandShell.Command.Parser — from the tokens of a line to the commands of its pipeline.

  Pipes divide the tokens into commands and the end mark ends them. Inside a command a redirection takes the
  word right after it; one without such a word is dropped. A command without words is dropped as well, with its
  redirections. Every token list has a reading.
-/

import CommandShell.Command

namespace CommandShell

/-- Read one command. What is left begins with a pipe or an end mark, or is nothing. -/
def Command.absorb (c : Command) : List Token → Command × List Token
  | .word text :: rest => (c.addWord text).absorb rest
  | .redirect stream mode :: .word target :: rest => (c.redirect stream ⟨mode, target⟩).absorb rest
  | .redirect _ _ :: rest => c.absorb rest
  | .pipe :: rest => (c, .pipe :: rest)
  | .eof :: rest => (c, .eof :: rest)
  | [] => (c, [])

theorem Command.absorb_length (c : Command) (ts : List Token) : (c.absorb ts).2.length ≤ ts.length := by
  fun_induction Command.absorb c ts <;> simp_all <;> omega

/-- Read a pipeline: its commands, and the tokens left after it. -/
def pipelineFrom (ts : List Token) : List Command × List Token :=
  match _h : ({} : Command).absorb ts with
  | (c, .pipe :: rest) =>
    let (cs, left) := pipelineFrom rest
    (if c.isEmpty then cs else c :: cs, left)
  | (c, rest) => (if c.isEmpty then [] else [c], rest)
termination_by ts.length
decreasing_by
  have := Command.absorb_length {} ts
  rw [_h] at this
  simp at this
  omega

def pipelineOf (ts : List Token) : List Command := (pipelineFrom ts).1

end CommandShell
