/-
  CommandShell.Proofs.Command.Composition — a line may be taken apart at its pipes and spaces.

  Where nothing is open, a pipe or a space ends the word before it, and the scanner goes on as from the beginning
  of a line: no number, sign or word reaches over it. The parser likewise begins anew behind a pipe, and an
  operator left without a target is dropped before a pipe as it is at the end.
  - `tokensOf_cut`, `tokensOf_pipe`, `tokensOf_space`: the tokens of a line from those of its two parts;
  - `pipelineOf_append`: the commands of a token list from those of its two parts;
  - `reading_composes`: both together.
-/

import CommandShell.Proofs.Command.Meaning
import CommandShell.Proofs.Token.Moves

namespace CommandShell

/-! ## Tokens -/

namespace Scanner

/-- The tokens of a line without its end mark. -/
def found (line : String) : List Token := (start.run line.toList).flush.tokens.reverse

theorem tokensOf_eq_found (line : String) : tokensOf line = found line ++ [.eof] := by
  simp [tokensOf, finish, found, emit]

/-- With nothing open, the end of a word is the beginning of a line but for the tokens found. -/
theorem flush_eq_after {s : Scanner} (hs : s.modes = [.normal]) : s.flush = start.after s.flush.tokens := by
  have hm := flush_modes s
  have hw := flush_word s
  cases h : s.flush
  simp_all [after, start]

theorem finish_after (s : Scanner) (ts : List Token) : (s.after ts).finish = ts.reverse ++ s.finish := by
  simp only [finish, after_flush, after_emit]
  simp [after]

/-- A line that is closed has left the scanner as at the beginning, up to the end of its last word. -/
theorem flush_run_start {a : String} (ha : (start.run a.toList).mode = .normal) :
    (start.run a.toList).flush = start.after (found a).reverse := by
  have hs : (start.run a.toList).modes = [.normal] := stack_of_normal (run_stack _ (by simp [start, modeStacks])) ha
  rw [found, List.reverse_reverse]
  exact flush_eq_after hs

theorem found_of_mem {line : String} {t : Token} (h : t ∈ found line) : Found t := by
  have hf := flush_found (run_found line.toList (s := start) (by simp [start]))
  exact hf t (by simpa [found] using h)

theorem eof_not_mem_found (line : String) : .eof ∉ found line := fun h => (found_of_mem h).1 rfl

end Scanner

open Scanner in
/-- A character that takes the scanner back to the beginning of a line cuts the line in two. -/
theorem tokensOf_cut {a b : String} {c : Char} (hc : c ≠ '>') {ts : List Token}
    (h : Move (start.run a.toList) (c :: b.toList) (start.after ts) b.toList) :
    tokensOf (a ++ String.ofList [c] ++ b) = ts.reverse ++ tokensOf b := by
  have ht : (a ++ String.ofList [c] ++ b).toList = a.toList ++ c :: b.toList := by simp
  rw [tokensOf, ht, run_append _ _ (by simpa using hc), h.run_eq, run_after, finish_after, tokensOf]

open Scanner in
theorem tokensOf_pipe {a : String} (ha : (start.run a.toList).mode = .normal) (b : String) :
    tokensOf (a ++ "|" ++ b) = found a ++ [.pipe] ++ tokensOf b := by
  have h : Move (start.run a.toList) ('|' :: b.toList) (start.after (.pipe :: (found a).reverse)) b.toList := by
    have hp : (start.run a.toList).flush.emit .pipe = start.after (.pipe :: (found a).reverse) := by
      rw [flush_run_start ha]
      rfl
    rw [← hp]
    exact .pipe ha
  rw [show "|" = String.ofList ['|'] from rfl, tokensOf_cut (by decide) h, List.reverse_cons, List.reverse_reverse]

open Scanner in
theorem tokensOf_space {a : String} (ha : (start.run a.toList).mode = .normal) (b : String) :
    tokensOf (a ++ " " ++ b) = found a ++ tokensOf b := by
  have h : Move (start.run a.toList) (' ' :: b.toList) (start.after (found a).reverse) b.toList := by
    rw [← flush_run_start ha]
    exact .space ha
  rw [show " " = String.ofList [' '] from rfl, tokensOf_cut (by decide) h, List.reverse_reverse]

/-! ## Commands -/

/-- Behind a pipe the parser begins anew. -/
theorem pipelineOf_append {ts : List Token} (hts : .eof ∉ ts) (us : List Token) :
    pipelineOf (ts ++ .pipe :: us) = pipelineOf (ts ++ [.eof]) ++ pipelineOf us := by
  induction ts using clause_induction with
  | last ts hi => rw [pipelineOf_piped hi, pipelineOf_ended hi]
  | ended ts rest hi => exact absurd (by simp) hts
  | piped ts rest hi ih =>
    have hr : .eof ∉ rest := fun h => hts (by simp [h])
    rw [List.append_assoc, List.append_assoc, List.cons_append, List.cons_append, pipelineOf_piped hi, pipelineOf_piped hi,
      ih hr, List.append_assoc]

/-- Lines compose at pipes and spaces: behind a line with nothing open, a pipe or a space and any second line
    give the tokens of the first without its end mark, the pipe, and the tokens of the second; and across the pipe
    the commands of both. -/
theorem reading_composes (a b : String) (ha : (Scanner.start.run a.toList).mode = .normal) :
    ∃ ts, tokensOf a = ts ++ [.eof] ∧
      tokensOf (a ++ "|" ++ b) = ts ++ [.pipe] ++ tokensOf b ∧
      tokensOf (a ++ " " ++ b) = ts ++ tokensOf b ∧
      pipelineOf (tokensOf (a ++ "|" ++ b)) = pipelineOf (tokensOf a) ++ pipelineOf (tokensOf b) := by
  refine ⟨Scanner.found a, Scanner.tokensOf_eq_found a, tokensOf_pipe ha b, tokensOf_space ha b, ?_⟩
  rw [tokensOf_pipe ha, Scanner.tokensOf_eq_found a, List.append_assoc]
  exact pipelineOf_append (Scanner.eof_not_mem_found a) _

/-- A number, an operator without a target and a sign at the beginning of the second line all stay on their side. -/
theorem reading_composes_at_signs :
    (Scanner.start.run "echo 'a|b' 1 2>".toList).mode = .normal ∧
      ∃ ts, tokensOf "echo 'a|b' 1 2>" = ts ++ [.eof] ∧
        tokensOf ("echo 'a|b' 1 2>" ++ "|" ++ "> f cat") = ts ++ [.pipe] ++ tokensOf "> f cat" ∧
        tokensOf ("echo 'a|b' 1 2>" ++ " " ++ "> f cat") = ts ++ tokensOf "> f cat" ∧
        pipelineOf (tokensOf ("echo 'a|b' 1 2>" ++ "|" ++ "> f cat")) =
          pipelineOf (tokensOf "echo 'a|b' 1 2>") ++ pipelineOf (tokensOf "> f cat") := by
  have h : (Scanner.start.run "echo 'a|b' 1 2>".toList).mode = .normal := by decide +kernel
  exact ⟨h, reading_composes _ _ h⟩

end CommandShell
