/-
  CommandShell.Proofs.Token.Closing — a line that leaves something open is read as one that does not.

  A line may end inside quotes, or right behind a backslash. The modes that are open then have no part in the tokens
  (`finish_enter`, `finish_leave`), so closing them makes no difference:
  - `tokensOf_closed`: the missing quote may be written;
  - `tokensOf_escaped`: a backslash at the end may be left away, and it is the last character of the line;
  - `tokensOf_completed`: so every line is read as a line in which all quotes are closed and no escape is pending.
-/

import CommandShell.Proofs.Token.Moves

namespace CommandShell

/-- Nothing is open at the end of the line. -/
def Closed (line : String) : Prop := (Scanner.start.run line.toList).modes = [.normal]

namespace Scanner

variable {s s' : Scanner}

/-! ## What is open has no part in the tokens -/

theorem finish_enter (s : Scanner) (m : Mode) : (s.enter m).finish = s.finish := by
  by_cases hw : s.word = [] <;> simp [finish, flush, emit, enter, hw]

theorem finish_leave (s : Scanner) : s.leave.finish = s.finish := by
  unfold leave
  split
  · by_cases hw : s.word = [] <;> simp [finish, flush, emit, hw]
  · rfl

/-! ## The last move -/

/-- Behind an escape there is no further one, and behind quotes there is nothing. -/
theorem mode_leave (hs : s.modes ∈ modeStacks) (hm : s.mode ≠ .normal) : s.leave.mode ≠ .escaped := by
  rcases stack_cases hs with hs | hs | hs | hs | hs
  · simp [mode, hs] at hm
  all_goals simp [mode, leave, hs]

theorem modes_leave_quote (hs : s.modes ∈ modeStacks) {c : Char} (hc : s.mode.Closes c) : s.leave.modes = [.normal] := by
  rcases stack_cases hs with hs | hs | hs | hs | hs
  all_goals simp [mode, hs, Mode.Closes] at hc
  all_goals simp [leave, hs]

/-- An escape is entered by its backslash, and by nothing else. -/
theorem Move.backslash {cs rest : List Char} (h : Move s cs s' rest) (hs : s.modes ∈ modeStacks)
    (hm : s'.mode = .escaped) : cs = '\\' :: rest ∧ s' = s.enter .escaped := by
  -- every other move leaves the scanner in a mode that is not the escaped one
  have outer : s'.mode = .normal → cs = '\\' :: rest ∧ s' = s.enter .escaped := by
    intro hn
    rw [hn] at hm
    cases hm
  cases h with
  | enter hc =>
    obtain rfl : _ = Mode.escaped := hm
    unfold Mode.entered at hc
    split at hc <;> simp_all
  | leave hc =>
    refine absurd hm (mode_leave hs fun hn => ?_)
    simp [hn, Mode.Closes] at hc
  | take hc _ =>
    have hm : s.mode = .escaped := hm
    simp [hm, Mode.Literal] at hc
  | takeEscaped hesc =>
    have hleave : s.leave.mode = .escaped := by simpa only [mode, takeEscaped_modes] using hm
    exact absurd hleave (mode_leave hs (by simp [hesc]))
  | space hn => exact outer (by simpa only [mode, flush_modes] using hn)
  | pipe hn => exact outer (by simpa only [mode, emit_modes, flush_modes] using hn)
  | operator _ _ hn _ _ => exact outer (by simpa only [mode, operator_modes] using hn)

end Scanner

open Scanner

/-! ## Lines -/

theorem stack_of_line (line : String) : (start.run line.toList).modes ∈ modeStacks :=
  run_stack _ (by simp [start, modeStacks])

/-- A quote that is missing at the end may be written. -/
theorem tokensOf_closed {line : String} {c : Char} (hc : (start.run line.toList).mode.Closes c) :
    Closed (line ++ String.ofList [c]) ∧ tokensOf line = tokensOf (line ++ String.ofList [c]) := by
  have hsign : c ≠ '>' := by
    rintro rfl
    cases hm : (start.run line.toList).mode <;> simp [hm, Mode.Closes] at hc
  have hrun : start.run (line ++ String.ofList [c]).toList = (start.run line.toList).leave := by
    rw [String.toList_append, String.toList_ofList, run_append _ _ (by simpa using hsign)]
    exact (Move.leave hc).run_eq
  refine ⟨?_, ?_⟩
  · rw [Closed, hrun]
    exact modes_leave_quote (stack_of_line line) hc
  · rw [tokensOf, tokensOf, hrun, finish_leave]

theorem tokensOf_singleQuoted {line : String} (hm : (start.run line.toList).mode = .singleQuoted) :
    Closed (line ++ "'") ∧ tokensOf line = tokensOf (line ++ "'") := by
  have hc : (start.run line.toList).mode.Closes '\'' := by
    rw [hm]
    exact rfl
  exact tokensOf_closed hc

theorem tokensOf_doubleQuoted {line : String} (hm : (start.run line.toList).mode = .doubleQuoted) :
    Closed (line ++ "\"") ∧ tokensOf line = tokensOf (line ++ "\"") := by
  have hc : (start.run line.toList).mode.Closes '"' := by
    rw [hm]
    exact rfl
  exact tokensOf_closed hc

/-- A backslash that waits for a character is the last character of its line. -/
theorem tokensOf_escaped {line : String} (hm : (start.run line.toList).mode = .escaped) :
    ∃ shorter, line = shorter ++ "\\" ∧
      (start.run line.toList).modes = .escaped :: (start.run shorter.toList).modes ∧
      tokensOf line = tokensOf shorter := by
  have hne : line.toList ≠ [] := by
    intro hnil
    rw [hnil] at hm
    cases hm
  obtain ⟨front, back, hline, hlast⟩ := run_last start line.toList hne
  obtain ⟨rfl, hrun⟩ := hlast.backslash (run_stack front (by simp [start, modeStacks])) hm
  refine ⟨String.ofList front, ?_, ?_, ?_⟩
  · apply String.toList_injective
    simpa using hline
  · rw [hrun, String.toList_ofList]
    rfl
  · rw [tokensOf, tokensOf, hrun, finish_enter, String.toList_ofList]

/-- Unless a backslash waits for a character, there is at most a quote to close. -/
theorem exists_closed_of_unescaped {line : String} (hm : (start.run line.toList).mode ≠ .escaped) :
    ∃ closed, Closed closed ∧ tokensOf line = tokensOf closed := by
  cases h : (start.run line.toList).mode with
  | normal => exact ⟨line, stack_of_normal (stack_of_line line) h, rfl⟩
  | singleQuoted => exact ⟨_, tokensOf_singleQuoted h⟩
  | doubleQuoted => exact ⟨_, tokensOf_doubleQuoted h⟩
  | escaped => exact absurd h hm

theorem exists_closed (line : String) : ∃ closed, Closed closed ∧ tokensOf line = tokensOf closed := by
  by_cases hm : (start.run line.toList).mode = .escaped
  · obtain ⟨shorter, -, hmodes, htokens⟩ := tokensOf_escaped hm
    -- the escape is the innermost mode, and no second one is below it
    have hshorter : (start.run shorter.toList).mode ≠ .escaped := by
      have hs := stack_of_line line
      rw [hmodes] at hs
      simp only [modeStacks, List.mem_cons, List.not_mem_nil, or_false, List.cons.injEq, reduceCtorEq, false_and,
        true_and, false_or] at hs
      rcases hs with hs | hs <;> simp [mode, hs]
    rw [htokens]
    exact exists_closed_of_unescaped hshorter
  · exact exists_closed_of_unescaped hm

/-- What is open at the end of a line is closed there. The missing quote may as well be written, and a backslash that
    waits for a character, outside quotes or inside, may as well be left away. So every line is read as one that
    leaves nothing open. -/
theorem tokensOf_completed (line : String) :
    ((start.run line.toList).mode = .singleQuoted → Closed (line ++ "'") ∧ tokensOf line = tokensOf (line ++ "'")) ∧
      ((start.run line.toList).mode = .doubleQuoted →
        Closed (line ++ "\"") ∧ tokensOf line = tokensOf (line ++ "\"")) ∧
      ((start.run line.toList).mode = .escaped → ∃ shorter, line = shorter ++ "\\" ∧
        (start.run line.toList).modes = .escaped :: (start.run shorter.toList).modes ∧
        tokensOf line = tokensOf shorter) ∧
      ∃ closed, Closed closed ∧ tokensOf line = tokensOf closed :=
  ⟨tokensOf_singleQuoted, tokensOf_doubleQuoted, tokensOf_escaped, exists_closed line⟩

/-- A line that ends inside single quotes, one behind an escaped backslash in double quotes, and two that end in a
    pending escape: right behind an operator, and in double quotes. -/
theorem tokensOf_completed_at_ends :
    (start.run "a '|".toList).mode = .singleQuoted ∧ tokensOf "a '|" = tokensOf ("a '|" ++ "'") ∧
      (start.run "a \"\\\\".toList).mode = .doubleQuoted ∧ tokensOf "a \"\\\\" = tokensOf ("a \"\\\\" ++ "\"") ∧
      (start.run "a >\\".toList).mode = .escaped ∧ (∃ shorter, "a >\\" = shorter ++ "\\" ∧
        (start.run "a >\\".toList).modes = .escaped :: (start.run shorter.toList).modes ∧
        tokensOf "a >\\" = tokensOf shorter) ∧
      (start.run "a \"\\".toList).mode = .escaped ∧
      ∃ closed, Closed closed ∧ tokensOf "a \"\\" = tokensOf closed := by
  have hsingle : (start.run "a '|".toList).mode = .singleQuoted := by decide +kernel
  have hdouble : (start.run "a \"\\\\".toList).mode = .doubleQuoted := by decide +kernel
  have hescaped : (start.run "a >\\".toList).mode = .escaped := by decide +kernel
  obtain ⟨single, -⟩ := tokensOf_completed "a '|"
  obtain ⟨-, double, -⟩ := tokensOf_completed "a \"\\\\"
  obtain ⟨-, -, escaped, -⟩ := tokensOf_completed "a >\\"
  obtain ⟨-, -, -, closed⟩ := tokensOf_completed "a \"\\"
  exact ⟨hsingle, (single hsingle).2, hdouble, (double hdouble).2, hescaped, escaped hescaped, by decide +kernel, closed⟩

end CommandShell
