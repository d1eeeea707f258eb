/-
  CommandShell.Proofs.Token.Moves — what the scanner can do in one move, and what follows for a whole run.

  A move reads the characters of one decision: one character, or an operator with its number and both of its
  signs. `Move` lists the moves with the condition of each; `Move.run_eq` says that a run is made of them and
  `run_induction` that of nothing else. From the moves alone:
  - `run_append`: a run may be cut anywhere but before a `>`, which an operator could reach over;
  - `run_last`: a run that reads anything ends with a move;
  - `run_after`: what was found earlier in the line has no influence on what is found next;
  - `run_stack`: only five stacks of modes occur, so the normal mode is the outermost one (`stack_of_normal`);
  - `run_found`: no end mark and no empty word is found inside a line.
-/

import CommandShell.Token.Scanner

namespace CommandShell

/-- How an operator names its stream: standard output also goes without its number. -/
inductive Mark where
  | unnumbered
  | one
  | two
  deriving DecidableEq, Repr

namespace Mark

def stream : Mark → OutStream
  | .two => .stderr
  | _ => .stdout

def chars : Mark → List Char
  | .unnumbered => []
  | .one => ['1']
  | .two => ['2']

end Mark

/-- The sign that opens a file in this way. -/
def OpenMode.sign : OpenMode → List Char
  | .truncate => ['>']
  | .append => ['>', '>']

/-- A character without a meaning of its own outside quotes. -/
def Plain (c : Char) : Prop := c ≠ '\'' ∧ c ≠ '"' ∧ c ≠ '\\' ∧ c ≠ ' ' ∧ c ≠ '|' ∧ c ≠ '>'

namespace Mode

/-- The mode that a character opens. -/
def entered : Mode → Char → Option Mode
  | .normal, '\'' => some .singleQuoted
  | .normal, '"' => some .doubleQuoted
  | .normal, '\\' => some .escaped
  | .doubleQuoted, '\\' => some .escaped
  | _, _ => none

/-- A quote ends the mode that it began. -/
def Closes : Mode → Char → Prop
  | .singleQuoted, c => c = '\''
  | .doubleQuoted, c => c = '"'
  | _, _ => False

/-- The character stands for itself. -/
def Literal : Mode → Char → Prop
  | .normal, c => Plain c
  | .singleQuoted, c => c ≠ '\''
  | .doubleQuoted, c => c ≠ '"' ∧ c ≠ '\\'
  | .escaped, _ => False

end Mode

namespace Scanner

/-! ## The moves -/

/-- A number that begins a word right before a `>` belongs to the operator. -/
def NumbersOperator (s : Scanner) (c : Char) (rest : List Char) : Prop :=
  s.mode = .normal ∧ (c = '1' ∨ c = '2') ∧ s.word = [] ∧ rest.head? = some '>'

/-- `Move s cs s' rest`: in the state `s` before the characters `cs` the next state is `s'`, before `rest`. -/
inductive Move (s : Scanner) : List Char → Scanner → List Char → Prop
  | enter {c : Char} {m : Mode} {rest : List Char} : s.mode.entered c = some m → Move s (c :: rest) (s.enter m) rest
  | leave {c : Char} {rest : List Char} : s.mode.Closes c → Move s (c :: rest) s.leave rest
  | take {c : Char} {rest : List Char} : s.mode.Literal c → ¬ s.NumbersOperator c rest →
      Move s (c :: rest) (s.take c) rest
  | takeEscaped {c : Char} {rest : List Char} : s.mode = .escaped → Move s (c :: rest) (s.takeEscaped c) rest
  | space {rest : List Char} : s.mode = .normal → Move s (' ' :: rest) s.flush rest
  | pipe {rest : List Char} : s.mode = .normal → Move s ('|' :: rest) (s.flush.emit .pipe) rest
  /-- The number is read only at the beginning of a word, and a second sign whenever there is one. -/
  | operator (mark : Mark) (how : OpenMode) {rest : List Char} : s.mode = .normal →
      (mark ≠ .unnumbered → s.word = []) → (how = .truncate → rest.head? ≠ some '>') →
      Move s (mark.chars ++ how.sign ++ rest) (s.operator mark.stream how) rest

/-- The rest of the line, when it does not begin with the sign of an operator. -/
theorem head?_ne_of_no_sign {cs : List Char} (h : ∀ rest, cs = '>' :: rest → False) : cs.head? ≠ some '>' := by
  cases cs with
  | nil => simp
  | cons c rest =>
    intro e
    simp only [List.head?_cons, Option.some.injEq] at e
    exact h rest (by rw [e])

theorem run_plain {s : Scanner} {c : Char} {rest : List Char} (hm : s.mode = .normal) (hc : Plain c)
    (hn : ¬ s.NumbersOperator c rest) : s.run (c :: rest) = (s.take c).run rest := by
  obtain ⟨h1, h2, h3, h4, h5, h6⟩ := hc
  rw [run.eq_def]
  simp only [hm, h1, h2, h3, h4, h5, h6, if_false]
  by_cases hw : s.word = []
  · -- only here can a number come before an operator, and `hn` excludes the sign behind it
    by_cases hd : c = '1' ∨ c = '2'
    · have hr : rest.head? ≠ some '>' := fun hr => hn ⟨hm, hd, hw, hr⟩
      cases rest with
      | nil => simp
      | cons d rest => simp only [List.head?_cons, ne_eq, Option.some.injEq] at hr; simp [hr]
    · simp only [not_or] at hd
      simp [hd]
  · simp [hw]

theorem run_operator {s : Scanner} {mark : Mark} {how : OpenMode} {rest : List Char} (hm : s.mode = .normal)
    (hw : mark ≠ .unnumbered → s.word = []) (hr : how = .truncate → rest.head? ≠ some '>') :
    s.run (mark.chars ++ how.sign ++ rest) = (s.operator mark.stream how).run rest := by
  cases how with
  | truncate =>
    have hr := hr rfl
    cases rest with
    | nil => cases mark <;> simp_all [Mark.chars, Mark.stream, OpenMode.sign, run.eq_def s (_ :: _)]
    | cons c rest => cases mark <;> simp_all [Mark.chars, Mark.stream, OpenMode.sign, run.eq_def s (_ :: _)]
  | append => cases mark <;> simp_all [Mark.chars, Mark.stream, OpenMode.sign, run.eq_def s (_ :: _)]

/-- A run makes a move whenever there is one. -/
theorem Move.run_eq {s s' : Scanner} {cs rest : List Char} (h : Move s cs s' rest) : s.run cs = s'.run rest := by
  cases h with
  | enter hc =>
    unfold Mode.entered at hc
    split at hc <;> simp only [Option.some.injEq, reduceCtorEq] at hc
    all_goals subst hc; rename_i hm; simp [run.eq_def s (_ :: _), hm]
  | leave hc =>
    cases hm : s.mode <;> simp only [Mode.Closes, hm] at hc
    all_goals subst hc; simp [run.eq_def s (_ :: _), hm]
  | take hc hn =>
    cases hm : s.mode with
    | normal => exact run_plain hm (by simpa [Mode.Literal, hm] using hc) hn
    | singleQuoted => simp only [Mode.Literal, hm] at hc; simp [run.eq_def s (_ :: _), hm, hc]
    | doubleQuoted => simp only [Mode.Literal, hm] at hc; simp [run.eq_def s (_ :: _), hm, hc]
    | escaped => simp [Mode.Literal, hm] at hc
  | takeEscaped hm => simp [run.eq_def s (_ :: _), hm]
  | space hm => simp [run.eq_def s (_ :: _), hm]
  | pipe hm => simp [run.eq_def s (_ :: _), hm]
  | operator mark how hm hw hr => exact run_operator hm hw hr

theorem number_first {s : Scanner} {c d : Char} (h : (decide (c = d) && s.word.isEmpty) = true) :
    c = d ∧ s.word = [] := by
  simpa using h

/-- A run is made of moves: what holds at the end of the line, and before a move whenever it holds behind it,
    holds of every run. -/
@[elab_as_elim]
theorem run_induction {motive : Scanner → List Char → Prop} (nil : ∀ s, motive s [])
    (move : ∀ {s s' : Scanner} {cs rest : List Char}, Move s cs s' rest → motive s' rest → motive s cs)
    (s : Scanner) (cs : List Char) : motive s cs := by
  have entry : ∀ {s : Scanner} {c : Char} {m m' : Mode} {rest : List Char}, s.mode = m → m.entered c = some m' →
      motive (s.enter m') rest → motive s (c :: rest) := fun hm hc ih => move (.enter (by rw [hm]; exact hc)) ih
  have exit : ∀ {s : Scanner} {c : Char} {m : Mode} {rest : List Char}, s.mode = m → m.Closes c →
      motive s.leave rest → motive s (c :: rest) := fun hm hc ih => move (.leave (by rw [hm]; exact hc)) ih
  have plain : ∀ {s : Scanner} {c : Char} {rest : List Char}, s.mode = .normal → Plain c →
      ¬ s.NumbersOperator c rest → motive (s.take c) rest → motive s (c :: rest) :=
    fun hm hc hn ih => move (.take (by rw [hm]; exact hc) hn) ih
  fun_induction run s cs with
  | case1 s => exact nil s
  | case2 s rest hm ih => exact exit hm rfl ih
  | case3 s c rest hm hc ih => exact move (.take (by rw [hm]; exact hc) (by simp [NumbersOperator, hm])) ih
  | case4 s rest hm ih => exact exit hm rfl ih
  | case5 s rest hm _ ih => exact entry hm rfl ih
  | case6 s c rest hm h1 h2 ih => exact move (.take (by rw [hm]; exact ⟨h1, h2⟩) (by simp [NumbersOperator, hm])) ih
  | case7 s c rest hm ih => exact move (.takeEscaped hm) ih
  | case8 s rest hm ih => exact entry hm rfl ih
  | case9 s rest hm _ ih => exact entry hm rfl ih
  | case10 s rest hm _ _ ih => exact entry hm rfl ih
  | case11 s rest hm _ _ _ ih => exact move (.space hm) ih
  | case12 s rest hm _ _ _ _ ih => exact move (.pipe hm) ih
  | case13 s hm rest _ _ _ _ _ ih => exact move (.operator .unnumbered .append hm (by simp) (by simp)) ih
  | case14 s hm rest hr _ _ _ _ _ ih =>
    exact move (.operator .unnumbered .truncate hm (by simp) (fun _ => head?_ne_of_no_sign hr)) ih
  | case15 s c hm _ _ _ _ _ _ h rest ih =>
    obtain ⟨rfl, hw⟩ := number_first h
    exact move (.operator .one .append hm (fun _ => hw) (by simp)) ih
  | case16 s c hm _ _ _ _ _ _ h rest hr ih =>
    obtain ⟨rfl, hw⟩ := number_first h
    exact move (.operator .one .truncate hm (fun _ => hw) (fun _ => head?_ne_of_no_sign hr)) ih
  | case17 s c hm h1 h2 h3 h4 h5 h6 h rest _ hr ih =>
    exact plain hm ⟨h1, h2, h3, h4, h5, h6⟩ (fun hn => head?_ne_of_no_sign hr hn.2.2.2) ih
  | case18 s c hm _ _ _ _ _ _ _ h rest ih =>
    obtain ⟨rfl, hw⟩ := number_first h
    exact move (.operator .two .append hm (fun _ => hw) (by simp)) ih
  | case19 s c hm _ _ _ _ _ _ _ h rest hr ih =>
    obtain ⟨rfl, hw⟩ := number_first h
    exact move (.operator .two .truncate hm (fun _ => hw) (fun _ => head?_ne_of_no_sign hr)) ih
  | case20 s c hm h1 h2 h3 h4 h5 h6 _ h rest _ hr ih =>
    exact plain hm ⟨h1, h2, h3, h4, h5, h6⟩ (fun hn => head?_ne_of_no_sign hr hn.2.2.2) ih
  | case21 s c rest hm h1 h2 h3 h4 h5 h6 hone htwo ih =>
    refine plain hm ⟨h1, h2, h3, h4, h5, h6⟩ ?_ ih
    rintro ⟨-, rfl | rfl, hw, -⟩
    · simp [hw] at hone
    · simp [hw] at htwo

/-- What every move keeps, every run keeps. -/
theorem run_preserves {P : Scanner → Prop}
    (hP : ∀ {s s' : Scanner} {cs rest : List Char}, Move s cs s' rest → P s → P s') {s : Scanner} (cs : List Char)
    (hs : P s) : P (s.run cs) := by
  induction s, cs using run_induction with
  | nil s => exact hs
  | move h ih => rw [h.run_eq]; exact ih (hP h hs)

/-! ## Cutting a run -/

theorem head?_append_ne {a b : List Char} (ha : a.head? ≠ some '>') (hb : b.head? ≠ some '>') :
    (a ++ b).head? ≠ some '>' := by
  cases a with
  | nil => exact hb
  | cons c a => exact ha

theorem Move.append {s s' : Scanner} {cs rest : List Char} (h : Move s cs s' rest) {b : List Char}
    (hb : b.head? ≠ some '>') : Move s (cs ++ b) s' (rest ++ b) := by
  cases h with
  | enter hc => exact .enter hc
  | leave hc => exact .leave hc
  | take hc hn =>
    refine .take hc fun ⟨hm, hd, hw, hr⟩ => ?_
    by_cases h : rest.head? = some '>'
    · exact hn ⟨hm, hd, hw, h⟩
    · exact head?_append_ne h hb hr
  | takeEscaped hm => exact .takeEscaped hm
  | space hm => exact .space hm
  | pipe hm => exact .pipe hm
  | operator mark how hm hw hr =>
    rw [List.append_assoc]
    exact .operator mark how hm hw fun e => head?_append_ne (hr e) hb

/-- Reading a line is reading its parts in turn, unless the second begins inside an operator. -/
theorem run_append (s : Scanner) (a : List Char) {b : List Char} (hb : b.head? ≠ some '>') :
    s.run (a ++ b) = (s.run a).run b := by
  induction s, a using run_induction with
  | nil s => rfl
  | move h ih => rw [h.run_eq, (h.append hb).run_eq, ih]

/-- What a move leaves unread it has not read: the move is made without it as well. -/
theorem Move.cut {s s' : Scanner} {cs rest back : List Char} (h : Move s cs s' (rest ++ back)) :
    ∃ front, cs = front ++ back ∧ Move s front s' rest := by
  have hsign : rest.head? = some '>' → (rest ++ back).head? = some '>' := by
    intro hr
    simp [hr]
  generalize hunread : rest ++ back = unread at h hsign
  cases h with
  | enter hc => exact ⟨_ :: rest, by rw [← hunread, List.cons_append], .enter hc⟩
  | leave hc => exact ⟨_ :: rest, by rw [← hunread, List.cons_append], .leave hc⟩
  | take hc hn =>
    refine ⟨_ :: rest, by rw [← hunread, List.cons_append], .take hc fun ⟨hm, hd, hw, hr⟩ => ?_⟩
    exact hn ⟨hm, hd, hw, hsign hr⟩
  | takeEscaped hm => exact ⟨_ :: rest, by rw [← hunread, List.cons_append], .takeEscaped hm⟩
  | space hm => exact ⟨' ' :: rest, by rw [← hunread, List.cons_append], .space hm⟩
  | pipe hm => exact ⟨'|' :: rest, by rw [← hunread, List.cons_append], .pipe hm⟩
  | operator mark how hm hw hr =>
    refine ⟨mark.chars ++ how.sign ++ rest, by rw [← hunread]; simp, .operator mark how hm hw fun e hrest => ?_⟩
    exact hr e (hsign hrest)

/-- A run that reads anything ends with a move. -/
theorem run_last (s : Scanner) (cs : List Char) (hne : cs ≠ []) :
    ∃ front back, cs = front ++ back ∧ Move (s.run front) back (s.run cs) [] := by
  induction s, cs using run_induction with
  | nil s => exact absurd rfl hne
  | @move s s' cs rest h ih =>
    rw [h.run_eq]
    by_cases hrest : rest = []
    · subst hrest
      exact ⟨[], cs, rfl, h⟩
    · obtain ⟨front, back, rfl, hlast⟩ := ih hrest
      obtain ⟨front', rfl, hfront⟩ := h.cut
      rw [← hfront.run_eq] at hlast
      exact ⟨front', back, rfl, hlast⟩

/-! ## What was found before -/

/-- The same state with the tokens `ts`, the last first, found before all others. -/
def after (s : Scanner) (ts : List Token) : Scanner := { s with tokens := s.tokens ++ ts }

@[simp] theorem after_mode (s : Scanner) (ts : List Token) : (s.after ts).mode = s.mode := rfl
@[simp] theorem after_take (s : Scanner) (ts : List Token) (c : Char) : (s.after ts).take c = (s.take c).after ts := rfl
@[simp] theorem after_emit (s : Scanner) (ts : List Token) (t : Token) : (s.after ts).emit t = (s.emit t).after ts := rfl

@[simp] theorem after_leave (s : Scanner) (ts : List Token) : (s.after ts).leave = s.leave.after ts := by
  simp only [leave, after]
  split <;> simp_all

@[simp] theorem after_flush (s : Scanner) (ts : List Token) : (s.after ts).flush = s.flush.after ts := by
  by_cases h : s.word = [] <;> simp [flush, after, h]

@[simp] theorem after_takeEscaped (s : Scanner) (ts : List Token) (c : Char) :
    (s.after ts).takeEscaped c = (s.takeEscaped c).after ts := by
  simp only [takeEscaped, after_leave, after_mode, after_take]
  split <;> rfl

@[simp] theorem after_operator (s : Scanner) (ts : List Token) (stream : OutStream) (how : OpenMode) :
    (s.after ts).operator stream how = (s.operator stream how).after ts := by
  simp [operator]

theorem Move.after {s s' : Scanner} {cs rest : List Char} (h : Move s cs s' rest) (ts : List Token) :
    Move (s.after ts) cs (s'.after ts) rest := by
  cases h with
  | enter hc => exact .enter hc
  | leave hc => rw [← after_leave]; exact .leave hc
  | take hc hn => exact .take hc hn
  | takeEscaped hm => rw [← after_takeEscaped]; exact .takeEscaped hm
  | space hm => rw [← after_flush]; exact .space hm
  | pipe hm => rw [← after_emit, ← after_flush]; exact .pipe hm
  | operator mark how hm hw hr => rw [← after_operator]; exact .operator mark how hm hw hr

theorem run_after (s : Scanner) (ts : List Token) (cs : List Char) : (s.after ts).run cs = (s.run cs).after ts := by
  induction s, cs using run_induction with
  | nil s => rfl
  | move h ih => rw [h.run_eq, (h.after ts).run_eq, ih]

/-! ## The stack of modes -/

/-- The stacks that occur, the innermost mode first. -/
def modeStacks : List (List Mode) :=
  [[.normal], [.singleQuoted, .normal], [.doubleQuoted, .normal], [.escaped, .normal],
   [.escaped, .doubleQuoted, .normal]]

@[simp] theorem flush_modes (s : Scanner) : s.flush.modes = s.modes := by
  unfold flush
  split <;> rfl

theorem flush_word (s : Scanner) : s.flush.word = [] := by
  by_cases hw : s.word = [] <;> simp [flush, hw]

@[simp] theorem emit_modes (s : Scanner) (t : Token) : (s.emit t).modes = s.modes := rfl
@[simp] theorem operator_modes (s : Scanner) (stream : OutStream) (how : OpenMode) :
    (s.operator stream how).modes = s.modes := by simp [operator]

theorem takeEscaped_modes (s : Scanner) (c : Char) : (s.takeEscaped c).modes = s.leave.modes := by
  simp only [takeEscaped]
  split <;> rfl

theorem stack_cases {s : Scanner} (hs : s.modes ∈ modeStacks) :
    s.modes = [.normal] ∨ s.modes = [.singleQuoted, .normal] ∨ s.modes = [.doubleQuoted, .normal] ∨
      s.modes = [.escaped, .normal] ∨ s.modes = [.escaped, .doubleQuoted, .normal] := by
  simpa only [modeStacks, List.mem_cons, List.not_mem_nil, or_false] using hs

/-- A mode is opened on the outermost one, or an escape in double quotes. -/
theorem enter_stack {s : Scanner} (hs : s.modes ∈ modeStacks) {c : Char} {m : Mode} (hc : s.mode.entered c = some m) :
    (s.enter m).modes ∈ modeStacks := by
  rcases stack_cases hs with hs | hs | hs | hs | hs <;> simp only [mode, hs, List.headD_cons] at hc <;> unfold Mode.entered at hc
  all_goals split at hc <;> simp_all [enter, modeStacks]

/-- Above the outermost mode there is always one to go back to. -/
theorem leave_stack {s : Scanner} (hs : s.modes ∈ modeStacks) (hm : s.mode ≠ .normal) : s.leave.modes ∈ modeStacks := by
  rcases stack_cases hs with hs | hs | hs | hs | hs
  · simp [mode, hs] at hm
  all_goals simp [leave, hs, modeStacks]

theorem Move.stack {s s' : Scanner} {cs rest : List Char} (h : Move s cs s' rest) (hs : s.modes ∈ modeStacks) :
    s'.modes ∈ modeStacks := by
  cases h with
  | enter hc => exact enter_stack hs hc
  | leave hc =>
    refine leave_stack hs fun hm => ?_
    simp [Mode.Closes, hm] at hc
  | take _ _ => exact hs
  | takeEscaped hm => rw [takeEscaped_modes]; exact leave_stack hs (by simp [hm])
  | space _ => simpa using hs
  | pipe _ => simpa using hs
  | operator _ _ _ _ _ => simpa using hs

theorem run_stack {s : Scanner} (cs : List Char) (hs : s.modes ∈ modeStacks) : (s.run cs).modes ∈ modeStacks :=
  run_preserves Move.stack cs hs

/-- In the normal mode nothing is open. -/
theorem stack_of_normal {s : Scanner} (hs : s.modes ∈ modeStacks) (hm : s.mode = .normal) : s.modes = [.normal] := by
  rcases stack_cases hs with hs | hs | hs | hs | hs
  · exact hs
  all_goals simp [mode, hs] at hm

/-! ## What is found inside a line -/

/-- Neither the end mark nor an empty word. -/
def Found (t : Token) : Prop := t ≠ .eof ∧ t ≠ .word ""

theorem flush_found {s : Scanner} (hs : ∀ t ∈ s.tokens, Found t) : ∀ t ∈ s.flush.tokens, Found t := by
  by_cases hw : s.word = []
  · simpa [flush, hw] using hs
  · have hne : String.ofList s.word.reverse ≠ "" := by
      intro e
      have : s.word.reverse = [] := by simpa using congrArg String.toList e
      exact hw (by simpa using this)
    simpa [flush, hw, Found, hne] using hs

theorem emit_found {s : Scanner} (hs : ∀ t ∈ s.tokens, Found t) {t : Token} (ht : Found t) :
    ∀ u ∈ (s.emit t).tokens, Found u := by
  simpa [emit] using ⟨ht, hs⟩

theorem leave_tokens (s : Scanner) : s.leave.tokens = s.tokens := by
  unfold leave
  split <;> rfl

theorem takeEscaped_tokens (s : Scanner) (c : Char) : (s.takeEscaped c).tokens = s.tokens := by
  simp only [takeEscaped]
  split <;> exact leave_tokens s

theorem Move.found {s s' : Scanner} {cs rest : List Char} (h : Move s cs s' rest) (hs : ∀ t ∈ s.tokens, Found t) :
    ∀ t ∈ s'.tokens, Found t := by
  cases h with
  | enter _ => exact hs
  | leave _ => rw [leave_tokens]; exact hs
  | take _ _ => exact hs
  | takeEscaped _ => rw [takeEscaped_tokens]; exact hs
  | space _ => exact flush_found hs
  | pipe _ => exact emit_found (flush_found hs) (by simp [Found])
  | operator _ _ _ _ _ => exact emit_found (flush_found hs) (by simp [Found])

theorem run_found {s : Scanner} (cs : List Char) (hs : ∀ t ∈ s.tokens, Found t) :
    ∀ t ∈ (s.run cs).tokens, Found t :=
  run_preserves (P := fun s => ∀ t ∈ s.tokens, Found t) Move.found cs hs

end Scanner

end CommandShell
