/-
  CommandShell.Proofs.Token.Automaton — the scanner's stack is one of five, and five states do without it.

  `Quoting` has one state for every stack that occurs. `next` takes a state over a character, whatever the word and
  the tokens so far; `tokensFrom` reads a line with the state, the word being read and nothing else.
  - `modes_run`: behind any characters the stack is the one that the state reached by them stands for;
  - `run?_eq`: a scanner that fails where a mode is asked of an empty stack, or the outermost mode is left, never
    fails, so what `mode` and `leave` do in those two cases plays no part;
  - `finish_run`: the tokens found with the stack are the tokens found with the states;
  - `stack_as_automaton`: the three together, for every line.
-/

import CommandShell.Proofs.Token.Moves

namespace CommandShell

/-! ## The states -/

/-- What stands open: nothing, one kind of quotes, or a backslash outside or inside double quotes. -/
inductive Quoting where
  | bare
  | single
  | double
  | escape
  | doubleEscape
  deriving DecidableEq, Repr

namespace Quoting

/-- The stack that a state stands for, the innermost mode first. -/
def stack : Quoting → List Mode
  | .bare => [.normal]
  | .single => [.singleQuoted, .normal]
  | .double => [.doubleQuoted, .normal]
  | .escape => [.escaped, .normal]
  | .doubleEscape => [.escaped, .doubleQuoted, .normal]

/-- The state behind a character. -/
def next : Quoting → Char → Quoting
  | .bare, '\'' => .single
  | .bare, '"' => .double
  | .bare, '\\' => .escape
  | .single, '\'' => .bare
  | .double, '"' => .bare
  | .double, '\\' => .doubleEscape
  | .escape, _ => .bare
  | .doubleEscape, _ => .double
  | q, _ => q

/-- What a character gives to the word that it stands in. -/
def adds : Quoting → Char → List Char
  | .bare, '\'' | .bare, '"' | .bare, '\\' | .single, '\'' | .double, '"' | .double, '\\' => []
  | .doubleEscape, '"' => ['"']
  | .doubleEscape, '\\' => ['\\']
  | .doubleEscape, c => ['\\', c]
  | _, c => [c]

/-- The token of a word that ends, if it has any character. -/
def ended (word : List Char) : List Token := if word = [] then [] else [.word (String.ofList word)]

/-- The tokens of what is still to be read, behind the characters `word` of a word. -/
def tokensFrom : Quoting → List Char → List Char → List Token
  | _, word, [] => ended word ++ [.eof]
  | .bare, word, ' ' :: cs => ended word ++ tokensFrom .bare [] cs
  | .bare, word, '|' :: cs => ended word ++ .pipe :: tokensFrom .bare [] cs
  | .bare, word, '>' :: '>' :: cs => ended word ++ .redirect .stdout .append :: tokensFrom .bare [] cs
  | .bare, word, '>' :: cs => ended word ++ .redirect .stdout .truncate :: tokensFrom .bare [] cs
  | .bare, [], '1' :: '>' :: '>' :: cs => .redirect .stdout .append :: tokensFrom .bare [] cs
  | .bare, [], '1' :: '>' :: cs => .redirect .stdout .truncate :: tokensFrom .bare [] cs
  | .bare, [], '2' :: '>' :: '>' :: cs => .redirect .stderr .append :: tokensFrom .bare [] cs
  | .bare, [], '2' :: '>' :: cs => .redirect .stderr .truncate :: tokensFrom .bare [] cs
  | q, word, c :: cs => tokensFrom (q.next c) (word ++ q.adds c) cs

theorem stack_mem (q : Quoting) : q.stack ∈ Scanner.modeStacks := by
  cases q <;> decide

/-! ## One character -/

/-- The innermost mode. -/
def top (q : Quoting) : Mode := q.stack.headD .normal

theorem next_of_entered {q : Quoting} {c : Char} {m : Mode} (h : q.top.entered c = some m) :
    (q.next c).stack = m :: q.stack ∧ q.adds c = [] := by
  cases q <;> simp only [top, stack, List.headD_cons] at h <;> unfold Mode.entered at h <;> split at h <;>
    simp_all [next, adds, stack]

theorem next_of_closes {q : Quoting} {c : Char} (h : q.top.Closes c) :
    (q.next c).stack = q.stack.tail ∧ q.adds c = [] := by
  cases q <;> simp only [top, stack, List.headD_cons, Mode.Closes] at h
  all_goals subst h; exact ⟨rfl, rfl⟩

theorem next_of_literal {q : Quoting} {c : Char} (h : q.top.Literal c) : q.next c = q ∧ q.adds c = [c] := by
  cases q <;> simp only [top, stack, List.headD_cons, Mode.Literal, Plain] at h <;> simp [next, adds, h]

theorem next_of_escaped {q : Quoting} (h : q.top = .escaped) (c : Char) : (q.next c).stack = q.stack.tail := by
  cases q <;> simp_all [top, next, stack]

/-! ## What ends a word -/

/-- Outside quotes the character ends the word, or begins an operator. -/
def Divides (q : Quoting) (word : List Char) (c : Char) (rest : List Char) : Prop :=
  q = .bare ∧ (c = ' ' ∨ c = '|' ∨ c = '>' ∨ (c = '1' ∨ c = '2') ∧ word = [] ∧ rest.head? = some '>')

theorem tokensFrom_inside {q : Quoting} {word : List Char} {c : Char} {rest : List Char}
    (h : ¬ q.Divides word c rest) : q.tokensFrom word (c :: rest) = (q.next c).tokensFrom (word ++ q.adds c) rest := by
  refine tokensFrom.eq_10 q word c rest ?_ ?_ ?_ ?_ ?_ ?_ ?_ ?_
  all_goals intros; exact h (by simp_all [Divides])

theorem tokensFrom_operator {word : List Char} (rest : List Char) {mark : Mark} {how : OpenMode}
    (hw : mark ≠ .unnumbered → word = []) (hr : how = .truncate → rest.head? ≠ some '>') :
    tokensFrom .bare word (mark.chars ++ how.sign ++ rest) =
      ended word ++ [.redirect mark.stream how] ++ tokensFrom .bare [] rest := by
  have hsign : how = .truncate → ∀ more, rest = '>' :: more → False := by
    rintro hhow more rfl
    exact hr hhow rfl
  rw [List.append_assoc (ended word), List.singleton_append]
  cases mark with
  | unnumbered =>
    cases how with
    | truncate => exact tokensFrom.eq_5 word rest (hsign rfl)
    | append => exact tokensFrom.eq_4 word rest
  | one =>
    obtain rfl := hw (by decide)
    cases how with
    | truncate => exact tokensFrom.eq_7 rest (hsign rfl)
    | append => exact tokensFrom.eq_6 rest
  | two =>
    obtain rfl := hw (by decide)
    cases how with
    | truncate => exact tokensFrom.eq_9 rest (hsign rfl)
    | append => exact tokensFrom.eq_8 rest

end Quoting

namespace Scanner

open Quoting

variable {s s' : Scanner} {q : Quoting} {cs rest : List Char}

/-! ## The stack of a state -/

theorem mode_of_stack (hs : s.modes = q.stack) : s.mode = q.top := by
  rw [mode, hs]
  rfl

theorem bare_of_normal (hs : s.modes = q.stack) (hm : s.mode = .normal) : q = .bare := by
  rw [mode_of_stack hs] at hm
  cases q <;> simp_all [top, stack]

/-- Where anything is open, leaving takes the innermost mode away. -/
theorem leave_of_stack (hs : s.modes = q.stack) (hm : s.mode ≠ .normal) : s.leave = { s with modes := q.stack.tail } := by
  rw [mode_of_stack hs] at hm
  cases q <;> simp_all [top, stack, leave]

theorem takeEscaped_word (hs : s.modes = q.stack) (hm : s.mode = .escaped) (c : Char) :
    (s.takeEscaped c).word = (q.adds c).reverse ++ s.word := by
  rw [takeEscaped, leave_of_stack hs (by simp [hm])]
  rw [mode_of_stack hs] at hm
  cases q with
  | bare | single | double => cases hm
  | escape => simp [stack, mode, take, adds]
  | doubleEscape =>
    by_cases hquote : c = '"'
    · simp [hquote, take, adds]
    · by_cases hslash : c = '\\'
      · simp [hslash, take, adds]
      · simp [hquote, hslash, stack, mode, take, adds]

/-! ## The tokens -/

/-- The tokens found, and those that a reader in the state `q` finds in `cs`. -/
def completed (s : Scanner) (q : Quoting) (cs : List Char) : List Token :=
  s.tokens.reverse ++ q.tokensFrom s.word.reverse cs

theorem flush_tokens (s : Scanner) : s.flush.tokens.reverse = s.tokens.reverse ++ ended s.word.reverse := by
  by_cases hw : s.word = [] <;> simp [flush, ended, hw]

theorem finish_eq_completed (s : Scanner) (q : Quoting) : s.finish = s.completed q [] := by
  simp [finish, emit, completed, tokensFrom, flush_tokens]

/-- Reading `front` takes the stack to that of the state behind `front`, and changes no token of the line. -/
structure Follows (s : Scanner) (q : Quoting) (front : List Char) (s' : Scanner) (rest : List Char) : Prop where
  modes : s'.modes = (front.foldl next q).stack
  tokens : s.completed q (front ++ rest) = s'.completed (front.foldl next q) rest

theorem follows_inside {c : Char} (hd : ¬ q.Divides s.word.reverse c rest) (hmodes : s'.modes = (q.next c).stack)
    (hword : s'.word = (q.adds c).reverse ++ s.word) (htokens : s'.tokens = s.tokens) : s.Follows q [c] s' rest where
  modes := hmodes
  tokens := by
    rw [completed, completed, htokens, hword, List.singleton_append, tokensFrom_inside hd]
    simp

/-- A sign that ends the word leaves the stack alone. -/
theorem follows_sign {front : List Char} (signs : List Token) (hs : s.modes = Quoting.bare.stack)
    (hfront : front.foldl next .bare = .bare)
    (hread : tokensFrom .bare s.word.reverse (front ++ rest) =
      ended s.word.reverse ++ signs ++ tokensFrom .bare [] rest)
    (hs' : s' = { s.flush with tokens := signs.reverse ++ s.flush.tokens }) : s.Follows .bare front s' rest where
  modes := by
    rw [hs', hfront, ← hs]
    exact flush_modes s
  tokens := by
    rw [hs', hfront, completed, completed, hread]
    simp [flush_tokens, flush_word]

/-- A move of the scanner takes the state over the characters that it reads. -/
theorem follows_of_move (h : Move s cs s' rest) (hs : s.modes = q.stack) :
    ∃ front, cs = front ++ rest ∧ s.Follows q front s' rest := by
  have hmode := mode_of_stack hs
  cases h with
  | @enter c m _ hc =>
    rw [hmode] at hc
    obtain ⟨hstack, hadds⟩ := next_of_entered hc
    refine ⟨[c], rfl, follows_inside ?_ (by rw [hstack, ← hs]; rfl) (by rw [hadds]; rfl) rfl⟩
    rintro ⟨rfl, rfl | rfl | rfl | ⟨rfl | rfl, -⟩⟩ <;> cases hc
  | @leave c _ hc =>
    have hne : s.mode ≠ .normal := by
      intro hm
      simp [hm, Mode.Closes] at hc
    have hleave := leave_of_stack hs hne
    rw [hmode] at hc
    obtain ⟨hstack, hadds⟩ := next_of_closes hc
    refine ⟨[c], rfl, follows_inside ?_ (by rw [hleave, hstack]) (by rw [hleave, hadds]; rfl) (leave_tokens s)⟩
    rintro ⟨rfl, -⟩
    exact hc
  | @take c _ hc hn =>
    rw [hmode] at hc
    obtain ⟨hstack, hadds⟩ := next_of_literal hc
    refine ⟨[c], rfl, follows_inside ?_ (by rw [hstack, ← hs]; rfl) (by rw [hadds]; rfl) rfl⟩
    rintro ⟨rfl, hd⟩
    obtain ⟨-, -, -, hspace, hpipe, hsign⟩ := hc
    rcases hd with hd | hd | hd | ⟨hd, hw, hr⟩
    · exact hspace hd
    · exact hpipe hd
    · exact hsign hd
    · exact hn ⟨hmode, hd, by simpa using hw, hr⟩
  | @takeEscaped c _ hm =>
    refine ⟨[c], rfl, follows_inside ?_ ?_ (takeEscaped_word hs hm c) (takeEscaped_tokens s c)⟩
    · rintro ⟨rfl, -⟩
      rw [hmode] at hm
      cases hm
    · rw [takeEscaped_modes, leave_of_stack hs (by simp [hm]), next_of_escaped (hmode ▸ hm)]
  | space hm =>
    obtain rfl := bare_of_normal hs hm
    exact ⟨[' '], rfl, follows_sign [] hs rfl (by simp [tokensFrom]) rfl⟩
  | pipe hm =>
    obtain rfl := bare_of_normal hs hm
    exact ⟨['|'], rfl, follows_sign [.pipe] hs rfl (by simp [tokensFrom]) rfl⟩
  | operator mark how hm hw hr =>
    obtain rfl := bare_of_normal hs hm
    have hfront : (mark.chars ++ how.sign).foldl next .bare = .bare := by
      cases mark <;> cases how <;> rfl
    have hword : mark ≠ .unnumbered → s.word.reverse = [] := by simpa using hw
    have hread := tokensFrom_operator rest hword hr
    exact ⟨mark.chars ++ how.sign, rfl, follows_sign [.redirect mark.stream how] hs hfront hread rfl⟩

/-- Behind the characters `cs` the stack is that of the state they lead to. -/
theorem modes_run (hs : s.modes = q.stack) (cs : List Char) : (s.run cs).modes = (cs.foldl next q).stack := by
  induction s, cs using run_induction generalizing q with
  | nil s => exact hs
  | move h ih =>
    obtain ⟨front, rfl, hf⟩ := follows_of_move h hs
    rw [h.run_eq, ih hf.modes, List.foldl_append]

/-- The tokens found with the stack are those found with the states. -/
theorem finish_run (hs : s.modes = q.stack) (cs : List Char) : (s.run cs).finish = s.completed q cs := by
  induction s, cs using run_induction generalizing q with
  | nil s => exact finish_eq_completed s q
  | move h ih =>
    obtain ⟨front, rfl, hf⟩ := follows_of_move h hs
    rw [h.run_eq, ih hf.modes, hf.tokens]

/-! ## A stack without nets -/

/-- The innermost mode; an empty stack has none. -/
def mode? (s : Scanner) : Option Mode := s.modes.head?

/-- Leave the innermost mode; the outermost one cannot be left. -/
def leave? (s : Scanner) : Option Scanner :=
  match s.modes with
  | _ :: m :: rest => some { s with modes := m :: rest }
  | _ => none

def takeEscaped? (s : Scanner) (c : Char) : Option Scanner :=
  s.leave?.bind fun outer => outer.mode?.map fun m =>
    if m = .doubleQuoted && c ≠ '"' && c ≠ '\\' then (outer.take '\\').take c else outer.take c

/-- Read the characters of a line as `run` does, and fail where the stack has no answer. -/
def run? (s : Scanner) : List Char → Option Scanner
  | [] => some s
  | c :: rest =>
    match s.mode? with
    | none => none
    | some .singleQuoted => if c = '\'' then s.leave?.bind (run? · rest) else (s.take c).run? rest
    | some .doubleQuoted =>
      if c = '"' then s.leave?.bind (run? · rest)
      else if c = '\\' then (s.enter .escaped).run? rest
      else (s.take c).run? rest
    | some .escaped => (s.takeEscaped? c).bind (run? · rest)
    | some .normal =>
      if c = '\'' then (s.enter .singleQuoted).run? rest
      else if c = '"' then (s.enter .doubleQuoted).run? rest
      else if c = '\\' then (s.enter .escaped).run? rest
      else if c = ' ' then s.flush.run? rest
      else if c = '|' then (s.flush.emit .pipe).run? rest
      else if c = '>' then
        match rest with
        | '>' :: rest' => (s.operator .stdout .append).run? rest'
        | rest' => (s.operator .stdout .truncate).run? rest'
      else if c = '1' && s.word.isEmpty then
        match rest with
        | '>' :: '>' :: rest' => (s.operator .stdout .append).run? rest'
        | '>' :: rest' => (s.operator .stdout .truncate).run? rest'
        | rest' => (s.take c).run? rest'
      else if c = '2' && s.word.isEmpty then
        match rest with
        | '>' :: '>' :: rest' => (s.operator .stderr .append).run? rest'
        | '>' :: rest' => (s.operator .stderr .truncate).run? rest'
        | rest' => (s.take c).run? rest'
      else (s.take c).run? rest

@[simp] theorem take_modes (s : Scanner) (c : Char) : (s.take c).modes = s.modes := rfl

theorem mode?_of_stack (hs : s.modes ∈ modeStacks) : s.mode? = some s.mode := by
  rcases stack_cases hs with hs | hs | hs | hs | hs <;> simp [mode?, mode, hs]

theorem leave?_of_stack (hs : s.modes ∈ modeStacks) (hm : s.mode ≠ .normal) : s.leave? = some s.leave := by
  rcases stack_cases hs with hs | hs | hs | hs | hs
  · simp [mode, hs] at hm
  all_goals simp [leave?, leave, hs]

theorem takeEscaped?_of_stack (hs : s.modes ∈ modeStacks) (hm : s.mode ≠ .normal) (c : Char) :
    s.takeEscaped? c = some (s.takeEscaped c) := by
  simp [takeEscaped?, takeEscaped, leave?_of_stack hs hm, mode?_of_stack (leave_stack hs hm)]

/-- Begun with one of the five stacks, a run never asks for what the stack does not have. -/
theorem run?_eq (hs : s.modes ∈ modeStacks) (cs : List Char) : s.run? cs = some (s.run cs) := by
  fun_induction run s cs with
  | case1 s => rfl
  | case2 s rest hm ih | case4 s rest hm ih =>
    have hne : s.mode ≠ .normal := by simp [hm]
    simp [run?.eq_def s (_ :: _), mode?_of_stack hs, hm, leave?_of_stack hs hne, ih (leave_stack hs hne)]
  | case7 s c rest hm ih =>
    have hne : s.mode ≠ .normal := by simp [hm]
    have hleft : (s.takeEscaped c).modes ∈ modeStacks := by
      rw [takeEscaped_modes]
      exact leave_stack hs hne
    simp [run?.eq_def s (_ :: _), mode?_of_stack hs, hm, takeEscaped?_of_stack hs hne, ih hleft]
  | case5 s rest hm _ ih | case10 s rest hm _ _ ih =>
    have hentered := enter_stack hs (c := '\\') (by rw [hm]; rfl)
    simp [run?.eq_def s (_ :: _), mode?_of_stack hs, hm, ih hentered]
  | case8 s rest hm ih =>
    have hentered := enter_stack hs (c := '\'') (by rw [hm]; rfl)
    simp [run?.eq_def s (_ :: _), mode?_of_stack hs, hm, ih hentered]
  | case9 s rest hm _ ih =>
    have hentered := enter_stack hs (c := '"') (by rw [hm]; rfl)
    simp [run?.eq_def s (_ :: _), mode?_of_stack hs, hm, ih hentered]
  | case21 s c rest hm h1 h2 h3 h4 h5 h6 hone htwo ih =>
    simp only [run?.eq_def s (_ :: _), mode?_of_stack hs, hm, h1, h2, h3, h4, h5, h6, hone, htwo, if_false]
    exact ih hs
  | _ =>
    -- no move that is left touches the stack
    simp_all [run?.eq_def _ (_ :: _), mode?_of_stack]

end Scanner

open Scanner

/-- The stack of modes is a five-state automaton. Behind the first `n` characters of any line it is the stack of the
    state to which they lead, and so one of five; no mode is ever asked of an empty stack and the outermost one is
    never left; and a reader that keeps the state in place of the stack finds the same tokens. -/
theorem stack_as_automaton (line : String) :
    (∀ n, (start.run (line.toList.take n)).modes = ((line.toList.take n).foldl Quoting.next .bare).stack ∧
        (start.run (line.toList.take n)).modes ∈ modeStacks) ∧
      start.run? line.toList = some (start.run line.toList) ∧
      tokensOf line = Quoting.tokensFrom .bare [] line.toList := by
  have hstart : start.modes = Quoting.bare.stack := rfl
  refine ⟨fun n => ?_, run?_eq (by decide) _, finish_run hstart _⟩
  have hmodes := modes_run hstart (line.toList.take n)
  exact ⟨hmodes, hmodes ▸ Quoting.stack_mem _⟩

end CommandShell
