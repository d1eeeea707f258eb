/-
  CommandShell.Proofs.Token.Spelling — the ways to write a line, and that the scanner reads each of them alike.

  A word is written as segments side by side: characters without a meaning of their own, a backslash with any
  character, a run in single quotes, a run in double quotes with its own escapes. The types carry what may stand
  in each, so that every `Lexeme` is one token of a line. `Reads cs ts` says that the characters `cs`, read from
  the beginning of a word, give the tokens `ts`:
  - `Lexeme.reads`: a lexeme gives its token;
  - `Reads.spaced`, `Reads.spread`: texts with spaces between them give their tokens in turn;
  - `tokensOf_spelled`: whatever the spelling of each word and whatever the spaces, a line gives its tokens.
-/

import CommandShell.Proofs.Token.Moves

namespace CommandShell

/-! ## Words as they are written -/

/-- An item of a double-quoted run. -/
inductive QuotedItem where
  | plain (c : Char) (hc : c ≠ '"' ∧ c ≠ '\\')
  | quote
  | backslash
  /-- A backslash before any other character stays, with that character. -/
  | unescaped (c : Char) (hc : c ≠ '"' ∧ c ≠ '\\')

namespace QuotedItem

def chars : QuotedItem → List Char
  | .plain c _ => [c]
  | .quote => ['\\', '"']
  | .backslash => ['\\', '\\']
  | .unescaped c _ => ['\\', c]

def text : QuotedItem → List Char
  | .plain c _ => [c]
  | .quote => ['"']
  | .backslash => ['\\']
  | .unescaped c _ => ['\\', c]

end QuotedItem

/-- A segment of a word. -/
inductive Segment where
  | bare (run : List Char) (hr : ∀ c ∈ run, Plain c)
  | escaped (c : Char)
  | single (run : List Char) (hr : '\'' ∉ run)
  | double (items : List QuotedItem)

namespace Segment

def chars : Segment → List Char
  | .bare run _ => run
  | .escaped c => ['\\', c]
  | .single run _ => '\'' :: (run ++ ['\''])
  | .double items => '"' :: (items.flatMap QuotedItem.chars ++ ['"'])

/-- What the segment adds to its word. -/
def text : Segment → List Char
  | .bare run _ => run
  | .escaped c => [c]
  | .single run _ => run
  | .double items => items.flatMap QuotedItem.text

end Segment

/-- A token as it is written. -/
inductive Lexeme where
  | pipe
  | operator (mark : Mark) (how : OpenMode)
  /-- Quotes around nothing are no word: the segments have a character among them. -/
  | word (segments : List Segment) (ht : segments.flatMap Segment.text ≠ [])

namespace Lexeme

def chars : Lexeme → List Char
  | .pipe => ['|']
  | .operator mark how => mark.chars ++ how.sign
  | .word segments _ => segments.flatMap Segment.chars

def token : Lexeme → Token
  | .pipe => .pipe
  | .operator mark how => .redirect mark.stream how
  | .word segments _ => .word (String.ofList (segments.flatMap Segment.text))

end Lexeme

def spaces (n : Nat) : List Char := List.replicate n ' '

/-- Texts behind one another with a space between neighbours, and the further spaces that `gaps` counts. -/
def spread : List Nat → List (List Char) → List Char
  | _, [] => []
  | _, [a] => a
  | gaps, a :: b :: rest => a ++ spaces (gaps.headD 0 + 1) ++ spread gaps.tail (b :: rest)

namespace Scanner

/-- Take characters in order. -/
def takeAll (s : Scanner) (cs : List Char) : Scanner := { s with word := cs.reverse ++ s.word }

/-- Find tokens in order. -/
def emitAll (s : Scanner) (ts : List Token) : Scanner := { s with tokens := ts.reverse ++ s.tokens }

@[simp] theorem takeAll_enter (s : Scanner) (cs : List Char) (m : Mode) :
    (s.enter m).takeAll cs = (s.takeAll cs).enter m := rfl

@[simp] theorem take_takeAll (s : Scanner) (c : Char) (cs : List Char) : (s.take c).takeAll cs = s.takeAll (c :: cs) := by
  simp [take, takeAll]

@[simp] theorem takeAll_takeAll (s : Scanner) (a b : List Char) : (s.takeAll a).takeAll b = s.takeAll (a ++ b) := by
  simp [takeAll]

theorem take_eq (s : Scanner) (c : Char) : s.take c = s.takeAll [c] := rfl

theorem mode_of_modes {s : Scanner} {m : Mode} {ms : List Mode} (h : s.modes = m :: ms) : s.mode = m := by
  simp [mode, h]

/-- A mode that was opened is closed again by leaving it. -/
theorem leave_enter {s : Scanner} {m : Mode} {ms : List Mode} (h : s.modes = m :: ms) (m' : Mode) :
    (s.enter m').leave = s := by
  simp only [enter, leave, h]
  rw [← h]

/-- An escape in double quotes keeps its backslash before most characters; outside it never does. -/
theorem takeEscaped_enter {s : Scanner} {m : Mode} {ms : List Mode} (h : s.modes = m :: ms) (c : Char) :
    (s.enter .escaped).takeEscaped c =
      if m = .doubleQuoted ∧ c ≠ '"' ∧ c ≠ '\\' then s.takeAll ['\\', c] else s.takeAll [c] := by
  simp only [takeEscaped, leave_enter h, mode_of_modes h]
  by_cases hc : m = .doubleQuoted ∧ c ≠ '"' ∧ c ≠ '\\'
  · simp [hc, take, takeAll]
  · rw [if_neg hc, if_neg (by simpa [and_assoc] using hc), take_eq]

/-! ## Reading one word -/

theorem run_bare (s : Scanner) (hm : s.mode = .normal) {cs : List Char} (hcs : ∀ c ∈ cs, Plain c) :
    s.run cs = s.takeAll cs := by
  induction cs generalizing s with
  | nil => rfl
  | cons c cs ih =>
    have hn : ¬ s.NumbersOperator c cs := by
      -- a sign behind the number would be a character of the run
      rintro ⟨-, -, -, hr⟩
      exact (hcs '>' (List.mem_cons_of_mem _ (List.mem_of_head? hr))).2.2.2.2.2 rfl
    rw [run_plain hm (hcs c (by simp)) hn, ih (s.take c) hm (fun d hd => hcs d (by simp [hd])), take_takeAll]

theorem run_single (s : Scanner) (hm : s.mode = .singleQuoted) {cs : List Char} (hcs : '\'' ∉ cs) (rest : List Char) :
    s.run (cs ++ rest) = (s.takeAll cs).run rest := by
  induction cs generalizing s with
  | nil => rfl
  | cons c cs ih =>
    simp only [List.mem_cons, not_or] at hcs
    have h : Move s (c :: (cs ++ rest)) (s.take c) (cs ++ rest) :=
      .take (by rw [hm]; exact Ne.symm hcs.1) (by simp [NumbersOperator, hm])
    rw [List.cons_append, h.run_eq, ih (s.take c) hm hcs.2, take_takeAll]

theorem run_escape {s : Scanner} {m : Mode} {ms : List Mode} (hs : s.modes = m :: ms)
    (he : m.entered '\\' = some .escaped) (c : Char) (rest : List Char) :
    s.run ('\\' :: c :: rest) = ((s.enter .escaped).takeEscaped c).run rest := by
  have h1 : Move s ('\\' :: c :: rest) (s.enter .escaped) (c :: rest) := .enter (by rw [mode_of_modes hs]; exact he)
  have h2 : Move (s.enter .escaped) (c :: rest) ((s.enter .escaped).takeEscaped c) rest := .takeEscaped rfl
  rw [h1.run_eq, h2.run_eq]

theorem run_item {s : Scanner} {ms : List Mode} (hs : s.modes = .doubleQuoted :: ms) (x : QuotedItem) (rest : List Char) :
    s.run (x.chars ++ rest) = (s.takeAll x.text).run rest := by
  have hm := mode_of_modes hs
  cases x with
  | plain c hc =>
    have h : Move s (c :: rest) (s.take c) rest := .take (by rw [hm]; exact hc) (by simp [NumbersOperator, hm])
    exact h.run_eq
  | quote =>
    show s.run ('\\' :: '"' :: rest) = _
    rw [run_escape hs rfl, takeEscaped_enter hs, if_neg (by simp)]
    rfl
  | backslash =>
    show s.run ('\\' :: '\\' :: rest) = _
    rw [run_escape hs rfl, takeEscaped_enter hs, if_neg (by simp)]
    rfl
  | unescaped c hc =>
    show s.run ('\\' :: c :: rest) = _
    rw [run_escape hs rfl, takeEscaped_enter hs, if_pos ⟨rfl, hc⟩]
    rfl

theorem run_items (s : Scanner) {ms : List Mode} (hs : s.modes = .doubleQuoted :: ms) (xs : List QuotedItem)
    (rest : List Char) :
    s.run (xs.flatMap QuotedItem.chars ++ rest) = (s.takeAll (xs.flatMap QuotedItem.text)).run rest := by
  induction xs generalizing s with
  | nil => rfl
  | cons x xs ih =>
    rw [List.flatMap_cons, List.append_assoc, run_item hs, ih (s.takeAll x.text) hs, takeAll_takeAll, List.flatMap_cons]

/-- A run in quotes: what stands between them is taken, and the mode is as before. -/
theorem run_quoted {s : Scanner} (q : Char) (m : Mode) {ms : List Mode} (hs : s.modes = .normal :: ms)
    (hq : Mode.entered .normal q = some m) (hc : m.Closes q) {cs text : List Char}
    (hcs : (s.enter m).run (cs ++ [q]) = ((s.enter m).takeAll text).run [q]) :
    s.run (q :: (cs ++ [q])) = s.takeAll text := by
  have h1 : Move s (q :: (cs ++ [q])) (s.enter m) (cs ++ [q]) := .enter (by rw [mode_of_modes hs]; exact hq)
  have h2 : Move ((s.takeAll text).enter m) [q] ((s.takeAll text).enter m).leave [] := .leave hc
  rw [h1.run_eq, hcs, takeAll_enter, h2.run_eq, leave_enter (s := s.takeAll text) hs]
  rfl

theorem run_segment {s : Scanner} (hs : s.modes = [.normal]) (x : Segment) : s.run x.chars = s.takeAll x.text := by
  cases x with
  | bare cs hcs => exact run_bare s (mode_of_modes hs) hcs
  | escaped c =>
    show s.run ['\\', c] = _
    rw [run_escape hs rfl, takeEscaped_enter hs, if_neg (by simp)]
    rfl
  | single cs hcs => exact run_quoted '\'' .singleQuoted hs rfl rfl (run_single _ rfl hcs _)
  | double xs => exact run_quoted '"' .doubleQuoted hs rfl rfl (run_items _ rfl xs _)

end Scanner

/-- No segment begins like an operator. -/
theorem Segment.head?_chars_ne (x : Segment) : x.chars.head? ≠ some '>' := by
  cases x with
  | bare cs hcs => exact fun h => (hcs '>' (List.mem_of_head? h)).2.2.2.2.2 rfl
  | escaped c => simp [chars]
  | single cs hcs => simp [chars]
  | double xs => simp [chars]

theorem head?_segments_ne (xs : List Segment) : (xs.flatMap Segment.chars).head? ≠ some '>' := by
  induction xs with
  | nil => simp
  | cons x xs ih => exact Scanner.head?_append_ne x.head?_chars_ne ih

/-- A word is read segment by segment. -/
theorem Scanner.run_segments (s : Scanner) (hs : s.modes = [.normal]) (xs : List Segment) :
    s.run (xs.flatMap Segment.chars) = s.takeAll (xs.flatMap Segment.text) := by
  induction xs generalizing s with
  | nil => rfl
  | cons x xs ih =>
    rw [List.flatMap_cons, run_append s _ (head?_segments_ne xs), run_segment hs, ih (s.takeAll x.text) hs,
      takeAll_takeAll, List.flatMap_cons]

/-! ## Reading a line -/

namespace Scanner

theorem flush_of_nil {s : Scanner} (hw : s.word = []) : s.flush = s := by
  simp [flush, hw]

theorem flush_takeAll {s : Scanner} (hw : s.word = []) {cs : List Char} (hcs : cs ≠ []) :
    (s.takeAll cs).flush = s.emit (.word (String.ofList cs)) := by
  simp [flush, takeAll, emit, hw, hcs]

@[simp] theorem flush_flush (s : Scanner) : s.flush.flush = s.flush := by
  by_cases hw : s.word = [] <;> simp [flush, hw]

@[simp] theorem emitAll_emitAll (s : Scanner) (ts us : List Token) :
    (s.emitAll ts).emitAll us = s.emitAll (ts ++ us) := by
  simp [emitAll]

theorem run_spaces (s : Scanner) (hm : s.mode = .normal) (n : Nat) (rest : List Char) :
    s.run (spaces (n + 1) ++ rest) = s.flush.run rest := by
  induction n generalizing s with
  | zero => exact (Move.space hm).run_eq
  | succ n ih =>
    have h : Move s (' ' :: (spaces (n + 1) ++ rest)) s.flush (spaces (n + 1) ++ rest) := .space hm
    have hf : s.flush.mode = .normal := by simpa [mode] using hm
    show s.run (' ' :: (spaces (n + 1) ++ rest)) = _
    rw [h.run_eq, ih s.flush hf, flush_flush]

end Scanner

/-- From the beginning of a word the characters `cs` give the tokens `ts`, once the last word has ended. -/
def Reads (cs : List Char) (ts : List Token) : Prop :=
  ∀ s : Scanner, s.modes = [.normal] → s.word = [] → (s.run cs).flush = s.emitAll ts

theorem Lexeme.reads (x : Lexeme) : Reads x.chars [x.token] := by
  intro s hs hw
  have hm := Scanner.mode_of_modes hs
  cases x with
  | pipe =>
    have h : Scanner.Move s ['|'] (s.flush.emit .pipe) [] := .pipe hm
    show (s.run ['|']).flush = _
    rw [h.run_eq, Scanner.flush_of_nil hw]
    exact Scanner.flush_of_nil hw
  | operator mark how =>
    have h : s.run (mark.chars ++ how.sign ++ []) = (s.operator mark.stream how).run [] :=
      Scanner.run_operator hm (fun _ => hw) (by simp)
    show (s.run (mark.chars ++ how.sign)).flush = _
    rw [List.append_nil] at h
    rw [h, Scanner.operator, Scanner.flush_of_nil hw]
    exact Scanner.flush_of_nil hw
  | word xs ht =>
    show (s.run (xs.flatMap Segment.chars)).flush = _
    rw [Scanner.run_segments s hs, Scanner.flush_takeAll hw ht]
    rfl

namespace Reads

theorem nil : Reads [] [] := fun _ _ hw => Scanner.flush_of_nil hw

/-- The state behind characters that were read is again one before a word, but for that word's end. -/
theorem mode_run {cs : List Char} {ts : List Token} (h : Reads cs ts) {s : Scanner} (hs : s.modes = [.normal])
    (hw : s.word = []) : (s.run cs).mode = .normal := by
  have e := congrArg Scanner.modes (h s hs hw)
  rw [Scanner.flush_modes] at e
  exact Scanner.mode_of_modes (e.trans hs)

/-- Spaces end the word before them, and the rest is read as from the beginning of a word. -/
theorem run_spaces {cs : List Char} {ts : List Token} (h : Reads cs ts) {s : Scanner} (hs : s.modes = [.normal])
    (hw : s.word = []) (n : Nat) (rest : List Char) :
    s.run (cs ++ (spaces (n + 1) ++ rest)) = (s.emitAll ts).run rest := by
  have hne : (spaces (n + 1) ++ rest).head? ≠ some '>' := by simp [spaces, List.replicate_succ]
  rw [Scanner.run_append s cs hne, Scanner.run_spaces _ (h.mode_run hs hw), h s hs hw]

theorem spaced {a b : List Char} {ts us : List Token} (ha : Reads a ts) (n : Nat) (hb : Reads b us) :
    Reads (a ++ spaces (n + 1) ++ b) (ts ++ us) := by
  intro s hs hw
  rw [List.append_assoc, ha.run_spaces hs hw, hb (s.emitAll ts) hs hw, Scanner.emitAll_emitAll]

theorem space {a b : List Char} {ts us : List Token} (ha : Reads a ts) (hb : Reads b us) :
    Reads (a ++ ' ' :: b) (ts ++ us) := by
  rw [List.append_cons]
  exact ha.spaced 0 hb

/-- Spaces at the ends of a line give nothing. -/
theorem padded {cs : List Char} {ts : List Token} (h : Reads cs ts) (leading trailing : Nat) :
    Reads (spaces leading ++ cs ++ spaces trailing) ts := by
  have front : Reads (spaces leading ++ cs) ts := by
    cases leading with
    | zero => exact h
    | succ n => exact nil.spaced n h
  cases trailing with
  | zero => rw [show spaces 0 = [] from rfl, List.append_nil]; exact front
  | succ n => simpa using front.spaced n nil

/-- Texts with spaces between them are read one after another. -/
theorem spread {α : Type} {f : α → List Char} {g : α → List Token} {xs : List α} (h : ∀ x ∈ xs, Reads (f x) (g x))
    (gaps : List Nat) : Reads (CommandShell.spread gaps (xs.map f)) (xs.flatMap g) := by
  induction xs generalizing gaps with
  | nil => exact nil
  | cons x xs ih =>
    have hx := h x (by simp)
    have hxs := fun gaps => ih (fun y hy => h y (by simp [hy])) gaps
    cases xs with
    | nil => simpa [CommandShell.spread] using hx
    | cons y ys => exact hx.spaced _ (hxs gaps.tail)

theorem tokensOf {line : String} {ts : List Token} (h : Reads line.toList ts) :
    CommandShell.tokensOf line = ts ++ [.eof] := by
  have e := h Scanner.start rfl rfl
  rw [CommandShell.tokensOf, Scanner.finish, e]
  simp [Scanner.emit, Scanner.emitAll, Scanner.start]

end Reads

/-- The scanner reads every spelling: however each word is written, whatever the number of spaces between the
    lexemes and at the ends of the line, it finds their tokens, and then the end. -/
theorem tokensOf_spelled (lexemes : List Lexeme) (gaps : List Nat) (leading trailing : Nat) :
    tokensOf (String.ofList (spaces leading ++ spread gaps (lexemes.map Lexeme.chars) ++ spaces trailing)) =
      lexemes.map Lexeme.token ++ [.eof] := by
  have h : Reads (spread gaps (lexemes.map Lexeme.chars)) (lexemes.flatMap fun x => [x.token]) :=
    Reads.spread (fun x _ => x.reads) gaps
  rw [← List.map_eq_flatMap] at h
  refine Reads.tokensOf ?_
  rw [String.toList_ofList]
  exact h.padded leading trailing

end CommandShell
