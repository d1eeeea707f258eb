/-
  CommandShell.Proofs.Token.Kept — which characters of a line get into its words.

  The scanner drops characters (quotes, most backslashes, separators, operators) but never makes one up, moves one or
  takes one back. `kept` are the characters that have got into words so far.
  - `kept_isPrefix`, `tokens_isSuffix`: what has been kept and found stays;
  - `run_kept`: what is kept is a part of what was read, in its order;
  - `plain_of_finish`: a text that is read as itself, with at most a space behind it, has no character with a meaning
    of its own.
-/

import CommandShell.Proofs.Token.Moves
import CommandShell.Proofs.Token.Spelling
import Mathlib.Tactic.Tauto

namespace CommandShell

/-- The characters that a token has as a word. -/
def Token.letters : Token → List Char
  | .word text => text.toList
  | _ => []

namespace Scanner

variable {s s' : Scanner} {cs rest : List Char}

/-! ## What stays -/

/-- The characters that have got into words. -/
def kept (s : Scanner) : List Char := s.tokens.reverse.flatMap Token.letters ++ s.word.reverse

/-- A backslash in double quotes gets into the word only with the character behind it. -/
def pending (s : Scanner) : List Char :=
  match s.modes with
  | .escaped :: .doubleQuoted :: _ => ['\\']
  | _ => []

@[simp] theorem kept_start : start.kept = [] := rfl
@[simp] theorem kept_enter (s : Scanner) (m : Mode) : (s.enter m).kept = s.kept := rfl

@[simp] theorem kept_leave (s : Scanner) : s.leave.kept = s.kept := by
  unfold leave
  split <;> rfl

@[simp] theorem kept_takeAll (s : Scanner) (cs : List Char) : (s.takeAll cs).kept = s.kept ++ cs := by
  simp [kept, takeAll]

@[simp] theorem kept_take (s : Scanner) (c : Char) : (s.take c).kept = s.kept ++ [c] := kept_takeAll s [c]

@[simp] theorem kept_flush (s : Scanner) : s.flush.kept = s.kept := by
  by_cases hw : s.word = []
  · rw [flush_of_nil hw]
  · simp [kept, flush, hw, Token.letters]

@[simp] theorem kept_emit_pipe (s : Scanner) : (s.emit .pipe).kept = s.kept := by
  simp [kept, emit, Token.letters]

@[simp] theorem kept_operator (s : Scanner) (stream : OutStream) (how : OpenMode) :
    (s.operator stream how).kept = s.kept := by
  rw [operator, ← kept_flush s]
  simp [kept, emit, Token.letters]

/-- What a character behind a backslash adds. -/
theorem kept_takeEscaped (s : Scanner) (c : Char) : (s.takeEscaped c).kept = s.kept ++ [c] ∨
    s.leave.mode = .doubleQuoted ∧ (s.takeEscaped c).kept = s.kept ++ ['\\', c] := by
  unfold takeEscaped
  dsimp only
  split
  · next h =>
    simp only [Bool.and_eq_true, decide_eq_true_eq] at h
    exact .inr ⟨h.1.1, by simp⟩
  · exact .inl (by simp)

theorem Move.kept_isPrefix (h : Move s cs s' rest) : s.kept <+: s'.kept := by
  cases h with
  | enter _ => exact ⟨[], by simp⟩
  | leave _ => exact ⟨[], by simp⟩
  | take _ _ => exact ⟨_, (kept_take ..).symm⟩
  | takeEscaped _ =>
    rcases s.kept_takeEscaped _ with hk | ⟨-, hk⟩
    · exact ⟨_, hk.symm⟩
    · exact ⟨_, hk.symm⟩
  | space _ => exact ⟨[], by simp⟩
  | pipe _ => exact ⟨[], by simp⟩
  | operator _ _ _ _ _ => exact ⟨[], by simp⟩

theorem kept_isPrefix (s : Scanner) (cs : List Char) : s.kept <+: (s.run cs).kept :=
  run_preserves (P := fun s' => s.kept <+: s'.kept) (fun h hs => hs.trans h.kept_isPrefix) cs List.prefix_rfl

theorem tokens_flush_isSuffix (s : Scanner) : s.tokens <:+ s.flush.tokens := by
  by_cases hw : s.word = []
  · simp only [flush_of_nil hw, List.suffix_rfl]
  · simp only [flush, List.isEmpty_iff, hw, if_false]
    exact List.suffix_cons ..

theorem tokens_emit_isSuffix (s : Scanner) (t : Token) : s.tokens <:+ (s.flush.emit t).tokens :=
  (tokens_flush_isSuffix s).trans (List.suffix_cons ..)

theorem Move.tokens_isSuffix (h : Move s cs s' rest) : s.tokens <:+ s'.tokens := by
  cases h with
  | enter _ => exact List.suffix_rfl
  | leave _ => simp only [leave_tokens, List.suffix_rfl]
  | take _ _ => exact List.suffix_rfl
  | takeEscaped _ => simp only [takeEscaped_tokens, List.suffix_rfl]
  | space _ => exact tokens_flush_isSuffix s
  | pipe _ => exact tokens_emit_isSuffix s _
  | operator _ _ _ _ _ => exact tokens_emit_isSuffix s _

theorem tokens_isSuffix (s : Scanner) (cs : List Char) : s.tokens <:+ (s.run cs).tokens :=
  run_preserves (P := fun s' => s.tokens <:+ s'.tokens) (fun h hs => hs.trans h.tokens_isSuffix) cs List.suffix_rfl

/-- What a move finds is found by the run. -/
theorem Move.mem_tokens (h : Move s cs s' rest) {t : Token} (ht : t ∈ s'.tokens) : t ∈ (s.run cs).tokens := by
  rw [h.run_eq]
  exact (Scanner.tokens_isSuffix ..).mem ht

/-! ## What is kept of what was read -/

theorem pending_of_mode (hm : s.mode ≠ .escaped) : s.pending = [] := by
  unfold pending
  split
  · next h => exact absurd (mode_of_modes h) hm
  · rfl

@[simp] theorem pending_flush (s : Scanner) : s.flush.pending = s.pending := by
  simp only [pending, flush_modes]

@[simp] theorem pending_emit (s : Scanner) (t : Token) : (s.emit t).pending = s.pending := rfl

/-- A backslash in double quotes is kept for the time being; nothing else that opens a mode is. -/
theorem pending_enter {c : Char} {m : Mode} (hs : s.modes ∈ modeStacks) (hc : s.mode.entered c = some m) :
    (s.enter m).pending = [] ∨ s.pending = [] ∧ (s.enter m).pending = [c] := by
  rcases stack_cases hs with hs | hs | hs | hs | hs <;> simp only [mode, hs, List.headD_cons] at hc <;> unfold Mode.entered at hc
  all_goals split at hc <;> simp only [Option.some.injEq, reduceCtorEq] at hc
  all_goals subst hc; simp [pending, enter, hs]

/-- Nothing is pending behind the end of a mode. -/
theorem pending_leave (hs : s.modes ∈ modeStacks) (hm : s.mode ≠ .normal) : s.leave.pending = [] := by
  rcases stack_cases hs with hs | hs | hs | hs | hs
  · simp [mode, hs] at hm
  all_goals simp [pending, leave, hs]

theorem pending_takeEscaped (hs : s.modes ∈ modeStacks) (hm : s.mode = .escaped) (c : Char) :
    (s.takeEscaped c).pending = [] := by
  have h := pending_leave hs (by simp [hm])
  simpa only [pending, takeEscaped_modes] using h

theorem pending_of_escape (hs : s.modes ∈ modeStacks) (hm : s.mode = .escaped) (hd : s.leave.mode = .doubleQuoted) :
    s.pending = ['\\'] := by
  rcases stack_cases hs with hs | hs | hs | hs | hs
  all_goals simp [mode, leave, hs] at hm hd
  simp [pending, hs]

/-- A move keeps some of the characters that it reads, and may give up a pending backslash. -/
theorem Move.kept_sublist (h : Move s cs s' rest) (hs : s.modes ∈ modeStacks) :
    (s'.kept ++ s'.pending ++ rest).Sublist (s.kept ++ s.pending ++ cs) := by
  -- characters that only go away
  have dropped : ∀ {s' : Scanner} (front : List Char) {rest : List Char}, s'.kept = s.kept → s'.pending = [] →
      (s'.kept ++ s'.pending ++ rest).Sublist (s.kept ++ s.pending ++ (front ++ rest)) := by
    intro s' front rest hk hp
    rw [hk, hp, List.append_nil, List.append_assoc, ← List.append_assoc s.pending]
    exact (List.sublist_append_right ..).append_left _
  cases h with
  | @enter c m rest hc =>
    rcases pending_enter hs hc with hp | ⟨hp, hp'⟩
    · exact dropped [c] rfl hp
    · rw [kept_enter, hp, hp']
      simp
  | @leave c rest hc =>
    refine dropped [c] (kept_leave s) (pending_leave hs fun hm => ?_)
    simp [hm, Mode.Closes] at hc
  | @take c rest hc _ =>
    have hm : s.mode ≠ .escaped := by
      intro hm
      simp [hm, Mode.Literal] at hc
    have hm' : (s.take c).mode ≠ .escaped := hm
    rw [kept_take, pending_of_mode hm, pending_of_mode hm']
    simp
  | @takeEscaped c rest hm =>
    have hp := pending_takeEscaped hs hm c
    rcases s.kept_takeEscaped c with hk | ⟨hd, hk⟩
    · rw [hk, hp, List.append_nil, List.append_assoc, List.append_assoc]
      exact (List.sublist_append_right ..).append_left _
    · rw [hk, hp, pending_of_escape hs hm hd]
      simp
  | @space rest hm => exact dropped [' '] (kept_flush s) (by rw [pending_flush, pending_of_mode (by simp [hm])])
  | @pipe rest hm =>
    refine dropped ['|'] (by simp) ?_
    rw [pending_emit, pending_flush, pending_of_mode (by simp [hm])]
  | @operator mark how rest hm hw hr =>
    refine dropped (mark.chars ++ how.sign) (kept_operator ..) ?_
    rw [Scanner.operator, pending_emit, pending_flush, pending_of_mode (by simp [hm])]

/-- What a run keeps is a part of what it reads, in its order. -/
theorem run_kept (s : Scanner) (cs : List Char) (hs : s.modes ∈ modeStacks) :
    ((s.run cs).kept ++ (s.run cs).pending).Sublist (s.kept ++ s.pending ++ cs) := by
  induction s, cs using run_induction with
  | nil s => simp [run]
  | move h ih =>
    rw [h.run_eq]
    exact (ih (h.stack hs)).trans (h.kept_sublist hs)

/-- A word has no character that its line has not. -/
theorem mem_line_of_mem_word {line text : String} (h : .word text ∈ tokensOf line) {c : Char} (hc : c ∈ text.toList) :
    c ∈ line.toList := by
  have hfound : .word text ∈ (start.run line.toList).flush.tokens := by simpa [tokensOf, finish, emit] using h
  have hkept : c ∈ (start.run line.toList).kept := by
    rw [← kept_flush]
    apply List.mem_append_left
    exact List.mem_flatMap.mpr ⟨.word text, List.mem_reverse.mpr hfound, hc⟩
  have hsub := run_kept start line.toList (by simp [start, modeStacks])
  exact hsub.subset (List.mem_append_left _ hkept)

/-! ## Texts that are read as themselves -/

instance : DecidablePred Plain := fun c =>
  inferInstanceAs (Decidable (c ≠ '\'' ∧ c ≠ '"' ∧ c ≠ '\\' ∧ c ≠ ' ' ∧ c ≠ '|' ∧ c ≠ '>'))

/-- What the tokens are when a single word was found. -/
theorem finish_eq_word {text : String} (h : s.finish = [.word text, .eof]) :
    s.flush.tokens = [.word text] ∧ s.kept = text.toList := by
  have htokens : s.flush.tokens = [.word text] := by
    have he : s.flush.tokens.reverse ++ [.eof] = [.word text] ++ [.eof] := by simpa [finish, emit] using h
    simpa using congrArg List.reverse (List.append_cancel_right he)
  refine ⟨htokens, ?_⟩
  rw [← kept_flush, kept, htokens, flush_word]
  simp [Token.letters]

/-- A sign behind plain characters is an operator, with or without the number before it. -/
theorem exists_operator (hm : s.mode = .normal) {a : List Char} (ha : ∀ c ∈ a, Plain c) (rest : List Char) :
    ∃ stream how, .redirect stream how ∈ (s.run (a ++ '>' :: rest)).tokens := by
  have behind : ∀ {s : Scanner} {mark : Mark} {how : OpenMode} {cs rest : List Char},
      Move s cs (s.operator mark.stream how) rest → ∃ stream how, .redirect stream how ∈ (s.run cs).tokens := by
    intro s mark how cs rest h
    exact ⟨mark.stream, how, h.mem_tokens (List.mem_cons_self ..)⟩
  -- the sign may be followed by a second one
  have signed : ∀ {s : Scanner} (mark : Mark), s.mode = .normal → (mark ≠ .unnumbered → s.word = []) →
      ∃ stream how, .redirect stream how ∈ (s.run (mark.chars ++ '>' :: rest)).tokens := by
    intro s mark hm hw
    by_cases hr : rest.head? = some '>'
    · obtain ⟨rest', rfl⟩ := List.head?_eq_some_iff.mp hr
      have h : Move s (mark.chars ++ OpenMode.append.sign ++ rest') (s.operator mark.stream .append) rest' :=
        .operator mark .append hm hw (by simp)
      simpa [OpenMode.sign] using behind h
    · have h : Move s (mark.chars ++ OpenMode.truncate.sign ++ rest) (s.operator mark.stream .truncate) rest :=
        .operator mark .truncate hm hw fun _ => hr
      simpa [OpenMode.sign] using behind h
  induction a generalizing s with
  | nil => exact signed .unnumbered hm (by simp)
  | cons c a ih =>
    by_cases hn : s.NumbersOperator c (a ++ '>' :: rest)
    · obtain ⟨-, hc, hw, hr⟩ := hn
      have hnil : a = [] := by
        cases a with
        | nil => rfl
        | cons d a =>
          simp only [List.cons_append, List.head?_cons, Option.some.injEq] at hr
          exact absurd hr (ha d (by simp)).2.2.2.2.2
      subst hnil
      rcases hc with rfl | rfl
      · exact signed .one hm fun _ => hw
      · exact signed .two hm fun _ => hw
    · rw [List.cons_append, run_plain hm (ha c (by simp)) hn]
      exact ih hm fun d hd => ha d (by simp [hd])

/-- A list that is shifted by one place is made of one character. -/
theorem eq_of_cons_eq_concat {q x : Char} {b : List Char} (h : q :: b = b ++ [x]) : q = x := by
  induction b generalizing q with
  | nil => simpa using h
  | cons y b ih =>
    obtain ⟨rfl, hb⟩ := List.cons_eq_cons.mp h
    exact ih hb

/-- A character that was dropped is missing in the end: not even a space behind the text makes up for it. -/
theorem not_sublist_of_dropped {q : Char} (hq : q ≠ ' ') {b tail : List Char} (htail : tail = [] ∨ tail = [' ']) :
    ¬ (q :: b).Sublist (b ++ tail) := by
  intro h
  rcases htail with rfl | rfl
  · have hlength := h.length_le
    simp only [List.append_nil, List.length_cons] at hlength
    omega
  · have he : q :: b = b ++ [' '] := h.eq_of_length (by simp)
    exact hq (eq_of_cons_eq_concat he)

/-- Outside quotes a quote or a backslash is dropped, and the text cannot be read as itself. -/
theorem kept_ne_of_entered {s : Scanner} (hs : s.modes = [.normal]) {q : Char} {m : Mode}
    (hm : Mode.entered .normal q = some m) {b tail : List Char} (htail : tail = [] ∨ tail = [' ']) :
    (s.run (q :: (b ++ tail))).kept ≠ s.kept ++ q :: b := by
  intro hk
  have hmode := mode_of_modes hs
  have h : Move s (q :: (b ++ tail)) (s.enter m) (b ++ tail) := .enter (by rw [hmode]; exact hm)
  have hstack : (s.enter m).modes ∈ modeStacks :=
    h.stack (by rw [hs]; simp [modeStacks])
  have hp : (s.enter m).pending = [] := by simp [pending, enter, hs]
  have hsub := run_kept (s.enter m) (b ++ tail) hstack
  rw [← h.run_eq, hk, kept_enter, hp, List.append_nil, List.append_assoc] at hsub
  have hcut := (List.append_sublist_append_left _).mp hsub
  have hq : q ≠ ' ' := by
    rintro rfl
    cases hm
  exact not_sublist_of_dropped hq htail ((List.sublist_append_left ..).trans hcut)

/-- A text is plain, or has a first character that is not. -/
theorem exists_first_special (d : List Char) :
    (∀ c ∈ d, Plain c) ∨ ∃ a q b, d = a ++ q :: b ∧ (∀ c ∈ a, Plain c) ∧ ¬ Plain q := by
  cases hf : d.find? fun c => !decide (Plain c) with
  | none => exact .inl (by simpa using hf)
  | some q =>
    obtain ⟨hq, a, b, he, ha⟩ := List.find?_eq_some_iff_append.mp hf
    exact .inr ⟨a, q, b, he, by simpa using ha, by simpa using hq⟩

/-- A text that does not begin with a space and is read as itself, with at most a space behind it, has only
    characters that stand for themselves. -/
theorem plain_of_finish {d tail : List Char} (hd : d.head? ≠ some ' ') (htail : tail = [] ∨ tail = [' '])
    (h : (start.run (d ++ tail)).finish = [.word (String.ofList d), .eof]) : ∀ c ∈ d, Plain c := by
  obtain ⟨htokens, hkept⟩ := finish_eq_word h
  rw [String.toList_ofList] at hkept
  rcases exists_first_special d with hplain | ⟨a, q, b, rfl, ha, hq⟩
  · exact hplain
  exfalso
  have only : ∀ t ∈ (start.run (a ++ q :: b ++ tail)).tokens, t = .word (String.ofList (a ++ q :: b)) := by
    intro t ht
    have hmem := (tokens_flush_isSuffix _).mem ht
    rw [htokens] at hmem
    exact List.mem_singleton.mp hmem
  rw [List.append_assoc, List.cons_append] at htokens hkept only
  by_cases hsign : q = '>'
  · subst hsign
    obtain ⟨stream, how, hmem⟩ := exists_operator (s := start) rfl ha (b ++ tail)
    cases only _ hmem
  · have hrun : start.run (a ++ q :: (b ++ tail)) = (start.takeAll a).run (q :: (b ++ tail)) := by
      rw [run_append _ _ (by simpa using hsign), run_bare start rfl ha]
    rw [hrun] at hkept only
    have opened : ∀ m, Mode.entered .normal q = some m → False := fun m hm =>
      kept_ne_of_entered (s := start.takeAll a) rfl hm htail (by simpa using hkept)
    by_cases hpipe : q = '|'
    · subst hpipe
      have hmove : Move (start.takeAll a) ('|' :: (b ++ tail)) ((start.takeAll a).flush.emit .pipe) (b ++ tail) := .pipe rfl
      cases only _ (hmove.mem_tokens (List.mem_cons_self ..))
    by_cases hspace : q = ' '
    · subst hspace
      have hne : a ≠ [] := by
        rintro rfl
        exact hd rfl
      have hmove : Move (start.takeAll a) (' ' :: (b ++ tail)) (start.takeAll a).flush (b ++ tail) := .space rfl
      have hword : .word (String.ofList a) ∈ (start.takeAll a).flush.tokens := by
        rw [flush_takeAll rfl hne]
        exact List.mem_cons_self ..
      have he := only _ (hmove.mem_tokens hword)
      simp only [Token.word.injEq, ← String.toList_inj, String.toList_ofList] at he
      simpa using congrArg List.length he
    · have hq' : q = '\'' ∨ q = '"' ∨ q = '\\' := by
        simp only [Plain, not_and_or, not_not] at hq
        tauto
      rcases hq' with rfl | rfl | rfl
      · exact opened _ rfl
      · exact opened _ rfl
      · exact opened _ rfl

end Scanner

end CommandShell
