/-
  CommandShell.Proofs.Command.Progress — the tokens read by position, in two nested loops that always move on.

  A cursor is a place in a token list. It moves over one token at a time and stays behind the last one, where an end
  mark is read. A command is read in the rounds of a loop, a pipeline in the rounds of a second one around it, each
  round of which reads a command.
  - `passes_of_current`: a cursor moves wherever it does not read an end mark;
  - `commandRound_cases`, `pipelineRound_cases`: all that a round can do; one that goes on has passed a token, and
    none passes an end mark;
  - `leaves_untilDone`: a loop is left when each round that goes on lowers a measure; both loops are built on this;
  - `command_of_leaves`, `pipeline_of_leaves`: the loops read what `Command.absorb` and `pipelineFrom` read, and in no
    more rounds than they pass tokens;
  - `reading_advances`: so both loops end, no place is beyond the tokens, and the last one is the first end mark.
-/

import CommandShell.Proofs.Command.Meaning

namespace CommandShell

/-! ## Loops -/

section Loops

variable {σ : Type}

/-- `Leaves round s n t`: begun in `s`, the loop goes on `n` times and is then left with `t`. -/
inductive Leaves (round : σ → ForInStep σ) : σ → Nat → σ → Prop
  | done {s t : σ} : round s = .done t → Leaves round s 0 t
  | again {s s' t : σ} {n : Nat} : round s = .yield s' → Leaves round s' n t → Leaves round s (n + 1) t

/-- The loop over rounds that lower a measure whenever they go on. -/
def untilDone (round : σ → ForInStep σ) (measure : σ → Nat)
    (lowers : ∀ s s', round s = .yield s' → measure s' < measure s) (s : σ) : σ :=
  match _h : round s with
  | .done t => t
  | .yield s' => untilDone round measure lowers s'
termination_by measure s
decreasing_by exact lowers s s' _h

theorem leaves_untilDone (round : σ → ForInStep σ) (measure : σ → Nat)
    (lowers : ∀ s s', round s = .yield s' → measure s' < measure s) (s : σ) :
    ∃ n, Leaves round s n (untilDone round measure lowers s) := by
  fun_induction untilDone round measure lowers s with
  | case1 s t h => exact ⟨0, .done h⟩
  | case2 s s' h ih =>
    obtain ⟨n, hn⟩ := ih
    exact ⟨n + 1, .again h hn⟩

end Loops

/-! ## Places -/

/-- A place in a token list. -/
structure Cursor (ts : List Token) where
  pos : Nat
  deriving DecidableEq, Repr

namespace Cursor

variable {ts : List Token} {k k' k'' : Cursor ts}

/-- The token at the place; behind the last one an end mark is read. -/
def current (k : Cursor ts) : Token := ts.getD k.pos .eof

/-- Move over one token; behind the last one there is nowhere to go. -/
def advance (k : Cursor ts) : Cursor ts := if k.pos < ts.length then ⟨k.pos + 1⟩ else k

def unread (k : Cursor ts) : List Token := ts.drop k.pos

/-- Between the two places stand the tokens `passed`, none of them an end mark. -/
structure Passes (k : Cursor ts) (passed : List Token) (k' : Cursor ts) : Prop where
  unread : k.unread = passed ++ k'.unread
  pos : k'.pos = k.pos + passed.length
  unmarked : .eof ∉ passed

theorem Passes.refl (k : Cursor ts) : k.Passes [] k := ⟨rfl, rfl, by simp⟩

theorem Passes.trans {a b : List Token} (h : k.Passes a k') (h' : k'.Passes b k'') : k.Passes (a ++ b) k'' where
  unread := by rw [h.unread, h'.unread, List.append_assoc]
  pos := by rw [h'.pos, h.pos, List.length_append, Nat.add_assoc]
  unmarked := by simp [h.unmarked, h'.unmarked]

theorem Passes.pos_le_max {passed : List Token} (h : k.Passes passed k') : k'.pos ≤ max k.pos ts.length := by
  have hpos := h.pos
  have hlength := congrArg List.length h.unread
  simp only [Cursor.unread, List.length_append, List.length_drop] at hlength
  omega

/-- Over a token the place moves on, and not beyond the tokens. -/
theorem Passes.pos_lt {passed : List Token} (h : k.Passes passed k') (hp : 0 < passed.length) :
    k.pos < k'.pos ∧ k'.pos ≤ ts.length := by
  have hpos := h.pos
  have hlength := congrArg List.length h.unread
  simp only [Cursor.unread, List.length_append, List.length_drop] at hlength
  omega

theorem current_of_unread {t : Token} {rest : List Token} (h : k.unread = t :: rest) : k.current = t := by
  have hhead : k.current = k.unread.headD .eof := by simp [current, unread]
  rw [hhead, h, List.headD_cons]

theorem pos_lt_of_current (h : k.current ≠ .eof) : k.pos < ts.length := by
  refine Nat.lt_of_not_le fun hle => h ?_
  simp [current, hle]

/-- Where no end mark is read, there is a token to move over. -/
theorem passes_of_current {t : Token} (h : k.current = t) (ht : t ≠ .eof) : k.Passes [t] k.advance := by
  have hlt : k.pos < ts.length := pos_lt_of_current (h ▸ ht)
  have hadvance : k.advance = ⟨k.pos + 1⟩ := if_pos hlt
  have hunread : k.unread = ts[k.pos] :: k.advance.unread := by
    rw [hadvance]
    exact List.drop_eq_getElem_cons hlt
  refine ⟨?_, by rw [hadvance]; rfl, by simpa using ht.symm⟩
  rw [hunread, ← h, current_of_unread hunread, List.singleton_append]

theorem stop_of_current (h : k.current = .pipe ∨ k.current = .eof) : Stop k.unread := by
  intro t ht
  obtain ⟨rest, hrest⟩ := List.head?_eq_some_iff.mp ht
  rwa [current_of_unread hrest] at h

theorem advance_pos_le (k : Cursor ts) : k.advance.pos ≤ max k.pos ts.length := by
  unfold advance
  split
  · show k.pos + 1 ≤ _
    omega
  · omega

/-! ## Reading a command -/

/-- A word at the place is taken as a target; anything else stays. -/
def target (k : Cursor ts) : Option String × Cursor ts :=
  match k.current with
  | .word text => (some text, k.advance)
  | _ => (none, k)

/-- A round of reading a command: a word, or an operator with the word behind it if there is one. -/
def commandRound : Cursor ts × Command → ForInStep (Cursor ts × Command)
  | (k, c) =>
    match k.current with
    | .eof | .pipe => .done (k, c)
    | .word text => .yield (k.advance, c.addWord text)
    | .redirect stream mode =>
      match k.advance.target with
      | (some target, k') => .yield (k', c.redirect stream ⟨mode, target⟩)
      | (none, k') => .yield (k', c)

theorem commandRound_cases (k : Cursor ts) (c : Command) :
    ((k.current = .pipe ∨ k.current = .eof) ∧ commandRound (k, c) = .done (k, c)) ∨
      (∃ text, k.current = .word text ∧ commandRound (k, c) = .yield (k.advance, c.addWord text)) ∨
      (∃ stream mode target, k.current = .redirect stream mode ∧ k.advance.current = .word target ∧
        commandRound (k, c) = .yield (k.advance.advance, c.redirect stream ⟨mode, target⟩)) ∨
      ∃ stream mode, k.current = .redirect stream mode ∧ (∀ target, k.advance.current ≠ .word target) ∧
        commandRound (k, c) = .yield (k.advance, c) := by
  cases hk : k.current with
  | pipe => simp [commandRound, hk]
  | eof => simp [commandRound, hk]
  | word text => simp [commandRound, hk]
  | redirect stream mode =>
    cases ht : k.advance.current with
    | word target =>
      refine .inr (.inr (.inl ⟨stream, mode, target, rfl, rfl, ?_⟩))
      simp [commandRound, Cursor.target, hk, ht]
    | pipe | eof | redirect => simp [commandRound, target, hk, ht]

/-- A round that goes on has passed a token, and leaves the rest of the command to be read. -/
theorem commandRound_yield {c c' : Command} (h : commandRound (k, c) = .yield (k', c')) :
    (∃ passed, 0 < passed.length ∧ k.Passes passed k') ∧ c.absorb k.unread = c'.absorb k'.unread := by
  rcases commandRound_cases k c with ⟨-, hr⟩ | ⟨text, hk, hr⟩ | ⟨stream, mode, target, hk, ht, hr⟩ |
    ⟨stream, mode, hk, ht, hr⟩
  all_goals rw [hr] at h; cases h
  · have hp := passes_of_current hk (by simp)
    refine ⟨⟨_, by simp, hp⟩, ?_⟩
    rw [hp.unread, List.singleton_append, Command.absorb]
  · have hp := (passes_of_current hk (by simp)).trans (passes_of_current ht (by simp))
    refine ⟨⟨_, by simp, hp⟩, ?_⟩
    rw [hp.unread, List.singleton_append, List.cons_append, List.singleton_append, Command.absorb]
  · have hp := passes_of_current hk (by simp)
    -- no word stands behind the operator, so it is dropped
    have hn : ∀ target rest, k.advance.unread = .word target :: rest → False :=
      fun target rest hu => ht target (current_of_unread hu)
    refine ⟨⟨_, by simp, hp⟩, ?_⟩
    rw [hp.unread, List.singleton_append, Command.absorb.eq_3 _ _ _ _ hn]

theorem commandRound_done {c c' : Command} (h : commandRound (k, c) = .done (k', c')) :
    k' = k ∧ c' = c ∧ (k.current = .pipe ∨ k.current = .eof) := by
  rcases commandRound_cases k c with ⟨hk, hr⟩ | ⟨_, _, hr⟩ | ⟨_, _, _, _, _, hr⟩ | ⟨_, _, _, _, hr⟩
  all_goals rw [hr] at h; cases h
  exact ⟨rfl, rfl, hk⟩

theorem commandRound_lowers (s s' : Cursor ts × Command) (h : commandRound s = .yield s') :
    ts.length - s'.1.pos < ts.length - s.1.pos := by
  obtain ⟨⟨passed, hpos, hp⟩, -⟩ := commandRound_yield h
  have := hp.pos_lt hpos
  omega

/-- Read on in a command. -/
def readCommand (s : Cursor ts × Command) : Cursor ts × Command :=
  untilDone commandRound (fun s => ts.length - s.1.pos) commandRound_lowers s

/-- The loop of a command passes a token a round, stops at a pipe or an end mark, and reads what `absorb` reads. -/
theorem command_of_leaves {s t : Cursor ts × Command} {n : Nat} (h : Leaves commandRound s n t) :
    (∃ passed, n ≤ passed.length ∧ s.1.Passes passed t.1) ∧ (t.1.current = .pipe ∨ t.1.current = .eof) ∧
      s.2.absorb s.1.unread = (t.2, t.1.unread) := by
  induction h with
  | @done s t hr =>
    obtain ⟨hk, hc, hstop⟩ := commandRound_done hr
    rw [hk, hc]
    exact ⟨⟨[], Nat.le_refl 0, .refl s.1⟩, hstop, absorb_stop s.2 (stop_of_current hstop)⟩
  | @again s s' t n hr _ ih =>
    obtain ⟨⟨first, hpos, hfirst⟩, habsorb⟩ := commandRound_yield hr
    obtain ⟨⟨later, hn, hlater⟩, hstop, hrest⟩ := ih
    refine ⟨⟨_, ?_, hfirst.trans hlater⟩, hstop, habsorb.trans hrest⟩
    rw [List.length_append]
    omega

theorem leaves_readCommand (s : Cursor ts × Command) : ∃ n, Leaves commandRound s n (readCommand s) :=
  leaves_untilDone commandRound (fun s => ts.length - s.1.pos) commandRound_lowers s

/-! ## Reading a pipeline -/

/-- A round of reading a pipeline: a command, and the pipe behind it if there is one. -/
def pipelineRound : Cursor ts × List Command → ForInStep (Cursor ts × List Command)
  | (k, cs) =>
    let (k', c) := readCommand (k, {})
    let cs' := if c.isEmpty then cs else cs ++ [c]
    match k'.current with
    | .pipe => .yield (k'.advance, cs')
    | _ => .done (k', cs')

theorem pipelineRound_cases (k : Cursor ts) (cs : List Command) :
    ∃ passed k' c, k.Passes passed k' ∧ ({} : Command).absorb k.unread = (c, k'.unread) ∧
      (k'.current = .pipe ∧ pipelineRound (k, cs) = .yield (k'.advance, if c.isEmpty then cs else cs ++ [c]) ∨
        k'.current = .eof ∧ pipelineRound (k, cs) = .done (k', if c.isEmpty then cs else cs ++ [c])) := by
  obtain ⟨n, hn⟩ := leaves_readCommand (k, {})
  obtain ⟨⟨passed, -, hp⟩, hstop, habsorb⟩ := command_of_leaves hn
  refine ⟨passed, _, _, hp, habsorb, hstop.imp (fun h => ⟨h, ?_⟩) (fun h => ⟨h, ?_⟩)⟩
  all_goals simp only [pipelineRound, h]

/-- A round that goes on has passed the pipe at least, and leaves the rest of the pipeline to be read. -/
theorem pipelineRound_yield {cs cs' : List Command} (h : pipelineRound (k, cs) = .yield (k', cs')) :
    (∃ passed, 0 < passed.length ∧ k.Passes passed k') ∧
      cs ++ (pipelineFrom k.unread).1 = cs' ++ (pipelineFrom k'.unread).1 ∧
      (pipelineFrom k.unread).2 = (pipelineFrom k'.unread).2 := by
  obtain ⟨passed, m, c, hp, habsorb, ⟨hm, hr⟩ | ⟨-, hr⟩⟩ := pipelineRound_cases k cs
  all_goals rw [hr] at h; cases h
  have hpipe := passes_of_current hm (by simp)
  refine ⟨⟨_, by simp, hp.trans hpipe⟩, ?_⟩
  rw [hpipe.unread, List.singleton_append] at habsorb
  rw [pipelineFrom_of_pipe habsorb]
  refine ⟨?_, rfl⟩
  by_cases he : c.isEmpty = true <;> simp [he]

theorem pipelineRound_done {cs cs' : List Command} (h : pipelineRound (k, cs) = .done (k', cs')) :
    (∃ passed, k.Passes passed k') ∧ k'.current = .eof ∧ cs ++ (pipelineFrom k.unread).1 = cs' ∧
      (pipelineFrom k.unread).2 = k'.unread := by
  obtain ⟨passed, m, c, hp, habsorb, ⟨-, hr⟩ | ⟨hm, hr⟩⟩ := pipelineRound_cases k cs
  all_goals rw [hr] at h; cases h
  have hn : ∀ more, k'.unread ≠ .pipe :: more := by
    intro more hu
    rw [current_of_unread hu] at hm
    cases hm
  rw [pipelineFrom_of_stop habsorb hn]
  refine ⟨⟨passed, hp⟩, hm, ?_, rfl⟩
  by_cases he : c.isEmpty = true <;> simp [he]

/-- The loop of a pipeline passes a token a round, stops at an end mark, and reads what `pipelineFrom` reads. -/
theorem pipeline_of_leaves {s t : Cursor ts × List Command} {n : Nat} (h : Leaves pipelineRound s n t) :
    (∃ passed, n ≤ passed.length ∧ s.1.Passes passed t.1) ∧ t.1.current = .eof ∧
      s.2 ++ (pipelineFrom s.1.unread).1 = t.2 ∧ (pipelineFrom s.1.unread).2 = t.1.unread := by
  induction h with
  | done hr =>
    obtain ⟨⟨passed, hp⟩, hread⟩ := pipelineRound_done hr
    exact ⟨⟨passed, Nat.zero_le _, hp⟩, hread⟩
  | again hr _ ih =>
    obtain ⟨⟨first, hpos, hfirst⟩, hcommands, hunread⟩ := pipelineRound_yield hr
    obtain ⟨⟨later, hn, hlater⟩, hend, hcommands', hunread'⟩ := ih
    refine ⟨⟨_, ?_, hfirst.trans hlater⟩, hend, hcommands.trans hcommands', hunread.trans hunread'⟩
    rw [List.length_append]
    omega

theorem pipelineRound_lowers (s s' : Cursor ts × List Command) (h : pipelineRound s = .yield s') :
    ts.length - s'.1.pos < ts.length - s.1.pos := by
  obtain ⟨⟨passed, hpos, hp⟩, -⟩ := pipelineRound_yield h
  have := hp.pos_lt hpos
  omega

/-! ## Progress -/

/-- The place that a round leaves behind: further on when the loop goes on, never further back, and never beyond the
    tokens. -/
def Onward {α : Type} (k : Cursor ts) : ForInStep (Cursor ts × α) → Prop
  | .yield (k', _) => k.pos < k'.pos ∧ k'.pos ≤ ts.length
  | .done (k', _) => k.pos ≤ k'.pos ∧ k'.pos ≤ max k.pos ts.length

theorem onward_commandRound (k : Cursor ts) (c : Command) : k.Onward (commandRound (k, c)) := by
  cases hr : commandRound (k, c) with
  | yield s =>
    obtain ⟨⟨passed, hpos, hp⟩, -⟩ := commandRound_yield hr
    exact hp.pos_lt hpos
  | done s =>
    obtain ⟨hk, -⟩ := commandRound_done hr
    rw [Onward, hk]
    exact ⟨Nat.le_refl _, Nat.le_max_left _ _⟩

theorem onward_pipelineRound (k : Cursor ts) (cs : List Command) : k.Onward (pipelineRound (k, cs)) := by
  cases hr : pipelineRound (k, cs) with
  | yield s =>
    obtain ⟨⟨passed, hpos, hp⟩, -⟩ := pipelineRound_yield hr
    exact hp.pos_lt hpos
  | done s =>
    obtain ⟨⟨passed, hp⟩, -⟩ := pipelineRound_done hr
    exact ⟨by rw [hp.pos]; omega, hp.pos_le_max⟩

theorem readCommand_ends (k : Cursor ts) (c : Command) :
    ∃ n k' c', Leaves commandRound (k, c) n (k', c') ∧ k.pos + n ≤ k'.pos ∧ c.absorb k.unread = (c', k'.unread) := by
  obtain ⟨n, hn⟩ := leaves_readCommand (k, c)
  obtain ⟨⟨passed, hle, hp⟩, -, habsorb⟩ := command_of_leaves hn
  have hpos : (readCommand (k, c)).1.pos = k.pos + passed.length := hp.pos
  exact ⟨n, (readCommand (k, c)).1, (readCommand (k, c)).2, hn, by omega, habsorb⟩

/-- The place of the first end mark is the one that is reached without passing any. -/
theorem pos_of_passes {passed : List Token} (h : (⟨0⟩ : Cursor ts).Passes passed k) (hk : k.current = .eof) :
    k.pos = ts.idxOf .eof := by
  have hts : ts = passed ++ k.unread := h.unread
  have hrest : k.unread.idxOf .eof = 0 := by
    cases hu : k.unread with
    | nil => rfl
    | cons t rest =>
      rw [current_of_unread hu] at hk
      rw [hk, List.idxOf_cons_self]
  calc k.pos = 0 + passed.length := h.pos
    _ = k.unread.idxOf .eof + passed.length := by rw [hrest]
    _ = (passed ++ k.unread).idxOf .eof := by rw [List.idxOf_append, if_neg h.unmarked]
    _ = ts.idxOf .eof := by rw [← hts]

/-- Reading always moves on and stops at the right place, whatever the tokens: with no end mark, with several, or with
    more tokens behind one. A cursor is never moved beyond the tokens, a round of either loop that goes on moves it
    on, so both loops are left after no more rounds than there were tokens to pass; and the pipeline is left at the
    first end mark, or behind all tokens if there is none, with its commands. -/
theorem reading_advances (ts : List Token) :
    (∀ k : Cursor ts, k.advance.pos ≤ max k.pos ts.length) ∧
      (∀ (k : Cursor ts) (c : Command), k.Onward (commandRound (k, c))) ∧
      (∀ (k : Cursor ts) (cs : List Command), k.Onward (pipelineRound (k, cs))) ∧
      (∀ (k : Cursor ts) (c : Command), ∃ n k' c', Leaves commandRound (k, c) n (k', c') ∧ k.pos + n ≤ k'.pos ∧
        c.absorb k.unread = (c', k'.unread)) ∧
      ∃ n ≤ ts.idxOf .eof, Leaves pipelineRound ((⟨0⟩ : Cursor ts), []) n (⟨ts.idxOf .eof⟩, pipelineOf ts) ∧
        pipelineFrom ts = (pipelineOf ts, ts.drop (ts.idxOf .eof)) := by
  refine ⟨advance_pos_le, onward_commandRound, onward_pipelineRound, readCommand_ends, ?_⟩
  obtain ⟨n, ⟨k, cs⟩, hn⟩ : ∃ n t, Leaves pipelineRound ((⟨0⟩ : Cursor ts), []) n t :=
    (leaves_untilDone _ (fun s => ts.length - s.1.pos) pipelineRound_lowers _).imp fun _ h => ⟨_, h⟩
  obtain ⟨⟨passed, hle, hp⟩, hend, hcommands, hunread⟩ := pipeline_of_leaves hn
  have hplace : k = ⟨ts.idxOf .eof⟩ := congrArg Cursor.mk (pos_of_passes hp hend)
  have hcs : pipelineOf ts = cs := hcommands
  rw [hplace] at hn hunread
  have hcount : passed.length = ts.idxOf .eof := by
    rw [← pos_of_passes hp hend, hp.pos, Nat.zero_add]
  refine ⟨n, hcount ▸ hle, hcs ▸ hn, Prod.ext rfl hunread⟩

end Cursor

end CommandShell
