/-
  CommandShell.Proofs.Command.Meaning — what a token list means, said without a reader that goes through it.

  Up to the first end mark, pipes divide the tokens into clauses. In a clause a word right behind an operator is
  the target of that operator and every other word is an argument; of the targets of one stream the last counts.
  Clauses without arguments mean nothing.
  - `absorb_clause`: reading a command takes up one clause and stops behind it;
  - `clause_induction`: every token list is a clause, a clause and an end mark, or a clause and a pipe before
    another list;
  - `pipelineFrom_of_pipe`, `pipelineFrom_of_stop`: what is read, from the first command on;
  - `pipelineOf_last`, `pipelineOf_ended`, `pipelineOf_piped`: what is read in each of the three cases;
  - `pipelineOf_eq_meaning`: the commands read are the commands meant, whatever the tokens.
-/

import CommandShell.Command.Parser

namespace CommandShell

/-! ## The meaning -/

namespace Clause

/-- An operator and the word right behind it. -/
def binding? : Token × Token → Option (OutStream × Redirection)
  | (.redirect stream mode, .word target) => some (stream, ⟨mode, target⟩)
  | _ => none

/-- The redirections of a clause, in order. -/
def bindings (ts : List Token) : List (OutStream × Redirection) := (ts.zip ts.tail).filterMap binding?

/-- A word, unless an operator stands right before it. -/
def argument? : Option Token × Token → Option String
  | (some (.redirect _ _), _) => none
  | (_, .word text) => some text
  | _ => none

/-- The words that are no targets, in order: each token is looked at with the one before it. -/
def arguments (ts : List Token) : List String := ((none :: ts.map some).zip ts).filterMap argument?

/-- The last redirection of a stream. -/
def lastOf (stream : OutStream) (bs : List (OutStream × Redirection)) : Option Redirection :=
  ((bs.filter fun b => b.1 = stream).getLast?).map (·.2)

def command (ts : List Token) : Command :=
  { argv := arguments ts, stdout := lastOf .stdout (bindings ts), stderr := lastOf .stderr (bindings ts) }

end Clause

/-- The clauses of a token list: what stands between the pipes before the first end mark. -/
def clauses (ts : List Token) : List (List Token) := (ts.takeWhile (· ≠ .eof)).splitOn .pipe

/-- The commands that a token list means. -/
def meaning (ts : List Token) : List Command :=
  ((clauses ts).map Clause.command).filter fun c => c.argv ≠ []

/-- The tokens of a clause: no pipe and no end mark. -/
def Inner (ts : List Token) : Prop := ∀ t ∈ ts, t ≠ .pipe ∧ t ≠ .eof

/-- Where a clause ends. -/
def Stop (rest : List Token) : Prop := ∀ t ∈ rest.head?, t = .pipe ∨ t = .eof

/-! ## Reading a clause -/

namespace Clause

@[simp] theorem bindings_nil : bindings [] = [] := rfl
@[simp] theorem arguments_nil : arguments [] = [] := rfl

@[simp] theorem bindings_word (text : String) (ts : List Token) : bindings (.word text :: ts) = bindings ts := by
  cases ts <;> rfl

@[simp] theorem bindings_target (stream : OutStream) (mode : OpenMode) (target : String) (ts : List Token) :
    bindings (.redirect stream mode :: .word target :: ts) = (stream, ⟨mode, target⟩) :: bindings ts := by
  rw [← bindings_word target ts]
  rfl

/-- Behind a word the next token is looked at as at the beginning of the clause. -/
@[simp] theorem arguments_word (text : String) (ts : List Token) : arguments (.word text :: ts) = text :: arguments ts := by
  cases ts with
  | nil => rfl
  | cons t ts => cases t <;> rfl

@[simp] theorem arguments_target (stream : OutStream) (mode : OpenMode) (target : String) (ts : List Token) :
    arguments (.redirect stream mode :: .word target :: ts) = arguments ts := by
  cases ts with
  | nil => rfl
  | cons t ts => cases t <;> rfl

/-- An operator without a target has no effect. -/
theorem dangling {ts : List Token} (h : ∀ target rest, ts = .word target :: rest → False) (stream : OutStream)
    (mode : OpenMode) :
    bindings (.redirect stream mode :: ts) = bindings ts ∧ arguments (.redirect stream mode :: ts) = arguments ts := by
  cases ts with
  | nil => exact ⟨rfl, rfl⟩
  | cons t ts =>
    cases t with
    | word target => exact absurd rfl (h target ts)
    | pipe => exact ⟨rfl, rfl⟩
    | redirect _ _ => exact ⟨rfl, rfl⟩
    | eof => exact ⟨rfl, rfl⟩

@[simp] theorem lastOf_nil (stream : OutStream) : lastOf stream [] = none := rfl

/-- The first redirection counts only when no later one is for the same stream. -/
theorem lastOf_cons (stream : OutStream) (b : OutStream × Redirection) (bs : List (OutStream × Redirection)) :
    lastOf stream (b :: bs) = (lastOf stream bs).or (if b.1 = stream then some b.2 else none) := by
  by_cases h : b.1 = stream
  · simp only [lastOf, List.filter_cons, h, decide_true, if_true]
    rw [List.getLast?_cons]
    cases hl : (bs.filter fun b => b.1 = stream).getLast? <;> simp
  · simp [lastOf, h]

end Clause

/-- A command with the words and redirections of a clause added to those it has. -/
def Command.extended (c : Command) (ts : List Token) : Command :=
  { argv := c.argv ++ Clause.arguments ts
    stdout := (Clause.lastOf .stdout (Clause.bindings ts)).or c.stdout
    stderr := (Clause.lastOf .stderr (Clause.bindings ts)).or c.stderr }

theorem Command.extended_word (c : Command) (text : String) (ts : List Token) :
    (c.addWord text).extended ts = c.extended (.word text :: ts) := by
  simp [extended, addWord]

theorem Command.extended_target (c : Command) (stream : OutStream) (mode : OpenMode) (target : String) (ts : List Token) :
    (c.redirect stream ⟨mode, target⟩).extended ts = c.extended (.redirect stream mode :: .word target :: ts) := by
  cases stream <;> simp [extended, redirect, Clause.lastOf_cons]

theorem absorb_stop (c : Command) {rest : List Token} (h : Stop rest) : c.absorb rest = (c, rest) := by
  cases rest with
  | nil => rfl
  | cons t rest =>
    rcases h t rfl with rfl | rfl
    · rfl
    · rfl

/-- Reading a command takes up the clause and leaves what is behind it. -/
theorem absorb_clause (c : Command) {ts rest : List Token} (hts : Inner ts) (hr : Stop rest) :
    c.absorb (ts ++ rest) = (c.extended ts, rest) := by
  fun_induction Command.absorb c ts with
  | case1 c text ts ih =>
    rw [List.cons_append, Command.absorb, ih (fun t ht => hts t (by simp [ht])), Command.extended_word]
  | case2 c stream mode target ts ih =>
    rw [List.cons_append, List.cons_append, Command.absorb, ih (fun t ht => hts t (by simp [ht])), Command.extended_target]
  | case3 c stream mode ts hn ih =>
    -- what is behind the clause does not begin with a word either
    have hn' : ∀ target more, ts ++ rest = .word target :: more → False := by
      intro target more e
      cases ts with
      | nil =>
        rw [List.nil_append] at e
        subst e
        rcases hr _ rfl with h | h <;> cases h
      | cons t ts =>
        rw [List.cons_append, List.cons.injEq] at e
        exact hn target ts (by rw [e.1])
    have hd := Clause.dangling hn stream mode
    rw [List.cons_append, Command.absorb.eq_3 _ _ _ _ hn', ih (fun t ht => hts t (by simp [ht]))]
    simp [Command.extended, hd]
  | case4 c ts => exact absurd rfl (hts .pipe (by simp)).1
  | case5 c ts => exact absurd rfl (hts .eof (by simp)).2
  | case6 c => simp [absorb_stop c hr, Command.extended]

/-! ## Reading a pipeline -/

/-- Every token list is a clause to its end, a clause before an end mark, or a clause before a pipe and a list. -/
@[elab_as_elim]
theorem clause_induction {motive : List Token → Prop} (last : ∀ ts, Inner ts → motive ts)
    (ended : ∀ ts rest, Inner ts → motive (ts ++ .eof :: rest))
    (piped : ∀ ts rest, Inner ts → motive rest → motive (ts ++ .pipe :: rest)) (ts : List Token) : motive ts := by
  -- `done` is the part of the present clause that was already passed
  suffices h : ∀ done, Inner done → motive (done ++ ts) from h [] (by simp [Inner])
  induction ts with
  | nil =>
    intro done hd
    rw [List.append_nil]
    exact last done hd
  | cons t ts ih =>
    intro done hd
    have hpass : t ≠ .pipe → t ≠ .eof → motive (done ++ t :: ts) := by
      intro hp he
      rw [List.append_cons]
      refine ih _ fun u hu => ?_
      rcases List.mem_append.mp hu with hu | hu
      · exact hd u hu
      · simp only [List.mem_singleton] at hu
        subst hu
        exact ⟨hp, he⟩
    cases t with
    | word text => exact hpass (by simp) (by simp)
    | redirect stream mode => exact hpass (by simp) (by simp)
    | pipe => exact piped done ts hd (ih [] (by simp [Inner]))
    | eof => exact ended done ts hd

/-- The command of a clause, if the clause means anything. -/
def kept (ts : List Token) : List Command := [Clause.command ts].filter fun c => c.argv ≠ []

theorem kept_eq (ts : List Token) : (if (Clause.command ts).isEmpty then [] else [Clause.command ts]) = kept ts := by
  by_cases h : (Clause.command ts).argv = [] <;> simp [kept, Command.isEmpty, h]

theorem absorb_empty {ts : List Token} (hts : Inner ts) {rest : List Token} (hr : Stop rest) :
    ({} : Command).absorb (ts ++ rest) = (Clause.command ts, rest) := by
  rw [absorb_clause _ hts hr]
  simp [Command.extended, Clause.command]

/-- Behind a command and a pipe the reading goes on. -/
theorem pipelineFrom_of_pipe {ts rest : List Token} {c : Command} (h : ({} : Command).absorb ts = (c, .pipe :: rest)) :
    pipelineFrom ts =
      (if c.isEmpty then (pipelineFrom rest).1 else c :: (pipelineFrom rest).1, (pipelineFrom rest).2) := by
  rw [pipelineFrom.eq_def ts]
  split
  · rename_i c' rest' hc
    rw [h] at hc
    cases hc
    rfl
  · rename_i c' rest' hn hc
    rw [h] at hc
    cases hc
    exact absurd rfl (hn rest)

theorem pipelineFrom_of_stop {ts rest : List Token} {c : Command} (h : ({} : Command).absorb ts = (c, rest))
    (hp : ∀ more, rest ≠ .pipe :: more) : pipelineFrom ts = (if c.isEmpty then [] else [c], rest) := by
  rw [pipelineFrom.eq_def ts]
  split
  · rename_i c' more hc
    rw [h] at hc
    cases hc
    exact absurd rfl (hp more)
  · rename_i c' rest' hn hc
    rw [h] at hc
    cases hc
    rfl

theorem pipelineOf_piped {ts : List Token} (hts : Inner ts) (rest : List Token) :
    pipelineOf (ts ++ .pipe :: rest) = kept ts ++ pipelineOf rest := by
  have h : ({} : Command).absorb (ts ++ .pipe :: rest) = _ := absorb_empty hts (by simp [Stop])
  rw [← kept_eq, pipelineOf, pipelineFrom_of_pipe h]
  by_cases he : (Clause.command ts).isEmpty = true <;> simp [he, pipelineOf]

theorem pipelineOf_stop {ts : List Token} (hts : Inner ts) {rest : List Token} (hr : Stop rest)
    (hp : ∀ more, rest ≠ .pipe :: more) : pipelineOf (ts ++ rest) = kept ts := by
  rw [← kept_eq, pipelineOf, pipelineFrom_of_stop (absorb_empty hts hr) hp]

theorem pipelineOf_ended {ts : List Token} (hts : Inner ts) (rest : List Token) :
    pipelineOf (ts ++ .eof :: rest) = kept ts :=
  pipelineOf_stop hts (by simp [Stop]) (by simp)

theorem pipelineOf_last {ts : List Token} (hts : Inner ts) : pipelineOf ts = kept ts := by
  have h : pipelineOf (ts ++ []) = kept ts := pipelineOf_stop hts (by simp [Stop]) (by simp)
  rwa [List.append_nil] at h

/-! ## Reading and meaning -/

theorem Inner.takeWhile {ts : List Token} (hts : Inner ts) (rest : List Token) :
    (ts ++ rest).takeWhile (· ≠ .eof) = ts ++ rest.takeWhile (· ≠ .eof) :=
  List.takeWhile_append_of_pos fun t ht => by simp [(hts t ht).2]

theorem clauses_last {ts : List Token} (hts : Inner ts) : clauses ts = [ts] := by
  have h : ts.takeWhile (· ≠ .eof) = ts := by simpa using hts.takeWhile []
  rw [clauses, h]
  exact List.splitOn_eq_singleton fun hp => (hts _ hp).1 rfl

theorem clauses_ended {ts : List Token} (hts : Inner ts) (rest : List Token) : clauses (ts ++ .eof :: rest) = [ts] := by
  rw [clauses, hts.takeWhile]
  simpa using List.splitOn_eq_singleton fun hp => (hts _ hp).1 rfl

theorem clauses_piped {ts : List Token} (hts : Inner ts) (rest : List Token) :
    clauses (ts ++ .pipe :: rest) = ts :: clauses rest := by
  rw [clauses, hts.takeWhile]
  simpa [clauses] using List.splitOn_append_cons_self_of_not_mem (fun hp => (hts _ hp).1 rfl) _

/-- The commands read from a token list are the commands it means: with or without an end mark, with pipes,
    operators and words in any order. -/
theorem pipelineOf_eq_meaning (ts : List Token) : pipelineOf ts = meaning ts := by
  induction ts using clause_induction with
  | last ts hts => rw [pipelineOf_last hts, meaning, clauses_last hts]; rfl
  | ended ts rest hts => rw [pipelineOf_ended hts, meaning, clauses_ended hts]; rfl
  | piped ts rest hts ih =>
    rw [pipelineOf_piped hts, ih, meaning, meaning, clauses_piped hts, List.map_cons, kept, ← List.filter_append]
    rfl

end CommandShell
