/-
  CommandShell.Proofs.Session.WellFormed — whatever a line says, what is made of it can be run.

  Quotes around nothing, operators side by side and things left open are all allowed in a line, but they make no empty
  word, no command without words and no redirection without a target.
  - `drawnFrom_of_mem_pipelineOf`: every token list is read as commands that have words, and their words and targets
    are words of the list;
  - `length_pipelineOf_le`: there is at most one command more than there are pipes;
  - `carryOut_eq_formed`: so a line is carried out by stages that can have no other commands than well formed ones;
  - `line_wellFormed`: all of this for every line.
-/

import CommandShell.Proofs.Command.Composition
import CommandShell.Proofs.Stage.Streams

namespace CommandShell

/-! ## Commands and the tokens that they are read from -/

/-- There are words, none of them is empty, and every redirection has a target. -/
structure Command.WellFormed (c : Command) : Prop where
  argv_ne : c.argv ≠ []
  words : "" ∉ c.argv
  stdout : ∀ r ∈ c.stdout, r.target ≠ ""
  stderr : ∀ r ∈ c.stderr, r.target ≠ ""

/-- There are words, and all words and targets are words of the token list. -/
structure Command.DrawnFrom (c : Command) (ts : List Token) : Prop where
  argv_ne : c.argv ≠ []
  words : ∀ word ∈ c.argv, .word word ∈ ts
  stdout : ∀ r ∈ c.stdout, .word r.target ∈ ts
  stderr : ∀ r ∈ c.stderr, .word r.target ∈ ts

variable {c : Command} {ts us : List Token}

theorem Command.WellFormed.name_ne (h : c.WellFormed) : c.name ≠ "" := by
  obtain ⟨word, rest, hargv⟩ := List.exists_cons_of_ne_nil h.argv_ne
  have hname : c.name = word := by simp [name, program?, hargv]
  rw [hname]
  rintro rfl
  exact h.words (by simp [hargv])

namespace Command.DrawnFrom

theorem mono (hsub : ts ⊆ us) (h : c.DrawnFrom ts) : c.DrawnFrom us where
  argv_ne := h.argv_ne
  words word hw := hsub (h.words word hw)
  stdout r hr := hsub (h.stdout r hr)
  stderr r hr := hsub (h.stderr r hr)

theorem wellFormed (h : c.DrawnFrom ts) (hts : .word "" ∉ ts) : c.WellFormed where
  argv_ne := h.argv_ne
  words hempty := hts (h.words "" hempty)
  stdout r hr hempty := hts (hempty ▸ h.stdout r hr)
  stderr r hr hempty := hts (hempty ▸ h.stderr r hr)

end Command.DrawnFrom

namespace Clause

theorem mem_of_mem_arguments {word : String} (h : word ∈ arguments ts) : .word word ∈ ts := by
  obtain ⟨⟨before, t⟩, hmem, ht⟩ := List.mem_filterMap.mp h
  have hts : t ∈ ts := (List.of_mem_zip hmem).2
  unfold argument? at ht
  split at ht
  · cases ht
  · next heq =>
    cases heq
    cases ht
    exact hts
  · cases ht

theorem mem_of_mem_bindings {b : OutStream × Redirection} (h : b ∈ bindings ts) : .word b.2.target ∈ ts := by
  obtain ⟨⟨sign, t⟩, hmem, ht⟩ := List.mem_filterMap.mp h
  have hts : t ∈ ts := List.mem_of_mem_tail (List.of_mem_zip hmem).2
  unfold binding? at ht
  split at ht
  · next heq =>
    cases heq
    cases ht
    exact hts
  · cases ht

theorem mem_of_mem_lastOf {stream : OutStream} {r : Redirection} (h : r ∈ lastOf stream (bindings ts)) :
    .word r.target ∈ ts := by
  obtain ⟨b, hb, rfl⟩ := Option.map_eq_some_iff.mp h
  exact mem_of_mem_bindings (List.mem_of_mem_filter (List.mem_of_getLast? hb))

end Clause

theorem drawnFrom_of_mem_kept (h : c ∈ kept ts) : c.DrawnFrom ts := by
  obtain ⟨hc, hne⟩ := List.mem_filter.mp h
  obtain rfl := List.mem_singleton.mp hc
  exact ⟨by simpa using hne, fun _ => Clause.mem_of_mem_arguments, fun _ => Clause.mem_of_mem_lastOf,
    fun _ => Clause.mem_of_mem_lastOf⟩

/-- Whatever the tokens, the commands read from them have words, and no word or target comes from elsewhere. -/
theorem drawnFrom_of_mem_pipelineOf (h : c ∈ pipelineOf ts) : c.DrawnFrom ts := by
  induction ts using clause_induction with
  | last ts hts =>
    rw [pipelineOf_last hts] at h
    exact drawnFrom_of_mem_kept h
  | ended ts rest hts =>
    rw [pipelineOf_ended hts] at h
    exact (drawnFrom_of_mem_kept h).mono (List.subset_append_left ..)
  | piped ts rest hts ih =>
    rw [pipelineOf_piped hts] at h
    rcases List.mem_append.mp h with h | h
    · exact (drawnFrom_of_mem_kept h).mono (List.subset_append_left ..)
    · exact (ih h).mono fun t ht => by simp [ht]

theorem length_kept_le (ts : List Token) : (kept ts).length ≤ 1 := List.length_filter_le ..

theorem length_pipelineOf_le (ts : List Token) : (pipelineOf ts).length ≤ ts.count .pipe + 1 := by
  induction ts using clause_induction with
  | last ts hts =>
    rw [pipelineOf_last hts]
    have := length_kept_le ts
    omega
  | ended ts rest hts =>
    rw [pipelineOf_ended hts]
    have := length_kept_le ts
    omega
  | piped ts rest hts ih =>
    rw [pipelineOf_piped hts, List.length_append, List.count_append, List.count_cons_self]
    have := length_kept_le ts
    omega

/-- A line ends with its end mark, and has no other one and no empty word. -/
theorem tokensOf_split (line : String) : ∃ ts, tokensOf line = ts ++ [.eof] ∧ .eof ∉ ts ∧ .word "" ∉ ts :=
  ⟨Scanner.found line, Scanner.tokensOf_eq_found line, Scanner.eof_not_mem_found line,
    fun h => (Scanner.found_of_mem h).2 rfl⟩

theorem wellFormed_of_mem_pipelineOf {line : String} (h : c ∈ pipelineOf (tokensOf line)) : c.WellFormed := by
  refine (drawnFrom_of_mem_pipelineOf h).wellFormed fun hempty => ?_
  obtain ⟨ts, heq, -, hts⟩ := tokensOf_split line
  rw [heq] at hempty
  exact hts (by simpa using hempty)

/-! ## Stages -/

namespace Stage

theorem command_start (s : Stage) (w : World) : (s.start w).2.1.command = s.command := by
  obtain ⟨progress, h⟩ := s.stage_start w
  rw [h]

theorem command_wait (s : Stage) (w : World) : (s.wait w).2.1.command = s.command := by
  rw [stage_wait]

end Stage

/-- A stage with a well formed command. No call changes the command, so there is no other stage in a run. -/
structure FormedStage where
  stage : Stage
  formed : stage.command.WellFormed

instance : StageLike FormedStage World where
  outputRedirected x := StageLike.outputRedirected World x.stage
  attachInput x e w :=
    let attached := x.stage.attachInput e w
    (⟨attached.1, x.formed⟩, attached.2)
  attachOutput x e w :=
    let attached := x.stage.attachOutput e w
    (⟨attached.1, x.formed⟩, attached.2)
  start x w :=
    let started := x.stage.start w
    (started.1, ⟨started.2.1, x.stage.command_start w ▸ x.formed⟩, started.2.2)
  wait x w :=
    let ended := x.stage.wait w
    (ended.1, ⟨ended.2.1, x.stage.command_wait w ▸ x.formed⟩, ended.2.2)
  detachInput x w :=
    let detached := x.stage.detachInput w
    (⟨detached.1, x.formed⟩, detached.2)
  detachOutput x w :=
    let detached := x.stage.detachOutput w
    (⟨detached.1, x.formed⟩, detached.2)

theorem formed_alike :
    Pipeline.Alike (fun (x : FormedStage) (s : Stage) => x.stage = s) (fun w w' : World => w = w') where
  makePipe := by rintro w _ rfl; exact ⟨rfl, rfl⟩
  dropEnd := by rintro w _ e rfl; rfl
  note := by rintro w _ n rfl; rfl
  complain := by rintro w _ style message rfl; rfl
  outputRedirected := by rintro x _ rfl; rfl
  attachInput := by rintro x _ w _ e rfl rfl; exact ⟨rfl, rfl⟩
  attachOutput := by rintro x _ w _ e rfl rfl; exact ⟨rfl, rfl⟩
  start := by rintro x _ w _ rfl rfl; exact ⟨rfl, rfl, rfl⟩
  wait := by rintro x _ w _ rfl rfl; exact ⟨rfl, rfl, rfl⟩
  detachInput := by rintro x _ w _ rfl rfl; exact ⟨rfl, rfl⟩
  detachOutput := by rintro x _ w _ rfl rfl; exact ⟨rfl, rfl⟩

namespace Session

/-- The stages that a line is made into. -/
def stagesOf (line : String) : List FormedStage :=
  (pipelineOf (tokensOf line)).attach.map fun c => ⟨{ command := c.1 }, wellFormed_of_mem_pipelineOf c.2⟩

theorem stage_stagesOf (line : String) :
    (stagesOf line).map FormedStage.stage = (pipelineOf (tokensOf line)).map fun command => { command } := by
  rw [stagesOf, List.map_map]
  exact List.attach_map_val (f := fun command => ({ command } : Stage))

/-- Carry out a line with stages that can have no other commands than well formed ones. -/
def carryOutFormed (style : String → String) (line : String) (w : World) : Next × World :=
  if Text.allBlank line then (.goOn, w)
  else
    let stages := stagesOf line
    let (next, stages, w) := Pipeline.run style stages ((w.pushHistory line).note (.parsed stages.length))
    (next, ((stages.map FormedStage.stage).foldl (fun w s => s.drop w) w).settle)

theorem carryOut_eq_formed (style : String → String) (line : String) (w : World) :
    carryOut style line w = carryOutFormed style line w := by
  have hsame : List.Forall₂ (fun (x : FormedStage) (s : Stage) => x.stage = s) (stagesOf line)
      ((pipelineOf (tokensOf line)).map fun command => { command }) := by
    rw [← stage_stagesOf, List.forall₂_map_right_iff]
    exact List.forall₂_same.mpr fun _ _ => rfl
  have hlength : (stagesOf line).length = (pipelineOf (tokensOf line)).length := by simp [stagesOf]
  unfold carryOut carryOutFormed runCommands
  dsimp only
  rw [hlength]
  split
  · rfl
  · generalize (w.pushHistory line).note (.parsed (pipelineOf (tokensOf line)).length) = w₁
    obtain ⟨hnext, hstages, hworld⟩ := formed_alike.run style hsame (rfl : w₁ = w₁)
    rw [← List.forall₂_map_left_iff, List.forall₂_eq_eq_eq] at hstages
    simp only [hnext, hstages, hworld]

/-- Whatever a line says: its tokens end with the only end mark and have no empty word among them; every command has
    words, none of them empty, and no redirection without a target; there is at most one command more than there are
    pipes. So the line is carried out by stages that have such commands, from beginning to end. -/
theorem line_wellFormed (line : String) :
    (∃ ts, tokensOf line = ts ++ [.eof] ∧ .eof ∉ ts ∧ .word "" ∉ ts) ∧
      (∀ c ∈ pipelineOf (tokensOf line), c.WellFormed) ∧
      (pipelineOf (tokensOf line)).length ≤ (tokensOf line).count .pipe + 1 ∧
      (∀ x ∈ stagesOf line, x.stage.command.isEmpty = false ∧ x.stage.name ≠ "" ∧
        (∀ r ∈ x.stage.command.stdout, r.target ≠ "") ∧ ∀ r ∈ x.stage.command.stderr, r.target ≠ "") ∧
      ∀ style w, carryOut style line w = carryOutFormed style line w := by
  refine ⟨tokensOf_split line, fun c hc => wellFormed_of_mem_pipelineOf hc, length_pipelineOf_le _, fun x _ => ?_,
    fun style w => carryOut_eq_formed style line w⟩
  have hne : x.stage.command.isEmpty = false := by simpa [Command.isEmpty] using x.formed.argv_ne
  exact ⟨hne, x.formed.name_ne, x.formed.stdout, x.formed.stderr⟩

/-- Empty quotes as a word, as a command and as a target, an operator before a pipe, and a quote that is left open. -/
theorem line_wellFormed_around_nothing :
    let line := "'' a\"\" > '' | '' >> f | b 2> | c >> '''d|"
    let commands : List Command := [{ argv := ["a"] }, { argv := ["b"] }, { argv := ["c"], stdout := some ⟨.append, "d|"⟩ }]
    pipelineOf (tokensOf line) = commands ∧ ∀ c ∈ commands, c.WellFormed := by
  intro line commands
  have hread : pipelineOf (tokensOf line) = commands := by decide +kernel
  obtain ⟨-, hformed, -⟩ := line_wellFormed line
  rw [hread] at hformed
  exact ⟨hread, hformed⟩

end Session

end CommandShell
