/-
  CommandShell.Proofs.World.Changes — all that the shell can do to its world.

  Whatever the shell does, it does by a few kinds of change (`World.Change`). Some of them every operation may make: it
  takes down notices, opens files and writes to them, goes to another directory, passes data on. The others are
  effects that an operation has or has not: it adds entries to the history, it has to do with pipes and programs, it
  takes descriptors. Each operation makes a sequence of changes with its own effects, and what no such change touches
  is as before:
  - `Changes.later`: entries are only added to the history, files stay open, and the log goes where it went;
  - `Changes.entries`, `Changes.tally`, `Changes.spare`: without the effect, the entries, the pipes with their holders
    and the programs, and the descriptors that are to be had are the same;
  - `Changes.closed`: descriptors that are given back in the end leave no trace.
  - `entries_action`: of the builtins, none adds an entry but the one that reads a history file.
-/

import CommandShell.Proofs.Pipeline.Plumbing
import CommandShell.Proofs.Search.Notices
import CommandShell.Proofs.World.Descriptors
import Mathlib.Logic.Relation

namespace CommandShell

namespace World

/-- What an operation may do besides what every operation may. -/
inductive Effect where
  /-- Entries are added to the history. -/
  | remembers
  /-- Pipes are made, their ends change hands, and programs come and go. -/
  | plumbs
  /-- Descriptors are taken and given back. -/
  | spends

/-- One change that the shell makes to its world. -/
inductive Change (effects : Set Effect) : World → World → Prop
  /-- Notices are taken down, files are opened and written to. -/
  | alter {w w' : World} (h : Alters Set.univ w w') : Change effects w w'
  | moveTo (cwd : Location) (w : World) : Change effects w { w with cwd }
  | stream (input output errors : Bytes) (w : World) : Change effects w { w with input, output, errors }
  /-- Data comes and goes through pipes. -/
  | pass {pipes : Pipes} {w : World} (hlength : pipes.length = w.pipes.length)
      (hholders : ∀ e, pipes.holders e = w.pipes.holders e) : Change effects w { w with pipes }
  | save (saved : Nat) (w : World) : Change effects w { w with history := ⟨w.history.entries, saved⟩ }
  | remember (h : .remembers ∈ effects) (added : List String) (saved : Nat) (w : World) :
      Change effects w { w with history := ⟨w.history.entries ++ added, saved⟩ }
  | plumb (h : .plumbs ∈ effects) (pipes : Pipes) (jobs : List Job) (w : World) :
      Change effects w { w with pipes, jobs }
  | spend (h : .spends ∈ effects) (spare : Nat) (w : World) : Change effects w { w with spare }

/-- Any number of changes. -/
def Changes (effects : Set Effect) : World → World → Prop := Relation.ReflTransGen (Change effects)

variable {effects more : Set Effect} {w w' w'' : World}

namespace Changes

theorem refl (w : World) : Changes effects w w := Relation.ReflTransGen.refl

theorem trans (h : Changes effects w w') (h' : Changes effects w' w'') : Changes effects w w'' :=
  Relation.ReflTransGen.trans h h'

end Changes

theorem Change.changes (h : Change effects w w') : Changes effects w w' := Relation.ReflTransGen.single h

theorem Change.mono (hsub : effects ⊆ more) (h : Change effects w w') : Change more w w' := by
  cases h with
  | alter h => exact .alter h
  | moveTo cwd => exact .moveTo cwd w
  | stream input output errors => exact .stream input output errors w
  | pass hlength hholders => exact .pass hlength hholders
  | save saved => exact .save saved w
  | remember h added saved => exact .remember (hsub h) added saved w
  | plumb h pipes jobs => exact .plumb (hsub h) pipes jobs w
  | spend h spare => exact .spend (hsub h) spare w

theorem Changes.mono (hsub : effects ⊆ more) (h : Changes effects w w') : Changes more w w' :=
  Relation.ReflTransGen.mono (p := Change more) (fun _ _ hstep => hstep.mono hsub) w w' h

/-! ## What changes keep -/

/-- Entries were only added, files have stayed open, and the log goes where it went. -/
structure Later (w w' : World) : Prop where
  entries : w.history.entries <+: w'.history.entries
  logger : w'.logger = w.logger
  opened : w.opened.map OpenFile.location <+: w'.opened.map OpenFile.location

theorem Later.refl (w : World) : Later w w := ⟨List.prefix_rfl, rfl, List.prefix_rfl⟩

theorem Later.trans (h : Later w w') (h' : Later w' w'') : Later w w'' where
  entries := h.entries.trans h'.entries
  logger := h'.logger.trans h.logger
  opened := h.opened.trans h'.opened

theorem Alters.later {places : Set Location} (h : Alters places w w') : Later w w' where
  entries := h.history ▸ List.prefix_rfl
  logger := h.logger
  opened := h.opened

theorem Change.later (h : Change effects w w') : Later w w' := by
  cases h with
  | alter h => exact h.later
  | remember _ added => exact ⟨List.prefix_append .., rfl, List.prefix_rfl⟩
  | _ => exact ⟨List.prefix_rfl, rfl, List.prefix_rfl⟩

theorem Changes.later (h : Changes effects w w') : Later w w' := by
  induction h with
  | refl => exact .refl w
  | tail _ hstep ih => exact ih.trans hstep.later

theorem Alters.entries {places : Set Location} (h : Alters places w w') : w'.history.entries = w.history.entries :=
  congrArg History.entries h.history

theorem Changes.entries (h : Changes effects w w') (hnone : .remembers ∉ effects) :
    w'.history.entries = w.history.entries := by
  induction h with
  | refl => rfl
  | tail _ hstep ih =>
    cases hstep with
    | alter h => exact h.entries.trans ih
    | remember h => exact absurd h hnone
    | _ => exact ih

/-- How many pipes there are, how many hold each end, and the programs. -/
def tally (w : World) : Nat × (PipeEnd → Nat) × List Job := (w.pipes.length, w.pipes.holders, w.jobs)

theorem Changes.tally (h : Changes effects w w') (hnone : .plumbs ∉ effects) : w'.tally = w.tally := by
  induction h with
  | refl => rfl
  | tail _ hstep ih =>
    refine Eq.trans ?_ ih
    cases hstep with
    | alter h => simp only [World.tally, h.pipes, h.jobs]
    | pass hlength hholders => simp only [World.tally, hlength, funext hholders]
    | plumb h => exact absurd h hnone
    | _ => rfl

theorem Changes.spare (h : Changes effects w w') (hnone : .spends ∉ effects) : w'.spare = w.spare := by
  induction h with
  | refl => rfl
  | tail _ hstep ih =>
    cases hstep with
    | alter h => exact h.spare.trans ih
    | spend h => exact absurd h hnone
    | _ => exact ih

/-- If all that was opened is closed again, it makes no difference that descriptors were taken. -/
theorem Changes.closed (h : Changes (insert .spends effects) w w') : Changes effects w (w.closeSince w') := by
  induction h with
  | refl => exact .refl w
  | @tail w₁ w₂ _ hstep ih =>
    refine ih.trans ?_
    cases hstep with
    | alter h => exact (Change.alter h.closed).changes
    | moveTo cwd => exact (Change.moveTo cwd (w.closeSince w₁)).changes
    | stream input output errors => exact (Change.stream input output errors (w.closeSince w₁)).changes
    | pass hlength hholders => exact (Change.pass (w := w.closeSince w₁) hlength hholders).changes
    | save saved => exact (Change.save saved (w.closeSince w₁)).changes
    | remember h added saved => exact (Change.remember (by simpa using h) added saved (w.closeSince w₁)).changes
    | plumb h pipes jobs => exact (Change.plumb (by simpa using h) pipes jobs (w.closeSince w₁)).changes
    | spend _ spare => exact .refl _

/-! ## Files, streams and the history -/

theorem Alters.changes {places : Set Location} (h : Alters places w w') : Changes effects w w' :=
  (Change.alter (h.mono (Set.subset_univ _))).changes

theorem changes_note (n : Notice) (w : World) : Changes effects w (w.note n) := (alters_note n w).changes

theorem Noted.changes (h : Noted w w') : Changes effects w w' := h.alters.changes

theorem changes_openFile (path : Native) (mode : OpenMode) (w : World) :
    Changes effects w (w.openFile path mode).2 := by
  rcases openFile_cases path mode w with ⟨fault, he⟩ | ⟨l, he, -⟩
  · rw [he]
    exact .refl w
  · rw [he]
    exact (alters_opened l mode w).changes

theorem changes_writeFile (number : Nat) (data : Bytes) (w : World) : Changes effects w (w.writeFile number data).2 :=
  (alters_writeFile data (by simp) : Alters Set.univ w _).changes

theorem changes_print (text : String) (w : World) : Changes effects w (w.print text) :=
  (Change.stream w.input (w.output ++ Bytes.ofString text) w.errors w).changes

theorem changes_printError (text : String) (w : World) : Changes effects w (w.printError text) :=
  (Change.stream w.input w.output (w.errors ++ Bytes.ofString text) w).changes

theorem changes_write (h : Handle) (data : Bytes) (w : World) : Changes effects w (w.write h data).2 := by
  unfold write
  split
  · exact (Change.stream w.input w.output (w.errors ++ data) w).changes
  · exact (Change.stream w.input (w.output ++ data) w.errors w).changes
  · next e => exact (Change.pass (Pipes.holders_write w.pipes e data).1 (Pipes.holders_write w.pipes e data).2).changes
  · exact changes_writeFile ..

theorem changes_readAll (h : Handle) (w : World) : Changes effects w (w.readAll h).2 := by
  unfold readAll
  split
  · exact (Change.stream [] w.output w.errors w).changes
  · next e => exact (Change.pass (Pipes.holders_read w.pipes e).1 (Pipes.holders_read w.pipes e).2).changes
  · exact .refl w

theorem changes_lockHistory (w : World) : Changes effects w w.lockHistory := (alters_lockHistory w).changes

theorem changes_writeEach (number : Nat) (entries : List String) : ∀ w : World,
    Changes effects w (History.writeEach number entries w).2 := by
  induction entries with
  | nil => intro w; exact .refl w
  | cons entry rest ih =>
    intro w
    have h : Changes effects w (Storage.writeFile number (History.storedLine entry) w).2 := changes_writeFile ..
    unfold History.writeEach
    split
    · next w₁ heq =>
      rw [heq] at h
      exact h.trans (ih w₁)
    · next heq =>
      rw [heq] at h
      exact h

theorem changes_writeHistory (path : Native) (w : World) : Changes effects w (w.writeHistory path).2 := by
  have h : Changes effects w (Storage.openFile path .truncate w).2 := changes_openFile ..
  unfold writeHistory History.writeTo
  split
  · next heq =>
    rw [heq] at h
    exact h
  · next number w₁ heq =>
    rw [heq] at h
    exact h.trans (changes_writeEach number _ w₁)

theorem changes_appendHistory (path : Native) (w : World) : Changes effects w (w.appendHistory path).2 := by
  have h : Changes ∅ w (Storage.openFile path .append w).2 := changes_openFile ..
  -- the history that is put back has the entries that it had
  have hback : ∀ {w' : World} (saved : Nat), Changes ∅ w w' →
      Changes effects w { w' with history := ⟨w.history.entries, saved⟩ } := by
    intro w' saved hw
    have hsaved : Changes effects w' { w' with history := ⟨w'.history.entries, saved⟩ } :=
      (Change.save saved w').changes
    rw [hw.entries id] at hsaved
    exact (hw.mono (Set.empty_subset _)).trans hsaved
  unfold appendHistory History.appendTo
  split
  next answer history w' heq =>
  split at heq
  · next hopen =>
    rw [hopen] at h
    cases heq
    exact hback _ h
  · next number w₁ hopen =>
    rw [hopen] at h
    have hwritten := h.trans (changes_writeEach number w.history.fresh w₁)
    split at heq <;> next he =>
      rw [he] at hwritten
      cases heq
      exact hback _ hwritten

theorem changes_pushHistory (h : .remembers ∈ effects) (line : String) (w : World) :
    Changes effects w (w.pushHistory line) :=
  (changes_lockHistory w).trans (Change.remember h [line] w.lockHistory.history.saved w.lockHistory).changes

theorem changes_readHistory (h : .remembers ∈ effects) (path : Native) (w : World) :
    Changes effects w (w.readHistory path).2 := by
  obtain ⟨added, ⟨fault, he⟩ | ⟨count, he⟩⟩ := History.readFrom_cases path w.history w
  · simp only [readHistory, he]
    exact (Change.remember h added _ w).changes
  · simp only [readHistory, he]
    exact (Change.remember h added _ w).changes.trans (changes_note ..)

/-- The entries that a file has for the history. -/
def entriesIn (path : Native) (w : World) : List String :=
  match Storage.readLines path w with
  | .ok lines => History.entriesOf (History.readable lines)
  | .error _ => []

theorem entries_readHistory (path : Native) (w : World) :
    (w.readHistory path).2.history.entries = w.history.entries ++ w.entriesIn path := by
  cases hread : Storage.readLines path w with
  | error fault => simp [readHistory, History.readFrom, entriesIn, hread]
  | ok lines =>
    simp only [readHistory, History.readFrom, entriesIn, hread, History.load_eq]
    cases History.fault? lines with
    | none => exact (alters_note ..).entries
    | some fault => rfl

/-! ## Pipes, programs and descriptors -/

section

variable (hplumbs : .plumbs ∈ effects)

include hplumbs

theorem changes_pipes (pipes : Pipes) (w : World) : Changes effects w { w with pipes } :=
  (Change.plumb hplumbs pipes w.jobs w).changes

theorem changes_share (h : Handle) (w : World) : Changes effects w (w.share h) := by
  unfold share
  split
  · exact changes_pipes hplumbs ..
  · exact .refl w

theorem changes_release (h : Handle) (w : World) : Changes effects w (w.release h) := by
  unfold release
  split
  · exact changes_pipes hplumbs ..
  · exact .refl w

omit hplumbs in
theorem changes_writePieces (job : Job) (pieces : List (OutStream × Bytes)) :
    ∀ w, Changes effects w (writePieces job pieces w) := by
  induction pieces with
  | nil => intro w; exact .refl w
  | cons piece rest ih =>
    intro w
    exact (changes_write ..).trans (ih _)

omit hplumbs in
theorem changes_jobInput (job : Job) (w : World) : Changes effects w (w.jobInput job).2 := by
  unfold jobInput
  split
  · have h : Changes effects w (w.readAll job.stdin).2 := changes_readAll ..
    dsimp only
    split
    · exact h.trans (Change.stream _ _ _ (w.readAll _).2).changes
    · exact h
  · exact .refl w

theorem changes_perform (job : Job) (w : World) : Changes effects w (w.perform job).2 :=
  (((((changes_jobInput job w).trans (changes_writePieces job _ _)).trans (changes_release hplumbs ..)).trans
    (changes_release hplumbs ..)).trans (changes_release hplumbs ..))

theorem changes_spawn (path : Native) (argv : List String) (stdin stdout stderr : Handle) (w : World) :
    Changes effects w (w.spawn path argv stdin stdout stderr).2 := by
  unfold spawn
  dsimp only
  split
  · exact .refl w
  · split
    · exact .refl w
    · have hshared := ((changes_share hplumbs stdin w).trans (changes_share hplumbs stdout _)).trans
        (changes_share hplumbs stderr _)
      exact hshared.trans (Change.plumb hplumbs _ _ _).changes

theorem changes_finishJob (number : Nat) (w : World) : Changes effects w (w.finishJob number).2 := by
  unfold finishJob
  split
  · exact .refl w
  · split
    · exact .refl w
    · exact (changes_perform hplumbs ..).trans (Change.plumb hplumbs _ _ _).changes

theorem changes_settleBelow (n : Nat) : ∀ w, Changes effects w (settleBelow n w) := by
  induction n with
  | zero => intro w; exact .refl w
  | succ n ih =>
    intro w
    exact (changes_finishJob hplumbs n w).trans (ih _)

end

theorem snd_waitJob (number : Nat) (w : World) : (w.waitJob number).2 = (w.finishJob number).2 := by
  unfold waitJob
  dsimp only
  split <;> rfl

section

variable (hspends : .spends ∈ effects)

include hspends

theorem changes_makePipe (hplumbs : .plumbs ∈ effects) (w : World) : Changes effects w w.makePipe.2 := by
  unfold makePipe
  split
  · exact .refl w
  · exact (changes_pipes hplumbs w.pipes.create.2 w).trans (Change.spend hspends (w.spare - 2) _).changes

theorem changes_close (hplumbs : .plumbs ∈ effects) (h : Handle) (w : World) : Changes effects w (w.close h) := by
  cases h with
  | standard stream => exact .refl w
  | pipeEnd e =>
    exact (changes_pipes hplumbs (w.pipes.release e) w).trans (Change.spend hspends (w.spare + 1) _).changes
  | opened file => exact (Change.spend hspends (w.spare + 1) w).changes

theorem changes_openRedirection (name : String) (r : Option Redirection) (w : World) :
    Changes effects w (w.openRedirection name r).2 := by
  unfold openRedirection keepOpen
  split
  · exact .refl w
  · next r =>
    have h : Changes effects w ((w.note (.redirecting r.target r.mode)).openFile r.target r.mode).2 :=
      (changes_note ..).trans (changes_openFile ..)
    rcases hopen : (w.note (.redirecting r.target r.mode)).openFile r.target r.mode with ⟨fault | number, w₁⟩
    · rw [hopen] at h
      exact h
    · rw [hopen] at h
      exact h.trans (Change.spend hspends (w₁.spare - 1) w₁).changes

end

end World

namespace Builtin

open World

variable {effects : Set Effect}

theorem changes_withFile {use : Native → World → Except Fault Unit × World}
    (h : ∀ file w, Changes effects w (use file w).2) (option : String) (file : Option String) (w : World) :
    Changes effects w (withFile option file use w).2 := by
  unfold withFile
  cases file with
  | none => exact .refl w
  | some file => exact (changes_lockHistory w).trans (h file _)

/-- The file whose entries a builtin adds to the history. -/
def source? : Builtin → List String → Option String
  | history, "-r" :: file :: _ => some file
  | _, _ => none

/-- With such a file, all that a builtin does is to read it. -/
theorem action_source {b : Builtin} {args : List String} {file : String} (h : b.source? args = some file) (w : World) :
    (b.action args w).2 = (w.lockHistory.readHistory file).2 := by
  unfold source? at h
  split at h
  · cases h
    rfl
  · cases h

/-- The entries that a builtin adds to the history. -/
def adds (b : Builtin) (args : List String) (w : World) : List String :=
  match b.source? args with
  | some file => w.lockHistory.entriesIn file
  | none => []

theorem changes_runHistory {args : List String} (h : history.source? args = none) (w : World) :
    Changes effects w (runHistory args w).2 := by
  unfold runHistory
  split
  · exact changes_lockHistory w
  · next rest =>
    cases rest with
    | nil => exact .refl w
    | cons file rest => cases h
  · exact changes_withFile changes_writeHistory ..
  · exact changes_withFile changes_appendHistory ..
  · split
    · exact changes_lockHistory w
    · exact .refl w

/-- Only a builtin with such a file adds entries. -/
theorem changes_action {b : Builtin} {args : List String} (h : b.source? args = none ∨ .remembers ∈ effects)
    (w : World) : Changes effects w (b.action args w).2 := by
  cases hsource : b.source? args with
  | some file =>
    have hremembers := h.resolve_left (by simp [hsource])
    rw [action_source hsource]
    exact (changes_lockHistory w).trans (changes_readHistory hremembers file _)
  | none =>
    cases b with
    | cd =>
      simp only [action, runCd]
      split
      · next location _ => exact (Change.moveTo location w).changes.trans (changes_note ..)
      · exact changes_note ..
    | echo => exact .refl w
    | exit =>
      simp only [action, runExit]
      split
      · exact .refl w
      · split <;> exact .refl w
    | history => exact changes_runHistory hsource w
    | pwd =>
      simp only [action, runPwd]
      split <;> exact .refl w
    | type => exact (noted_describe args w).changes

theorem entries_action (b : Builtin) (args : List String) (w : World) :
    (b.action args w).2.history.entries = w.history.entries ++ b.adds args w := by
  cases h : b.source? args with
  | none =>
    have hchanges : Changes ∅ w (b.action args w).2 := changes_action (.inl h) w
    simp [adds, h, hchanges.entries id]
  | some file => simp [adds, h, action_source h, entries_readHistory, (alters_lockHistory w).entries]

end Builtin

/-! ## Stages -/

namespace Stage

open World

variable {effects : Set Effect}

theorem changes_deliver (name : String) (outputs : Outputs) (reply : Reply) (w : World) :
    Changes effects w (reply.deliver name outputs.outlet w).2 := by
  unfold Reply.deliver
  split
  · exact .refl w
  · next stream text _ =>
    have h : Changes effects w (outputs.outlet.write stream (Bytes.ofString text) w).2 := changes_write ..
    split <;> next heq => rw [heq] at h; exact h

theorem changes_wait (hplumbs : .plumbs ∈ effects) (s : Stage) (w : World) : Changes effects w (s.wait w).2.2 := by
  unfold wait
  dsimp only
  split
  · next job _ =>
    have h := changes_finishJob hplumbs job w
    rw [← snd_waitJob] at h
    split
    · next heq => rw [heq] at h; exact h.trans (changes_note ..)
    · next heq => rw [heq] at h; exact h
  · exact .refl w
  · exact changes_note ..
  · exact .refl w

section

variable (hspends : .spends ∈ effects)

include hspends

theorem changes_dropAll (hplumbs : .plumbs ∈ effects) (stages : List Stage) : ∀ w : World,
    Changes effects w (stages.foldl (fun w s => s.drop w) w) := by
  induction stages with
  | nil => intro w; exact .refl w
  | cons s rest ih =>
    intro w
    exact ((changes_close hspends hplumbs s.stdin w).trans (changes_close hspends hplumbs s.stdout _)).trans (ih _)

theorem changes_redirected (s : Stage) (w : World) : Changes effects w (s.redirected w).2 := by
  have h₁ := changes_openRedirection hspends s.name s.command.stdout w
  unfold redirected
  split
  · next heq => rw [heq] at h₁; exact h₁
  · next w₁ heq =>
    rw [heq] at h₁
    have h₂ := changes_openRedirection hspends s.name s.command.stderr w₁
    split <;> next heq₂ => rw [heq₂] at h₂; exact h₁.trans h₂

theorem changes_duplicate (s : Stage) (handles : List Handle) (w : World) :
    Changes effects w (s.duplicate handles w).2 := by
  rw [duplicate_eq]
  split
  · exact (Change.spend hspends _ w).changes
  · exact (Change.spend hspends _ w).changes

theorem changes_prepare (s : Stage) (w : World) : Changes effects w (s.prepare w).2 := by
  have hr := changes_redirected hspends s w
  unfold prepare
  split
  · next heq => rw [heq] at hr; exact hr
  · next outputs w₁ heq =>
    rw [heq] at hr
    have hd := hr.trans (changes_duplicate hspends s [outputs.stdout, outputs.stderr] w₁)
    split
    · next heq₁ => rw [heq₁] at hd; exact hd
    · next heq₁ =>
      rw [heq₁] at hd
      split <;> exact hd

theorem changes_startAction (s : Stage) {action : Builtin.Action} (h : ∀ args w, Changes effects w (action args w).2)
    (w : World) : Changes effects w (s.startAction action w).2.2 := by
  have hp := changes_prepare hspends s w
  unfold startAction
  split
  · next heq => rw [heq] at hp; exact hp
  · next outputs w₁ heq =>
    rw [heq] at hp
    exact (hp.trans (h _ _)).trans (changes_deliver ..)

theorem changes_sayNotFound (s : Stage) (outputs : Outputs) (w : World) :
    Changes effects w (s.sayNotFound outputs w).2.2 := by
  have hd := (changes_note (.commandNotFound s.name) w).trans (changes_duplicate hspends s [outputs.stdout] _)
  unfold sayNotFound
  dsimp only
  split
  · next heq => rw [heq] at hd; exact hd
  · next w₁ heq =>
    rw [heq] at hd
    have h := hd.trans (changes_write outputs.stdout (Bytes.ofString s!"{s.name}: command not found\n") w₁)
    split <;> next heq₁ => rw [heq₁] at h; exact h

/-- A start of a program either comes to nothing before the program is asked for, or is what comes of asking for it. -/
theorem startProgram_cases (spawn : Spawner) (s : Stage) (w : World) :
    Changes effects w (s.startProgram spawn w).2.2 ∨ ∃ path, ∃ outputs : Outputs, ∃ w₁, Changes effects w w₁ ∧
      s.startProgram spawn w = s.launched (spawn path s.command.argv s.stdin outputs.stdout outputs.stderr w₁) := by
  have hr := changes_redirected hspends s w
  unfold startProgram
  split
  · next heq => rw [heq] at hr; exact .inl hr
  · next outputs w₁ heq =>
    rw [heq] at hr
    have hf := hr.trans (Search.noted_find s.name w₁).changes
    split
    · next heq₁ =>
      rw [heq₁] at hf
      exact .inl (hf.trans (changes_sayNotFound hspends ..))
    · next path w₂ heq₁ =>
      rw [heq₁] at hf
      have hd := hf.trans (changes_duplicate hspends s [s.stdin, outputs.stdout, outputs.stderr] w₂)
      split
      · next heq₂ => rw [heq₂] at hd; exact .inl hd
      · next w₃ heq₂ => rw [heq₂] at hd; exact .inr ⟨path, outputs, w₃, hd, rfl⟩

end

theorem snd_launched (s : Stage) (r : Except Fault Nat × World) : (s.launched r).2.2 = r.2 := by
  unfold launched
  split <;> rfl

/-- A start gives back the descriptors that it took, and adds no entry unless it carries out a builtin. -/
theorem changes_start {s : Stage} (hplumbs : .plumbs ∈ effects)
    (h : Builtin.ofName? s.name = none ∨ .remembers ∈ effects) (w : World) : Changes effects w (s.start w).2.2 := by
  have hspends : Effect.spends ∈ insert Effect.spends effects := Set.mem_insert ..
  unfold start startWith
  split
  · exact .refl w
  refine Changes.closed ((changes_note (.starting s.command.argv) w).trans ?_)
  unfold dispatch
  cases hname : Builtin.ofName? s.name with
  | some b =>
    have hremembers := h.resolve_left (by simp [hname])
    simp only [Builtin.actionOf?, hname, Option.map_some]
    exact changes_startAction hspends s (fun args w => Builtin.changes_action (.inr (.inr hremembers)) w) _
  | none =>
    simp only [Builtin.actionOf?, hname, Option.map_none]
    rcases startProgram_cases hspends World.spawn s (w.note (.starting s.command.argv)) with
      hstart | ⟨path, outputs, w₁, hw₁, hstart⟩
    · exact hstart
    · rw [hstart, snd_launched]
      exact hw₁.trans (changes_spawn (.inr hplumbs) ..)

end Stage

end CommandShell
