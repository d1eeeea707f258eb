/-
  CommandShell.Proofs.Stage.Streams — the shell's own stages keep the rules for ends of pipes.

  A world counts the holders of its pipes, and the running programs are the only ones besides the stages who hold
  any. What has nothing to do with pipes and programs leaves this tally as it is (`Changes.tally`). Starting a program
  adds the program's streams to the counts and to the running programs alike, and its end takes them off both. So the
  stages of the shell are stages that hold the ends they are given (`HoldsEnds Stage World`), and no end outlives its
  line (`runCommands_holders`).
-/

import CommandShell.Proofs.World.Changes
import CommandShell.Session

namespace CommandShell

/-- The end of a pipe that a handle is. -/
def Handle.pipeEnd? : Handle → Option PipeEnd
  | .pipeEnd e => some e
  | _ => none

/-- The ends of pipes that a program has as its streams. -/
def Job.ends (job : Job) : List PipeEnd :=
  job.stdin.pipeEnd?.toList ++ job.stdout.pipeEnd?.toList ++ job.stderr.pipeEnd?.toList

namespace World

/-- The ends of pipes that running programs hold. -/
def heldByJobs (w : World) : List PipeEnd := w.runningJobs.flatMap Job.ends

/-! ## Programs come and go -/

open Pipeline

/-- Besides the stages the running programs hold ends. -/
def plumbing (w : World) : Plumbing := ⟨w.pipes, fun e => w.heldByJobs.count e⟩

theorem accounted_of_tally {w w' : World} {mine : PipeEnd → Nat} (ht : w'.tally = w.tally)
    (h : w.plumbing.Accounted mine) : w'.plumbing.Accounted mine := by
  simp only [tally, Prod.mk.injEq] at ht
  obtain ⟨hlen, hh, hj⟩ := ht
  refine h.of_holders ⟨hlen, congrFun hh⟩ ?_
  funext e
  simp only [plumbing, heldByJobs, runningJobs, hj]

theorem holders_shareHandle (h : Handle) {w : World} {e : PipeEnd} (he : e.pipe < w.pipes.length) :
    (w.share h).pipes.holders e = w.pipes.holders e + h.pipeEnd?.toList.count e := by
  cases h with
  | pipeEnd e' => simp [share, Pipes.holders_share he, Handle.pipeEnd?, List.count_singleton]
  | _ => rfl

theorem length_shareHandle (h : Handle) (w : World) : (w.share h).pipes.length = w.pipes.length := by
  cases h with
  | pipeEnd e => exact Pipes.length_share w.pipes e
  | _ => rfl

theorem jobs_shareHandle (h : Handle) (w : World) : (w.share h).jobs = w.jobs := by
  cases h <;> rfl

theorem holders_releaseHandle (h : Handle) (w : World) (e : PipeEnd) :
    (w.release h).pipes.holders e = w.pipes.holders e - h.pipeEnd?.toList.count e := by
  cases h with
  | pipeEnd e' => simp [release, Pipes.holders_release, Handle.pipeEnd?, List.count_singleton]
  | _ => rfl

theorem length_releaseHandle (h : Handle) (w : World) : (w.release h).pipes.length = w.pipes.length := by
  cases h with
  | pipeEnd e => exact Pipes.length_release w.pipes e
  | _ => rfl

theorem jobs_releaseHandle (h : Handle) (w : World) : (w.release h).jobs = w.jobs := by
  cases h <;> rfl

theorem count_heldByJobs {w : World} {job : Job} (h : job.isRunning = true) (e : PipeEnd) :
    ({ w with jobs := w.jobs ++ [job] } : World).heldByJobs.count e = w.heldByJobs.count e + job.ends.count e := by
  simp [heldByJobs, runningJobs, h]

theorem heldByJobs_congr {w w' : World} (h : w'.jobs = w.jobs) : w'.heldByJobs = w.heldByJobs := by
  simp only [heldByJobs, runningJobs, h]

theorem accounted_spawn (path : Native) (argv : List String) (stdin stdout stderr : Handle) {w : World}
    {mine : PipeEnd → Nat} (h : w.plumbing.Accounted mine) :
    (w.spawn path argv stdin stdout stderr).2.plumbing.Accounted mine := by
  unfold spawn
  dsimp only
  split
  · exact h
  · split
    · exact h
    · next program argv _ =>
      let w₁ := ((w.share stdin).share stdout).share stderr
      let job : Job := { program, argv, stdin, stdout, stderr, cwd := w.cwd }
      have hlen : w₁.pipes.length = w.pipes.length := by simp only [w₁, length_shareHandle]
      have hjobs : w₁.jobs = w.jobs := by simp only [w₁, jobs_shareHandle]
      intro e hlt
      have hlt : e.pipe < w₁.pipes.length := hlt
      rw [hlen] at hlt
      have hw : w.pipes.holders e = w.heldByJobs.count e + mine e := h e hlt
      have hheld : w₁.pipes.holders e = w.pipes.holders e + job.ends.count e := by
        simp only [w₁]
        rw [holders_shareHandle stderr (by simpa only [length_shareHandle] using hlt),
          holders_shareHandle stdout (by simpa only [length_shareHandle] using hlt), holders_shareHandle stdin hlt]
        simp only [job, Job.ends, List.count_append]
        omega
      show w₁.pipes.holders e = ({ w₁ with jobs := w₁.jobs ++ [job] } : World).heldByJobs.count e + mine e
      rw [hheld, count_heldByJobs rfl, heldByJobs_congr hjobs, hw]
      omega

/-- A program that has done its work has given back its streams. -/
theorem perform_streams (job : Job) (w : World) :
    (w.perform job).2.pipes.length = w.pipes.length ∧
      (∀ e, (w.perform job).2.pipes.holders e = w.pipes.holders e - job.ends.count e) ∧ (w.perform job).2.jobs = w.jobs := by
  let w₀ := (w.jobInput job).2
  let w₁ := writePieces job (w₀.host.programs.perform w₀.files job (w.jobInput job).1).writes w₀
  have hchanges : Changes ∅ w w₁ := (changes_jobInput job w).trans (changes_writePieces job _ _)
  have ht : w₁.tally = w.tally := hchanges.tally id
  simp only [tally, Prod.mk.injEq] at ht
  obtain ⟨hlen, hh, hj⟩ := ht
  have hw : (w.perform job).2 = ((w₁.release job.stdin).release job.stdout).release job.stderr := rfl
  rw [hw]
  refine ⟨by simp only [length_releaseHandle, hlen], ?_, by simp only [jobs_releaseHandle, hj]⟩
  intro e
  simp only [holders_releaseHandle, hh, Job.ends, List.count_append]
  omega

/-- When a running program ends, it is the only one whose streams are no longer held. -/
theorem count_heldByJobs_set {w : World} {number : Nat} {job : Job} (h : w.jobs[number]? = some job)
    (hrun : job.isRunning = true) (status : ExitStatus) (e : PipeEnd) :
    ({ w with jobs := w.jobs.set number { job with status := some status } } : World).heldByJobs.count e + job.ends.count e =
      w.heldByJobs.count e := by
  obtain ⟨hlt, rfl⟩ := List.getElem?_eq_some_iff.mp h
  have hjobs : w.jobs = w.jobs.take number ++ w.jobs[number] :: w.jobs.drop (number + 1) := by simp
  have hset : ∀ job', w.jobs.set number job' = w.jobs.take number ++ job' :: w.jobs.drop (number + 1) := by
    intro job'
    exact List.set_eq_take_append_cons_drop.trans (if_pos hlt)
  have hended : ∀ job : Job, ({ job with status := some status } : Job).isRunning = false := fun _ => rfl
  simp only [heldByJobs, runningJobs, hset]
  conv_rhs => rw [hjobs]
  simp only [List.filter_append, List.filter_cons, hended, hrun, if_true, List.flatMap_append, List.flatMap_cons,
    List.count_append, Bool.false_eq_true, if_false]
  omega

theorem accounted_finishJob (number : Nat) {w : World} {mine : PipeEnd → Nat} (h : w.plumbing.Accounted mine) :
    (w.finishJob number).2.plumbing.Accounted mine := by
  unfold finishJob
  split
  · exact h
  · next job hjob =>
    split
    · exact h
    · next hstatus =>
      have hrun : job.isRunning = true := by simp [Job.isRunning, hstatus]
      obtain ⟨hlen, hh, hj⟩ := perform_streams job w
      rcases hp : w.perform job with ⟨status, w₁⟩
      rw [hp] at hlen hh hj
      have hjob₁ : w₁.jobs[number]? = some job := by rw [hj]; exact hjob
      intro e hlt
      have hlt : e.pipe < w₁.pipes.length := hlt
      have hw : w.pipes.holders e = w.heldByJobs.count e + mine e := h e (by rwa [hlen] at hlt)
      have hset := count_heldByJobs_set hjob₁ hrun status e
      rw [heldByJobs_congr hj] at hset
      show w₁.pipes.holders e =
        ({ w₁ with jobs := w₁.jobs.set number { job with status := some status } } : World).heldByJobs.count e + mine e
      rw [hh e]
      omega

end World

/-! ## The stages of the shell -/

namespace Stage

open World

theorem accounted_changes {effects : Set Effect} {w w' : World} {mine : PipeEnd → Nat} (hw : Changes effects w w')
    (hnone : .plumbs ∉ effects) (h : w.plumbing.Accounted mine) : w'.plumbing.Accounted mine :=
  accounted_of_tally (hw.tally hnone) h

theorem accounted_start (s : Stage) {w : World} {mine : PipeEnd → Nat} (h : w.plumbing.Accounted mine) :
    (s.start w).2.2.plumbing.Accounted mine := by
  have hspends : Effect.spends ∈ ({.remembers, .spends} : Set Effect) := by simp
  have hnone : Effect.plumbs ∉ ({.remembers, .spends} : Set Effect) := by simp
  unfold start startWith
  split
  · exact h
  -- what is spent is no matter of pipes
  refine accounted_of_tally (w := (dispatch ..).2.2) rfl ?_
  have hn := accounted_changes (changes_note (.starting s.command.argv) w) hnone h
  unfold dispatch
  split
  · next action heq =>
    obtain ⟨b, -, rfl⟩ := Option.map_eq_some_iff.mp heq
    exact accounted_changes (changes_startAction hspends s (fun _ => Builtin.changes_action (.inr (by simp))) _) hnone hn
  · rcases startProgram_cases hspends World.spawn s (w.note (.starting s.command.argv)) with
      hstart | ⟨path, outputs, w₁, hw₁, hstart⟩
    · exact accounted_changes hstart hnone hn
    · rw [hstart, snd_launched]
      exact accounted_spawn path s.command.argv s.stdin outputs.stdout outputs.stderr (accounted_changes hw₁ hnone hn)

theorem accounted_wait (s : Stage) {w : World} {mine : PipeEnd → Nat} (h : w.plumbing.Accounted mine) :
    (s.wait w).2.2.plumbing.Accounted mine := by
  have hnote : ∀ n {w' : World}, w'.plumbing.Accounted mine → (w'.note n).plumbing.Accounted mine := by
    intro n w' h
    have hn : Changes ∅ w' (w'.note n) := changes_note n w'
    exact accounted_changes hn id h
  unfold wait
  dsimp only
  split
  · next job _ =>
    have hj := accounted_finishJob job h
    rw [← snd_waitJob] at hj
    split
    · next heq => rw [heq] at hj; exact hnote _ hj
    · next heq => rw [heq] at hj; exact hj
  · exact h
  · exact hnote _ h
  · exact h

/-- Starting changes nothing of a stage but how far it has got. -/
theorem stage_start (s : Stage) (w : World) : ∃ progress, (s.start w).2.1 = { s with progress } := by
  unfold start startWith
  split
  · exact ⟨_, rfl⟩
  · dsimp only
    unfold dispatch
    split
    · unfold startAction
      split <;> exact ⟨_, rfl⟩
    · unfold startProgram
      split
      · exact ⟨_, rfl⟩
      · split
        · unfold sayNotFound
          dsimp only
          split
          · exact ⟨_, rfl⟩
          · split <;> exact ⟨_, rfl⟩
        · split
          · exact ⟨_, rfl⟩
          · unfold launched
            split <;> exact ⟨_, rfl⟩

theorem stage_wait (s : Stage) (w : World) : (s.wait w).2.1 = { s with progress := .finished } := by
  unfold wait
  dsimp only
  split
  · split <;> rfl
  · rfl
  · rfl
  · rfl

theorem streams_start (s : Stage) (w : World) : (s.start w).2.1.stdin = s.stdin ∧ (s.start w).2.1.stdout = s.stdout := by
  obtain ⟨progress, h⟩ := s.stage_start w
  simp [h]

theorem streams_wait (s : Stage) (w : World) : (s.wait w).2.1.stdin = s.stdin ∧ (s.wait w).2.1.stdout = s.stdout := by
  simp [s.stage_wait w]

end Stage

open Pipeline

instance : HasPipes World where
  plumbing := World.plumbing
  makePipe_ok {w w' ends} h := by
    simp only [Surroundings.makePipe, World.makePipe] at h
    split at h <;> cases h
    rfl
  makePipe_error {w w' errno} h := by
    simp only [Surroundings.makePipe, World.makePipe] at h
    split at h <;> cases h
    rfl
  plumbing_dropEnd _ _ := rfl
  plumbing_note n w := by
    have h := World.alters_note n w
    simp only [Surroundings.note, World.plumbing, h.pipes, World.heldByJobs_congr h.jobs]
  plumbing_complain _ _ _ := rfl

theorem World.plumbing_close (h : Handle) (w : World) : (w.close h).plumbing = w.plumbing.releaseHeld h.pipeEnd? := by
  cases h <;> rfl

instance : HoldsEnds Stage World where
  ends s := (s.stdin.pipeEnd?, s.stdout.pipeEnd?)
  outputRedirected_attachInput _ _ _ := rfl
  ends_attachInput _ _ _ := rfl
  ends_attachOutput _ _ _ := rfl
  ends_start s w := by
    simp only [StageLike.start, s.streams_start w]
  ends_wait s w := by
    simp only [StageLike.wait, s.streams_wait w]
  ends_detachInput _ _ := rfl
  ends_detachOutput _ _ := rfl
  plumbing_attachInput _ _ _ := rfl
  plumbing_attachOutput _ _ _ := rfl
  plumbing_detachInput s w := World.plumbing_close s.stdin w
  plumbing_detachOutput s w := World.plumbing_close s.stdout w
  accounted_start s := s.accounted_start
  accounted_wait s := s.accounted_wait

/-! ## Nothing is held when a line has been dealt with -/

theorem unwired_commands (commands : List Command) :
    Unwired World (commands.map fun command => ({ command } : Stage)) := by
  intro s hs
  obtain ⟨command, -, rfl⟩ := List.mem_map.mp hs
  rfl

namespace World

theorem accounted_drop (stages : List Stage) : ∀ {w : World},
    (w.plumbing.Accounted fun e => (heldBy World stages).count e + 0) →
      (stages.foldl (fun w s => s.drop w) w).plumbing.Accounted fun _ => 0 := by
  induction stages with
  | nil => intro w h; exact h
  | cons s rest ih =>
    intro w h
    refine ih ?_
    have hdrop : (s.drop w).plumbing = (w.plumbing.releaseHeld s.stdin.pipeEnd?).releaseHeld s.stdout.pipeEnd? := by
      unfold Stage.drop
      rw [plumbing_close, plumbing_close]
    rw [hdrop]
    refine Plumbing.Accounted.releaseHeld _ (Plumbing.Accounted.releaseHeld _ (h.congr fun e => ?_))
    show (held World s ++ heldBy World rest).count e + 0 = _
    simp only [held, HoldsEnds.ends, List.append_assoc]

/-- The end of a program leaves the others as they are. -/
theorem jobs_finishJob (number : Nat) (w : World) :
    (∀ k, k ≠ number → (w.finishJob number).2.jobs[k]? = w.jobs[k]?) ∧
      ∀ job, (w.finishJob number).2.jobs[number]? = some job → job.isRunning = false := by
  unfold finishJob
  split
  · next hnone =>
    refine ⟨fun _ _ => rfl, fun job hjob => ?_⟩
    rw [hnone] at hjob
    cases hjob
  · next job hjob =>
    split
    · next status hstatus =>
      refine ⟨fun _ _ => rfl, fun job' hjob' => ?_⟩
      cases hjob.symm.trans hjob'
      simp [Job.isRunning, hstatus]
    · obtain ⟨-, -, hj⟩ := perform_streams job w
      rcases hp : w.perform job with ⟨status, w₁⟩
      rw [hp] at hj
      have hj : w₁.jobs = w.jobs := hj
      refine ⟨fun k hk => ?_, fun job' hjob' => ?_⟩
      · show (w₁.jobs.set number { job with status := some status })[k]? = w.jobs[k]?
        rw [List.getElem?_set_ne (Ne.symm hk), hj]
      · have hset : (w₁.jobs.set number { job with status := some status })[number]? = some job' := hjob'
        rw [hj, List.getElem?_set_self (List.getElem?_eq_some_iff.mp hjob).1] at hset
        cases hset
        rfl

theorem settleBelow_settled (n : Nat) : ∀ {w : World},
    (w.plumbing.Accounted fun _ => 0) → (∀ k job, n ≤ k → w.jobs[k]? = some job → job.isRunning = false) →
      ((settleBelow n w).plumbing.Accounted fun _ => 0) ∧ (settleBelow n w).heldByJobs = [] := by
  induction n with
  | zero =>
    intro w h hended
    refine ⟨h, ?_⟩
    have hnone : w.runningJobs = [] := by
      refine List.filter_eq_nil_iff.mpr fun job hjob => ?_
      obtain ⟨k, hk⟩ := List.getElem?_of_mem hjob
      simp [hended k job (Nat.zero_le k) hk]
    simp only [settleBelow, heldByJobs, hnone, List.flatMap_nil]
  | succ n ih =>
    intro w h hended
    obtain ⟨hothers, hself⟩ := jobs_finishJob n w
    refine ih (accounted_finishJob n h) fun k job hk hjob => ?_
    by_cases heq : k = n
    · exact hself job (heq ▸ hjob)
    · exact hended k job (by omega) ((hothers k heq).symm.trans hjob)

end World

/-- When a line has been dealt with, nobody holds an end of a pipe any more. -/
theorem runCommands_holders (style : String → String) (commands : List Command) {w : World}
    (h : ∀ e, w.pipes.holders e = w.heldByJobs.count e) (e : PipeEnd) :
    (Session.runCommands style commands w).2.pipes.holders e = 0 := by
  have hrun : (World.plumbing (run style _ w).2.2).Accounted fun e => (heldBy World (run style _ w).2.1).count e + 0 :=
    run_accounted (unwired_commands commands) style h
  obtain ⟨hsettled, hnone⟩ := World.settleBelow_settled _ (World.accounted_drop _ hrun) fun k job hk hjob => by
    rw [List.getElem?_eq_none hk] at hjob
    cases hjob
  by_cases he : e.pipe < (Session.runCommands style commands w).2.pipes.length
  · refine (hsettled e he).trans ?_
    show (World.heldByJobs _).count e + 0 = 0
    rw [hnone]
    rfl
  · exact Pipes.holders_of_le (Nat.not_lt.mp he)

end CommandShell
