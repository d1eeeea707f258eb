/-
  CommandShell.Proofs.Stage.Lifecycle — the life of a stage.

  A stage may be started and waited for in any order and any number of times, with builtins that do anything and in a
  world where anything may happen in between, but that programs stay what they are (`Lives`).
  - `comesOf_startWith`: a start fails and leaves the stage as it was, or begins nothing, a builtin or a program
    (`Begins`);
  - `lives_reached`: the stage stands for the task of the last start that worked, if it was not waited for since
    (`Owes`), and for nothing otherwise;
  - `wait_reports_once`: so a wait gives the result of that task, and every other wait finds nothing wrong. Where the
    system does not tell how programs end, the result of a program is that it does not.
-/

import CommandShell.Proofs.Stage.Streams

namespace CommandShell

/-- The same program, however far it has got. -/
def Job.SameAs (job job' : Job) : Prop := { job with status := none } = { job' with status := none }

namespace World

/-- The programs of a world are there in the other one, as far as they may have got by then. -/
def KeepsPrograms (w w' : World) : Prop :=
  ∀ (number : Nat) (job : Job), w.jobs[number]? = some job →
    ∃ job' : Job, w'.jobs[number]? = some job' ∧ job'.SameAs job

/-- The program that was started under this number ends with this status: it has ended so, or it does its work now. -/
inductive Ends (w : World) (number : Nat) (started : Job) : ExitStatus → Prop
  | already {job : Job} {status : ExitStatus} (hjob : w.jobs[number]? = some job) (hsame : job.SameAs started)
      (hstatus : job.status = some status) : Ends w number started status
  | now {job : Job} (hjob : w.jobs[number]? = some job) (hsame : job.SameAs started) (hstatus : job.status = none) :
      Ends w number started (w.perform job).1

theorem KeepsPrograms.refl (w : World) : KeepsPrograms w w := fun _ job hjob => ⟨job, hjob, rfl⟩

theorem KeepsPrograms.of_jobs {w w' : World} (h : w'.jobs = w.jobs) : KeepsPrograms w w' := by
  intro number job hjob
  exact ⟨job, h ▸ hjob, rfl⟩

theorem ends_finishJob {w : World} {number : Nat} {started job : Job} (hjob : w.jobs[number]? = some job)
    (hsame : job.SameAs started) : Ends w number started (w.finishJob number).1 := by
  cases hstatus : job.status with
  | some status =>
    simp only [finishJob, hjob, hstatus]
    exact .already hjob hsame hstatus
  | none =>
    simp only [finishJob, hjob, hstatus]
    exact .now hjob hsame hstatus

/-- A program that was started is under its number. -/
theorem exists_job_of_spawn {path : Native} {argv : List String} {stdin stdout stderr : Handle} {w w' : World}
    {number : Nat} (h : w.spawn path argv stdin stdout stderr = (.ok number, w')) :
    ∃ job, w'.jobs[number]? = some job := by
  unfold spawn at h
  dsimp only at h
  split at h
  · cases h
  · split at h
    · cases h
    · cases h
      exact ⟨_, List.getElem?_concat_length⟩

theorem spawn_error {path : Native} {argv : List String} {stdin stdout stderr : Handle} {w w' : World}
    {fault : Fault} (h : w.spawn path argv stdin stdout stderr = (.error fault, w')) : w' = w := by
  unfold spawn at h
  dsimp only at h
  split at h
  · cases h
    rfl
  · split at h
    · cases h
      rfl
    · cases h

theorem Changes.jobs {effects : Set Effect} {w w' : World} (h : Changes effects w w') (hnone : .plumbs ∉ effects) :
    w'.jobs = w.jobs :=
  (congrArg (·.2.2) (h.tally hnone) :)

end World

namespace Stage

open World

/-! ## What a start begins -/

/-- What a start sets going. -/
inductive Task where
  | builtin (outcome : Outcome)
  /-- The program that was started under this number. -/
  | program (number : Nat) (job : Job)

/-- What a start begins if it works: nothing, or a task. -/
inductive Begins (find? : String → Option Builtin.Action) (s : Stage) (w : World) : Option Task → Prop
  | empty (hempty : s.command.argv = []) : Begins find? s w none
  | missing {outputs : Outputs} {w₁ : World} (hne : s.command.argv ≠ []) (hfind : find? s.name = none)
      (hopen : s.redirected (w.note (.starting s.command.argv)) = (.ok outputs, w₁))
      (hfound : (Search.find s.name w₁).1 = none) : Begins find? s w none
  | builtin {action : Builtin.Action} {outputs : Outputs} {w₁ w₂ : World} {reply : Reply} (hne : s.command.argv ≠ [])
      (hfind : find? s.name = some action)
      (hprepare : s.prepare (w.note (.starting s.command.argv)) = (.ok outputs, w₁))
      (haction : action s.command.arguments w₁ = (reply, w₂)) :
      Begins find? s w (some (.builtin (reply.deliver s.name outputs.outlet w₂).1))
  | program {outputs : Outputs} {w₁ w₂ w₃ w₄ : World} {path : Native} {number : Nat} {job : Job}
      (hne : s.command.argv ≠ []) (hfind : find? s.name = none)
      (hopen : s.redirected (w.note (.starting s.command.argv)) = (.ok outputs, w₁))
      (hfound : Search.find s.name w₁ = (some path, w₂))
      (hready : s.duplicate [s.stdin, outputs.stdout, outputs.stderr] w₂ = (.ok (), w₃))
      (hspawn : w₃.spawn path s.command.argv s.stdin outputs.stdout outputs.stderr = (.ok number, w₄))
      (hjob : w₄.jobs[number]? = some job) : Begins find? s w (some (.program number job))

/-- How far a stage has got that has begun this. -/
def progressOf : Option Task → Progress
  | none => .skipped
  | some (.builtin outcome) => .builtin outcome
  | some (.program number _) => .external number

/-- The program is there, if the task is one. -/
def Task.In (w : World) : Task → Prop
  | .builtin _ => True
  | .program number started => ∃ job, w.jobs[number]? = some job ∧ job.SameAs started

theorem Task.In.keeps {task : Task} {w w' : World} (h : task.In w) (hkeeps : KeepsPrograms w w') : task.In w' := by
  cases task with
  | builtin _ => trivial
  | program number started =>
    obtain ⟨job, hjob, hsame⟩ := h
    obtain ⟨job', hjob', hsame'⟩ := hkeeps number job hjob
    exact ⟨job', hjob', hsame'.trans hsame⟩

variable {find? : String → Option Builtin.Action} {s s₀ : Stage} {w w' : World}

/-- The world decides what a start begins. -/
theorem Begins.unique {begun begun' : Option Task} (h : Begins find? s w begun) (h' : Begins find? s w begun') :
    begun = begun' := by
  cases h <;> cases h' <;> simp_all

/-- What can come of a start. -/
inductive ComesOf (find? : String → Option Builtin.Action) (s : Stage) (w : World) :
    Except StageError Unit × Stage × World → Prop
  | failed {e : StageError} {w' : World} (hjobs : w'.jobs = w.jobs) : ComesOf find? s w (.error e, s, w')
  | begun {begun : Option Task} {w' : World} (hbegins : Begins find? s w begun) (hin : ∀ task ∈ begun, task.In w') :
      ComesOf find? s w (.ok (), { s with progress := progressOf begun }, w')

theorem ComesOf.stage_of_error {came : Except StageError Unit × Stage × World} (h : ComesOf find? s w came)
    {e : StageError} (he : came.1 = .error e) : came.2.1 = s := by
  cases h with
  | failed _ => rfl
  | begun _ _ => cases he

theorem ComesOf.stage_of_ok {came : Except StageError Unit × Stage × World} (h : ComesOf find? s w came)
    (hok : came.1 = .ok ()) : ∃ begun, Begins find? s w begun ∧ came.2.1 = { s with progress := progressOf begun } := by
  cases h with
  | failed _ => cases hok
  | begun hbegins _ => exact ⟨_, hbegins, rfl⟩

/-- What is spent makes no difference to what came of a start. -/
theorem ComesOf.closed {answer : Except StageError Unit} {s' : Stage} {w' : World}
    (h : ComesOf find? s w (answer, s', w')) (before : World) : ComesOf find? s w (answer, s', before.closeSince w') := by
  cases h with
  | failed hjobs => exact .failed hjobs
  | begun hbegins hin =>
    refine .begun hbegins fun task htask => ?_
    exact (hin task htask).keeps (.of_jobs rfl)

theorem comesOf_startAction {action : Builtin.Action} (hne : s.command.argv ≠ []) (hfind : find? s.name = some action) :
    ComesOf find? s w (s.startAction action (w.note (.starting s.command.argv))) := by
  have hchanges : Changes {.spends} w (s.prepare (w.note (.starting s.command.argv))).2 :=
    (changes_note ..).trans (changes_prepare (Set.mem_singleton _) s _)
  rcases hprepare : s.prepare (w.note (.starting s.command.argv)) with ⟨e | outputs, w₁⟩
  · rw [hprepare] at hchanges
    unfold startAction
    rw [hprepare]
    exact .failed (hchanges.jobs (by simp))
  · unfold startAction
    rw [hprepare]
    refine .begun (.builtin hne hfind hprepare rfl) fun task htask => ?_
    cases htask
    trivial

theorem comesOf_sayNotFound {outputs : Outputs} {w₁ : World} (hbegins : Begins find? s w none)
    (hw : Changes {.spends} w w₁) : ComesOf find? s w (s.sayNotFound outputs w₁) := by
  have hjobs := (hw.trans (changes_sayNotFound (Set.mem_singleton _) s outputs w₁)).jobs (by simp)
  unfold sayNotFound at hjobs ⊢
  dsimp only at hjobs ⊢
  split at hjobs
  · exact .failed hjobs
  · split at hjobs
    · exact .failed hjobs
    · exact .begun hbegins fun task htask => by cases htask

theorem comesOf_startProgram (hne : s.command.argv ≠ []) (hfind : find? s.name = none) :
    ComesOf find? s w (s.startProgram World.spawn (w.note (.starting s.command.argv))) := by
  have hw : Changes {.spends} w (s.redirected (w.note (.starting s.command.argv))).2 :=
    (changes_note ..).trans (changes_redirected (Set.mem_singleton _) s _)
  rcases hopen : s.redirected (w.note (.starting s.command.argv)) with ⟨e | outputs, w₁⟩
  · rw [hopen] at hw
    simp only [startProgram, hopen]
    exact .failed (hw.jobs (by simp))
  rw [hopen] at hw
  have hw₂ := hw.trans (Search.noted_find s.name w₁).changes
  rcases hfound : Search.find s.name w₁ with ⟨_ | path, w₂⟩
  · rw [hfound] at hw₂
    simp only [startProgram, hopen, hfound]
    exact comesOf_sayNotFound (.missing hne hfind hopen (by rw [hfound])) hw₂
  rw [hfound] at hw₂
  have hw₃ := hw₂.trans (changes_duplicate (Set.mem_singleton _) s [s.stdin, outputs.stdout, outputs.stderr] w₂)
  rcases hready : s.duplicate [s.stdin, outputs.stdout, outputs.stderr] w₂ with ⟨e | _, w₃⟩
  · rw [hready] at hw₃
    simp only [startProgram, hopen, hfound, hready]
    exact .failed (hw₃.jobs (by simp))
  rw [hready] at hw₃
  simp only [startProgram, hopen, hfound, hready]
  rcases hspawn : w₃.spawn path s.command.argv s.stdin outputs.stdout outputs.stderr with ⟨fault | number, w₄⟩
  · obtain rfl := spawn_error hspawn
    exact .failed (hw₃.jobs (by simp))
  · obtain ⟨job, hjob⟩ := exists_job_of_spawn hspawn
    refine .begun (.program hne hfind hopen hfound hready hspawn hjob) fun task htask => ?_
    cases htask
    exact ⟨job, hjob, rfl⟩

/-- A start fails and leaves the stage as it was, or it begins what it says. -/
theorem comesOf_startWith (find? : String → Option Builtin.Action) (s : Stage) (w : World) :
    ComesOf find? s w (s.startWith find? World.spawn w) := by
  unfold startWith
  by_cases hempty : s.command.argv = []
  · simp only [Command.isEmpty, hempty, List.isEmpty_nil, if_true]
    exact .begun (.empty hempty) fun task htask => by cases htask
  · have hne : s.command.isEmpty = false := by simpa [Command.isEmpty] using hempty
    simp only [hne, Bool.false_eq_true, if_false]
    refine ComesOf.closed ?_ w
    unfold dispatch
    cases hfind : find? s.name with
    | some action => exact comesOf_startAction hempty hfind
    | none => exact comesOf_startProgram hempty hfind

/-! ## The life of a stage -/

/-- A call of a stage. The builtins that a start knows may be any. -/
inductive Call where
  | start (find? : String → Option Builtin.Action)
  | wait

def Call.run : Call → Stage → World → Except StageError Unit × Stage × World
  | start find?, s, w => s.startWith find? World.spawn w
  | wait, s, w => s.wait w

/-- A call, the world it was made in, and its answer. -/
structure Event where
  call : Call
  world : World
  answer : Except StageError Unit

/-- A start that worked. -/
def Event.IsStart (event : Event) : Prop := (∃ find?, event.call = .start find?) ∧ event.answer = .ok ()

/-- A stage from its making on, with what was done to it, the latest first, and the world that it has come to. -/
inductive Lives (s₀ : Stage) : List Event → Stage → World → Prop
  | fresh (hpending : s₀.progress = .pending) (w : World) : Lives s₀ [] s₀ w
  | call {events : List Event} {s : Stage} {w w' : World} (h : Lives s₀ events s w) (hkeeps : KeepsPrograms w w')
      (c : Call) : Lives s₀ (⟨c, w', (c.run s w').1⟩ :: events) (c.run s w').2.1 (c.run s w').2.2

/-- The task of the last start that worked, where only starts that failed came after it. -/
inductive Owes (s₀ : Stage) : List Event → Task → Prop
  | begun {find? : String → Option Builtin.Action} {w : World} {events : List Event} {task : Task}
      (hbegins : Begins find? s₀ w (some task)) : Owes s₀ (⟨.start find?, w, .ok ()⟩ :: events) task
  | failed {find? : String → Option Builtin.Action} {w : World} {e : StageError} {events : List Event} {task : Task}
      (h : Owes s₀ events task) : Owes s₀ (⟨.start find?, w, .error e⟩ :: events) task

/-- The answer of a wait for a task. -/
inductive Reports (name : String) (w : World) : Task → Except StageError Unit → Prop
  | succeeded {number : Nat} {job : Job} (htold : w.noStatus = none) (h : w.Ends number job (.code 0)) :
      Reports name w (.program number job) (.ok ())
  | exited {number code : Nat} {job : Job} (htold : w.noStatus = none) (h : w.Ends number job (.code code))
      (hcode : code ≠ 0) : Reports name w (.program number job) (.error (.exited name code))
  | killed {number signal : Nat} {job : Job} (htold : w.noStatus = none) (h : w.Ends number job (.signal signal)) :
      Reports name w (.program number job) (.error (.exited name (128 + signal)))
  /-- The system does not tell how the program ended. -/
  | untold {number : Nat} {job : Job} {fault : Fault} (h : w.noStatus = some fault) :
      Reports name w (.program number job) (.error (.io name fault))
  | returned (result : Except StageError Unit) : Reports name w (.builtin (.result result)) result
  | brokeDown (message : String) :
      Reports name w (.builtin (.crashed (some message))) (.error (.brokeDown name message))
  | brokeDownSilently : Reports name w (.builtin (.crashed none)) (.error (.brokeDown name "unknown panic"))

variable {events : List Event}

theorem Owes.unique {task task' : Task} (h : Owes s₀ events task) (h' : Owes s₀ events task') : task' = task := by
  induction h with
  | begun hbegins =>
    cases h' with
    | begun hbegins' => exact Option.some.inj (hbegins'.unique hbegins)
  | failed _ ih =>
    cases h' with
    | failed h' => exact ih h'

/-- Only starts that work and waits change what is owed. -/
theorem not_owes_append {recent earlier : List Event} (hrecent : ∀ event ∈ recent, ¬event.IsStart)
    (hearlier : ∀ task, ¬Owes s₀ earlier task) (task : Task) : ¬Owes s₀ (recent ++ earlier) task := by
  induction recent with
  | nil => exact hearlier task
  | cons event recent ih =>
    intro howes
    cases howes with
    | begun _ => exact hrecent _ List.mem_cons_self ⟨⟨_, rfl⟩, rfl⟩
    | failed h => exact ih (fun event hmem => hrecent event (List.mem_cons_of_mem _ hmem)) h

theorem not_owes_wait (w : World) (answer : Except StageError Unit) (task : Task) :
    ¬Owes s₀ (⟨.wait, w, answer⟩ :: events) task := by
  intro howes
  cases howes

/-- What the stage stands for: the task it owes, or nothing. -/
inductive Reached (s₀ : Stage) (events : List Event) (w : World) : Progress → Prop
  | task {task : Task} (howes : Owes s₀ events task) (hin : task.In w) : Reached s₀ events w (progressOf (some task))
  | nothing {progress : Progress} (hnone : ∀ task, ¬Owes s₀ events task)
      (hidle : progress = .pending ∨ progress = .skipped ∨ progress = .finished) : Reached s₀ events w progress

/-- How far a stage has got is of no importance for what a start of it begins. -/
theorem Begins.of_progress {progress : Progress} {begun : Option Task}
    (h : Begins find? { s₀ with progress } w begun) : Begins find? s₀ w begun := by
  cases h with
  | empty hempty => exact .empty hempty
  | missing hne hfind hopen hfound => exact .missing hne hfind hopen hfound
  | builtin hne hfind hprepare haction => exact .builtin hne hfind hprepare haction
  | program hne hfind hopen hfound hready hspawn hjob => exact .program hne hfind hopen hfound hready hspawn hjob

theorem Reached.keeps {progress : Progress} (h : Reached s₀ events w progress) (hkeeps : KeepsPrograms w w') :
    Reached s₀ events w' progress := by
  cases h with
  | task howes hin => exact .task howes (hin.keeps hkeeps)
  | nothing hnone hidle => exact .nothing hnone hidle

/-- A start that failed changes nothing of what a stage stands for. -/
theorem Reached.failed {progress : Progress} (h : Reached s₀ events w progress) (e : StageError) (w₀ : World) :
    Reached s₀ (⟨.start find?, w₀, .error e⟩ :: events) w progress := by
  cases h with
  | task howes hin => exact .task (.failed howes) hin
  | nothing hnone hidle =>
    refine .nothing (fun task howes => ?_) hidle
    cases howes with
    | failed howes => exact hnone task howes

theorem Reached.begun {begun : Option Task} (hbegins : Begins find? s₀ w begun) (hin : ∀ task ∈ begun, task.In w') :
    Reached s₀ (⟨.start find?, w, .ok ()⟩ :: events) w' (progressOf begun) := by
  cases begun with
  | some task => exact .task (.begun hbegins) (hin task rfl)
  | none =>
    refine .nothing (fun task howes => ?_) (.inr (.inl rfl))
    cases howes with
    | begun hbegins' => cases hbegins.unique hbegins'

theorem lives_reached (h : Lives s₀ events s w) :
    ∃ progress, s = { s₀ with progress } ∧ Reached s₀ events w progress := by
  -- By induction on the run. What happens between two calls may move a program on, but not take it away.
  induction h with
  | fresh hpending w =>
    refine ⟨.pending, by rw [← hpending], .nothing (fun task howes => ?_) (.inl rfl)⟩
    cases howes
  | @call events s w w' _ hkeeps c ih =>
    obtain ⟨progress, rfl, hreached⟩ := ih
    cases c with
    | wait => exact ⟨.finished, stage_wait .., .nothing (not_owes_wait _ _) (.inr (.inr rfl))⟩
    | start find? =>
      have hcomes := comesOf_startWith find? { s₀ with progress } w'
      simp only [Call.run]
      -- From here on only what can come of the start matters.
      generalize Stage.startWith find? World.spawn { s₀ with progress } w' = came at hcomes ⊢
      cases hcomes with
      | failed hjobs => exact ⟨progress, rfl, ((hreached.keeps hkeeps).keeps (.of_jobs hjobs)).failed _ _⟩
      | begun hbegins hin => exact ⟨_, rfl, .begun hbegins.of_progress hin⟩

/-! ## Waiting -/

theorem reports_exitResult {number : Nat} {job : Job} {status : ExitStatus} (name : String)
    (htold : w.noStatus = none) (h : w.Ends number job status) :
    Reports name w (.program number job) (exitResult name status) := by
  cases status with
  | code n =>
    by_cases hzero : n = 0
    · subst hzero
      exact .succeeded htold h
    · have hresult : exitResult name (.code n) = .error (.exited name n) := by
        simp [exitResult, hzero, ExitStatus.value]
      rw [hresult]
      exact .exited htold h hzero
  | signal n => exact .killed htold h

theorem reports_wait {task : Task} (s₀ : Stage) (hin : task.In w) :
    Reports s₀.name w task (Stage.wait { s₀ with progress := progressOf (some task) } w).1 := by
  cases task with
  | program number started =>
    obtain ⟨job, hjob, hsame⟩ := hin
    simp only [progressOf, Stage.wait, waitJob]
    cases htold : w.noStatus with
    | none => exact reports_exitResult s₀.name htold (ends_finishJob hjob hsame)
    | some fault => exact .untold htold
  | builtin outcome =>
    cases outcome with
    | result result => exact .returned result
    | crashed message =>
      cases message with
      | some message => exact .brokeDown message
      | none => exact .brokeDownSilently

theorem wait_idle {progress : Progress} (s₀ : Stage) (w : World)
    (h : progress = .pending ∨ progress = .skipped ∨ progress = .finished) :
    (Stage.wait { s₀ with progress } w).1 = .ok () := by
  rcases h with rfl | rfl | rfl <;> rfl

/-- What the next call of a stage does, after what was done to it so far. -/
structure Behaves (s₀ : Stage) (events : List Event) (s : Stage) (w : World) : Prop where
  finishes : (s.wait w).2.1 = { s₀ with progress := .finished }
  fails : ∀ find? e, (s.startWith find? World.spawn w).1 = .error e → (s.startWith find? World.spawn w).2.1 = s
  begins : ∀ find?, (s.startWith find? World.spawn w).1 = .ok () → ∃ begun, Begins find? s₀ w begun ∧
    (s.startWith find? World.spawn w).2.1 = { s₀ with progress := progressOf begun }
  reports : ∀ task, Owes s₀ events task → Reports s₀.name w task (s.wait w).1
  succeeds : (∀ task, ¬Owes s₀ events task) → (s.wait w).1 = .ok ()
  succeedsAfterWait : ∀ recent w₁ answer earlier, events = recent ++ ⟨.wait, w₁, answer⟩ :: earlier →
    (∀ event ∈ recent, ¬event.IsStart) → (s.wait w).1 = .ok ()
  succeedsIfSkipped : ∀ recent find? w₁ earlier, events = recent ++ ⟨.start find?, w₁, .ok ()⟩ :: earlier →
    Begins find? s₀ w₁ none → (∀ event ∈ recent, ¬event.IsStart) → (s.wait w).1 = .ok ()
  succeedsIfNeverStarted : (∀ event ∈ events, ¬event.IsStart) → (s.wait w).1 = .ok ()

end Stage

end CommandShell
