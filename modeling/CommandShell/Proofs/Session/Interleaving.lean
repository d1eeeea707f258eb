/-
  CommandShell.Proofs.Session.Interleaving — a line whose builtins work beside each other.

  Here the stages of a pipeline that are builtins have workers, and after every call of the pipeline the workers take
  turns as a schedule says.
  - `stations_alike`, `filterMap_hired`: the workers are the builtins among the stages that were started, and the
    history is what they make it, whatever the schedule;
  - `carryOut_eq_eager`: carrying out a line is one of these runs, the one where each worker is done at once;
  - `carryOut_remembers`: so every line is remembered once, in front of all that its builtins add.
-/

import CommandShell.Proofs.Pipeline.Course
import CommandShell.Proofs.Session.Workers
import CommandShell.Proofs.Stage.Streams

namespace CommandShell

/-! ## A pipeline with workers -/

/-- A stage, and the worker that it has to wait for. -/
structure Station where
  stage : Stage
  worker : Option Nat := none

namespace Station

/-- Take over the outcome of a worker, if it has come to its end. -/
def collect (x : Station) (number : Nat) (t : Workshop) : Station :=
  match t.outcome? number with
  | some outcome => { stage := { x.stage with progress := .builtin outcome } }
  | none => { x with worker := some number }

def start (x : Station) (t : Workshop) : Except StageError Unit × Station × Workshop :=
  match Builtin.ofName? x.stage.name with
  | none =>
    let (answer, stage, world) := x.stage.start t.world
    (answer, { x with stage }, { t with world }.pass)
  | some builtin =>
    match x.stage.prepare (t.world.note (.starting x.stage.command.argv)) with
    | (.error error, world) => (.error error, x, { t with world := t.world.closeSince world }.pass)
    | (.ok outputs, world) =>
      let held := t.world.spare - world.spare
      let worker : Worker := { command := x.stage.command, builtin, outputs, held }
      let t' := { t with world, workers := t.workers ++ [worker] }.pass
      (.ok (), x.collect t.workers.length t', t')

/-- Wait for the worker of a stage, if it has one. -/
def join (x : Station) (t : Workshop) : Station × Workshop :=
  match x.worker with
  | none => (x, t)
  | some number => (x.collect number (t.finish number), t.finish number)

def wait (x : Station) (t : Workshop) : Except StageError Unit × Station × Workshop :=
  let (x, t) := x.join t
  let (answer, stage, world) := x.stage.wait t.world
  (answer, { x with stage }, { t with world }.pass)

/-- Do something to the stage of a station. -/
def withStage (f : Stage → World → Stage × World) (x : Station) (t : Workshop) : Station × Workshop :=
  let (stage, world) := f x.stage t.world
  ({ x with stage }, { t with world }.pass)

end Station

instance : Surroundings Workshop where
  makePipe t := (t.world.makePipe.1, { t with world := t.world.makePipe.2 }.pass)
  dropEnd e t := { t with world := Surroundings.dropEnd e t.world }.pass
  note n t := { t with world := t.world.note n }.pass
  complain style message t := { t with world := Surroundings.complain style message t.world }.pass

instance : StageLike Station Workshop where
  outputRedirected x := x.stage.command.stdout.isSome
  attachInput x e := x.withStage fun s => s.attachInput e
  attachOutput x e := x.withStage fun s => s.attachOutput e
  start := Station.start
  wait := Station.wait
  detachInput x := x.withStage Stage.detachInput
  detachOutput x := x.withStage Stage.detachOutput

namespace Session

/-- Run the commands of a pipeline, where the workers get their turns from a schedule. -/
def runCommandsUnder (schedule : Schedule) (style : String → String) (commands : List Command) (w : World) :
    Next × Workshop :=
  let stations := commands.map fun command => ({ stage := { command } } : Station)
  let (next, stations, t) := Pipeline.run style stations ({ world := w, schedule } : Workshop)
  let t := { t with world := stations.foldl (fun w (x : Station) => x.stage.drop w) t.world }.pass.finishAll
  (next, { t with world := t.world.settle })

/-- Carry out a line, where the workers get their turns from a schedule. -/
def carryOutUnder (schedule : Schedule) (style : String → String) (line : String) (w : World) : Next × Workshop :=
  if Text.allBlank line then (.goOn, { world := w, schedule })
  else
    let w := w.pushHistory line
    let commands := pipelineOf (tokensOf line)
    runCommandsUnder schedule style commands (w.note (.parsed commands.length))

end Session

/-! ## A whole pipeline -/

/-- The command is a builtin. -/
def Command.isBuiltin (c : Command) : Bool := (Builtin.ofName? c.name).isSome

namespace Station

open Pipeline Workshop

variable {base : List String} {commands : List Command}

theorem command_collect (x : Station) (number : Nat) (t : Workshop) :
    (x.collect number t).stage.command = x.stage.command := by
  unfold collect
  split <;> rfl

/-- The worker that a call brings in. -/
def hired? (commands : List Command) : Call → Option Command
  | .start i none => (commands[i]?).filter Command.isBuiltin
  | _ => none

/-- The run has come so far: the history is what the workers have made it, and the workers are those that the calls have
    brought in. -/
structure Reached (base : List String) (commands : List Command) (r : Traced Workshop) (t : Workshop) : Prop where
  world : r.world = t
  remembers : Remembers base t
  hired : t.commands = r.calls.filterMap (hired? commands)

/-- A call that brings no worker in. -/
theorem Reached.quiet {r : Traced Workshop} {t : Workshop} (h : Reached base commands r t) {w : World}
    (hw : World.Changes {.plumbs, .spends} t.world w) {c : Call} (hc : hired? commands c = none) :
    Reached base commands (r.made c ({ r.world with world := w } : Workshop).pass)
      ({ t with world := w } : Workshop).pass := by
  obtain ⟨rfl, hr, hh⟩ := h
  refine ⟨rfl, (hr.withWorld (hw.entries (by simp))).pass, ?_⟩
  rw [commands_pass]
  simp [Traced.made, ← hh, hc, Workshop.commands]

theorem Reached.start {x : Station} {r : Traced Workshop} {t : Workshop} (h : Reached base commands r t) {i : Nat}
    (hi : commands[i]? = some x.stage.command) :
    (x.start t).2.1.stage.command = x.stage.command ∧
      Reached base commands (r.made (.start i (failure? (x.start t).1)) (x.start t).2.2) (x.start t).2.2 := by
  have hr := h.world
  subst hr
  unfold Station.start
  split
  · next hname =>
    -- no builtin, and so no worker
    have hnone : ∀ f, hired? commands (.start i f) = none := by
      have hname' : Builtin.ofName? x.stage.command.name = none := hname
      intro f
      cases f <;> simp [hired?, hi, Command.isBuiltin, hname', Option.filter]
    obtain ⟨progress, hstage⟩ := x.stage.stage_start r.world.world
    exact ⟨(congrArg Stage.command hstage :), h.quiet (Stage.changes_start (by simp) (.inl hname) _) (hnone _)⟩
  · next builtin hname =>
    have hprepare : World.Changes {.spends, .plumbs, .spends} r.world.world
        (x.stage.prepare (r.world.world.note (.starting x.stage.command.argv))).2 :=
      (World.changes_note ..).trans (x.stage.changes_prepare (by simp) _)
    split
    · next heq =>
      rw [heq] at hprepare
      exact ⟨rfl, h.quiet hprepare.closed rfl⟩
    · next outputs w heq =>
      rw [heq] at hprepare
      refine ⟨command_collect .., rfl, ((h.remembers.withWorld (hprepare.entries (by simp))).hire _ rfl).pass, ?_⟩
      have hname' : Builtin.ofName? x.stage.command.name = some builtin := hname
      rw [commands_pass]
      simp [Traced.made, ← h.hired, Workshop.commands, hired?, failure?, hi, Command.isBuiltin, hname', Option.filter]

theorem Reached.finish {r : Traced Workshop} {t : Workshop} (h : Reached base commands r t) (number : Nat) :
    Reached base commands { r with world := t.finish number } (t.finish number) :=
  ⟨rfl, h.remembers.finish number, (commands_finish t number).trans h.hired⟩

theorem Reached.wait {x : Station} {r : Traced Workshop} {t : Workshop} (h : Reached base commands r t) (i : Nat) :
    (x.wait t).2.1.stage.command = x.stage.command ∧
      Reached base commands (r.made (.wait i (failure? (x.wait t).1)) (x.wait t).2.2) (x.wait t).2.2 := by
  have hr := h.world
  subst hr
  cases hw : x.worker with
  | none =>
    simp only [Station.wait, Station.join, hw]
    exact ⟨(congrArg Stage.command (x.stage.stage_wait _) :), h.quiet (x.stage.changes_wait (by simp) _) rfl⟩
  | some number =>
    simp only [Station.wait, Station.join, hw]
    refine ⟨?_, (h.finish number).quiet (Stage.changes_wait (by simp) _ _) rfl⟩
    exact (congrArg Stage.command (Stage.stage_wait _ _)).trans (command_collect ..)

/-- A run with workers is compared with itself, as a run whose calls are written down. -/
theorem stations_alike (base : List String) (commands : List Command) :
    Alike (fun (p : Watched Station) (x : Station) => p.stage = x ∧ commands[p.number]? = some x.stage.command)
      (Reached base commands) where
  makePipe := by
    intro r t h
    cases h.world
    exact ⟨rfl, h.quiet (World.changes_makePipe (by simp) (by simp) _) rfl⟩
  dropEnd := by
    intro r t e h
    cases h.world
    exact h.quiet (World.changes_close (by simp) (by simp) ..) rfl
  note := by
    intro r t n h
    cases h.world
    exact ⟨rfl, (h.remembers.withWorld (World.alters_note n _).entries).pass, (commands_pass _).trans h.hired⟩
  complain := by
    intro r t style message h
    cases h.world
    exact h.quiet (World.changes_printError ..) rfl
  outputRedirected := by
    rintro p x ⟨rfl, -⟩
    rfl
  attachInput := by
    rintro p x r t e ⟨rfl, hp⟩ h
    cases h.world
    exact ⟨⟨rfl, hp⟩, h.quiet (.refl _) rfl⟩
  attachOutput := by
    rintro p x r t e ⟨rfl, hp⟩ h
    cases h.world
    exact ⟨⟨rfl, hp⟩, h.quiet (.refl _) rfl⟩
  start := by
    rintro p x r t ⟨rfl, hp⟩ h
    cases h.world
    obtain ⟨hc, hs⟩ := h.start hp
    exact ⟨rfl, ⟨rfl, hp.trans (congrArg some hc.symm)⟩, hs⟩
  wait := by
    rintro p x r t ⟨rfl, hp⟩ h
    cases h.world
    obtain ⟨hc, hs⟩ := h.wait p.number
    exact ⟨rfl, ⟨rfl, hp.trans (congrArg some hc.symm)⟩, hs⟩
  detachInput := by
    rintro p x r t ⟨rfl, hp⟩ h
    cases h.world
    exact ⟨⟨rfl, hp⟩, h.quiet (World.changes_close (by simp) (by simp) ..) rfl⟩
  detachOutput := by
    rintro p x r t ⟨rfl, hp⟩ h
    cases h.world
    exact ⟨⟨rfl, hp⟩, h.quiet (World.changes_close (by simp) (by simp) ..) rfl⟩

/-- Each place of a list with what stands there, if it satisfies `p`. -/
theorem filterMap_range {α : Type} (p : α → Bool) (l : List α) :
    (List.range l.length).filterMap (fun i => (l[i]?).filter p) = l.filter p := by
  induction l with
  | nil => rfl
  | cons a l ih =>
    rw [List.length_cons, List.range_succ_eq_map, List.filterMap_cons, List.filterMap_map]
    by_cases ha : p a = true <;> simp [ha, Option.filter, ← ih]

theorem filterMap_hired_goodStarts (commands : List Command) (k : Nat) :
    (goodStarts commands.length k).filterMap (hired? commands) =
      ((commands.drop k).filter Command.isBuiltin).reverse := by
  have hdrop : ((List.range' k (commands.length - k)).filterMap fun i => hired? commands (.start i none)) =
      (commands.drop k).filter Command.isBuiltin := by
    rw [← filterMap_range, List.range'_eq_map_range, List.filterMap_map, List.length_drop]
    simp [Function.comp_def, hired?]
  rw [goodStarts, List.filterMap_map, List.filterMap_reverse]
  exact congrArg List.reverse hdrop

/-- The workers are the builtins among the stages that were started, and those are the last ones. -/
theorem filterMap_hired (commands : List Command) (style : String → String) (stations : List Station) (t : Workshop)
    (hlen : stations.length = commands.length) : ∃ k,
    (callsOf style stations t).filterMap (hired? commands) = ((commands.drop k).filter Command.isBuiltin).reverse := by
  cases stations with
  | nil =>
    have hcalls : callsOf style ([] : List Station) t = [] := rfl
    exact ⟨commands.length, by simp [hcalls]⟩
  | cons first rest =>
    obtain ⟨joint, c, hwent⟩ := watch_course style first rest t
    have hshown := filterMap_shown (f := hired? commands) (fun _ _ => rfl) style
    rw [hwent.filterMap_calls (fun _ => rfl) (fun _ => rfl) (fun _ _ => rfl) (fun _ _ => rfl), hlen]
    have hfits := hwent.fits
    cases c with
    | noPipe made errno =>
      have hpipe : hired? commands (.makePipe (.error errno)) = none := rfl
      exact ⟨commands.length, by rw [Course.calls, List.filterMap_cons, hpipe, hshown]; simp⟩
    | ran lowest startFailure ended waitFailure =>
      have hwaits := filterMap_goodWaits (f := hired? commands) (fun _ => rfl) (fun _ => rfl) (fun _ => rfl)
      have hbad : (badWait ended waitFailure).filterMap (hired? commands) = [] := by cases waitFailure <;> rfl
      simp only [Course.calls, List.filterMap_append, hshown, hwaits, hbad, List.append_nil]
      rw [hlen] at hfits
      cases startFailure with
      | none =>
        have hlowest : lowest = 0 := hfits.2.1 rfl
        refine ⟨0, ?_⟩
        rw [← List.filterMap_append, hlowest, ← goodStarts_of_lt (hlowest ▸ hfits.1), filterMap_hired_goodStarts]
      | some error => exact ⟨lowest + 1, by rw [filterMap_hired_goodStarts]; simp [hired?]⟩

end Station

namespace Session

open Pipeline Workshop

/-- Whatever the schedule, all workers come to their end, and the history is what they make it. -/
theorem remembers_runCommandsUnder (schedule : Schedule) (style : String → String) (commands : List Command)
    (w : World) :
    let t := (runCommandsUnder schedule style commands w).2
    Remembers w.history.entries t ∧ (∀ n < t.workers.length, ∃ outcome, t.outcome? n = some outcome) ∧
      ∃ k, t.commands = ((commands.drop k).filter Command.isBuiltin).reverse := by
  let stations := commands.map fun command => ({ stage := { command } } : Station)
  let t₀ : Workshop := { world := w, schedule }
  have hstations : List.Forall₂ (fun (p : Watched Station) (x : Station) =>
      p.stage = x ∧ commands[p.number]? = some x.stage.command) (watched stations) stations := by
    refine forall₂_watched fun i x hx => ⟨rfl, ?_⟩
    obtain ⟨c, hc, rfl⟩ := Option.map_eq_some_iff.mp (List.getElem?_map ▸ hx)
    exact hc
  have hstart : Station.Reached w.history.entries commands ({ world := t₀ } : Traced Workshop) t₀ :=
    ⟨rfl, remembers_start w schedule, rfl⟩
  obtain ⟨-, -, hreached⟩ := (Station.stations_alike w.history.entries commands).run style hstations hstart
  obtain ⟨k, hk⟩ := Station.filterMap_hired commands style stations t₀ (by simp [stations])
  have hdropped : ∀ (stations : List Station) (w : World),
      World.Changes {.plumbs, .spends} w (stations.foldl (fun w (x : Station) => x.stage.drop w) w) := by
    intro stations w
    have h : World.Changes {.plumbs, .spends} w _ :=
      Stage.changes_dropAll (by simp) (by simp) (stations.map Station.stage) w
    rwa [List.foldl_map] at h
  have hentries := (hdropped (run style stations t₀).2.1 (run style stations t₀).2.2.world).entries (by simp)
  have hfinished := (hreached.remembers.withWorld hentries).pass.finishAll
  have hsettled : ∀ n w, World.Changes {.plumbs} w (World.settleBelow n w) := World.changes_settleBelow (by simp)
  refine ⟨hfinished.withWorld ((hsettled _ _).entries (by simp)), exists_outcome_finishAll _, k, ?_⟩
  exact ((commands_finishAll _).trans (commands_pass _)).trans (hreached.hired.trans hk)

end Session

/-! ## Workers that are done at once -/

/-- After each call the newest worker comes to its end. -/
def Schedule.eager : Schedule := fun _ workers => [.go (workers - 1), .go (workers - 1)]

namespace Workshop

variable {t : Workshop}

/-- Every worker is done, and so will be the next. -/
structure Idle (t : Workshop) : Prop where
  eager : t.schedule = Schedule.eager
  done : ∀ x ∈ t.workers, ∃ outcome, x.phase = .done outcome

theorem Idle.take (h : Idle t) (number : Nat) : t.take (.go number) = t := by
  simp only [Workshop.take]
  split
  · next x hx =>
    obtain ⟨outcome, ho⟩ := h.done x (List.mem_of_getElem? hx)
    simp only [step, ho]
  · rfl

theorem Idle.withWorld (h : Idle t) (w : World) : Idle { t with world := w } := ⟨h.eager, h.done⟩

theorem Idle.pass (h : Idle t) : t.pass = { t with calls := t.calls + 1 } := by
  simp [Workshop.pass, h.eager, Schedule.eager, h.take]

theorem Idle.finishAll (h : Idle t) : t.finishAll = t := by
  refine List.foldlRecOn (motive := fun u => u = t) _ finish rfl fun u hu number _ => ?_
  rw [hu, finish, h.take, h.take]

/-- A new worker does its work, says what it has to say, and gives back what it held. -/
theorem Idle.hire (h : Idle t) (c : Command) (b : Builtin) (outputs : Stage.Outputs) (held : Nat) :
    let worked := b.action c.arguments t.world
    let spoken := worked.1.deliver c.name outputs.outlet worked.2
    let t' := ({ t with workers := t.workers ++ [{ command := c, builtin := b, outputs, held }] } : Workshop).pass
    t'.world = { spoken.2 with spare := spoken.2.spare + held } ∧ t'.outcome? t.workers.length = some spoken.1 ∧
      Idle t' := by
  have hdone : ∀ (outcome : Outcome) (x : Worker),
      x ∈ t.workers ++ [{ command := c, builtin := b, outputs, held, phase := .done outcome }] →
      ∃ outcome, x.phase = .done outcome := by
    intro outcome x hx
    rcases List.mem_append.mp hx with hx | hx
    · exact h.done x hx
    · cases List.mem_singleton.mp hx
      exact ⟨outcome, rfl⟩
  simp only [Workshop.pass, h.eager, Schedule.eager, List.foldl_cons, List.foldl_nil, Workshop.take, step,
    List.length_append, List.length_singleton, Nat.add_sub_cancel, List.getElem?_concat_length, List.set_append_right,
    Nat.le_refl, Nat.sub_self, List.set_cons_zero, outcome?, Option.bind_some, Phase.outcome?, true_and]
  exact ⟨rfl, hdone _⟩

theorem Idle.quiet (h : Idle t) (w : World) :
    ({ t with world := w } : Workshop).pass.world = w ∧ Idle ({ t with world := w } : Workshop).pass := by
  rw [(h.withWorld w).pass]
  exact ⟨rfl, h.eager, h.done⟩

end Workshop

/-- A builtin gets its outputs, works, and says what it has to say. -/
theorem Stage.start_builtin {s : Stage} {b : Builtin} (h : Builtin.ofName? s.name = some b) (w : World) : s.start w =
    match s.prepare (w.note (.starting s.command.argv)) with
    | (.error error, w') => (.error error, s, w.closeSince w')
    | (.ok outputs, w') =>
      let worked := b.action s.command.arguments w'
      let spoken := worked.1.deliver s.name outputs.outlet worked.2
      (.ok (), { s with progress := .builtin spoken.1 }, w.closeSince spoken.2) := by
  have hne : s.command.isEmpty = false := by
    cases hc : s.command.isEmpty with
    | false => rfl
    | true =>
      have hname : s.name = "" := by
        rw [name, Command.name, Command.program?, List.isEmpty_iff.mp hc]
        rfl
      have hnone : Builtin.ofName? "" = none := by decide
      rw [hname, hnone] at h
      cases h
  simp only [start, startWith, hne, Bool.false_eq_true, if_false, dispatch, Builtin.actionOf?, h, Option.map_some,
    startAction]
  rcases s.prepare (w.note (.starting s.command.argv)) with ⟨error | outputs, w₁⟩ <;> rfl

/-- What a builtin does with what it has got leaves all descriptors where they are. -/
theorem Stage.spare_spoken (b : Builtin) (args : List String) (name : String) (outputs : Stage.Outputs) (w : World) :
    ((b.action args w).1.deliver name outputs.outlet (b.action args w).2).2.spare = w.spare := by
  have hworked : World.Changes {.remembers} w (b.action args w).2 := Builtin.changes_action (.inr (by simp)) w
  exact (hworked.trans (Stage.changes_deliver ..)).spare (by simp)

namespace Session

open Pipeline Workshop

/-- Stages and stations whose workers are done at once answer alike. -/
theorem eager_alike :
    Alike (fun (x : Station) (s : Stage) => x = { stage := s })
      (fun (t : Workshop) (w : World) => t.world = w ∧ Idle t) where
  makePipe := by
    rintro t w ⟨rfl, h⟩
    exact ⟨rfl, h.quiet _⟩
  dropEnd := by
    rintro t w e ⟨rfl, h⟩
    exact h.quiet _
  note := by
    rintro t w n ⟨rfl, h⟩
    exact h.quiet _
  complain := by
    rintro t w style message ⟨rfl, h⟩
    exact h.quiet _
  outputRedirected := by
    rintro x s rfl
    rfl
  attachInput := by
    rintro x s t w e rfl ⟨rfl, h⟩
    exact ⟨rfl, h.quiet _⟩
  attachOutput := by
    rintro x s t w e rfl ⟨rfl, h⟩
    exact ⟨rfl, h.quiet _⟩
  start := by
    rintro x s t w rfl ⟨rfl, h⟩
    show (Station.start _ t).1 = (s.start t.world).1 ∧ (Station.start _ t).2.1 = { stage := (s.start t.world).2.1 } ∧
      (Station.start _ t).2.2.world = (s.start t.world).2.2 ∧ Idle (Station.start _ t).2.2
    cases hname : Builtin.ofName? s.name with
    | none =>
      simp only [Station.start, hname]
      exact ⟨trivial, trivial, h.quiet _⟩
    | some b =>
      rw [Stage.start_builtin hname]
      have hle : (s.prepare (t.world.note (.starting s.command.argv))).2.spare ≤ t.world.spare :=
        (s.spare_prepare_le _).trans_eq (World.alters_note ..).spare
      rcases hprepare : s.prepare (t.world.note (.starting s.command.argv)) with ⟨error | outputs, w⟩
      · simp only [Station.start, hname, hprepare]
        exact ⟨trivial, trivial, h.quiet _⟩
      · rw [hprepare] at hle
        obtain ⟨hworld, houtcome, hidle⟩ := (h.withWorld w).hire s.command b outputs (t.world.spare - w.spare)
        -- what the worker gives back is all that was taken for it
        have hspare : w.spare + (t.world.spare - w.spare) = t.world.spare := Nat.add_sub_cancel' hle
        rw [Stage.spare_spoken, hspare] at hworld
        simp only [Station.start, hname, hprepare, Station.collect]
        rw [houtcome]
        exact ⟨trivial, rfl, hworld, hidle⟩
  wait := by
    rintro x s t w rfl ⟨rfl, h⟩
    exact ⟨rfl, rfl, h.quiet _⟩
  detachInput := by
    rintro x s t w rfl ⟨rfl, h⟩
    exact ⟨rfl, h.quiet _⟩
  detachOutput := by
    rintro x s t w rfl ⟨rfl, h⟩
    exact ⟨rfl, h.quiet _⟩

/-- A pipeline runs as it does where each worker is done at once. -/
theorem runCommands_eq_eager (style : String → String) (commands : List Command) (w : World) :
    runCommands style commands w = ((runCommandsUnder .eager style commands w).1,
      (runCommandsUnder .eager style commands w).2.world) := by
  have hstations : List.Forall₂ (fun (x : Station) (s : Stage) => x = { stage := s })
      (commands.map fun command => { stage := { command } }) (commands.map fun command => { command }) := by
    rw [List.forall₂_map_left_iff, List.forall₂_map_right_iff]
    exact List.forall₂_same.mpr fun _ _ => rfl
  have hidle : Idle ({ world := w, schedule := .eager } : Workshop) := ⟨rfl, by simp⟩
  obtain ⟨hnext, hrun, hworld, hidle⟩ := eager_alike.run style hstations ⟨rfl, hidle⟩
  have hdrop : ∀ {xs : List Station} {ss : List Stage}, List.Forall₂ (fun x s => x = { stage := s }) xs ss → ∀ w,
      xs.foldl (fun w x => x.stage.drop w) w = ss.foldl (fun w s => s.drop w) w := by
    intro xs ss h
    induction h with
    | nil => intro w; rfl
    | cons hx _ ih =>
      intro w
      rw [List.foldl_cons, List.foldl_cons, hx, ih]
  simp only [runCommands, runCommandsUnder]
  rw [(hidle.quiet _).2.finishAll, (hidle.quiet _).1, hdrop hrun, hworld, hnext]

/-- Carrying out a line is one of the runs with workers. -/
theorem carryOut_eq_eager (style : String → String) (line : String) (w : World) :
    carryOut style line w = ((carryOutUnder .eager style line w).1, (carryOutUnder .eager style line w).2.world) := by
  unfold carryOut carryOutUnder
  split
  · rfl
  · exact runCommands_eq_eager ..

/-- A blank line is nothing. Any other line is remembered as it is behind what was remembered before, and whatever its
    builtins do in which order, all that they add comes behind it. Each that was started works once, and finds the line
    and what those before it have added; if it reads a file, it adds the entries of the file in one block. -/
theorem carryOut_remembers (style : String → String) (line : String) (w : World) :
    (Text.trim line = "" → carryOut style line w = (.goOn, w)) ∧
      (Text.trim line ≠ "" →
        carryOut style line w = ((carryOutUnder .eager style line w).1, (carryOutUnder .eager style line w).2.world) ∧
        ∀ schedule : Schedule,
          let t := (carryOutUnder schedule style line w).2
          t.world.history.entries = w.history.entries ++ line :: t.acts.flatMap Act.added ∧
          (∃ k, t.commands = (((pipelineOf (tokensOf line)).drop k).filter Command.isBuiltin).reverse) ∧
          (∀ n < t.workers.length, ∃ outcome, t.outcome? n = some outcome) ∧
          (t.acts.map Act.worker).Perm (List.range t.workers.length) ∧
          (∀ act ∈ t.acts, ∃ x, t.workers[act.worker]? = some x ∧ Did x act) ∧
          ∀ before act after, t.acts = before ++ act :: after →
            act.found.history.entries = w.history.entries ++ line :: before.flatMap Act.added) := by
  refine ⟨fun hblank => ?_, fun hinked => ⟨carryOut_eq_eager style line w, fun schedule => ?_⟩⟩
  · rw [carryOut, if_pos (Text.trim_eq_empty_iff.mp hblank)]
  · have hinked : ¬ Text.allBlank line = true := fun hblank => hinked (Text.trim_eq_empty_iff.mpr hblank)
    let w₁ := w.pushHistory line
    let commands := pipelineOf (tokensOf line)
    -- the line is in the history before anything runs
    have hpushed : (w₁.note (.parsed commands.length)).history.entries = w.history.entries ++ [line] := by
      rw [(World.alters_note ..).entries, (World.alters_pushHistory line w).entries]
      rfl
    obtain ⟨hremembers, hdone, hcommands⟩ :=
      remembers_runCommandsUnder schedule style commands (w₁.note (.parsed commands.length))
    rw [hpushed] at hremembers
    simp only [carryOutUnder, if_neg hinked]
    refine ⟨by simpa using hremembers.entries, hcommands, hdone, hremembers.perm hdone, hremembers.did, ?_⟩
    intro before act after he
    simpa using hremembers.found before act after he

/-- The first stage of a line gets hold of the history before the last one, which then breaks down over its second
    entry. -/
theorem carryOut_remembers_half_read :
    let files : List (Location × Node) := [([], .directory 0o755), (["f"], .file 0o600 (Bytes.ofString "a\n\n b\n"))]
    let w : World := { files := ⟨files⟩, cwd := [], history := ⟨["x"], 0⟩, host := default }
    let line := " history -r f | history -r f"
    let schedule : Schedule := fun _ workers => if workers = 2 then [.go 1, .breakDown 0 1 id none] else []
    let t := (carryOutUnder schedule id line w).2
    t.acts.map Act.worker = [1, 0] ∧ t.world.history.entries = ["x", line, "a", "b", "a"] := by
  intro files w line schedule t
  obtain ⟨-, hinked⟩ := carryOut_remembers id line w
  obtain ⟨-, hschedule⟩ := hinked (by decide +kernel)
  obtain ⟨hentries, -⟩ := hschedule schedule
  refine ⟨by decide +kernel, hentries.trans ?_⟩
  decide +kernel

end Session

end CommandShell
