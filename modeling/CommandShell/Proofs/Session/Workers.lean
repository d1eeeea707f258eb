/-
  CommandShell.Proofs.Session.Workers — builtins that work beside each other, and the history that they share.

  A builtin that was started is a worker, which works when a schedule gives it a turn. It does what it does to the world
  in one go, since nobody else gets hold of the history meanwhile, and then says what it has to say. A worker may break
  down at any time, and anything may happen elsewhere in the world.
  - `Remembers`: the history is what it was before the first worker came, and then what each worker added; each found
    what those before it had left, and worked once at most;
  - `Remembers.take`, `Remembers.pass`: this stays so whatever turns are taken;
  - `exists_outcome_finishAll`, `Remembers.perm`: all workers come to their end, and then each has worked once.
-/

import CommandShell.Proofs.World.Changes
import Mathlib.Data.List.Nodup

namespace CommandShell

/-! ## Workers and their turns -/

/-- How far a worker has got. -/
inductive Phase where
  | ready
  /-- The work is done, and this is left to say. -/
  | speaking (reply : Reply)
  | done (outcome : Outcome)

namespace Phase

def isReady : Phase → Bool
  | ready => true
  | _ => false

def outcome? : Phase → Option Outcome
  | done outcome => some outcome
  | _ => none

/-- The worker has broken down. -/
def isBroken : Phase → Bool
  | done (.crashed _) => true
  | _ => false

end Phase

/-- A builtin that was started. -/
structure Worker where
  command : Command
  builtin : Builtin
  outputs : Stage.Outputs
  /-- How many descriptors were taken for it. They are given back at its end. -/
  held : Nat
  phase : Phase := .ready

/-- The entries that a worker adds to the history. -/
def Worker.adds (x : Worker) (w : World) : List String := x.builtin.adds x.command.arguments w

/-- What can happen between two calls of a pipeline. -/
inductive Turn where
  /-- A worker makes a step. -/
  | go (number : Nat)
  /-- A worker breaks down. Of its work it may have done a part: some of its entries, and anything else. -/
  | breakDown (number : Nat) (kept : Nat) (leave : World → World) (message : Option String)
  /-- Something happens that is not the shell's doing. -/
  | elsewhere (change : World → World)

/-- The turns that are taken after a call. It may matter how many calls there were, and how many workers there are. -/
abbrev Schedule := Nat → Nat → List Turn

/-- What a worker did when it worked. -/
structure Act where
  worker : Nat
  /-- The world as the worker found it. -/
  found : World
  added : List String

/-- A world with workers in it. -/
structure Workshop where
  world : World
  schedule : Schedule
  workers : List Worker := []
  /-- What was done, in order. -/
  acts : List Act := []
  /-- How many calls there were. -/
  calls : Nat := 0

namespace Workshop

def outcome? (t : Workshop) (number : Nat) : Option Outcome := (t.workers[number]?).bind fun x => x.phase.outcome?

/-- A worker makes a step. -/
def step (number : Nat) (x : Worker) (t : Workshop) : Workshop :=
  match x.phase with
  | .ready =>
    let (reply, world) := x.builtin.action x.command.arguments t.world
    { t with
      world
      workers := t.workers.set number { x with phase := .speaking reply }
      acts := t.acts ++ [⟨number, t.world, x.adds t.world⟩] }
  | .speaking reply =>
    let (outcome, world) := reply.deliver x.command.name x.outputs.outlet t.world
    { t with
      world := { world with spare := world.spare + x.held }
      workers := t.workers.set number { x with phase := .done outcome } }
  | .done _ => t

/-- A worker breaks down. -/
def fail (number : Nat) (x : Worker) (kept : Nat) (leave : World → World) (message : Option String) (t : Workshop) :
    Workshop :=
  let broken := { x with phase := .done (.crashed message) }
  let history := t.world.history
  match x.phase with
  | .ready =>
    let added := (x.adds t.world).take kept
    { t with
      world := { leave t.world with history := { history with entries := history.entries ++ added } }
      workers := t.workers.set number broken
      acts := t.acts ++ [⟨number, t.world, added⟩] }
  | .speaking _ => { t with world := { leave t.world with history }, workers := t.workers.set number broken }
  | .done _ => t

def take (t : Workshop) : Turn → Workshop
  | .go number =>
    match t.workers[number]? with
    | some x => t.step number x
    | none => t
  | .breakDown number kept leave message =>
    match t.workers[number]? with
    | some x => t.fail number x kept leave message
    | none => t
  | .elsewhere change => { t with world := { change t.world with history := t.world.history } }

/-- Take the turns that the schedule has after a call. -/
def pass (t : Workshop) : Workshop :=
  { (t.schedule t.calls t.workers.length).foldl take t with calls := t.calls + 1 }

/-- Let a worker come to its end. -/
def finish (t : Workshop) (number : Nat) : Workshop := (t.take (.go number)).take (.go number)

/-- Let all workers come to their end. -/
def finishAll (t : Workshop) : Workshop := (List.range t.workers.length).foldl finish t

end Workshop

/-! ## What turns leave as it is -/

namespace Workshop

variable {t : Workshop} {base : List String} {number : Nat} {x : Worker}

/-- The commands that the workers carry out. -/
def commands (t : Workshop) : List Command := t.workers.map Worker.command

theorem length_commands (t : Workshop) : t.commands.length = t.workers.length := List.length_map ..

theorem map_command_set (h : t.workers[number]? = some x) (p : Phase) :
    (t.workers.set number { x with phase := p }).map Worker.command = t.commands := by
  obtain ⟨hlt, rfl⟩ := List.getElem?_eq_some_iff.mp h
  rw [List.map_set, commands]
  exact (congrArg _ (List.getElem_map Worker.command).symm).trans (List.set_getElem_self (by simpa using hlt))

theorem commands_take (turn : Turn) (t : Workshop) : (t.take turn).commands = t.commands := by
  cases turn with
  | go number =>
    simp only [take]
    split
    · next x hx =>
      unfold step
      split
      · exact map_command_set hx _
      · exact map_command_set hx _
      · rfl
    · rfl
  | breakDown number kept leave message =>
    simp only [take]
    split
    · next x hx =>
      unfold fail
      dsimp only
      split
      · exact map_command_set hx _
      · exact map_command_set hx _
      · rfl
    · rfl
  | elsewhere change => rfl

theorem commands_pass (t : Workshop) : t.pass.commands = t.commands :=
  List.foldlRecOn (motive := fun u : Workshop => u.commands = t.commands) (t.schedule t.calls t.workers.length) take rfl
    fun u hu turn _ => (commands_take turn u).trans hu

/-! ## What the workers add to the history -/

/-- This is what the worker did, all of it unless the worker broke down. -/
structure Did (x : Worker) (act : Act) : Prop where
  part : act.added <+: x.adds act.found
  whole : x.phase.isBroken = false → act.added = x.adds act.found

/-- How often the worker of this number has worked. -/
def timesWorked (t : Workshop) (number : Nat) : Nat :=
  match t.workers[number]? with
  | some x => if x.phase.isReady then 0 else 1
  | none => 0

/-- The history is `base` and then what each worker added. Each worker found what those before it had left, and has
    worked once at most. -/
structure Remembers (base : List String) (t : Workshop) : Prop where
  entries : t.world.history.entries = base ++ t.acts.flatMap Act.added
  found : ∀ before act after, t.acts = before ++ act :: after →
    act.found.history.entries = base ++ before.flatMap Act.added
  did : ∀ act ∈ t.acts, ∃ x, t.workers[act.worker]? = some x ∧ Did x act
  times : ∀ number, (t.acts.map Act.worker).count number = t.timesWorked number

theorem remembers_start (w : World) (schedule : Schedule) : Remembers w.history.entries { world := w, schedule } where
  entries := by simp
  found := by simp
  did := by simp
  times := by simp [timesWorked]

theorem Remembers.withWorld (h : Remembers base t) {w : World} (hw : w.history.entries = t.world.history.entries) :
    Remembers base { t with world := w } :=
  ⟨hw.trans h.entries, h.found, h.did, h.times⟩

/-- A new worker has nothing done yet. -/
theorem Remembers.hire (h : Remembers base t) (x : Worker) (hx : x.phase.isReady = true) :
    Remembers base { t with workers := t.workers ++ [x] } where
  entries := h.entries
  found := h.found
  did act hact := by
    obtain ⟨y, hy, hdid⟩ := h.did act hact
    exact ⟨y, by rw [List.getElem?_append_left (List.getElem?_eq_some_iff.mp hy).1, hy], hdid⟩
  times number := by
    rw [h.times number]
    unfold timesWorked
    rcases Nat.lt_trichotomy number t.workers.length with hlt | rfl | hgt
    · simp only [List.getElem?_append_left hlt]
    · simp [hx]
    · have hge : t.workers.length ≤ number := by omega
      have hge' : (t.workers ++ [x]).length ≤ number := by simp; omega
      simp only [List.getElem?_eq_none hge, List.getElem?_eq_none hge']

theorem timesWorked_set_ne {w : World} {acts : List Act} {i : Nat} (hi : i ≠ number) (y : Worker) :
    timesWorked { t with world := w, workers := t.workers.set number y, acts } i = t.timesWorked i := by
  simp only [timesWorked, List.getElem?_set_ne (Ne.symm hi)]

theorem timesWorked_set_self {w : World} {acts : List Act} (hx : t.workers[number]? = some x) {y : Worker}
    (hy : y.phase.isReady = false) :
    timesWorked { t with world := w, workers := t.workers.set number y, acts } number = 1 := by
  have hlt := (List.getElem?_eq_some_iff.mp hx).1
  simp [timesWorked, hlt, hy]

/-- A worker works: it adds its entries in one go. -/
theorem Remembers.act (h : Remembers base t) (hx : t.workers[number]? = some x) (hready : x.phase.isReady = true)
    {p : Phase} (hp : p.isReady = false) {added : List String}
    (hdid : Did { x with phase := p } ⟨number, t.world, added⟩) {w : World}
    (hw : w.history.entries = t.world.history.entries ++ added) :
    Remembers base
      { t with
        world := w
        workers := t.workers.set number { x with phase := p }
        acts := t.acts ++ [⟨number, t.world, added⟩] } where
  entries := by
    show w.history.entries = _
    rw [hw, h.entries]
    simp
  found before act after he := by
    rcases List.eq_nil_or_concat after with rfl | ⟨rest, last, rfl⟩
    · -- the new act comes last, and has found what all others had left
      obtain ⟨rfl, hlast⟩ := List.append_inj' he rfl
      cases hlast
      exact h.entries
    · rw [List.concat_eq_append, ← List.cons_append, ← List.append_assoc] at he
      exact h.found before act rest (List.append_inj' he rfl).1
  did act hact := by
    rcases List.mem_append.mp hact with hold | hnew
    · obtain ⟨y, hy, hdid⟩ := h.did act hold
      -- the worker of an old act has worked already, so it is another one
      have hne : act.worker ≠ number := by
        intro he
        have hcount := h.times number
        have hpos : 0 < (t.acts.map Act.worker).count number :=
          List.count_pos_iff.mpr (he ▸ List.mem_map_of_mem hold)
        simp only [timesWorked, hx, hready, if_true] at hcount
        omega
      exact ⟨y, by rw [List.getElem?_set_ne hne.symm, hy], hdid⟩
    · cases List.mem_singleton.mp hnew
      have hlt := (List.getElem?_eq_some_iff.mp hx).1
      exact ⟨{ x with phase := p }, by simp [hlt], hdid⟩
  times i := by
    rw [List.map_append, List.count_append, h.times i]
    by_cases hi : i = number
    · subst hi
      rw [timesWorked_set_self hx hp]
      simp [timesWorked, hx, hready]
    · rw [timesWorked_set_ne hi]
      simp [Ne.symm hi]

/-- A worker that has worked goes on, and adds nothing. -/
theorem Remembers.goOn (h : Remembers base t) (hx : t.workers[number]? = some x) (hready : x.phase.isReady = false)
    (hbroken : x.phase.isBroken = false) {p : Phase} (hp : p.isReady = false) {w : World}
    (hw : w.history.entries = t.world.history.entries) :
    Remembers base { t with world := w, workers := t.workers.set number { x with phase := p } } where
  entries := hw.trans h.entries
  found := h.found
  did act hact := by
    obtain ⟨y, hy, hdid⟩ := h.did act hact
    by_cases hne : act.worker = number
    · have hlt := (List.getElem?_eq_some_iff.mp hx).1
      rw [hne, hx] at hy
      cases hy
      exact ⟨{ x with phase := p }, by simp [hne, hlt], hdid.part, fun _ => hdid.whole hbroken⟩
    · exact ⟨y, by rw [List.getElem?_set_ne (Ne.symm hne), hy], hdid⟩
  times i := by
    rw [h.times i]
    by_cases hi : i = number
    · subst hi
      rw [timesWorked_set_self hx hp]
      simp [timesWorked, hx, hready]
    · rw [timesWorked_set_ne hi]

theorem Remembers.step (h : Remembers base t) (hx : t.workers[number]? = some x) :
    Remembers base (t.step number x) := by
  unfold Workshop.step
  split
  · next hp =>
    exact h.act hx (by rw [hp]; rfl) rfl ⟨List.prefix_rfl, fun _ => rfl⟩ (Builtin.entries_action ..)
  · next reply hp =>
    exact h.goOn hx (by rw [hp]; rfl) (by rw [hp]; rfl) rfl ((Stage.changes_deliver ..).entries (Set.notMem_empty _))
  · exact h

theorem Remembers.fail (h : Remembers base t) (hx : t.workers[number]? = some x) (kept : Nat) (leave : World → World)
    (message : Option String) : Remembers base (t.fail number x kept leave message) := by
  unfold Workshop.fail
  dsimp only
  split
  · next hp => exact h.act hx (by rw [hp]; rfl) rfl ⟨List.take_prefix .., fun hb => by cases hb⟩ rfl
  · next reply hp => exact h.goOn hx (by rw [hp]; rfl) (by rw [hp]; rfl) rfl rfl
  · exact h

/-- Whatever turn is taken, the history is what the workers make it. -/
theorem Remembers.take (h : Remembers base t) (turn : Turn) : Remembers base (t.take turn) := by
  cases turn with
  | go number =>
    simp only [Workshop.take]
    split
    · next x hx => exact h.step hx
    · exact h
  | breakDown number kept leave message =>
    simp only [Workshop.take]
    split
    · next x hx => exact h.fail hx kept leave message
    · exact h
  | elsewhere change => exact h.withWorld rfl

theorem Remembers.pass (h : Remembers base t) : Remembers base t.pass := by
  have hturns := List.foldlRecOn (t.schedule t.calls t.workers.length) Workshop.take h fun _ hu turn _ => hu.take turn
  exact ⟨hturns.entries, hturns.found, hturns.did, hturns.times⟩

theorem Remembers.finish (h : Remembers base t) (number : Nat) : Remembers base (t.finish number) :=
  (h.take _).take _

theorem Remembers.finishAll (h : Remembers base t) : Remembers base t.finishAll :=
  List.foldlRecOn _ Workshop.finish h fun _ hu number _ => hu.finish number

/-! ## Coming to an end -/

theorem outcome?_step {n : Nat} {outcome : Outcome} (hx : t.workers[number]? = some x)
    (h : t.outcome? n = some outcome) : (t.step number x).outcome? n = some outcome := by
  -- a worker that is done is not the one that makes the step
  have hset : ∀ {w : World} {y : Worker} {acts : List Act}, x.phase.outcome? = none →
      outcome? { t with world := w, workers := t.workers.set number y, acts } n = some outcome := by
    intro w y acts hp
    have hne : number ≠ n := by
      rintro rfl
      simp [outcome?, hx, hp] at h
    simpa [outcome?, List.getElem?_set_ne hne] using h
  unfold step
  split
  · next hp => exact hset (by rw [hp]; rfl)
  · next hp => exact hset (by rw [hp]; rfl)
  · exact h

theorem outcome?_finish {n : Nat} {outcome : Outcome} (h : t.outcome? n = some outcome) (number : Nat) :
    (t.finish number).outcome? n = some outcome := by
  have hgo : ∀ {t : Workshop}, t.outcome? n = some outcome → (t.take (.go number)).outcome? n = some outcome := by
    intro t h
    simp only [take]
    split
    · next x hx => exact outcome?_step hx h
    · exact h
  exact hgo (hgo h)

theorem commands_finish (t : Workshop) (number : Nat) : (t.finish number).commands = t.commands := by
  rw [finish, commands_take, commands_take]

/-- Two steps bring a worker to its end. -/
theorem exists_outcome_finish (h : number < t.workers.length) :
    ∃ outcome, (t.finish number).outcome? number = some outcome := by
  cases hp : t.workers[number].phase with
  | ready => simp [finish, take, step, hp, h, outcome?, Phase.outcome?]
  | speaking reply => simp [finish, take, step, hp, h, outcome?, Phase.outcome?]
  | done outcome => simp [finish, take, step, hp, h, outcome?, Phase.outcome?]

theorem commands_finishAll (t : Workshop) : t.finishAll.commands = t.commands :=
  List.foldlRecOn (motive := fun u : Workshop => u.commands = t.commands) _ finish rfl
    fun u hu number _ => (u.commands_finish number).trans hu

theorem exists_outcome_finishAll (t : Workshop) : ∀ n < t.finishAll.workers.length,
    ∃ outcome, t.finishAll.outcome? n = some outcome := by
  have hfirst : ∀ m ≤ t.workers.length, ((List.range m).foldl finish t).commands = t.commands ∧
      ∀ n < m, ∃ outcome, ((List.range m).foldl finish t).outcome? n = some outcome := by
    intro m
    induction m with
    | zero => intro _; exact ⟨rfl, fun n hn => absurd hn (Nat.not_lt_zero n)⟩
    | succ m ih =>
      intro hm
      obtain ⟨hcommands, hdone⟩ := ih (by omega)
      rw [List.range_succ, List.foldl_append]
      refine ⟨(commands_finish _ m).trans hcommands, fun n hn => ?_⟩
      rcases Nat.lt_succ_iff_lt_or_eq.mp hn with hlt | rfl
      · obtain ⟨outcome, ho⟩ := hdone n hlt
        exact ⟨outcome, outcome?_finish ho m⟩
      · refine exists_outcome_finish ?_
        rw [← length_commands, hcommands, length_commands]
        exact hm
  intro n hn
  rw [← length_commands, commands_finishAll, length_commands] at hn
  exact (hfirst _ (Nat.le_refl _)).2 n hn

/-- When all workers are done, each has worked once. -/
theorem Remembers.perm (h : Remembers base t) (hdone : ∀ n < t.workers.length, ∃ outcome, t.outcome? n = some outcome) :
    (t.acts.map Act.worker).Perm (List.range t.workers.length) := by
  rw [List.perm_iff_count]
  intro n
  rw [h.times n, List.nodup_range.count, timesWorked]
  by_cases hn : n < t.workers.length
  · obtain ⟨outcome, ho⟩ := hdone n hn
    simp only [outcome?, List.getElem?_eq_getElem hn, Option.bind_some] at ho
    cases hp : t.workers[n].phase with
    | ready => simp [hp, Phase.outcome?] at ho
    | speaking reply => simp [hp, Phase.outcome?] at ho
    | done outcome => simp [hp, Phase.isReady, hn]
  · simp [hn]

end Workshop

end CommandShell
