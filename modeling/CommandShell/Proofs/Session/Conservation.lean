/-
  CommandShell.Proofs.Session.Conservation — a line gives back what it takes.

  While a pipeline runs, its stages hold the ends of the pipes that join them, and each end costs a descriptor. The
  descriptors that are to be had and those that the stages hold are together always as many (`World.reserve`).
  - `joinFrom_reserve`, `startFrom_reserve`, `waitFrom_reserve`: no part of a run changes their number;
  - `spare_runCommands`: so when the stages have been given up, all descriptors are to be had again;
  - `changes_carryOut`: of all that the shell can do to its world, a line may do everything but spend descriptors for
    good.
-/

import CommandShell.Proofs.Stage.Streams

namespace CommandShell

open World Pipeline

namespace Stage

/-- The descriptors that a stage holds. -/
def cost (s : Stage) : Nat := s.stdin.cost + s.stdout.cost

def costs : List Stage → Nat
  | [] => 0
  | s :: rest => s.cost + costs rest

theorem costs_eq_zero {stages : List Stage} (h : ∀ s ∈ stages, s.cost = 0) : costs stages = 0 := by
  induction stages with
  | nil => rfl
  | cons s rest ih => rw [costs, h s (by simp), ih fun s hs => h s (List.mem_cons_of_mem _ hs)]

theorem cost_start (s : Stage) (w : World) : (s.start w).2.1.cost = s.cost := by
  simp only [cost, s.streams_start w]

theorem cost_wait (s : Stage) (w : World) : (s.wait w).2.1.cost = s.cost := by
  simp only [cost, s.streams_wait w]

theorem spare_start (s : Stage) (w : World) : (s.start w).2.2.spare = w.spare := by
  have h : Changes {.plumbs, .remembers} w (s.start w).2.2 := changes_start (by simp) (.inr (by simp)) w
  exact h.spare (by simp)

theorem spare_wait (s : Stage) (w : World) : (s.wait w).2.2.spare = w.spare := by
  have h : Changes {.plumbs} w (s.wait w).2.2 := s.changes_wait (by simp) w
  exact h.spare (by simp)

theorem spare_drop (s : Stage) (w : World) : (s.drop w).spare = w.spare + s.cost := by
  rw [drop, spare_close, spare_close, cost, Nat.add_assoc]

end Stage

/-! ## The parts of a run -/

/-- The descriptors that are to be had, and those that these stages hold. -/
def World.reserve (stages : List Stage) (w : World) : Nat := w.spare + Stage.costs stages

theorem World.reserve_cons (s : Stage) (rest : List Stage) (w : World) :
    w.reserve (s :: rest) = w.reserve rest + s.cost := by
  rw [reserve, reserve, Stage.costs]
  omega

theorem World.reserve_congr {w w' : World} (h : w'.spare = w.spare) (stages : List Stage) :
    w'.reserve stages = w.reserve stages := by
  rw [reserve, reserve, h]

namespace Pipeline

theorem spare_announce (style : String → String) (error : StageError) (w : World) :
    (announce style error w).spare = w.spare := by
  have hnoted : (Surroundings.note (.failed error) w).spare = w.spare := (alters_note (.failed error) w).spare
  unfold announce
  split <;> exact hnoted

/-- A pipe costs two descriptors. -/
theorem spare_makePipe {w w' : World} {ends : PipeEnd × PipeEnd} (h : Surroundings.makePipe w = (.ok ends, w')) :
    w'.spare + 2 = w.spare := by
  simp only [Surroundings.makePipe, World.makePipe] at h
  split at h
  · cases h
  · next hspare =>
    cases h
    show w.spare - 2 + 2 = w.spare
    omega

theorem makePipe_failed {w w' : World} {errno : Errno} (h : Surroundings.makePipe w = (.error errno, w')) : w' = w := by
  simp only [Surroundings.makePipe, World.makePipe] at h
  split at h <;> cases h
  rfl

/-- The write end of a pipe goes to the stage, or is given back. -/
theorem reserve_offer (i : Nat) {left : Stage} (hleft : left.stdout.cost = 0) (writer : PipeEnd) (w : World) :
    (offer i left writer w).2.spare + (offer i left writer w).1.cost = w.spare + left.cost + 1 := by
  by_cases hredirected : StageLike.outputRedirected World left = true
  · have hoffer : offer i left writer w = (left, (w.note (.writeEndUnused i)).close (.pipeEnd writer)) :=
      if_pos hredirected
    simp only [hoffer, spare_close, (alters_note ..).spare, Handle.cost_pipeEnd]
    omega
  · have hoffer : offer i left writer w = left.attachOutput writer w := if_neg hredirected
    simp only [hoffer, Stage.attachOutput, Stage.cost, Handle.cost_pipeEnd, hleft]
    omega

theorem joinFrom_reserve (rest : List Stage) : ∀ (i : Nat) (left : Stage) (w : World), left.stdout.cost = 0 →
    (∀ s ∈ rest, s.cost = 0) →
      (joinFrom i left rest w).2.2.reserve (joinFrom i left rest w).2.1 = w.reserve (left :: rest) := by
  induction rest with
  | nil => intro i left w _ _; rfl
  | cons right rest ih =>
    intro i left w hleft hrest
    rcases hpipe : Surroundings.makePipe w with ⟨errno | ⟨reader, writer⟩, w₁⟩
    · rw [joinFrom_error hpipe, makePipe_failed hpipe]
    · have hmade := spare_makePipe hpipe
      have hoffer := reserve_offer i hleft writer w₁
      have hright : right.stdin.cost + right.stdout.cost = 0 := hrest right (by simp)
      rw [joinFrom_ok hpipe]
      set l := offer i left writer w₁
      set r : Stage × World := StageLike.attachInput right reader l.2
      have hcost : r.1.cost = 1 + right.stdout.cost := rfl
      have hspare : r.2.spare = l.2.spare := rfl
      have hjoined := ih (i + 1) r.1 r.2 (show right.stdout.cost = 0 by omega) fun s hs =>
        hrest s (List.mem_cons_of_mem _ hs)
      rw [reserve_cons] at hjoined
      dsimp only
      rw [reserve_cons, hjoined, reserve_cons, reserve_cons, Stage.cost.eq_def right, reserve, reserve]
      omega

theorem startFrom_reserve (style : String → String) (stages : List Stage) : ∀ (i : Nat) (w : World),
    (startFrom style i stages w).2.2.reserve (startFrom style i stages w).2.1 = w.reserve stages := by
  induction stages with
  | nil => intro i w; rfl
  | cons s rest ih =>
    intro i w
    have hrest := ih (i + 1) w
    unfold startFrom
    split
    · next heq =>
      rw [heq] at hrest
      simp only [reserve_cons, hrest]
    · next rest' w₁ heq =>
      rw [heq] at hrest
      have hcost := s.cost_start w₁
      have hspare := s.spare_start w₁
      split
      · next hstart =>
        have hstart : s.start w₁ = _ := hstart
        rw [hstart] at hcost hspare
        simp only [reserve_cons, hcost, reserve_congr hspare, hrest]
      · next error s' w₂ hstart =>
        have hstart : s.start w₁ = _ := hstart
        rw [hstart] at hcost hspare
        have hended := (spare_announce style error (w₂.note (.startAbandoned i))).trans
          ((alters_note (.startAbandoned i) w₂).spare.trans hspare)
        rw [reserve_cons, reserve_cons, hcost, ← hrest]
        exact congrArg (· + s.cost) (reserve_congr hended rest')

/-- What a stage gives back when it has ended well is to be had again. -/
theorem reserve_closeEnds (isFirst isLast : Bool) (s : Stage) (w : World) :
    (closeEnds isFirst isLast s w).2.spare + (closeEnds isFirst isLast s w).1.cost = w.spare + s.cost := by
  cases isFirst <;> cases isLast <;>
    simp [closeEnds, StageLike.detachInput, StageLike.detachOutput, Stage.detachInput, Stage.detachOutput, Stage.cost,
      spare_close] <;> omega

theorem waitFrom_reserve (style : String → String) (stages : List Stage) : ∀ (isFirst : Bool) (w : World),
    (waitFrom style isFirst stages w).2.2.reserve (waitFrom style isFirst stages w).2.1 = w.reserve stages := by
  induction stages with
  | nil => intro isFirst w; rfl
  | cons s rest ih =>
    intro isFirst w
    have hcost := s.cost_wait w
    have hspare := s.spare_wait w
    unfold waitFrom
    split
    · next code s' w₁ hwait =>
      have hwait : s.wait w = _ := hwait
      rw [hwait] at hcost hspare
      have hended := (alters_note (.exitReceived code) w₁).spare.trans hspare
      simp only [reserve_cons, hcost]
      exact congrArg (· + s.cost) (reserve_congr hended rest)
    · next error s' w₁ _ hwait =>
      have hwait : s.wait w = _ := hwait
      rw [hwait] at hcost hspare
      have hended := (spare_announce style error w₁).trans hspare
      simp only [reserve_cons, hcost, reserve_congr hended]
    · next s' w₁ hwait =>
      have hwait : s.wait w = _ := hwait
      rw [hwait] at hcost hspare
      have hclosed := reserve_closeEnds isFirst rest.isEmpty s' w₁
      have hrest := ih false (closeEnds isFirst rest.isEmpty s' w₁).2
      have hcost : s'.cost = s.cost := hcost
      have hspare : w₁.spare = w.spare := hspare
      simp only [reserve_cons, hrest]
      simp only [reserve]
      omega

/-- Of stages that hold nothing when a pipeline is run, some may hold descriptors afterwards. All others are to be
    had. -/
theorem run_reserve (style : String → String) {stages : List Stage} (h : ∀ s ∈ stages, s.cost = 0) (w : World) :
    (run style stages w).2.2.reserve (run style stages w).2.1 = w.spare := by
  have hnone : w.reserve stages = w.spare := by rw [reserve, Stage.costs_eq_zero h, Nat.add_zero]
  have hjoined : (join stages w).2.2.reserve (join stages w).2.1 = w.spare := by
    cases stages with
    | nil => exact hnone
    | cons first rest =>
      have hfirst : first.stdin.cost + first.stdout.cost = 0 := h first (by simp)
      exact (joinFrom_reserve rest 0 first w (by omega) fun s hs => h s (List.mem_cons_of_mem _ hs)).trans hnone
  unfold run
  split
  · next error stages' w₁ heq =>
    rw [heq] at hjoined
    exact (reserve_congr (spare_announce style error w₁) stages').trans hjoined
  · next stages' w₁ heq =>
    rw [heq] at hjoined
    rw [waitFrom_reserve, startFrom_reserve, hjoined]

end Pipeline

/-! ## Lines -/

namespace Session

theorem spare_dropAll (stages : List Stage) : ∀ w : World,
    (stages.foldl (fun w s => s.drop w) w).spare = w.reserve stages := by
  induction stages with
  | nil => intro w; rfl
  | cons s rest ih =>
    intro w
    rw [List.foldl_cons, ih, reserve_cons, reserve, reserve, s.spare_drop]
    omega

/-- After a line there are as many descriptors to be had as before. -/
theorem spare_runCommands (style : String → String) (commands : List Command) (w : World) :
    (runCommands style commands w).2.spare = w.spare := by
  let stages := commands.map fun command => ({ command } : Stage)
  have hfresh : ∀ s ∈ stages, s.cost = 0 := by
    intro s hs
    obtain ⟨command, -, rfl⟩ := List.mem_map.mp hs
    rfl
  have hsettled : ∀ w : World, w.settle.spare = w.spare := by
    intro w
    have h : Changes {.plumbs} w w.settle := changes_settleBelow (by simp) _ w
    exact h.spare (by simp)
  exact (hsettled _).trans ((spare_dropAll _ _).trans (run_reserve style hfresh w))

/-- The stages of the shell do nothing to the world that the shell cannot do. -/
theorem stages_alike (w₀ : World) : Alike (fun s s' : Stage => s = s')
    (fun w w' : World => w = w' ∧ Changes {.spends, .remembers, .plumbs} w₀ w) where
  makePipe := by
    rintro w _ ⟨rfl, h⟩
    exact ⟨rfl, rfl, h.trans (changes_makePipe (by simp) (by simp) w)⟩
  dropEnd := by
    rintro w _ e ⟨rfl, h⟩
    exact ⟨rfl, h.trans (changes_close (by simp) (by simp) _ w)⟩
  note := by
    rintro w _ n ⟨rfl, h⟩
    exact ⟨rfl, h.trans (changes_note n w)⟩
  complain := by
    rintro w _ style message ⟨rfl, h⟩
    exact ⟨rfl, h.trans (changes_printError _ w)⟩
  outputRedirected := by
    rintro s _ rfl
    rfl
  attachInput := by
    rintro s _ w _ e rfl ⟨rfl, h⟩
    exact ⟨rfl, rfl, h⟩
  attachOutput := by
    rintro s _ w _ e rfl ⟨rfl, h⟩
    exact ⟨rfl, rfl, h⟩
  start := by
    rintro s _ w _ rfl ⟨rfl, h⟩
    exact ⟨rfl, rfl, rfl, h.trans (s.changes_start (by simp) (.inr (by simp)) w)⟩
  wait := by
    rintro s _ w _ rfl ⟨rfl, h⟩
    exact ⟨rfl, rfl, rfl, h.trans (s.changes_wait (by simp) w)⟩
  detachInput := by
    rintro s _ w _ rfl ⟨rfl, h⟩
    exact ⟨rfl, rfl, h.trans (changes_close (by simp) (by simp) s.stdin w)⟩
  detachOutput := by
    rintro s _ w _ rfl ⟨rfl, h⟩
    exact ⟨rfl, rfl, h.trans (changes_close (by simp) (by simp) s.stdout w)⟩

theorem changes_runCommands (style : String → String) (commands : List Command) (w : World) :
    Changes {.remembers, .plumbs} w (runCommands style commands w).2 := by
  have hrun := (stages_alike w).run style (List.forall₂_refl (commands.map fun command => ({ command } : Stage)))
    ⟨rfl, .refl w⟩
  have h : Changes {.spends, .remembers, .plumbs} w (runCommands style commands w).2 :=
    (hrun.2.2.2.trans (Stage.changes_dropAll (by simp) (by simp) _ _)).trans (changes_settleBelow (by simp) _ _)
  rw [← closeSince_of_spare (spare_runCommands style commands w)]
  exact h.closed

/-- All that a line does to the world. -/
theorem changes_carryOut (style : String → String) (line : String) (w : World) :
    Changes {.remembers, .plumbs} w (carryOut style line w).2 := by
  unfold carryOut
  split
  · exact .refl w
  · exact ((changes_pushHistory (by simp) line w).trans (changes_note ..)).trans (changes_runCommands ..)

end Session

end CommandShell
