/-
  CommandShell.Proofs.Pipeline.Trace — a run of a pipeline that writes down every call it makes.

  A watched stage knows its number and the pipe ends it was given and not yet told to give back; a traced world
  keeps every call with its answer. Watching changes nothing: `Alike.run` says that two kinds of stages that
  answer alike run alike, so a watched run, with the watching forgotten, is the run itself (`watch_run`).
-/

import CommandShell.Pipeline
import Mathlib.Data.List.Forall2

namespace CommandShell

namespace Pipeline

open Surroundings StageLike

/-! ## One step at a time -/

section Steps

variable {S W : Type} [Surroundings W] [StageLike S W]

/-- What the shell does after a wait that failed. -/
def verdict : StageError → Next
  | .exitRequested code => .leave code
  | _ => .goOn

/-- What a run does with the failure of a wait: a request to leave is only noted. -/
def conclude (style : String → String) (error : StageError) (w : W) : W :=
  match error with
  | .exitRequested code => note (.exitReceived code) w
  | error => announce style error w

theorem waitFrom_error {style : String → String} {isFirst : Bool} {stage stage' : S} {rest : List S} {w w' : W}
    {error : StageError} (h : wait stage w = (.error error, stage', w')) :
    waitFrom style isFirst (stage :: rest) w = (verdict error, stage' :: rest, conclude style error w') := by
  cases error <;> simp [waitFrom, h, verdict, conclude]

theorem waitFrom_ok {style : String → String} {isFirst : Bool} {stage stage' : S} {rest : List S} {w w' : W}
    (h : wait stage w = (.ok (), stage', w')) :
    waitFrom style isFirst (stage :: rest) w =
      let closed := closeEnds isFirst rest.isEmpty stage' w'
      let behind := waitFrom style false rest closed.2
      (behind.1, closed.1 :: behind.2.1, behind.2.2) := by
  simp [waitFrom, h]

theorem run_unjoined {style : String → String} {stages stages' : List S} {w w' : W} {error : StageError}
    (h : join stages w = (some error, stages', w')) :
    run style stages w = (.goOn, stages', announce style error w') := by
  simp [run, h]

theorem run_joined {style : String → String} {stages stages' : List S} {w w' : W}
    (h : join stages w = (none, stages', w')) :
    run style stages w =
      waitFrom style true (startFrom style 0 stages' w').2.1 (startFrom style 0 stages' w').2.2 := by
  simp [run, h]

end Steps

/-! ## Stages that answer alike -/

section Alike

variable {S S' W W' : Type} [Surroundings W] [StageLike S W] [Surroundings W'] [StageLike S' W']

/-- Related stages in related worlds give the same answers, and stay related. -/
structure Alike (RS : S → S' → Prop) (RW : W → W' → Prop) : Prop where
  makePipe {w : W} {w' : W'} : RW w w' →
    (makePipe w).1 = (makePipe w').1 ∧ RW (makePipe w).2 (makePipe w').2
  dropEnd {w : W} {w' : W'} (e : PipeEnd) : RW w w' → RW (dropEnd e w) (dropEnd e w')
  note {w : W} {w' : W'} (n : Notice) : RW w w' → RW (note n w) (note n w')
  complain {w : W} {w' : W'} (style : String → String) (message : String) : RW w w' →
    RW (complain style message w) (complain style message w')
  outputRedirected {s : S} {s' : S'} : RS s s' → outputRedirected W s = outputRedirected W' s'
  attachInput {s : S} {s' : S'} {w : W} {w' : W'} (e : PipeEnd) : RS s s' → RW w w' →
    RS (attachInput s e w).1 (attachInput s' e w').1 ∧ RW (attachInput s e w).2 (attachInput s' e w').2
  attachOutput {s : S} {s' : S'} {w : W} {w' : W'} (e : PipeEnd) : RS s s' → RW w w' →
    RS (attachOutput s e w).1 (attachOutput s' e w').1 ∧ RW (attachOutput s e w).2 (attachOutput s' e w').2
  start {s : S} {s' : S'} {w : W} {w' : W'} : RS s s' → RW w w' →
    (start s w).1 = (start s' w').1 ∧ RS (start s w).2.1 (start s' w').2.1 ∧ RW (start s w).2.2 (start s' w').2.2
  wait {s : S} {s' : S'} {w : W} {w' : W'} : RS s s' → RW w w' →
    (wait s w).1 = (wait s' w').1 ∧ RS (wait s w).2.1 (wait s' w').2.1 ∧ RW (wait s w).2.2 (wait s' w').2.2
  detachInput {s : S} {s' : S'} {w : W} {w' : W'} : RS s s' → RW w w' →
    RS (detachInput s w).1 (detachInput s' w').1 ∧ RW (detachInput s w).2 (detachInput s' w').2
  detachOutput {s : S} {s' : S'} {w : W} {w' : W'} : RS s s' → RW w w' →
    RS (detachOutput s w).1 (detachOutput s' w').1 ∧ RW (detachOutput s w).2 (detachOutput s' w').2

/-- The same answer, related stages and related worlds. -/
def Agree {A : Type} (RS : S → S' → Prop) (RW : W → W' → Prop) (r : A × List S × W) (r' : A × List S' × W') : Prop :=
  r.1 = r'.1 ∧ List.Forall₂ RS r.2.1 r'.2.1 ∧ RW r.2.2 r'.2.2

variable {RS : S → S' → Prop} {RW : W → W' → Prop}

theorem Alike.announce (h : Alike RS RW) (style : String → String) (error : StageError) {w : W} {w' : W'}
    (hw : RW w w') : RW (announce style error w) (announce style error w') := by
  have hn := h.note (.failed error) hw
  unfold Pipeline.announce
  by_cases hs : error.isSilent = true
  · simpa [hs] using hn
  · simpa [hs] using h.complain style error.message hn

theorem Alike.conclude (h : Alike RS RW) (style : String → String) (error : StageError) {w : W} {w' : W'}
    (hw : RW w w') : RW (conclude style error w) (conclude style error w') := by
  unfold Pipeline.conclude
  split
  · exact h.note (.exitReceived _) hw
  · exact h.announce style _ hw

theorem Alike.joinFrom (h : Alike RS RW) {rest : List S} {rest' : List S'} (hrest : List.Forall₂ RS rest rest') :
    ∀ (i : Nat) {left : S} {left' : S'} {w : W} {w' : W'}, RS left left' → RW w w' →
      Agree RS RW (joinFrom i left rest w) (joinFrom i left' rest' w') := by
  induction hrest with
  | nil => intro i left left' w w' hl hw; exact ⟨rfl, .cons hl .nil, hw⟩
  | @cons right right' rest rest' hr hrest ih =>
    intro i left left' w w' hl hw
    obtain ⟨ha, hw₁⟩ := h.makePipe hw
    rcases hm : Surroundings.makePipe w with ⟨answer, w₁⟩
    rcases hm' : Surroundings.makePipe w' with ⟨answer', w₁'⟩
    rw [hm, hm'] at ha hw₁
    subst ha
    cases answer with
    | error errno =>
      simp only [Pipeline.joinFrom, hm, hm']
      exact ⟨rfl, .cons hl (.cons hr hrest), hw₁⟩
    | ok ends =>
      obtain ⟨reader, writer⟩ := ends
      simp only [Pipeline.joinFrom, hm, hm', h.outputRedirected hl]
      by_cases hd : StageLike.outputRedirected W' left' = true
      · have hin := h.attachInput reader hr (h.dropEnd writer (h.note (.writeEndUnused i) hw₁))
        obtain ⟨he, hs, hw⟩ := ih (i + 1) hin.1 hin.2
        simp only [hd, if_true]
        exact ⟨he, .cons hl hs, hw⟩
      · have hout := h.attachOutput writer hl hw₁
        have hin := h.attachInput reader hr hout.2
        obtain ⟨he, hs, hw⟩ := ih (i + 1) hin.1 hin.2
        simp only [hd]
        exact ⟨he, .cons hout.1 hs, hw⟩

theorem Alike.join (h : Alike RS RW) {stages : List S} {stages' : List S'} (hs : List.Forall₂ RS stages stages')
    {w : W} {w' : W'} (hw : RW w w') : Agree RS RW (join stages w) (join stages' w') := by
  cases hs with
  | nil => exact ⟨rfl, .nil, hw⟩
  | cons hl hr => exact h.joinFrom hr 0 hl hw

theorem Alike.startFrom (h : Alike RS RW) (style : String → String) {stages : List S} {stages' : List S'}
    (hs : List.Forall₂ RS stages stages') : ∀ (i : Nat) {w : W} {w' : W'}, RW w w' →
      Agree RS RW (startFrom style i stages w) (startFrom style i stages' w') := by
  induction hs with
  | nil => intro i w w' hw; exact ⟨rfl, .nil, hw⟩
  | @cons s s' rest rest' hs hrest ih =>
    intro i w w' hw
    obtain ⟨ha, hrs, hw₁⟩ := ih (i + 1) hw
    rcases hb : Pipeline.startFrom style (i + 1) rest w with ⟨all, rest₁, w₁⟩
    rcases hb' : Pipeline.startFrom style (i + 1) rest' w' with ⟨all', rest₁', w₁'⟩
    rw [hb, hb'] at ha hrs hw₁
    subst ha
    cases all with
    | false =>
      simp only [Pipeline.startFrom, hb, hb']
      exact ⟨rfl, .cons hs hrs, hw₁⟩
    | true =>
      obtain ⟨ha, hs₁, hw₂⟩ := h.start hs hw₁
      rcases hc : StageLike.start s w₁ with ⟨answer, s₁, w₂⟩
      rcases hc' : StageLike.start s' w₁' with ⟨answer', s₁', w₂'⟩
      rw [hc, hc'] at ha hs₁ hw₂
      subst ha
      cases answer with
      | ok _ =>
        simp only [Pipeline.startFrom, hb, hb', hc, hc']
        exact ⟨rfl, .cons hs₁ hrs, hw₂⟩
      | error error =>
        simp only [Pipeline.startFrom, hb, hb', hc, hc']
        exact ⟨rfl, .cons hs₁ hrs, h.announce style error (h.note (.startAbandoned i) hw₂)⟩

theorem Alike.closeEnds (h : Alike RS RW) (isFirst isLast : Bool) {s : S} {s' : S'} {w : W} {w' : W'} (hs : RS s s')
    (hw : RW w w') : RS (closeEnds isFirst isLast s w).1 (closeEnds isFirst isLast s' w').1 ∧
      RW (closeEnds isFirst isLast s w).2 (closeEnds isFirst isLast s' w').2 := by
  have hin := h.detachInput hs hw
  cases isFirst <;> cases isLast
  · exact h.detachOutput hin.1 hin.2
  · exact hin
  · exact h.detachOutput hs hw
  · exact ⟨hs, hw⟩

theorem Alike.waitFrom (h : Alike RS RW) (style : String → String) {stages : List S} {stages' : List S'}
    (hs : List.Forall₂ RS stages stages') : ∀ (isFirst : Bool) {w : W} {w' : W'}, RW w w' →
      Agree RS RW (waitFrom style isFirst stages w) (waitFrom style isFirst stages' w') := by
  induction hs with
  | nil => intro isFirst w w' hw; exact ⟨rfl, .nil, hw⟩
  | @cons s s' rest rest' hs hrest ih =>
    intro isFirst w w' hw
    obtain ⟨ha, hs₁, hw₁⟩ := h.wait hs hw
    rcases hc : StageLike.wait s w with ⟨answer, s₁, w₁⟩
    rcases hc' : StageLike.wait s' w' with ⟨answer', s₁', w₁'⟩
    rw [hc, hc'] at ha hs₁ hw₁
    subst ha
    rcases answer with error | _
    · rw [waitFrom_error hc, waitFrom_error hc']
      exact ⟨rfl, .cons hs₁ hrest, h.conclude style error hw₁⟩
    · have he : rest.isEmpty = rest'.isEmpty := by cases hrest <;> rfl
      have hcl := h.closeEnds isFirst rest'.isEmpty hs₁ hw₁
      obtain ⟨hn, hrs, hw₂⟩ := ih false hcl.2
      rw [waitFrom_ok hc, waitFrom_ok hc', he]
      exact ⟨hn, .cons hcl.1 hrs, hw₂⟩

/-- Related stages run alike. -/
theorem Alike.run (h : Alike RS RW) (style : String → String) {stages : List S} {stages' : List S'}
    (hs : List.Forall₂ RS stages stages') {w : W} {w' : W'} (hw : RW w w') :
    Agree RS RW (run style stages w) (run style stages' w') := by
  obtain ⟨ha, hs₁, hw₁⟩ := h.join hs hw
  rcases hj : Pipeline.join stages w with ⟨error, stages₁, w₁⟩
  rcases hj' : Pipeline.join stages' w' with ⟨error', stages₁', w₁'⟩
  rw [hj, hj'] at ha hs₁ hw₁
  subst ha
  cases error with
  | some error =>
    rw [run_unjoined hj, run_unjoined hj']
    exact ⟨rfl, hs₁, h.announce style error hw₁⟩
  | none =>
    obtain ⟨-, hs₂, hw₂⟩ := h.startFrom style hs₁ 0 hw₁
    rw [run_joined hj, run_joined hj']
    exact h.waitFrom style hs₂ true hw₂

end Alike

/-! ## Calls, and those who write them down -/

/-- A call that a run makes, with its answer. Stages go by their numbers. -/
inductive Call where
  | makePipe (answer : Except Errno (PipeEnd × PipeEnd))
  | dropEnd (e : PipeEnd)
  | attachInput (stage : Nat) (e : PipeEnd)
  | attachOutput (stage : Nat) (e : PipeEnd)
  | start (stage : Nat) (failure : Option StageError)
  | wait (stage : Nat) (failure : Option StageError)
  | detachInput (stage : Nat)
  | detachOutput (stage : Nat)
  /-- A message was shown; styled, it reads so. -/
  | complain (message styled : String)

/-- A stage with its number and the pipe ends that it was given and not yet told to give back. -/
structure Watched (S : Type) where
  number : Nat
  stage : S
  input : Option PipeEnd := none
  output : Option PipeEnd := none

/-- A world with the calls made so far. -/
structure Traced (W : Type) where
  world : W
  calls : List Call := []

/-- The failure in an answer. -/
def failure? : Except StageError Unit → Option StageError
  | .ok _ => none
  | .error error => some error

/-- The call `c` has been made and has left the world `w`. -/
def Traced.made {W : Type} (t : Traced W) (c : Call) (w : W) : Traced W := ⟨w, t.calls ++ [c]⟩

section Watching

variable {S W : Type} [Surroundings W] [StageLike S W]

instance : Surroundings (Traced W) where
  makePipe t := ((makePipe t.world).1, t.made (.makePipe (makePipe t.world).1) (makePipe t.world).2)
  dropEnd e t := t.made (.dropEnd e) (dropEnd e t.world)
  note n t := { t with world := note n t.world }
  complain style message t := t.made (.complain message (style message)) (complain style message t.world)

instance : StageLike (Watched S) (Traced W) where
  outputRedirected p := outputRedirected W p.stage
  attachInput p e t :=
    let r := attachInput p.stage e t.world
    ({ p with stage := r.1, input := some e }, t.made (.attachInput p.number e) r.2)
  attachOutput p e t :=
    let r := attachOutput p.stage e t.world
    ({ p with stage := r.1, output := some e }, t.made (.attachOutput p.number e) r.2)
  start p t :=
    let r := start p.stage t.world
    (r.1, { p with stage := r.2.1 }, t.made (.start p.number (failure? r.1)) r.2.2)
  wait p t :=
    let r := wait p.stage t.world
    (r.1, { p with stage := r.2.1 }, t.made (.wait p.number (failure? r.1)) r.2.2)
  detachInput p t :=
    let r := detachInput p.stage t.world
    ({ p with stage := r.1, input := none }, t.made (.detachInput p.number) r.2)
  detachOutput p t :=
    let r := detachOutput p.stage t.world
    ({ p with stage := r.1, output := none }, t.made (.detachOutput p.number) r.2)

/-- The stages with their numbers, none of them given anything yet. -/
def watched (stages : List S) : List (Watched S) := stages.mapIdx fun i s => { number := i, stage := s }

/-- A run that writes down its calls. -/
def watch (style : String → String) (stages : List S) (w : W) : Next × List (Watched S) × Traced W :=
  run style (watched stages) ({ world := w } : Traced W)

/-- The calls of a run, in order. -/
def callsOf (style : String → String) (stages : List S) (w : W) : List Call := (watch style stages w).2.2.calls

theorem watching_alike :
    Alike (fun (p : Watched S) (s : S) => p.stage = s) (fun (t : Traced W) (w : W) => t.world = w) where
  makePipe := by rintro t _ rfl; exact ⟨rfl, rfl⟩
  dropEnd := by rintro t _ e rfl; rfl
  note := by rintro t _ n rfl; rfl
  complain := by rintro t _ style message rfl; rfl
  outputRedirected := by rintro p _ rfl; rfl
  attachInput := by rintro p _ t _ e rfl rfl; exact ⟨rfl, rfl⟩
  attachOutput := by rintro p _ t _ e rfl rfl; exact ⟨rfl, rfl⟩
  start := by rintro p _ t _ rfl rfl; exact ⟨rfl, rfl, rfl⟩
  wait := by rintro p _ t _ rfl rfl; exact ⟨rfl, rfl, rfl⟩
  detachInput := by rintro p _ t _ rfl rfl; exact ⟨rfl, rfl⟩
  detachOutput := by rintro p _ t _ rfl rfl; exact ⟨rfl, rfl⟩

theorem forall₂_watched {R : Watched S → S → Prop} {stages : List S}
    (h : ∀ i s, stages[i]? = some s → R ⟨i, s, none, none⟩ s) : List.Forall₂ R (watched stages) stages := by
  rw [List.forall₂_iff_get]
  refine ⟨by simp [watched], ?_⟩
  intro i h₁ h₂
  simpa [watched] using h i _ (List.getElem?_eq_getElem h₂)

/-- With the watching forgotten, a watched run is the run itself. -/
theorem watch_run (style : String → String) (stages : List S) (w : W) :
    (watch style stages w).1 = (run style stages w).1 ∧
      (watch style stages w).2.1.map Watched.stage = (run style stages w).2.1 ∧
      (watch style stages w).2.2.world = (run style stages w).2.2 := by
  have hs : List.Forall₂ (fun (p : Watched S) (s : S) => p.stage = s) (watched stages) stages :=
    forall₂_watched fun _ _ _ => rfl
  obtain ⟨hn, hr, hw⟩ := watching_alike.run style hs (rfl : ({ world := w } : Traced W).world = w)
  refine ⟨hn, ?_, hw⟩
  rwa [← List.forall₂_eq_eq_eq, List.forall₂_map_left_iff]

end Watching

end Pipeline

end CommandShell
