/-
  CommandShell.Proofs.Pipeline.Plumbing — worlds that keep pipes, and stages that hold ends of them.

  `HasPipes` says what a world does with its pipes, and `HoldsEnds` what a stage does with the ends it is given;
  starts and waits may do what they like with the data, and may let others have ends and take them back. From
  these rules alone:
  - `join_laid`: the pipes of a pipeline are new and numbered in order, and each is left with one holder of its
    read end, and with one holder of its write end unless the stage before it redirects its output.
  - `join_ends`, `run_ends`: the ends that the stages hold are those that the calls gave them.
  - `run_accounted`: after a run the world counts exactly those holders of ends whom it counted before, those that
    are no stages, and one for each end that a stage holds.
-/

import CommandShell.Pipeline.Rehearsal
import CommandShell.Proofs.Pipeline.Order

namespace CommandShell

/-! ## Who holds an end -/

/-- How many hold one side of a pipe. -/
def Pipe.holders (p : Pipe) : PipeSide → Nat
  | .read => p.readers
  | .write => p.writers

namespace Pipes

/-- How many hold an end. -/
def holders (ps : Pipes) (e : PipeEnd) : Nat := (ps[e.pipe]?.map (·.holders e.side)).getD 0

theorem holders_of_le {ps : Pipes} {e : PipeEnd} (h : ps.length ≤ e.pipe) : ps.holders e = 0 := by
  simp [holders, List.getElem?_eq_none h]

theorem length_release (ps : Pipes) (e : PipeEnd) : (ps.release e).length = ps.length := List.length_modify ..

theorem length_share (ps : Pipes) (e : PipeEnd) : (ps.share e).length = ps.length := List.length_modify ..

theorem holders_release (ps : Pipes) (e e' : PipeEnd) :
    (ps.release e).holders e' = ps.holders e' - if e = e' then 1 else 0 := by
  obtain ⟨pipe, side⟩ := e
  obtain ⟨pipe', side'⟩ := e'
  by_cases h : pipe = pipe'
  · subst h
    cases hp : ps[pipe]? <;> cases side <;> cases side' <;> simp [holders, release, Pipe.holders, hp]
  · simp [holders, release, h]

theorem holders_share {ps : Pipes} {e' : PipeEnd} (h : e'.pipe < ps.length) (e : PipeEnd) :
    (ps.share e).holders e' = ps.holders e' + if e = e' then 1 else 0 := by
  obtain ⟨pipe, side⟩ := e
  obtain ⟨pipe', side'⟩ := e'
  by_cases h' : pipe = pipe'
  · subst h'
    have hp := List.getElem?_eq_getElem h
    cases side <;> cases side' <;> simp [holders, share, Pipe.holders, hp]
  · simp [holders, share, h']

theorem holders_modify {ps : Pipes} (pipe : Nat) (f : Pipe → Pipe) (h : ∀ p side, (f p).holders side = p.holders side)
    (e : PipeEnd) : holders (ps.modify pipe f) e = ps.holders e := by
  unfold holders
  rw [List.getElem?_modify]
  split <;> cases ps[e.pipe]? <;> simp [h]

theorem holders_append (ps : Pipes) (p : Pipe) (e : PipeEnd) :
    (ps ++ [p]).holders e = if e.pipe = ps.length then p.holders e.side else ps.holders e := by
  by_cases h : e.pipe = ps.length
  · simp [holders, h]
  · rw [if_neg h]
    by_cases hlt : e.pipe < ps.length
    · simp [holders, List.getElem?_append_left hlt]
    · have hlen : (ps ++ [p]).length ≤ e.pipe := by
        simp only [List.length_append, List.length_singleton]
        omega
      rw [holders_of_le hlen, holders_of_le (Nat.not_lt.mp hlt)]

/-- Data comes and goes, but nobody takes or leaves an end. -/
theorem holders_write (ps : Pipes) (e : PipeEnd) (data : Bytes) :
    (ps.write e data).2.length = ps.length ∧ ∀ e', (ps.write e data).2.holders e' = ps.holders e' := by
  unfold write
  split
  · exact ⟨rfl, fun _ => rfl⟩
  · split
    · exact ⟨rfl, fun _ => rfl⟩
    · split
      · exact ⟨rfl, fun _ => rfl⟩
      · split
        · exact ⟨rfl, fun _ => rfl⟩
        · exact ⟨List.length_modify .., fun e' => holders_modify _ _ (fun _ _ => by rfl) e'⟩

theorem holders_read (ps : Pipes) (e : PipeEnd) :
    (ps.read e).2.length = ps.length ∧ ∀ e', (ps.read e).2.holders e' = ps.holders e' := by
  unfold read
  split
  · exact ⟨rfl, fun _ => rfl⟩
  · split
    · exact ⟨rfl, fun _ => rfl⟩
    · exact ⟨List.length_modify .., fun e' => holders_modify _ _ (fun _ _ => by rfl) e'⟩

end Pipes

namespace Pipeline

open Surroundings StageLike

/-- The pipes of a world, and how many hold an end of them who are no stages. -/
structure Plumbing where
  pipes : Pipes
  others : PipeEnd → Nat

namespace Plumbing

def create (p : Plumbing) : (PipeEnd × PipeEnd) × Plumbing := (p.pipes.create.1, { p with pipes := p.pipes.create.2 })

def release (p : Plumbing) (e : PipeEnd) : Plumbing := { p with pipes := p.pipes.release e }

/-- Give up an end, if there is one. -/
def releaseHeld (p : Plumbing) : Option PipeEnd → Plumbing
  | some e => p.release e
  | none => p

/-- Each holder that a pipe counts is one of the others or one of these. -/
def Accounted (p : Plumbing) (mine : PipeEnd → Nat) : Prop :=
  ∀ e, e.pipe < p.pipes.length → p.pipes.holders e = p.others e + mine e

theorem Accounted.congr {p : Plumbing} {mine mine' : PipeEnd → Nat} (h : p.Accounted mine)
    (he : ∀ e, mine e = mine' e) : p.Accounted mine' := by
  intro e hlt
  rw [h e hlt, he]

theorem Accounted.of_holders {p p' : Plumbing} {mine : PipeEnd → Nat} (h : p.Accounted mine)
    (hp : p'.pipes.length = p.pipes.length ∧ ∀ e, p'.pipes.holders e = p.pipes.holders e)
    (ho : p'.others = p.others) : p'.Accounted mine := by
  intro e hlt
  rw [hp.2, ho]
  exact h e (by rwa [hp.1] at hlt)

theorem Accounted.release {p : Plumbing} {mine : PipeEnd → Nat} {held : List PipeEnd} (e : PipeEnd)
    (h : p.Accounted fun e' => (e :: held).count e' + mine e') : (p.release e).Accounted fun e' => held.count e' + mine e' := by
  intro e' hlt
  have hlt' : e'.pipe < p.pipes.length := by simpa [Plumbing.release, Pipes.length_release] using hlt
  have := h e' hlt'
  simp only [Plumbing.release, Pipes.holders_release, this, List.count_cons, beq_iff_eq]
  split <;> omega

theorem Accounted.releaseHeld {p : Plumbing} {mine : PipeEnd → Nat} {held : List PipeEnd} (e : Option PipeEnd)
    (h : p.Accounted fun e' => (e.toList ++ held).count e' + mine e') :
    (p.releaseHeld e).Accounted fun e' => held.count e' + mine e' := by
  cases e with
  | none => exact h
  | some e => exact Accounted.release e h

end Plumbing

/-- A world that numbers its pipes in order and counts who holds their ends. -/
class HasPipes (W : Type) [Surroundings W] where
  plumbing : W → Plumbing
  makePipe_ok {w w' : W} {ends : PipeEnd × PipeEnd} :
    makePipe w = (.ok ends, w') → (plumbing w).create = (ends, plumbing w')
  makePipe_error {w w' : W} {errno : Errno} : makePipe w = (.error errno, w') → plumbing w' = plumbing w
  plumbing_dropEnd (e : PipeEnd) (w : W) : plumbing (dropEnd e w) = (plumbing w).release e
  plumbing_note (n : Notice) (w : W) : plumbing (note n w) = plumbing w
  plumbing_complain (style : String → String) (message : String) (w : W) :
    plumbing (complain style message w) = plumbing w

open HasPipes

/-- Stages that hold the ends they are given until they are told to give them back. -/
class HoldsEnds (S W : Type) [Surroundings W] [HasPipes W] [StageLike S W] where
  /-- What a stage reads from and writes to, where these are ends of pipes. -/
  ends : S → Option PipeEnd × Option PipeEnd
  outputRedirected_attachInput (s : S) (e : PipeEnd) (w : W) :
    outputRedirected W (attachInput s e w).1 = outputRedirected W s
  ends_attachInput (s : S) (e : PipeEnd) (w : W) : ends (attachInput s e w).1 = (some e, (ends s).2)
  ends_attachOutput (s : S) (e : PipeEnd) (w : W) : ends (attachOutput s e w).1 = ((ends s).1, some e)
  ends_start (s : S) (w : W) : ends (start s w).2.1 = ends s
  ends_wait (s : S) (w : W) : ends (wait s w).2.1 = ends s
  ends_detachInput (s : S) (w : W) : ends (detachInput s w).1 = (none, (ends s).2)
  ends_detachOutput (s : S) (w : W) : ends (detachOutput s w).1 = ((ends s).1, none)
  plumbing_attachInput (s : S) (e : PipeEnd) (w : W) : plumbing (attachInput s e w).2 = plumbing w
  plumbing_attachOutput (s : S) (e : PipeEnd) (w : W) : plumbing (attachOutput s e w).2 = plumbing w
  plumbing_detachInput (s : S) (w : W) : plumbing (detachInput s w).2 = (plumbing w).releaseHeld (ends s).1
  plumbing_detachOutput (s : S) (w : W) : plumbing (detachOutput s w).2 = (plumbing w).releaseHeld (ends s).2
  /-- A start lets others have ends only on top of what is held already, and a wait takes back only those. -/
  accounted_start (s : S) {w : W} {mine : PipeEnd → Nat} :
    (plumbing w).Accounted mine → (plumbing (start s w).2.2).Accounted mine
  accounted_wait (s : S) {w : W} {mine : PipeEnd → Nat} :
    (plumbing w).Accounted mine → (plumbing (wait s w).2.2).Accounted mine

open HoldsEnds

section Rules

variable {S W : Type} [Surroundings W] [HasPipes W] [StageLike S W] [HoldsEnds S W]

/-! ## The ends that the stages hold -/

/-- What the calls gave to a watched stage is what the stage holds. -/
theorem holding_alike :
    Alike (fun (p : Watched S) (s : S) => p.stage = s ∧ ends W s = (p.input, p.output))
      (fun (t : Traced W) (w : W) => t.world = w) where
  makePipe := by rintro t _ rfl; exact ⟨rfl, rfl⟩
  dropEnd := by rintro t _ e rfl; rfl
  note := by rintro t _ n rfl; rfl
  complain := by rintro t _ style message rfl; rfl
  outputRedirected := by rintro p _ ⟨rfl, -⟩; rfl
  attachInput := by
    rintro p _ t _ e ⟨rfl, h⟩ rfl
    exact ⟨⟨rfl, by rw [ends_attachInput, h]; rfl⟩, rfl⟩
  attachOutput := by
    rintro p _ t _ e ⟨rfl, h⟩ rfl
    exact ⟨⟨rfl, by rw [ends_attachOutput, h]; rfl⟩, rfl⟩
  start := by
    rintro p _ t _ ⟨rfl, h⟩ rfl
    exact ⟨rfl, ⟨rfl, by rw [ends_start, h]; rfl⟩, rfl⟩
  wait := by
    rintro p _ t _ ⟨rfl, h⟩ rfl
    exact ⟨rfl, ⟨rfl, by rw [ends_wait, h]; rfl⟩, rfl⟩
  detachInput := by
    rintro p _ t _ ⟨rfl, h⟩ rfl
    exact ⟨⟨rfl, by rw [ends_detachInput, h]; rfl⟩, rfl⟩
  detachOutput := by
    rintro p _ t _ ⟨rfl, h⟩ rfl
    exact ⟨⟨rfl, by rw [ends_detachOutput, h]; rfl⟩, rfl⟩

/-- None of the stages holds an end. -/
def Unwired (W : Type) [Surroundings W] [HasPipes W] [StageLike S W] [HoldsEnds S W] (stages : List S) : Prop :=
  ∀ s ∈ stages, ends W s = (none, none)

theorem map_ends {ps : List (Watched S)} {stages : List S}
    (h : List.Forall₂ (fun (p : Watched S) (s : S) => p.stage = s ∧ ends W s = (p.input, p.output)) ps stages) :
    stages.map (ends W) = ps.map fun p => (p.input, p.output) := by
  induction h with
  | nil => rfl
  | cons h _ ih => rw [List.map_cons, List.map_cons, h.2, ih]

theorem Unwired.forall₂ {stages : List S} (h : Unwired W stages) :
    List.Forall₂ (fun (p : Watched S) (s : S) => p.stage = s ∧ ends W s = (p.input, p.output)) (watched stages) stages :=
  forall₂_watched fun _ s hs => ⟨rfl, h s (List.mem_of_getElem? hs)⟩

theorem run_ends {stages : List S} (h : Unwired W stages) (style : String → String) (w : W) :
    (run style stages w).2.1.map (ends W) = (watch style stages w).2.1.map fun p => (p.input, p.output) :=
  map_ends (holding_alike.run style h.forall₂ (rfl : ({ world := w } : Traced W).world = w)).2.1

theorem join_ends {stages : List S} (h : Unwired W stages) (w : W) :
    let r := join (watched stages) ({ world := w } : Traced W)
    (join stages w).1 = r.1 ∧ (join stages w).2.1.map (ends W) = (r.2.1.map fun p => (p.input, p.output)) ∧
      (join stages w).2.2 = r.2.2.world := by
  obtain ⟨he, hs, hw⟩ := holding_alike.join h.forall₂ (rfl : ({ world := w } : Traced W).world = w)
  exact ⟨he.symm, map_ends hs, hw.symm⟩

/-! ## The pipes of a pipeline -/

/-- The ends that the system gave. -/
def Call.newEnds? : Call → Option (PipeEnd × PipeEnd)
  | .makePipe (.ok ends) => some ends
  | _ => none

/-- The two ends of the pipe with this number. -/
def bothEnds (pipe : Nat) : PipeEnd × PipeEnd := (⟨pipe, .read⟩, ⟨pipe, .write⟩)

/-- The pipe behind a stage, as it is when the stages have been joined. -/
def pipeBehind (W : Type) [StageLike S W] (s : S) : Pipe := { writers := if outputRedirected W s then 0 else 1 }

/-- These pipes have been added. -/
def Plumbing.extend (p : Plumbing) (new : Pipes) : Plumbing := { p with pipes := p.pipes ++ new }

theorem Plumbing.extend_extend (p : Plumbing) (new new' : Pipes) : (p.extend new).extend new' = p.extend (new ++ new') := by
  simp [extend]

theorem Plumbing.release_create (p : Plumbing) :
    p.create.2.release p.create.1.2 = p.extend [{ writers := 0 }] := by
  simp [create, release, extend, Pipes.create, Pipes.release, List.modify_eq_take_cons_drop]

omit [HasPipes W] [HoldsEnds S W] in
theorem offer_world (i : Nat) (left : Watched S) (writer : PipeEnd) (t : Traced W) :
    (offer i left writer t).2.world = (offer i left.stage writer t.world).2 := by
  have hr : outputRedirected (Traced W) left = outputRedirected W left.stage := rfl
  unfold offer
  rw [hr]
  split <;> rfl

theorem offer_plumbing (i : Nat) (left : S) {w w₁ : W} {reader writer : PipeEnd}
    (h : makePipe w = (.ok (reader, writer), w₁)) :
    (reader, writer) = bothEnds (plumbing w).pipes.length ∧
      plumbing (offer i left writer w₁).2 = (plumbing w).extend [pipeBehind W left] := by
  have hc := makePipe_ok h
  have hends : (plumbing w).create.1 = (reader, writer) := by rw [hc]
  have hnew : (plumbing w).create.2 = plumbing w₁ := by rw [hc]
  refine ⟨hends.symm, ?_⟩
  unfold offer pipeBehind
  by_cases hred : outputRedirected W left = true
  · rw [if_pos hred, if_pos hred, ← Plumbing.release_create, hnew, hends]
    exact (plumbing_dropEnd writer _).trans (by rw [plumbing_note])
  · rw [if_neg hred, if_neg hred]
    exact (plumbing_attachOutput left writer w₁).trans hnew.symm

/-- Each pipe that is made has the number that comes next, and is left as `pipeBehind` says. -/
theorem joinFrom_laid (rest : List (Watched S)) : ∀ (i : Nat) (left : Watched S) (t : Traced W),
    ∃ m ≤ rest.length,
      plumbing (joinFrom i left rest t).2.2.world =
          (plumbing t.world).extend (((left :: rest).take m).map fun p => pipeBehind W p.stage) ∧
        (joinFrom i left rest t).2.2.calls.filterMap Call.newEnds? =
          t.calls.filterMap Call.newEnds? ++ (List.range' (plumbing t.world).pipes.length m).map bothEnds := by
  induction rest with
  | nil =>
    intro i left t
    exact ⟨0, Nat.le_refl 0, by simp [joinFrom, Plumbing.extend], by simp [joinFrom]⟩
  | cons right rest ih =>
    intro i left t
    rcases hm : makePipe t with ⟨answer, t₁⟩
    obtain ⟨hworld, ht₁⟩ := makePipe_watched hm
    cases answer with
    | error errno =>
      rw [joinFrom_error hm]
      refine ⟨0, Nat.zero_le _, ?_, ?_⟩
      · rw [makePipe_error hworld]
        simp [Plumbing.extend]
      · simp [ht₁, Call.newEnds?]
    | ok ends =>
      obtain ⟨reader, writer⟩ := ends
      obtain ⟨hends, hplumbing⟩ := offer_plumbing i left.stage hworld
      rw [← offer_world] at hplumbing
      have hcalls := offer_calls i left writer t₁
      rw [joinFrom_ok hm]
      set l := offer i left writer t₁ with hl
      set r := attachInput right reader l.2 with hr
      obtain ⟨m, hle, hp, hc⟩ := ih (i + 1) r.1 r.2
      have hworld : plumbing r.2.world = plumbing l.2.world := plumbing_attachInput right.stage reader l.2.world
      have hred : outputRedirected W r.1.stage = outputRedirected W right.stage :=
        outputRedirected_attachInput right.stage reader l.2.world
      have hbehind : ((r.1 :: rest).take m).map (fun p => pipeBehind W p.stage) =
          ((right :: rest).take m).map fun p => pipeBehind W p.stage := by
        cases m <;> simp [pipeBehind, hred]
      have hin : r.2.calls = l.2.calls ++ [.attachInput right.number reader] := rfl
      rw [hworld, hplumbing] at hp hc
      refine ⟨m + 1, Nat.succ_le_succ hle, ?_, ?_⟩
      · show plumbing (joinFrom (i + 1) r.1 rest r.2).2.2.world = _
        rw [hp, Plumbing.extend_extend, hbehind]
        simp
      · show (joinFrom (i + 1) r.1 rest r.2).2.2.calls.filterMap _ = _
        have hlen : ((plumbing t.world).extend [pipeBehind W left.stage]).pipes.length =
            (plumbing t.world).pipes.length + 1 := by simp [Plumbing.extend]
        rw [hc, hin, hcalls, ht₁, hlen, List.range'_succ, List.map_cons, ← hends]
        cases outputRedirected W left.stage <;> simp [Call.newEnds?]

/-- The joints of these stages when the first pipe has this number. -/
def laid (W : Type) [StageLike S W] (stages : List S) (base k : Nat) : Joint :=
  ⟨⟨base + k, .read⟩, ⟨base + k, .write⟩, stages[k]?.any (outputRedirected W)⟩

theorem newEnds?_wiring (joint : Nat → Joint) (n : Nat) (failure : Option Errno) :
    (wiring joint 0 n ++ refusal failure).filterMap Call.newEnds? =
      (List.range n).map fun i => ((joint i).reader, (joint i).writer) := by
  have hr : (refusal failure).filterMap Call.newEnds? = [] := by cases failure <;> rfl
  rw [List.filterMap_append, hr, List.append_nil, filterMap_wiring, List.map_eq_flatMap]
  congr 1
  funext i
  cases h : (joint i).redirected <;> simp [Joint.calls, h, Call.newEnds?]

theorem Asked.eq {stages : List S} {k : Nat} {answer : Bool} (h : Asked W stages k answer) :
    answer = stages[k]?.any (outputRedirected W) := by
  obtain ⟨s, hs, h⟩ := h
  rw [hs, Option.any_some]
  split at h
  · exact h
  · obtain ⟨e, w, h⟩ := h
    rw [h, outputRedirected_attachInput]

omit [HasPipes W] [HoldsEnds S W] in
theorem Wired.congr {stages : List S} {w : W} {joint joint' : Nat → Joint} {made : Nat} {failure : Option Errno}
    {ps : List (Watched S)} {t : Traced W} (h : Wired stages w joint made failure ps t)
    (hj : ∀ k < made, joint k = joint' k) : Wired stages w joint' made failure ps t := by
  refine ⟨h.joined, h.made_le, h.complete, ?_, ?_, ?_⟩
  · rw [h.calls]
    congr 1
    apply List.flatMap_congr
    intro k hk
    rw [hj k (by have := (List.mem_range'_1.mp hk).2; omega)]
  · rw [h.slots]
    apply slots_congr
    · intro k _
      unfold wiredInput
      by_cases hk : 0 < k ∧ k ≤ made
      · rw [if_pos hk, if_pos hk, hj (k - 1) (by omega)]
      · rw [if_neg hk, if_neg hk]
    · intro k _
      unfold wiredOutput
      by_cases hk : k < made
      · rw [hj k hk]
      · simp [hk]
  · intro k hk
    rw [← hj k hk]
    exact h.asked k hk

/-- The pipes between the stages are new and numbered in order, and each is left as `pipeBehind` says. -/
theorem join_laid (first : S) (rest : List S) (w : W) :
    ∃ made failure ps t,
      Wired (first :: rest) w (laid W (first :: rest) (plumbing w).pipes.length) made failure ps t ∧
        plumbing t.world = (plumbing w).extend (((first :: rest).take made).map (pipeBehind W)) := by
  obtain ⟨joint, made, failure, ps, t, h⟩ := join_watched first rest w
  have hj := h.joined
  rw [watched_cons] at hj
  obtain ⟨m, -, hp, hc⟩ := joinFrom_laid (rest.mapIdx fun i s => (⟨i + 1, s, none, none⟩ : Watched S)) 0
    ⟨0, first, none, none⟩ ({ world := w } : Traced W)
  rw [← watched_cons] at hp
  rw [show joinFrom 0 _ _ _ = _ from hj] at hp hc
  rw [h.calls, newEnds?_wiring] at hc
  have hm : made = m := by simpa using congrArg List.length hc
  subst hm
  have hstages : (first :: rest).take made = ((watched (first :: rest)).take made).map Watched.stage := by
    rw [List.map_take, show (watched (first :: rest)).map Watched.stage = _ from watched_stages (first :: rest) 0]
  refine ⟨made, failure, ps, t, h.congr ?_, ?_⟩
  · intro k hk
    have hends : some ((joint k).reader, (joint k).writer) = some (bothEnds ((plumbing w).pipes.length + k)) := by
      simpa [hk] using congrArg (·[k]?) hc
    have hred := (h.asked k hk).eq
    cases hjoint : joint k
    rw [hjoint] at hends hred
    cases hends
    cases hred
    rfl
  · rw [hstages, List.map_map]
    exact hp

/-! ## No end is lost -/

/-- The ends that a stage holds. -/
def held (W : Type) [Surroundings W] [HasPipes W] [StageLike S W] [HoldsEnds S W] (s : S) : List PipeEnd :=
  (ends W s).1.toList ++ (ends W s).2.toList

/-- The ends that these stages hold. -/
def heldBy (W : Type) [Surroundings W] [HasPipes W] [StageLike S W] [HoldsEnds S W] (stages : List S) : List PipeEnd :=
  stages.flatMap (held W)

omit [StageLike S W] [HoldsEnds S W] in
theorem plumbing_announce (style : String → String) (error : StageError) (w : W) :
    plumbing (announce style error w) = plumbing w := by
  unfold announce
  split
  · exact plumbing_note _ w
  · exact (plumbing_complain _ _ _).trans (plumbing_note _ w)

omit [StageLike S W] [HoldsEnds S W] in
theorem plumbing_conclude (style : String → String) (error : StageError) (w : W) :
    plumbing (conclude style error w) = plumbing w := by
  unfold conclude
  split
  · exact plumbing_note _ w
  · exact plumbing_announce style _ w

theorem startFrom_accounted (style : String → String) (stages : List S) : ∀ (i : Nat) {w : W} {mine : PipeEnd → Nat},
    (plumbing w).Accounted mine →
      (plumbing (startFrom style i stages w).2.2).Accounted mine ∧
        heldBy W (startFrom style i stages w).2.1 = heldBy W stages := by
  induction stages with
  | nil => intro i w mine h; exact ⟨h, rfl⟩
  | cons s rest ih =>
    intro i w mine h
    obtain ⟨hb, hheld⟩ := ih (i + 1) h
    rcases hr : startFrom style (i + 1) rest w with ⟨all, rest₁, w₁⟩
    rw [hr] at hb hheld
    cases all with
    | false =>
      simp only [startFrom, hr]
      exact ⟨hb, congrArg (held W s ++ ·) hheld⟩
    | true =>
      have hs := accounted_start s hb
      have he := ends_start s w₁
      rcases hst : start s w₁ with ⟨answer, s₁, w₂⟩
      rw [hst] at hs he
      have hheld₁ : heldBy W (s₁ :: rest₁) = heldBy W (s :: rest) := by
        simp only [heldBy, List.flatMap_cons, held, he] at hheld ⊢
        rw [hheld]
      cases answer with
      | ok _ =>
        simp only [startFrom, hr, hst]
        exact ⟨hs, hheld₁⟩
      | error error =>
        simp only [startFrom, hr, hst]
        exact ⟨by rwa [plumbing_announce, plumbing_note], hheld₁⟩

theorem closeEnds_accounted (isFirst isLast : Bool) {s : S} {w : W} {mine : PipeEnd → Nat}
    (h : (plumbing w).Accounted fun e => (held W s).count e + mine e) :
    (plumbing (closeEnds isFirst isLast s w).2).Accounted fun e =>
      (held W (closeEnds isFirst isLast s w).1).count e + mine e := by
  have hin (s : S) (w : W) (h : (plumbing w).Accounted fun e => (held W s).count e + mine e) :
      (plumbing (detachInput s w).2).Accounted fun e => (held W (detachInput s w).1).count e + mine e := by
    unfold held
    rw [plumbing_detachInput, ends_detachInput]
    exact h.releaseHeld _
  have hout (s : S) (w : W) (h : (plumbing w).Accounted fun e => (held W s).count e + mine e) :
      (plumbing (detachOutput s w).2).Accounted fun e => (held W (detachOutput s w).1).count e + mine e := by
    unfold held at h ⊢
    rw [plumbing_detachOutput, ends_detachOutput]
    refine Plumbing.Accounted.releaseHeld _ (h.congr fun e => ?_)
    simp only [List.count_append, Option.toList_none, List.count_nil]
    omega
  cases isFirst <;> cases isLast
  · exact hout _ _ (hin _ _ h)
  · exact hin _ _ h
  · exact hout _ _ h
  · exact h

theorem waitFrom_accounted (style : String → String) (stages : List S) :
    ∀ (isFirst : Bool) {w : W} {mine : PipeEnd → Nat},
      ((plumbing w).Accounted fun e => (heldBy W stages).count e + mine e) →
        (plumbing (waitFrom style isFirst stages w).2.2).Accounted fun e =>
          (heldBy W (waitFrom style isFirst stages w).2.1).count e + mine e := by
  induction stages with
  | nil => intro isFirst w mine h; exact h
  | cons s rest ih =>
    intro isFirst w mine h
    have hs := accounted_wait s h
    have he := ends_wait s w
    rcases hw : wait s w with ⟨answer, s₁, w₁⟩
    rw [hw] at hs he
    have hheld : held W s₁ = held W s := by simp only [held, he]
    rcases answer with error | _
    · rw [waitFrom_error hw, plumbing_conclude]
      simpa only [heldBy, List.flatMap_cons, hheld] using hs
    · rw [waitFrom_ok hw]
      have hc : (plumbing w₁).Accounted fun e => (held W s₁).count e + ((heldBy W rest).count e + mine e) := by
        refine hs.congr fun e => ?_
        simp only [heldBy, List.flatMap_cons, hheld, List.count_append]
        omega
      have hclosed := closeEnds_accounted isFirst rest.isEmpty hc
      have hb := ih false (hclosed.congr fun e => Nat.add_left_comm _ _ _)
      refine hb.congr fun e => ?_
      simp only [heldBy, List.flatMap_cons, List.count_append]
      omega

/-- The write end of the pipe behind a stage, if the stage takes it. -/
def takenEnd (W : Type) [StageLike S W] (s : S) (writer : PipeEnd) : List PipeEnd :=
  if outputRedirected W s then [] else [writer]

theorem count_of_pipe_ne {e e' : PipeEnd} (h : e.pipe ≠ e'.pipe) : [e'].count e = 0 := by
  rw [List.count_eq_zero, List.mem_singleton]
  rintro rfl
  exact h rfl

omit [Surroundings W] [HasPipes W] [HoldsEnds S W] in
theorem count_takenEnd (s : S) {e writer : PipeEnd} (h : e.pipe ≠ writer.pipe) : (takenEnd W s writer).count e = 0 := by
  unfold takenEnd
  split
  · rfl
  · exact count_of_pipe_ne h

omit [Surroundings W] [HasPipes W] [HoldsEnds S W] in
/-- A new pipe is held by those between whom it lies. -/
theorem Plumbing.Accounted.extend {p : Plumbing} {mine : PipeEnd → Nat} (h : p.Accounted mine)
    (hnew : ∀ e : PipeEnd, p.pipes.length ≤ e.pipe → p.others e = 0 ∧ mine e = 0) (s : S) :
    (p.extend [pipeBehind W s]).Accounted fun e =>
      (takenEnd W s ⟨p.pipes.length, .write⟩).count e + ([(⟨p.pipes.length, .read⟩ : PipeEnd)].count e + mine e) := by
  intro e hlt
  have hlt' : e.pipe < p.pipes.length + 1 := by simpa [Plumbing.extend] using hlt
  simp only [Plumbing.extend, Pipes.holders_append]
  by_cases he : e.pipe = p.pipes.length
  · obtain ⟨ho, hm⟩ := hnew e (Nat.le_of_eq he.symm)
    obtain ⟨pipe, side⟩ := e
    subst he
    rw [if_pos rfl, ho, hm]
    cases side <;> cases hr : outputRedirected W s <;> simp [pipeBehind, takenEnd, Pipe.holders, hr]
  · rw [if_neg he, h e (by omega), count_of_pipe_ne he, count_takenEnd s he]
    omega

theorem offer_held (i : Nat) {left : S} (writer : PipeEnd) (w : W) (h : (ends W left).2 = none) :
    held W (offer i left writer w).1 = held W left ++ takenEnd W left writer := by
  unfold offer takenEnd
  by_cases hred : outputRedirected W left = true
  · simp [hred]
  · simp [hred, held, ends_attachOutput, h]

theorem Unwired.heldBy {stages : List S} (h : Unwired W stages) : heldBy W stages = [] := by
  apply List.flatMap_eq_nil_iff.mpr
  intro s hs
  simp [held, h s hs]

theorem joinFrom_accounted (rest : List S) : ∀ (i : Nat) {left : S} {w : W} {mine : PipeEnd → Nat},
    (ends W left).2 = none → Unwired W rest →
      ((plumbing w).Accounted fun e => (held W left).count e + mine e) →
      (∀ e : PipeEnd, (plumbing w).pipes.length ≤ e.pipe → (plumbing w).others e = 0 ∧ (held W left).count e + mine e = 0) →
      (plumbing (joinFrom i left rest w).2.2).Accounted fun e =>
        (heldBy W (joinFrom i left rest w).2.1).count e + mine e := by
  induction rest with
  | nil =>
    intro i left w mine _ _ h _
    exact h.congr fun e => by simp [joinFrom, heldBy]
  | cons right rest ih =>
    intro i left w mine hout hun h hnew
    rcases hm : makePipe w with ⟨answer, w₁⟩
    cases answer with
    | error errno =>
      rw [joinFrom_error hm, makePipe_error hm]
      refine h.congr fun e => ?_
      rw [show heldBy W (left :: right :: rest) = held W left ++ heldBy W (right :: rest) from rfl, hun.heldBy,
        List.append_nil]
    | ok pipe =>
      obtain ⟨reader, writer⟩ := pipe
      obtain ⟨hpipe, hplumbing⟩ := offer_plumbing i left hm
      cases hpipe
      rw [joinFrom_ok hm]
      have hext := h.extend (W := W) hnew left
      set base := (plumbing w).pipes.length
      have hl := offer_held i ⟨base, .write⟩ w₁ hout
      set l := offer i left ⟨base, .write⟩ w₁
      set r := attachInput right ⟨base, .read⟩ l.2 with hr
      have hends : ends W r.1 = (some ⟨base, .read⟩, none) := by
        rw [hr, ends_attachInput, hun right List.mem_cons_self]
      have hheld : held W r.1 = [⟨base, .read⟩] := by simp [held, hends]
      have hworld : plumbing r.2 = (plumbing w).extend [pipeBehind W left] :=
        (plumbing_attachInput right _ l.2).trans hplumbing
      have hacc : (plumbing r.2).Accounted fun e => (held W r.1).count e + ((held W l.1).count e + mine e) := by
        rw [hworld, hheld, hl]
        refine hext.congr fun e => ?_
        simp only [List.count_append]
        omega
      have hnew' : ∀ e : PipeEnd, (plumbing r.2).pipes.length ≤ e.pipe →
          (plumbing r.2).others e = 0 ∧ (held W r.1).count e + ((held W l.1).count e + mine e) = 0 := by
        intro e he
        have hlt : base + 1 ≤ e.pipe := by simpa [hworld, Plumbing.extend] using he
        have hne : e.pipe ≠ base := by omega
        obtain ⟨ho, hz⟩ := hnew e (by omega)
        rw [hworld, hheld, hl, List.count_append, count_of_pipe_ne hne, count_takenEnd left hne]
        exact ⟨ho, by omega⟩
      have hb := ih (i + 1) (by rw [hends]) (fun s hs => hun s (List.mem_cons_of_mem _ hs)) hacc hnew'
      refine hb.congr fun e => ?_
      show _ = (held W l.1 ++ heldBy W (joinFrom (i + 1) r.1 rest r.2).2.1).count e + mine e
      rw [List.count_append]
      omega

/-- After a run each holder that a pipe counts is one of the others, a stage, or one that was there before. -/
theorem run_accounted {stages : List S} (hun : Unwired W stages) (style : String → String) {w : W} {mine : PipeEnd → Nat}
    (h : ∀ e, (plumbing w).pipes.holders e = (plumbing w).others e + mine e) :
    (plumbing (run style stages w).2.2).Accounted fun e => (heldBy W (run style stages w).2.1).count e + mine e := by
  have hjoin : (plumbing (join stages w).2.2).Accounted fun e => (heldBy W (join stages w).2.1).count e + mine e := by
    cases stages with
    | nil => exact fun e _ => (h e).trans (by simp [join, heldBy])
    | cons first rest =>
      have hfirst := hun first List.mem_cons_self
      have hheld : held W first = [] := by simp [held, hfirst]
      refine joinFrom_accounted rest 0 (by rw [hfirst]) (fun s hs => hun s (List.mem_cons_of_mem _ hs)) ?_ ?_
      · exact fun e _ => (h e).trans (by simp [hheld])
      · intro e he
        have hz := h e
        rw [Pipes.holders_of_le he] at hz
        simp only [hheld, List.count_nil]
        omega
  rcases hj : join stages w with ⟨error, stages₁, w₁⟩
  rw [hj] at hjoin
  cases error with
  | some error => rwa [run_unjoined hj, plumbing_announce]
  | none =>
    obtain ⟨hstart, hheld⟩ := startFrom_accounted style stages₁ 0 hjoin
    rw [run_joined hj]
    rw [← hheld] at hstart
    exact waitFrom_accounted style _ true hstart

end Rules

end Pipeline

/-! ## Players -/

namespace Rehearsal

open Pipeline

/-- In a rehearsal nobody but the players holds an end. -/
instance : HasPipes Book where
  plumbing b := ⟨b.pipes, fun _ => 0⟩
  makePipe_ok {b b' ends} h := by
    simp only [Surroundings.makePipe, Book.makePipe] at h
    split at h <;> cases h
    rfl
  makePipe_error {b b' errno} h := by
    simp only [Surroundings.makePipe, Book.makePipe] at h
    split at h <;> cases h
    rfl
  plumbing_dropEnd _ _ := rfl
  plumbing_note _ _ := rfl
  plumbing_complain _ _ _ := rfl

theorem plumbing_dropHeld (e : Option PipeEnd) (b : Book) :
    HasPipes.plumbing (b.dropHeld e) = (HasPipes.plumbing b).releaseHeld e := by
  cases e <;> rfl

theorem accounted_start (p : Player) {b : Book} {mine : PipeEnd → Nat} (h : (HasPipes.plumbing b).Accounted mine) :
    (HasPipes.plumbing (p.start b).2.2).Accounted mine := by
  unfold Player.start
  cases p.startError with
  | some error => exact h
  | none =>
    cases p.emit with
    | none => exact h
    | some text =>
      simp only [Option.map_some, Option.getD_some, Player.say]
      cases p.stdout with
      | none => exact h
      | some e => exact h.of_holders (Pipes.holders_write b.pipes e _) rfl

theorem accounted_wait (p : Player) {b : Book} {mine : PipeEnd → Nat} (h : (HasPipes.plumbing b).Accounted mine) :
    (HasPipes.plumbing (p.wait b).2.2).Accounted mine := by
  have hread : (HasPipes.plumbing (p.readAll (b.add (.wait p.name)))).Accounted mine := by
    unfold Player.readAll
    cases p.stdin with
    | none => exact h
    | some e =>
      dsimp only
      split
      · exact h
      · exact h.of_holders (Pipes.holders_read b.pipes e) rfl
  unfold Player.wait
  cases p.waitError <;> exact hread

instance : HoldsEnds Player Book where
  ends p := (p.stdin, p.stdout)
  outputRedirected_attachInput _ _ _ := rfl
  ends_attachInput _ _ _ := rfl
  ends_attachOutput _ _ _ := rfl
  ends_start p b := by
    simp only [StageLike.start, Player.start]
    split <;> rfl
  ends_wait p b := by
    simp only [StageLike.wait, Player.wait]
    split <;> rfl
  ends_detachInput _ _ := rfl
  ends_detachOutput _ _ := rfl
  plumbing_attachInput _ _ _ := rfl
  plumbing_attachOutput _ _ _ := rfl
  plumbing_detachInput p b := plumbing_dropHeld p.stdin _
  plumbing_detachOutput p b := plumbing_dropHeld p.stdout _
  accounted_start p := accounted_start p
  accounted_wait p := accounted_wait p

end Rehearsal

end CommandShell
