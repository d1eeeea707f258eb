/-
  CommandShell.Proofs.Pipeline.Custody — who holds the pipe ends of a pipeline, from the first call to the last.

  A custody says which end each holder has and which ends have been given up. The run itself holds the two ends of
  a new pipe until it has handed them out, and each stage has room for one end to read from and one to write to.
  Every call moves ends about (`Custody.after`), and is allowed only if the end it names is there to be moved and
  the place it goes to is free (`Custody.Allows`).
  - `Custody.Sound.after`: allowed calls never give an end to two holders, never give one up twice, and lose none.
  - `Went.standing`: every call of a run is allowed; and when a stage is waited for, nobody holds the write end of
    the pipe that it reads from.
  - `ends_owned`: what the stages hold when they have been joined and when the run is over.
-/

import CommandShell.Proofs.Pipeline.Outcome
import CommandShell.Proofs.Pipeline.Plumbing

namespace CommandShell

namespace Pipeline

open Surroundings StageLike HasPipes HoldsEnds

/-! ## Custody -/

/-- Who can hold an end. -/
inductive Holder where
  /-- The run, between making a pipe and handing out its ends. -/
  | hand (side : PipeSide)
  | input (stage : Nat)
  | output (stage : Nat)
  deriving DecidableEq

structure Custody where
  holds : Holder → Option PipeEnd := fun _ => none
  /-- All ends that there have been. -/
  made : List PipeEnd := []
  released : List PipeEnd := []

namespace Custody

/-- `h` has this end now, or none. -/
def put (c : Custody) (h : Holder) (e : Option PipeEnd) : Custody :=
  { c with holds := fun h' => if h' = h then e else c.holds h' }

/-- `h` gives up what it has. -/
def release (c : Custody) (h : Holder) : Custody :=
  { c.put h none with released := c.released ++ (c.holds h).toList }

/-- `h` hands what it has to `h'`. -/
def pass (c : Custody) (h h' : Holder) : Custody := (c.put h' (c.holds h)).put h none

/-- What a call does to the ends. -/
def after (c : Custody) : Call → Custody
  | .makePipe (.ok (reader, writer)) =>
    { (c.put (.hand .read) (some reader)).put (.hand .write) (some writer) with made := c.made ++ [reader, writer] }
  | .dropEnd e => c.release (.hand e.side)
  | .attachInput i _ => c.pass (.hand .read) (.input i)
  | .attachOutput i _ => c.pass (.hand .write) (.output i)
  | .detachInput i => c.release (.input i)
  | .detachOutput i => c.release (.output i)
  | _ => c

/-- May the call be made? New ends have to be new and the hand empty; an end that is dropped or attached has to be
    in the hand, and the place that it goes to has to be free. -/
def Allows (c : Custody) : Call → Prop
  | .makePipe (.ok (reader, writer)) =>
    reader ≠ writer ∧ reader ∉ c.made ∧ writer ∉ c.made ∧ ∀ side, c.holds (.hand side) = none
  | .dropEnd e => c.holds (.hand e.side) = some e
  | .attachInput i e => c.holds (.hand .read) = some e ∧ c.holds (.input i) = none
  | .attachOutput i e => c.holds (.hand .write) = some e ∧ c.holds (.output i) = none
  | _ => True

/-- No end has two holders, none is given up twice or held after it was given up, and each end that there has been
    is held or given up. -/
structure Sound (c : Custody) : Prop where
  single : ∀ {h h' e}, c.holds h = some e → c.holds h' = some e → h = h'
  once : c.released.Nodup
  apart : ∀ {h e}, c.holds h = some e → e ∉ c.released
  known : ∀ e, e ∈ c.made ↔ (∃ h, c.holds h = some e) ∨ e ∈ c.released

theorem sound_empty : Sound {} := ⟨by simp, by simp, by simp, by simp⟩

@[simp] theorem holds_put (c : Custody) (h : Holder) (e : Option PipeEnd) (h' : Holder) :
    (c.put h e).holds h' = if h' = h then e else c.holds h' := rfl

@[simp] theorem holds_release (c : Custody) (h h' : Holder) :
    (c.release h).holds h' = if h' = h then none else c.holds h' := rfl

@[simp] theorem holds_pass (c : Custody) (h h' h'' : Holder) :
    (c.pass h h').holds h'' = if h'' = h then none else if h'' = h' then c.holds h else c.holds h'' := rfl

theorem mem_released {c : Custody} {h : Holder} {e : PipeEnd} :
    e ∈ (c.release h).released ↔ e ∈ c.released ∨ c.holds h = some e := by
  simp [release]

theorem holds_release_eq {c : Custody} {h h' : Holder} {e : PipeEnd} :
    (c.release h).holds h' = some e ↔ h' ≠ h ∧ c.holds h' = some e := by
  by_cases heq : h' = h <;> simp [heq]

theorem Sound.release {c : Custody} (hs : c.Sound) (h : Holder) : (c.release h).Sound := by
  refine ⟨?_, ?_, ?_, ?_⟩
  · intro h₁ h₂ e h1 h2
    exact hs.single (holds_release_eq.mp h1).2 (holds_release_eq.mp h2).2
  · show (c.released ++ (c.holds h).toList).Nodup
    cases he : c.holds h with
    | none => simpa using hs.once
    | some e =>
      rw [Option.toList_some, List.nodup_append]
      refine ⟨hs.once, by simp, ?_⟩
      rintro a ha b hb rfl
      rw [List.mem_singleton.mp hb] at ha
      exact hs.apart he ha
  · intro h' e h1
    obtain ⟨hne, h1⟩ := holds_release_eq.mp h1
    rw [mem_released]
    rintro (hmem | he)
    · exact hs.apart h1 hmem
    · exact hne (hs.single h1 he)
  · intro e
    refine (hs.known e).trans ⟨?_, ?_⟩
    · rintro (⟨h', he⟩ | hmem)
      · by_cases heq : h' = h
        · exact .inr (mem_released.mpr (.inr (heq ▸ he)))
        · exact .inl ⟨h', holds_release_eq.mpr ⟨heq, he⟩⟩
      · exact .inr (mem_released.mpr (.inl hmem))
    · rintro (⟨h', he⟩ | hmem)
      · exact .inl ⟨h', (holds_release_eq.mp he).2⟩
      · rcases mem_released.mp hmem with hmem | he
        · exact .inr hmem
        · exact .inl ⟨h, he⟩

/-- What is handed on has the new holder instead of the old one. -/
theorem holds_pass_eq {c : Custody} {h h' h'' : Holder} {e : PipeEnd} (hne : h ≠ h') (hfree : c.holds h' = none) :
    (c.pass h h').holds h'' = some e ↔ (h'' = h' ∧ c.holds h = some e) ∨ (h'' ≠ h ∧ c.holds h'' = some e) := by
  by_cases h1 : h'' = h
  · subst h1
    simp [hne]
  · by_cases h2 : h'' = h'
    · subst h2
      simp [h1, hfree]
    · simp [h1, h2]

theorem Sound.pass {c : Custody} (hs : c.Sound) {h h' : Holder} (hne : h ≠ h') (hfree : c.holds h' = none) :
    (c.pass h h').Sound := by
  refine ⟨?_, hs.once, ?_, ?_⟩
  · intro h₁ h₂ e h1 h2
    rcases (holds_pass_eq hne hfree).mp h1 with ⟨heq₁, k1⟩ | ⟨hne₁, k1⟩ <;>
      rcases (holds_pass_eq hne hfree).mp h2 with ⟨heq₂, k2⟩ | ⟨hne₂, k2⟩
    · exact heq₁.trans heq₂.symm
    · exact absurd (hs.single k2 k1) hne₂
    · exact absurd (hs.single k1 k2) hne₁
    · exact hs.single k1 k2
  · intro h₁ e h1
    rcases (holds_pass_eq hne hfree).mp h1 with ⟨-, h1⟩ | ⟨-, h1⟩ <;> exact hs.apart h1
  · intro e
    refine (hs.known e).trans (or_congr_left ⟨?_, ?_⟩)
    · rintro ⟨h₁, h1⟩
      by_cases heq : h₁ = h
      · exact ⟨h', (holds_pass_eq hne hfree).mpr (.inl ⟨rfl, heq ▸ h1⟩)⟩
      · exact ⟨h₁, (holds_pass_eq hne hfree).mpr (.inr ⟨heq, h1⟩)⟩
    · rintro ⟨h₁, h1⟩
      rcases (holds_pass_eq hne hfree).mp h1 with ⟨-, h1⟩ | ⟨-, h1⟩
      · exact ⟨h, h1⟩
      · exact ⟨h₁, h1⟩

/-- A new end in a free place. -/
theorem Sound.take {c : Custody} (hs : c.Sound) {h : Holder} {e : PipeEnd} (hfree : c.holds h = none)
    (hnew : e ∉ c.made) : Sound { c.put h (some e) with made := c.made ++ [e] } := by
  have hunheld : ∀ h', c.holds h' ≠ some e := fun h' he => hnew ((hs.known e).mpr (.inl ⟨h', he⟩))
  have hholds : ∀ {h' e'}, (c.put h (some e)).holds h' = some e' ↔ (h' = h ∧ e = e') ∨ c.holds h' = some e' := by
    intro h' e'
    by_cases heq : h' = h
    · simp [heq, hfree]
    · simp [heq]
  refine ⟨?_, hs.once, ?_, ?_⟩
  · intro h₁ h₂ e' h1 h2
    rcases hholds.mp h1 with ⟨heq₁, rfl⟩ | k1 <;> rcases hholds.mp h2 with ⟨heq₂, he⟩ | k2
    · exact heq₁.trans heq₂.symm
    · exact absurd k2 (hunheld h₂)
    · exact absurd (he ▸ k1) (hunheld h₁)
    · exact hs.single k1 k2
  · intro h₁ e' h1
    rcases hholds.mp h1 with ⟨rfl, rfl⟩ | h1
    · exact fun hmem => hnew ((hs.known e).mpr (.inr hmem))
    · exact hs.apart h1
  · intro e'
    rw [List.mem_append, List.mem_singleton, hs.known]
    constructor
    · rintro ((⟨h₁, h1⟩ | hmem) | rfl)
      · exact .inl ⟨h₁, hholds.mpr (.inr h1)⟩
      · exact .inr hmem
      · exact .inl ⟨h, hholds.mpr (.inl ⟨rfl, rfl⟩)⟩
    · rintro (⟨h₁, h1⟩ | hmem)
      · rcases hholds.mp h1 with ⟨-, rfl⟩ | h1
        · exact .inr rfl
        · exact .inl (.inl ⟨h₁, h1⟩)
      · exact .inl (.inr hmem)

/-- Allowed calls keep a custody sound. -/
theorem Sound.after {c : Custody} (hs : c.Sound) {call : Call} (h : c.Allows call) : (c.after call).Sound := by
  cases call with
  | makePipe answer =>
    cases answer with
    | error errno => exact hs
    | ok ends =>
      obtain ⟨reader, writer⟩ := ends
      obtain ⟨hne, hr, hw, hfree⟩ := h
      have hs₁ := hs.take (hfree .read) hr
      have hs₂ := hs₁.take (h := .hand .write) (e := writer) (hfree .write) (by simp [hw, Ne.symm hne])
      simpa [Custody.after, put] using hs₂
  | attachInput i e => exact hs.pass (by simp) h.2
  | attachOutput i e => exact hs.pass (by simp) h.2
  | dropEnd e => exact hs.release _
  | detachInput i => exact hs.release _
  | detachOutput i => exact hs.release _
  | start i failure => exact hs
  | wait i failure => exact hs
  | complain message styled => exact hs

/-- The custody after these calls. -/
def afterAll (c : Custody) (calls : List Call) : Custody := calls.foldl after c

/-- `P` holds of each of these calls and the custody that it finds. -/
def Throughout (P : Custody → Call → Prop) (c : Custody) : List Call → Prop
  | [] => True
  | call :: rest => P c call ∧ Throughout P (c.after call) rest

theorem afterAll_append (c : Custody) (a b : List Call) : c.afterAll (a ++ b) = (c.afterAll a).afterAll b :=
  List.foldl_append

theorem throughout_append {P : Custody → Call → Prop} (a b : List Call) : ∀ {c : Custody},
    Throughout P c (a ++ b) ↔ Throughout P c a ∧ Throughout P (c.afterAll a) b := by
  induction a with
  | nil => intro c; simp [Throughout, afterAll]
  | cons call rest ih => intro c; simp only [List.cons_append, Throughout, ih, and_assoc]; rfl

/-- A property of all calls is one of each call behind all those before it. -/
theorem Throughout.at {P : Custody → Call → Prop} {c : Custody} {calls : List Call} (h : Throughout P c calls)
    {before behind : List Call} {call : Call} (hc : calls = before ++ call :: behind) : P (c.afterAll before) call := by
  subst hc
  exact ((throughout_append _ _).mp h).2.1

theorem Throughout.mono {P Q : Custody → Call → Prop} (hPQ : ∀ c call, P c call → Q c call) (calls : List Call) :
    ∀ {c : Custody}, Throughout P c calls → Throughout Q c calls := by
  induction calls with
  | nil => intro c _; trivial
  | cons call rest ih => intro c h; exact ⟨hPQ c call h.1, ih h.2⟩

theorem Sound.afterAll (calls : List Call) : ∀ {c : Custody}, c.Sound → Throughout Allows c calls → (c.afterAll calls).Sound := by
  induction calls with
  | nil => intro c hs _; exact hs
  | cons call rest ih => intro c hs h; exact ih (hs.after h.1) h.2

end Custody

/-! ## The custody of a run -/

open Custody

/-- The call is allowed; and a stage behind the first that is waited for has the pipe behind the stage before it to
    read from, and nobody holds the write end of this pipe. The first pipe has the number `base`. -/
def Orderly (base : Nat) (c : Custody) (call : Call) : Prop :=
  c.Allows call ∧ ∀ i failure, call = .wait (i + 1) failure →
    c.holds (.input (i + 1)) = some ⟨base + i, .read⟩ ∧ ∀ h, c.holds h ≠ some ⟨base + i, .write⟩

/-- The run has these ends in its hand and the stages have these; the pipes made so far are `made`, the first of them
    with the number `base`. -/
structure Places (c : Custody) (base made : Nat) (hand : PipeSide → Option PipeEnd)
    (input output : Nat → Option PipeEnd) : Prop where
  hand : ∀ side, c.holds (.hand side) = hand side
  input : ∀ k, c.holds (.input k) = input k
  output : ∀ k, c.holds (.output k) = output k
  fresh : ∀ e ∈ c.made, e.pipe < base + made

/-- The hand is empty. -/
abbrev Standing (c : Custody) (base made : Nat) (input output : Nat → Option PipeEnd) : Prop :=
  Places c base made (fun _ => none) input output

/-- Only a wait has more to it than that it is allowed. -/
theorem Allows.orderly {c : Custody} {call : Call} (base : Nat) (h : c.Allows call)
    (hw : ∀ i failure, call ≠ .wait i failure) : Orderly base c call :=
  ⟨h, fun _ failure he => absurd he (hw _ failure)⟩

/-! One call at a time -/

namespace Places

variable {c : Custody} {base made : Nat} {hand : PipeSide → Option PipeEnd} {input output : Nat → Option PipeEnd}

theorem congr {hand' : PipeSide → Option PipeEnd} {input' output' : Nat → Option PipeEnd}
    (h : Places c base made hand input output) (hh : ∀ side, hand side = hand' side) (hi : ∀ k, input k = input' k)
    (ho : ∀ k, output k = output' k) : Places c base made hand' input' output' :=
  ⟨fun side => (h.hand side).trans (hh side), fun k => (h.input k).trans (hi k), fun k => (h.output k).trans (ho k), h.fresh⟩

/-- A new pipe comes into the hand. -/
theorem makePipe (h : Standing c base made input output) :
    Orderly base c (.makePipe (.ok (bothEnds (base + made)))) ∧
      Places (c.after (.makePipe (.ok (bothEnds (base + made))))) base (made + 1) (fun side => some ⟨base + made, side⟩)
        input output := by
  have hnew : ∀ side, (⟨base + made, side⟩ : PipeEnd) ∉ c.made := fun side hmem =>
    absurd (h.fresh _ hmem) (Nat.lt_irrefl _)
  refine ⟨Allows.orderly base ⟨by simp, hnew _, hnew _, h.hand⟩ (by simp), ?_, h.input, h.output, ?_⟩
  · intro side
    cases side <;> simp [Custody.after, bothEnds]
  · intro e he
    rcases List.mem_append.mp he with he | he
    · have := h.fresh e he
      omega
    · simp only [List.mem_cons, List.not_mem_nil, or_false] at he
      rcases he with rfl | rfl <;> exact Nat.lt_succ_self _

/-- An end is dropped from the hand. -/
theorem dropEnd (h : Places c base made hand input output) {e : PipeEnd} (he : hand e.side = some e) :
    Orderly base c (.dropEnd e) ∧
      Places (c.after (.dropEnd e)) base made (fun side => if side = e.side then none else hand side) input output := by
  refine ⟨Allows.orderly base ((h.hand _).trans he) (by simp), fun side => ?_, fun k => ?_, fun k => ?_, h.fresh⟩
  · by_cases hs : side = e.side <;> simp [Custody.after, h.hand, hs]
  · simp [Custody.after, h.input]
  · simp [Custody.after, h.output]

/-- Stage `i` takes an end to read from out of the hand. -/
theorem attachInput (h : Places c base made hand input output) {i : Nat} {e : PipeEnd} (he : hand .read = some e)
    (hfree : input i = none) :
    Orderly base c (.attachInput i e) ∧
      Places (c.after (.attachInput i e)) base made (fun side => if side = .read then none else hand side)
        (fun k => if k = i then some e else input k) output := by
  refine ⟨Allows.orderly base ⟨(h.hand _).trans he, (h.input i).trans hfree⟩ (by simp), fun side => ?_, fun k => ?_,
    fun k => ?_, h.fresh⟩
  · by_cases hs : side = .read <;> simp [Custody.after, h.hand, hs]
  · by_cases hk : k = i <;> simp [Custody.after, h.hand, h.input, he, hk]
  · simp [Custody.after, h.output]

/-- Stage `i` takes an end to write to out of the hand. -/
theorem attachOutput (h : Places c base made hand input output) {i : Nat} {e : PipeEnd} (he : hand .write = some e)
    (hfree : output i = none) :
    Orderly base c (.attachOutput i e) ∧
      Places (c.after (.attachOutput i e)) base made (fun side => if side = .write then none else hand side) input
        (fun k => if k = i then some e else output k) := by
  refine ⟨Allows.orderly base ⟨(h.hand _).trans he, (h.output i).trans hfree⟩ (by simp), fun side => ?_, fun k => ?_,
    fun k => ?_, h.fresh⟩
  · by_cases hs : side = .write <;> simp [Custody.after, h.hand, hs]
  · simp [Custody.after, h.input]
  · by_cases hk : k = i <;> simp [Custody.after, h.hand, h.output, he, hk]

/-- Stage `i` gives up its end to read from, if it has one. -/
theorem detachInput (h : Places c base made hand input output) (i : Nat) :
    Orderly base c (.detachInput i) ∧
      Places (c.after (.detachInput i)) base made hand (fun k => if k = i then none else input k) output := by
  refine ⟨Allows.orderly base trivial (by simp), fun side => ?_, fun k => ?_, fun k => ?_, h.fresh⟩
  · simp [Custody.after, h.hand]
  · by_cases hk : k = i <;> simp [Custody.after, h.input, hk]
  · simp [Custody.after, h.output]

/-- Stage `i` gives up its end to write to, if it has one. -/
theorem detachOutput (h : Places c base made hand input output) (i : Nat) :
    Orderly base c (.detachOutput i) ∧
      Places (c.after (.detachOutput i)) base made hand input (fun k => if k = i then none else output k) := by
  refine ⟨Allows.orderly base trivial (by simp), fun side => ?_, fun k => ?_, fun k => ?_, h.fresh⟩
  · simp [Custody.after, h.hand]
  · simp [Custody.after, h.input]
  · by_cases hk : k = i <;> simp [Custody.after, h.output, hk]

end Places

/-! Wiring -/

section Wiring

variable {S W : Type} [StageLike S W] (stages : List S) (base : Nat)

theorem wiredInput_succ (joint : Nat → Joint) (k i : Nat) :
    wiredInput joint (k + 1) i = if i = k + 1 then some (joint k).reader else wiredInput joint k i := by
  unfold wiredInput
  by_cases h : i = k + 1
  · simp [h]
  · have : (0 < i ∧ i ≤ k + 1) ↔ (0 < i ∧ i ≤ k) := by omega
    simp only [h, this, if_false]

theorem wiredOutput_succ (joint : Nat → Joint) (k i : Nat) :
    wiredOutput joint (k + 1) i =
      if i = k then (if (joint k).redirected then none else some (joint k).writer) else wiredOutput joint k i := by
  unfold wiredOutput
  by_cases h : i = k
  · subst h
    cases (joint i).redirected <;> simp
  · have : i < k + 1 ↔ i < k := by omega
    simp only [h, this, if_false]

/-- The wiring of one more pipe. -/
theorem Standing.joint {c : Custody} {k : Nat}
    (h : Standing c base k (wiredInput (laid W stages base) k) (wiredOutput (laid W stages base) k)) :
    Throughout (Orderly base) c ((laid W stages base k).calls k) ∧
      Standing (c.afterAll ((laid W stages base k).calls k)) base (k + 1) (wiredInput (laid W stages base) (k + 1))
        (wiredOutput (laid W stages base) (k + 1)) := by
  have hin : wiredInput (laid W stages base) k (k + 1) = none := by simp [wiredInput]
  have hout : wiredOutput (laid W stages base) k k = none := by simp [wiredOutput]
  have hinput : ∀ i, (if i = k + 1 then some ⟨base + k, .read⟩ else wiredInput (laid W stages base) k i) =
      wiredInput (laid W stages base) (k + 1) i := fun i => (wiredInput_succ _ k i).symm
  obtain ⟨hmake, hmade⟩ := h.makePipe
  cases hred : (laid W stages base k).redirected with
  | true =>
    have hcalls : (laid W stages base k).calls k = [.makePipe (.ok (bothEnds (base + k))),
        .dropEnd ⟨base + k, .write⟩, .attachInput (k + 1) ⟨base + k, .read⟩] := by
      simp only [Joint.calls, hred, if_true]
      rfl
    obtain ⟨hdrop, hdropped⟩ := hmade.dropEnd (e := ⟨base + k, .write⟩) rfl
    obtain ⟨hgive, hgiven⟩ := hdropped.attachInput (i := k + 1) (e := ⟨base + k, .read⟩) rfl hin
    rw [hcalls]
    refine ⟨⟨hmake, hdrop, hgive, trivial⟩, hgiven.congr (fun side => by cases side <;> rfl) hinput fun i => ?_⟩
    rw [wiredOutput_succ, hred]
    by_cases hi : i = k <;> simp [hi, hout]
  | false =>
    have hcalls : (laid W stages base k).calls k = [.makePipe (.ok (bothEnds (base + k))),
        .attachOutput k ⟨base + k, .write⟩, .attachInput (k + 1) ⟨base + k, .read⟩] := by
      simp only [Joint.calls, hred]
      rfl
    obtain ⟨htake, htaken⟩ := hmade.attachOutput (i := k) (e := ⟨base + k, .write⟩) rfl hout
    obtain ⟨hgive, hgiven⟩ := htaken.attachInput (i := k + 1) (e := ⟨base + k, .read⟩) rfl hin
    rw [hcalls]
    refine ⟨⟨hmake, htake, hgive, trivial⟩, hgiven.congr (fun side => by cases side <;> rfl) hinput fun i => ?_⟩
    rw [wiredOutput_succ, hred]
    rfl

theorem wiring_concat (joint : Nat → Joint) (n : Nat) : wiring joint 0 (n + 1) = wiring joint 0 n ++ (joint n).calls n := by
  simp [wiring, List.range'_1_concat]

theorem standing_wiring (n : Nat) :
    Throughout (Orderly base) {} (wiring (laid W stages base) 0 n) ∧
      Standing (({} : Custody).afterAll (wiring (laid W stages base) 0 n)) base n (wiredInput (laid W stages base) n)
        (wiredOutput (laid W stages base) n) := by
  induction n with
  | zero =>
    refine ⟨trivial, fun _ => rfl, fun k => ?_, fun k => ?_, by simp [wiring, afterAll]⟩
    · have : ¬ (0 < k ∧ k ≤ 0) := by omega
      rw [wiredInput, if_neg this]
      rfl
    · simp [wiring, afterAll, wiredOutput]
  | succ n ih =>
    obtain ⟨ho, hs⟩ := ih.2.joint
    rw [wiring_concat]
    refine ⟨(throughout_append _ _).mpr ⟨ih.1, ho⟩, ?_⟩
    rw [afterAll_append]
    exact hs

end Wiring

/-! Calls that move no end -/

/-- A call that moves no end, and is no wait. -/
def Call.Idle : Call → Prop
  | .start _ _ => True
  | .complain _ _ => True
  | .makePipe (.error _) => True
  | _ => False

theorem throughout_idle (base : Nat) (c : Custody) {calls : List Call} (h : ∀ call ∈ calls, call.Idle) :
    Throughout (Orderly base) c calls ∧ c.afterAll calls = c := by
  induction calls with
  | nil => exact ⟨trivial, rfl⟩
  | cons call rest ih =>
    obtain ⟨ho, hc⟩ := ih fun call hcall => h call (List.mem_cons_of_mem _ hcall)
    have hidle := h call List.mem_cons_self
    have hafter : c.after call = c ∧ c.Allows call ∧ ∀ i failure, call ≠ .wait i failure := by
      cases call with
      | makePipe answer =>
        cases answer with
        | error errno => exact ⟨rfl, trivial, by simp⟩
        | ok ends => exact absurd hidle (by simp [Call.Idle])
      | start i failure => exact ⟨rfl, trivial, by simp⟩
      | complain message styled => exact ⟨rfl, trivial, by simp⟩
      | _ => exact absurd hidle (by simp [Call.Idle])
    obtain ⟨hsame, hallows, hwait⟩ := hafter
    refine ⟨⟨Allows.orderly base hallows hwait, by rwa [hsame]⟩, ?_⟩
    show (c.after call).afterAll rest = c
    rw [hsame, hc]

theorem idle_shown (style : String → String) (failure : Option StageError) : ∀ call ∈ shown style failure, call.Idle := by
  intro call h
  obtain ⟨message, styled, rfl⟩ := mem_shown h
  trivial

theorem idle_goodStarts (n k : Nat) : ∀ call ∈ goodStarts n k, call.Idle := by
  intro call h
  obtain ⟨i, -, -, rfl⟩ := mem_goodStarts h
  trivial

/-! Waiting -/

section Waiting

variable {base made : Nat} {input output : Nat → Option PipeEnd}

/-- When all stages before stage `i` have given back their ends, nobody can write into the pipe that stage `i` reads
    from. -/
theorem Standing.wait_orderly {c : Custody} {i : Nat}
    (h : Standing c base made (fun k => if k < i then none else input k) (fun k => if k < i then none else output k))
    (hfeed : ∀ j, i = j + 1 → input i = some ⟨base + j, .read⟩) (hin : ∀ k e, input k = some e → e.side = .read)
    (hout : ∀ k e, output k = some e → e = ⟨base + k, .write⟩) (failure : Option StageError) :
    Orderly base c (.wait i failure) := by
  refine ⟨trivial, ?_⟩
  rintro j failure' hj
  cases hj
  refine ⟨by rw [h.input, if_neg (Nat.lt_irrefl _), hfeed j rfl], ?_⟩
  intro holder he
  cases holder with
  | hand side => simp [h.hand] at he
  | input k =>
    rw [h.input] at he
    split at he
    · cases he
    · exact absurd (hin k _ he) (by simp)
  | output k =>
    rw [h.output] at he
    split at he
    · cases he
    · next hk =>
      have := hout k _ he
      simp only [PipeEnd.mk.injEq, and_true] at this
      omega

/-- Stage `i` gives back its ends. A stage without a call for an end had none. -/
theorem Standing.close {c : Custody} {n i : Nat}
    (h : Standing c base made (fun k => if k < i then none else input k) (fun k => if k < i then none else output k))
    (hfirst : input 0 = none) (hlast : i + 1 = n → output i = none) :
    Throughout (Orderly base) c (closing n i) ∧
      Standing (c.afterAll (closing n i)) base made (fun k => if k < i + 1 then none else input k)
        (fun k => if k < i + 1 then none else output k) := by
  have hdrop : ∀ (f : Nat → Option PipeEnd) k,
      (if k = i then none else if k < i then none else f k) = if k < i + 1 then none else f k := by
    intro f k
    by_cases h1 : k = i
    · rw [if_pos h1, if_pos (by omega)]
    · rw [if_neg h1]
      by_cases h2 : k < i
      · rw [if_pos h2, if_pos (by omega)]
      · rw [if_neg h2, if_neg (by omega)]
  have hkeep : ∀ (f : Nat → Option PipeEnd), f i = none →
      ∀ k, (if k < i then none else f k) = if k < i + 1 then none else f k := by
    intro f hf k
    rw [← hdrop]
    by_cases h1 : k = i
    · rw [if_pos h1, h1, hf]
      simp
    · rw [if_neg h1]
  by_cases hi : i = 0 <;> by_cases hn : i + 1 = n
  · have hcalls : closing n i = [] := by simp only [closing, hi, if_true]; simp [← hn, hi]
    rw [hcalls]
    exact ⟨trivial, h.congr (fun _ => rfl) (hkeep input (by rw [hi, hfirst])) (hkeep output (hlast hn))⟩
  · have hcalls : closing n i = [.detachOutput i] := by simp [closing, hi, hi ▸ hn]
    obtain ⟨ho, hs⟩ := h.detachOutput i
    rw [hcalls]
    exact ⟨⟨ho, trivial⟩, hs.congr (fun _ => rfl) (hkeep input (by rw [hi, hfirst])) (hdrop output)⟩
  · have hcalls : closing n i = [.detachInput i] := by simp [closing, hi, hn]
    obtain ⟨ho, hs⟩ := h.detachInput i
    rw [hcalls]
    exact ⟨⟨ho, trivial⟩, hs.congr (fun _ => rfl) (hdrop input) (hkeep output (hlast hn))⟩
  · have hcalls : closing n i = [.detachInput i, .detachOutput i] := by simp [closing, hi, hn]
    obtain ⟨ho, hs⟩ := h.detachInput i
    obtain ⟨ho', hs'⟩ := hs.detachOutput i
    rw [hcalls]
    exact ⟨⟨ho, ho', trivial⟩, hs'.congr (fun _ => rfl) (hdrop input) (hdrop output)⟩

/-- The waits that go well. -/
theorem Standing.waits {n : Nat} (hfirst : input 0 = none) (hlast : output (n - 1) = none)
    (hfeed : ∀ j, j + 1 < n → input (j + 1) = some ⟨base + j, .read⟩) (hin : ∀ k e, input k = some e → e.side = .read)
    (hout : ∀ k e, output k = some e → e = ⟨base + k, .write⟩) (m : Nat) : ∀ {c : Custody} {i : Nat}, i + m ≤ n →
      Standing c base made (fun k => if k < i then none else input k) (fun k => if k < i then none else output k) →
      Throughout (Orderly base) c (goodWaits n i m) ∧
        Standing (c.afterAll (goodWaits n i m)) base made (fun k => if k < i + m then none else input k)
          (fun k => if k < i + m then none else output k) := by
  induction m with
  | zero => intro c i _ h; exact ⟨trivial, h⟩
  | succ m ih =>
    intro c i hle h
    have hwait := h.wait_orderly (by rintro j rfl; exact hfeed j (by omega)) hin hout none
    obtain ⟨hc, hs⟩ := h.close (n := n) hfirst (by rintro rfl; exact hlast)
    obtain ⟨hb, hs'⟩ := ih (by omega) hs
    rw [goodWaits_succ]
    refine ⟨⟨hwait, (throughout_append _ _).mpr ⟨hc, hb⟩⟩, ?_⟩
    rw [show c.afterAll (.wait i none :: (closing n i ++ goodWaits n (i + 1) m)) = _ from afterAll_append c _ _,
      ← Nat.add_assoc, Nat.add_right_comm]
    exact hs'

end Waiting

/-! ## Every run is orderly -/

section Run

variable {S W : Type} [Surroundings W] [StageLike S W]

omit [Surroundings W] in
theorem side_wiredInput {stages : List S} {base made k : Nat} {e : PipeEnd}
    (h : wiredInput (laid W stages base) made k = some e) : e.side = .read := by
  unfold wiredInput at h
  split at h <;> cases h
  rfl

omit [Surroundings W] in
theorem eq_of_wiredOutput {stages : List S} {base made k : Nat} {e : PipeEnd}
    (h : wiredOutput (laid W stages base) made k = some e) : e = ⟨base + k, .write⟩ := by
  unfold wiredOutput at h
  split at h <;> cases h
  rfl

/-- The calls of a run, and how the ends stand after them. -/
theorem Went.standing {style : String → String} {stages : List S} {w : W} {base : Nat} {c : Course}
    (h : Went style stages w (laid W stages base) c) :
    Throughout (Orderly base) {} (callsOf style stages w) ∧
      Standing (({} : Custody).afterAll (callsOf style stages w)) base (c.made stages.length)
        (fun k => if k < c.ended then none else wiredInput (laid W stages base) (c.made stages.length) k)
        (fun k => if k < c.ended then none else wiredOutput (laid W stages base) (c.made stages.length) k) := by
  obtain ⟨hwiring, hs⟩ := standing_wiring (W := W) stages base (c.made stages.length)
  rw [h.calls, throughout_append, afterAll_append]
  generalize ({} : Custody).afterAll (wiring (laid W stages base) 0 (c.made stages.length)) = custody at hs
  cases c with
  | noPipe made errno =>
    have hidle : ∀ call ∈ (Course.noPipe made errno).calls style stages.length, call.Idle := by
      intro call hcall
      rcases List.mem_cons.mp hcall with rfl | hcall
      · trivial
      · exact idle_shown style _ call hcall
    obtain ⟨ho, hc⟩ := throughout_idle base custody hidle
    rw [hc]
    exact ⟨⟨hwiring, ho⟩, by simpa [Course.ended] using hs⟩
  | ran k f m g =>
    have hidle : ∀ call ∈ goodStarts stages.length (k + 1) ++ [.start k f] ++ shown style f, call.Idle := by
      intro call hcall
      simp only [List.mem_append, List.mem_singleton] at hcall
      rcases hcall with (hcall | rfl) | hcall
      · exact idle_goodStarts _ _ call hcall
      · trivial
      · exact idle_shown style f call hcall
    have hs : Standing custody base (stages.length - 1)
        (fun k => if k < 0 then none else wiredInput (laid W stages base) (stages.length - 1) k)
        (fun k => if k < 0 then none else wiredOutput (laid W stages base) (stages.length - 1) k) :=
      hs.congr (fun _ => rfl) (fun _ => rfl) (fun _ => rfl)
    have hfeed : ∀ j, j + 1 < stages.length →
        wiredInput (laid W stages base) (stages.length - 1) (j + 1) = some ⟨base + j, .read⟩ := fun j hj =>
      if_pos ⟨Nat.succ_pos j, Nat.le_pred_of_lt hj⟩
    obtain ⟨-, -, hm, hg⟩ := h.fits
    obtain ⟨hwaits, hs'⟩ := Standing.waits (n := stages.length) (by simp [wiredInput]) (by simp [wiredOutput]) hfeed
      (fun _ _ => side_wiredInput) (fun _ _ => eq_of_wiredOutput) m (by omega) hs
    rw [Nat.zero_add] at hs'
    obtain ⟨hstarts, hstarted⟩ := throughout_idle base custody hidle
    -- a wait that fails is the last one, and the ends stay where they are
    obtain ⟨hbad, hstill⟩ : Throughout (Orderly base) (custody.afterAll (goodWaits stages.length 0 m)) (badWait m g) ∧
        (custody.afterAll (goodWaits stages.length 0 m)).afterAll (badWait m g) =
          custody.afterAll (goodWaits stages.length 0 m) := by
      cases g with
      | none => exact ⟨trivial, rfl⟩
      | some error =>
        have hlt : m ≠ stages.length := by simpa using hg
        exact ⟨⟨hs'.wait_orderly (by rintro j rfl; exact hfeed j (by omega)) (fun _ _ => side_wiredInput)
          (fun _ _ => eq_of_wiredOutput) (some error), trivial⟩, rfl⟩
    obtain ⟨hshown, hlast⟩ := throughout_idle base (custody.afterAll (goodWaits stages.length 0 m)) (idle_shown style g)
    refine ⟨⟨hwiring, ?_⟩, ?_⟩
    · simp only [Course.calls, throughout_append, afterAll_append] at hstarts hstarted ⊢
      rw [hstarted, hstill]
      exact ⟨hstarts, ⟨hwaits, hbad⟩, hshown⟩
    · simp only [Course.calls, afterAll_append] at hstarted ⊢
      rw [hstarted, hstill, hlast]
      exact hs'

end Run

/-! ## What the stages hold -/

section Ends

variable {S W : Type} [Surroundings W] [HasPipes W] [StageLike S W] [HoldsEnds S W]

/-- The ends that stage `k` holds when the first `made` pipes have been wired, the first of them with the number
    `base`. -/
def wiredEnds (W : Type) [StageLike S W] (stages : List S) (base made k : Nat) : Option PipeEnd × Option PipeEnd :=
  (wiredInput (laid W stages base) made k, wiredOutput (laid W stages base) made k)

omit [Surroundings W] [HasPipes W] [StageLike S W] [HoldsEnds S W] in
theorem ends_of_slots {ps : List (Watched S)} {input output : Nat → Option PipeEnd} {n : Nat}
    (h : ps.map Watched.slot = slots input output 0 n) :
    (ps.map fun p => (p.input, p.output)) = (List.range n).map fun k => (input k, output k) := by
  have := congrArg (List.map Prod.snd) h
  simpa [slots, Watched.slot, Function.comp_def, List.range_eq_range'] using this

theorem Went.left {style : String → String} {stages : List S} {w : W} {base : Nat} {c : Course}
    (h : Went style stages w (laid W stages base) c) (hun : Unwired W stages) :
    (run style stages w).2.1.map (ends W) = (List.range stages.length).map fun k =>
      if k < c.ended then (none, none) else wiredEnds W stages base (c.made stages.length) k := by
  rw [run_ends hun, ends_of_slots h.slots]
  apply List.map_congr_left
  intro k _
  split <;> rfl

theorem Wired.given {stages : List S} {w : W} {base made : Nat} {failure : Option Errno} {ps : List (Watched S)}
    {t : Traced W} (h : Wired stages w (laid W stages base) made failure ps t) (hun : Unwired W stages) :
    (join stages w).1 = failure.map .noPipe ∧
      (join stages w).2.1.map (ends W) = (List.range stages.length).map (wiredEnds W stages base made) ∧
      (join stages w).2.2 = t.world := by
  obtain ⟨he, hs, hw⟩ := join_ends hun w
  rw [h.joined] at he hs hw
  exact ⟨he, hs.trans (ends_of_slots h.slots), hw⟩

/-- All waits for `n` stages went well. -/
def AllEnded (n : Nat) (calls : List Call) : Prop := ∀ i < n, .wait i none ∈ calls

/-- When `p` pipes had been made, no further one was to be had. -/
def PipeRefused (p : Nat) (calls : List Call) : Prop :=
  ∃ errno, (calls.filterMap Call.pipeAnswer?)[p]? = some (Except.error errno)

/-- What the stages are left with: nothing if all waits went well; if a wait failed, what that stage and those
    behind it were given; and if a pipe could not be made, what the pipes before it gave them. -/
structure LeftWith (W : Type) [StageLike S W] (stages : List S) (base : Nat) (calls : List Call)
    (left : List (Option PipeEnd × Option PipeEnd)) : Prop where
  ended : AllEnded stages.length calls → left = List.replicate stages.length (none, none)
  failed : ∀ j error, .wait j (some error) ∈ calls → left = (List.range stages.length).map fun k =>
    if k < j then (none, none) else wiredEnds W stages base (stages.length - 1) k
  refused : ∀ p, PipeRefused p calls → left = (List.range stages.length).map (wiredEnds W stages base p)
  /-- There is no fourth way. -/
  exhaustive : AllEnded stages.length calls ∨ (∃ j error, .wait j (some error) ∈ calls) ∨ ∃ p, PipeRefused p calls

theorem Followed.pipeRefused_iff {style : String → String} {n : Nat} {calls : List Call} {c : Course}
    (h : Followed style n calls c) {p : Nat} : PipeRefused p calls ↔ c.refused? ≠ none ∧ p = c.made n := by
  obtain ⟨made, hlength, hpipes⟩ := h.pipes
  rw [PipeRefused, hpipes, ← hlength, List.getElem?_append]
  by_cases hp : p < made.length
  · simp [hp, Nat.ne_of_lt hp]
  · cases c.refused? with
    | none => simp [hp]
    | some errno =>
      by_cases hlast : p = made.length
      · simp [hlast]
      · have hbehind : p - made.length ≠ 0 := by omega
        simp [hp, hlast, hbehind]

theorem Went.leftWith {style : String → String} {stages : List S} {w : W} {base : Nat} {c : Course}
    (h : Went style stages w (laid W stages base) c) (hun : Unwired W stages) :
    LeftWith W stages base (callsOf style stages w) ((run style stages w).2.1.map (ends W)) := by
  have hfollowed := h.followed
  have hfits := h.fits
  rw [h.left hun]
  refine ⟨?_, ?_, ?_, ?_⟩
  · intro hall
    have hall : ∀ i < stages.length, i < c.ended := by
      intro i hi
      rcases hfollowed.wait_mem_iff.mp (hall i hi) with ⟨-, hlt⟩ | ⟨-, hne, -⟩
      · exact hlt
      · exact absurd rfl hne
    rw [List.eq_replicate_iff]
    refine ⟨by simp, ?_⟩
    intro x hx
    obtain ⟨i, hi, rfl⟩ := List.mem_map.mp hx
    exact if_pos (hall i (List.mem_range.mp hi))
  · intro j error hj
    rcases hfollowed.wait_mem_iff.mp hj with ⟨hnone, -⟩ | ⟨rfl, -, hfailure⟩
    · cases hnone
    · cases c with
      | noPipe made errno => cases hfailure
      | ran k f m g => rfl
  · intro p hp
    obtain ⟨hrefused, rfl⟩ := hfollowed.pipeRefused_iff.mp hp
    cases c with
    | noPipe made errno => simp [Course.ended, Course.made]
    | ran k f m g => exact absurd rfl hrefused
  · cases c with
    | noPipe made errno => exact .inr (.inr ⟨made, hfollowed.pipeRefused_iff.mpr ⟨by simp [Course.refused?], rfl⟩⟩)
    | ran k f m g =>
      obtain ⟨-, -, hm, hg⟩ := hfits
      cases g with
      | none =>
        have hmn : m = stages.length := hg.mp rfl
        exact .inl fun i hi => hfollowed.wait_mem_iff.mpr (.inl ⟨rfl, hmn ▸ hi⟩)
      | some error => exact .inr (.inl ⟨m, error, hfollowed.wait_mem_iff.mpr (.inr ⟨rfl, by simp, rfl⟩)⟩)

/-- The stages hold what the calls have left them. -/
theorem Went.custody {style : String → String} {stages : List S} {w : W} {base : Nat} {c : Course}
    (h : Went style stages w (laid W stages base) c) (hun : Unwired W stages) :
    (run style stages w).2.1.map (ends W) = (List.range stages.length).map fun k =>
      ((({} : Custody).afterAll (callsOf style stages w)).holds (.input k),
        (({} : Custody).afterAll (callsOf style stages w)).holds (.output k)) := by
  obtain ⟨-, hs⟩ := h.standing
  rw [h.left hun]
  apply List.map_congr_left
  intro k _
  rw [hs.input, hs.output]
  split <;> rfl

/-- Who holds the ends of the pipes of a pipeline: when its stages have been joined, at each call, and when the run
    is over. -/
theorem ends_owned (style : String → String) (stages : List S) (w : W) (hun : Unwired W stages) :
    let n := stages.length
    let base := (plumbing w).pipes.length
    let calls := callsOf style stages w
    let ran := run style stages w
    -- between stages that could be joined lie `n - 1` new pipes
    ((join stages w).1 = none →
      plumbing (join stages w).2.2 = (plumbing w).extend ((stages.take (n - 1)).map (pipeBehind W)) ∧
      (join stages w).2.1.map (ends W) = (List.range n).map (wiredEnds W stages base (n - 1))) ∧
    LeftWith W stages base calls (ran.2.1.map (ends W)) ∧
    -- at no moment does an end have two holders, and none is given up twice
    (∀ before behind, calls = before ++ behind →
      (({} : Custody).afterAll before).Sound ∧ Throughout Allows (({} : Custody).afterAll before) behind) ∧
    (ran.2.1.map (ends W) = (List.range n).map fun k =>
      ((({} : Custody).afterAll calls).holds (.input k), (({} : Custody).afterAll calls).holds (.output k))) ∧
    -- the pipes count the stages for the ends that they hold, and for nothing else
    ∀ mine : PipeEnd → Nat, (∀ e, (plumbing w).pipes.holders e = (plumbing w).others e + mine e) →
      (plumbing ran.2.2).Accounted fun e => (heldBy W ran.2.1).count e + mine e := by
  intro n base calls ran
  have haccounted : ∀ mine : PipeEnd → Nat, (∀ e, (plumbing w).pipes.holders e = (plumbing w).others e + mine e) →
      (plumbing ran.2.2).Accounted fun e => (heldBy W ran.2.1).count e + mine e :=
    fun mine h => run_accounted hun style h
  cases stages with
  | nil =>
    refine ⟨fun _ => ⟨by simp [join, Plumbing.extend], rfl⟩, ⟨fun _ => rfl, fun _ _ _ => rfl, fun _ _ => rfl, ?_⟩, ?_, rfl,
      haccounted⟩
    · exact .inl fun i hi => absurd hi (Nat.not_lt_zero i)
    · intro before behind hcut
      obtain ⟨rfl, rfl⟩ := List.append_eq_nil_iff.mp hcut.symm
      exact ⟨sound_empty, trivial⟩
  | cons first rest =>
    obtain ⟨made, failure, ps, t, hwired, hlaid⟩ := join_laid first rest w
    obtain ⟨c, hwent⟩ := hwired.went (Nat.succ_pos _) style
    obtain ⟨horderly, -⟩ := hwent.standing
    obtain ⟨hfailure, hgiven, hworld⟩ := hwired.given hun
    refine ⟨?_, hwent.leftWith hun, ?_, hwent.custody hun, haccounted⟩
    · intro hjoined
      have hnone : failure = none := by
        rw [hjoined] at hfailure
        cases failure with
        | none => rfl
        | some errno => cases hfailure
      have hmade : made = n - 1 := hwired.complete.mp hnone
      subst hmade
      exact ⟨by rw [hworld, hlaid], hgiven⟩
    · intro before behind hcut
      have hallowed := horderly.mono (fun _ _ h => h.1)
      rw [show callsOf style (first :: rest) w = before ++ behind from hcut, throughout_append] at hallowed
      exact ⟨sound_empty.afterAll before hallowed.1, hallowed.2⟩

end Ends

/-- The second of three players fails, with its output redirected: it keeps the end it reads from, and so does the
    player behind it. -/
theorem ends_owned_by_failing_player :
    let players : List Rehearsal.Player :=
      [{ name := "a" }, { name := "b", redirected := true, waitError := some (.exitRequested 3) }, { name := "c" }]
    Unwired Rehearsal.Book players ∧
      (run id players ({} : Rehearsal.Book)).2.1.map (ends Rehearsal.Book) =
        [(none, none), (some ⟨0, .read⟩, none), (some ⟨1, .read⟩, none)] := by
  intro players
  have hun : Unwired Rehearsal.Book players := by
    intro s hs
    simp only [players, List.mem_cons, List.not_mem_nil, or_false] at hs
    rcases hs with rfl | rfl | rfl <;> rfl
  refine ⟨hun, ?_⟩
  have hfailed : .wait 1 (some (.exitRequested 3)) ∈ callsOf id players ({} : Rehearsal.Book) :=
    List.mem_of_getElem? (i := 11) rfl
  exact (ends_owned id players {} hun).2.1.failed 1 _ hfailed

end Pipeline

end CommandShell
