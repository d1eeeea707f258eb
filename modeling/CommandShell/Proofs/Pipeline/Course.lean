/-
  CommandShell.Proofs.Pipeline.Course — how a run of a pipeline goes, call by call.

  The calls of a run fall into three parts: the wiring of the pipes, the starts, and the waits with the closings.
  - `joinFrom_watched`, `startFrom_watched`, `waitFrom_watched`: each part of a run, whatever the stages and the
    system answer, makes the calls of its part and leaves the stages with the ends that these calls say.
  - `watch_course`: so every run takes a `Course`, and its calls, its answer and what its stages are left with follow
    from the course and the joints alone. `Wired.went` says the same for joints that are known already.
-/

import CommandShell.Proofs.Pipeline.Trace

namespace CommandShell

namespace Pipeline

open Surroundings StageLike

variable {S W : Type} [Surroundings W] [StageLike S W]

/-! ## What the calls are -/

/-- The pipe between two stages, and whether the first of them redirects its output. -/
structure Joint where
  reader : PipeEnd
  writer : PipeEnd
  redirected : Bool

/-- The calls that join stage `i` to the next one. -/
def Joint.calls (j : Joint) (i : Nat) : List Call :=
  [.makePipe (.ok (j.reader, j.writer)), if j.redirected then .dropEnd j.writer else .attachOutput i j.writer,
   .attachInput (i + 1) j.reader]

/-- The calls that join `n` stages, from stage `i` on, each to the next one. -/
def wiring (joint : Nat → Joint) (i n : Nat) : List Call := (List.range' i n).flatMap fun k => (joint k).calls k

/-- The call that finds no pipe. -/
def refusal (failure : Option Errno) : List Call := (failure.map fun errno => .makePipe (.error errno)).toList

/-- The messages that a failure gives rise to. -/
def shown (style : String → String) : Option StageError → List Call
  | none => []
  | some error => if error.isSilent then [] else [.complain error.message (style error.message)]

/-- The starts of the stages from the last of `n` down to stage `k`, all of which go well. -/
def goodStarts (n k : Nat) : List Call := (List.range' k (n - k)).reverse.map (.start · none)

/-- What follows when stage `i` of `n` has ended well. -/
def closing (n i : Nat) : List Call :=
  (if i = 0 then [] else [.detachInput i]) ++ if i + 1 = n then [] else [.detachOutput i]

/-- The waits for `m` stages that end well, from stage `i` of `n` on. -/
def goodWaits (n i m : Nat) : List Call := (List.range' i m).flatMap fun k => .wait k none :: closing n k

theorem goodWaits_succ (n i m : Nat) :
    goodWaits n i (m + 1) = .wait i none :: (closing n i ++ goodWaits n (i + 1) m) := by
  simp [goodWaits, List.range'_succ]

/-- The wait that fails, if there is one. -/
def badWait (i : Nat) (failure : Option StageError) : List Call :=
  (failure.map fun error => .wait i (some error)).toList

theorem mem_goodStarts {c : Call} {n k : Nat} (h : c ∈ goodStarts n k) : ∃ i, k ≤ i ∧ i < n ∧ c = .start i none := by
  obtain ⟨i, hi, rfl⟩ := List.mem_map.mp h
  have := List.mem_range'_1.mp (List.mem_reverse.mp hi)
  exact ⟨i, by omega, by omega, rfl⟩

theorem mem_goodWaits {c : Call} {n i m : Nat} (h : c ∈ goodWaits n i m) :
    ∃ k, i ≤ k ∧ k < i + m ∧ (c = .wait k none ∨ c = .detachInput k ∨ c = .detachOutput k) := by
  obtain ⟨k, hk, hc⟩ := List.mem_flatMap.mp h
  obtain ⟨h1, h2⟩ := List.mem_range'_1.mp hk
  refine ⟨k, h1, h2, ?_⟩
  rcases List.mem_cons.mp hc with hc | hc
  · exact .inl hc
  · rcases List.mem_append.mp hc with hc | hc
    · split at hc
      · cases hc
      · exact .inr (.inl (List.mem_singleton.mp hc))
    · split at hc
      · cases hc
      · exact .inr (.inr (List.mem_singleton.mp hc))

theorem mem_shown {style : String → String} {failure : Option StageError} {c : Call} (h : c ∈ shown style failure) :
    ∃ message styled, c = .complain message styled := by
  unfold shown at h
  split at h
  · cases h
  · split at h
    · cases h
    · exact ⟨_, _, List.mem_singleton.mp h⟩

theorem mem_wiring {joint : Nat → Joint} {i n : Nat} {c : Call} (h : c ∈ wiring joint i n) :
    (∃ ends, c = .makePipe (.ok ends)) ∨ (∃ e, c = .dropEnd e) ∨ (∃ k e, c = .attachOutput k e) ∨
      ∃ k e, c = .attachInput k e := by
  obtain ⟨k, -, hc⟩ := List.mem_flatMap.mp h
  simp only [Joint.calls, List.mem_cons, List.not_mem_nil, or_false] at hc
  rcases hc with rfl | rfl | rfl
  · exact .inl ⟨_, rfl⟩
  · split
    · exact .inr (.inl ⟨_, rfl⟩)
    · exact .inr (.inr (.inl ⟨_, _, rfl⟩))
  · exact .inr (.inr (.inr ⟨_, _, rfl⟩))

/-! What a reader of the calls finds in each part of them -/

section Reading

variable {α : Type} {f : Call → Option α}

theorem filterMap_goodStarts (h : ∀ i, f (.start i none) = none) (n k : Nat) : (goodStarts n k).filterMap f = [] := by
  rw [List.filterMap_eq_nil_iff]
  intro c hc
  obtain ⟨i, -, -, rfl⟩ := mem_goodStarts hc
  exact h i

theorem filterMap_goodWaits (hw : ∀ k, f (.wait k none) = none) (hi : ∀ k, f (.detachInput k) = none)
    (ho : ∀ k, f (.detachOutput k) = none) (n i m : Nat) : (goodWaits n i m).filterMap f = [] := by
  rw [List.filterMap_eq_nil_iff]
  intro c hc
  obtain ⟨k, -, -, rfl | rfl | rfl⟩ := mem_goodWaits hc
  · exact hw k
  · exact hi k
  · exact ho k

theorem filterMap_shown (h : ∀ message styled, f (.complain message styled) = none) (style : String → String)
    (failure : Option StageError) : (shown style failure).filterMap f = [] := by
  rw [List.filterMap_eq_nil_iff]
  intro c hc
  obtain ⟨message, styled, rfl⟩ := mem_shown hc
  exact h message styled

theorem filterMap_wiring (joint : Nat → Joint) (n : Nat) :
    (wiring joint 0 n).filterMap f = (List.range n).flatMap fun i => ((joint i).calls i).filterMap f := by
  rw [wiring, List.filterMap_flatMap, List.range_eq_range']

theorem filterMap_wiring_eq_nil (hm : ∀ ends, f (.makePipe (.ok ends)) = none) (hd : ∀ e, f (.dropEnd e) = none)
    (hi : ∀ i e, f (.attachInput i e) = none) (ho : ∀ i e, f (.attachOutput i e) = none) (joint : Nat → Joint)
    (i n : Nat) : (wiring joint i n).filterMap f = [] := by
  rw [List.filterMap_eq_nil_iff]
  intro c hc
  obtain ⟨ends, rfl⟩ | ⟨e, rfl⟩ | ⟨k, e, rfl⟩ | ⟨k, e, rfl⟩ := mem_wiring hc
  · exact hm ends
  · exact hd e
  · exact ho k e
  · exact hi k e

end Reading

/-! ## What the stages hold -/

/-- The number of a stage and what it was given. -/
def Watched.slot (p : Watched S) : Nat × Option PipeEnd × Option PipeEnd := (p.number, p.input, p.output)

/-- The stages from stage `i` on, `n` of them, hold these ends. -/
def slots (input output : Nat → Option PipeEnd) (i n : Nat) : List (Nat × Option PipeEnd × Option PipeEnd) :=
  (List.range' i n).map fun k => (k, input k, output k)

theorem slots_succ (input output : Nat → Option PipeEnd) (i n : Nat) :
    slots input output i (n + 1) = (i, input i, output i) :: slots input output (i + 1) n := by
  simp [slots, List.range'_succ]

theorem slots_congr {input input' output output' : Nat → Option PipeEnd} {i n : Nat}
    (hi : ∀ k, i ≤ k → input k = input' k) (ho : ∀ k, i ≤ k → output k = output' k) :
    slots input output i n = slots input' output' i n := by
  apply List.map_congr_left
  intro k hk
  have : i ≤ k := (List.mem_range'_1.mp hk).1
  rw [hi k this, ho k this]

/-! ## Joining -/

/-- The write end goes to the stage before it, or to nobody if that stage redirects its output. -/
def offer (i : Nat) (left : S) (writer : PipeEnd) (w : W) : S × W :=
  if outputRedirected W left then (left, dropEnd writer (note (.writeEndUnused i) w)) else attachOutput left writer w

theorem joinFrom_ok {i : Nat} {left right : S} {rest : List S} {w w₁ : W} {reader writer : PipeEnd}
    (h : makePipe w = (.ok (reader, writer), w₁)) :
    joinFrom i left (right :: rest) w =
      let l := offer i left writer w₁
      let r := attachInput right reader l.2
      let behind := joinFrom (i + 1) r.1 rest r.2
      (behind.1, l.1 :: behind.2.1, behind.2.2) := by
  simp [joinFrom, h, offer]

theorem joinFrom_error {i : Nat} {left right : S} {rest : List S} {w w₁ : W} {errno : Errno}
    (h : makePipe w = (.error errno, w₁)) :
    joinFrom i left (right :: rest) w = (some (.noPipe errno), left :: right :: rest, w₁) := by
  simp [joinFrom, h]

theorem offer_slot (i : Nat) {left : Watched S} (writer : PipeEnd) (t : Traced W) (hl : left.output = none) :
    (offer i left writer t).1.slot =
      (left.number, left.input, if outputRedirected W left.stage then none else some writer) := by
  have hr : outputRedirected (Traced W) left = outputRedirected W left.stage := rfl
  unfold offer
  rw [hr]
  by_cases h : outputRedirected W left.stage = true
  · simp [h, Watched.slot, hl]
  · simp only [h]
    rfl

theorem offer_calls (i : Nat) (left : Watched S) (writer : PipeEnd) (t : Traced W) :
    (offer i left writer t).2.calls =
      t.calls ++ [if outputRedirected W left.stage then .dropEnd writer else .attachOutput left.number writer] := by
  have hr : outputRedirected (Traced W) left = outputRedirected W left.stage := rfl
  unfold offer
  rw [hr]
  by_cases h : outputRedirected W left.stage = true
  · simp only [h, if_true]
    rfl
  · simp only [h]
    rfl

/-- The answer of stage `k` when it is asked whether it redirects its output. The first stage is asked as it is,
    every other one when its input has been attached. -/
def Asked (W : Type) [StageLike S W] (stages : List S) (k : Nat) (answer : Bool) : Prop :=
  ∃ s, stages[k]? = some s ∧
    if k = 0 then answer = outputRedirected W s
    else ∃ (e : PipeEnd) (w : W), answer = outputRedirected W (attachInput s e w).1

/-- The stages behind `left`, which is stage `i`, have been joined to it and to each other by `made` pipes, and
    then perhaps no further pipe was to be had. -/
structure Joined (i : Nat) (left : Watched S) (rest : List (Watched S)) (t : Traced W) (joint : Nat → Joint)
    (made : Nat) (failure : Option Errno) (r : Option StageError × List (Watched S) × Traced W) : Prop where
  error : r.1 = failure.map .noPipe
  made_le : made ≤ rest.length
  complete : failure = none ↔ made = rest.length
  calls : r.2.2.calls = t.calls ++ (wiring joint i made ++ refusal failure)
  slots : r.2.1.map Watched.slot =
    slots (fun k => if k = i then left.input else if k ≤ i + made then some (joint (k - 1)).reader else none)
      (fun k => if k < i + made ∧ (joint k).redirected = false then some (joint k).writer else none)
      i (rest.length + 1)
  asked : ∀ k < made, Asked W ((left :: rest).map Watched.stage) k (joint (i + k)).redirected

theorem wiring_succ {joint joint' : Nat → Joint} {i : Nat} (h : ∀ k, i < k → joint k = joint' k) (n : Nat) :
    wiring joint i (n + 1) = (joint i).calls i ++ wiring joint' (i + 1) n := by
  unfold wiring
  rw [List.range'_succ, List.flatMap_cons]
  congr 1
  apply List.flatMap_congr
  intro k hk
  rw [h k (by have := (List.mem_range'_1.mp hk).1; omega)]

theorem makePipe_watched {t t₁ : Traced W} {answer : Except Errno (PipeEnd × PipeEnd)}
    (h : makePipe t = (answer, t₁)) :
    makePipe t.world = (answer, t₁.world) ∧ t₁.calls = t.calls ++ [.makePipe answer] := by
  have h : ((makePipe t.world).1, t.made (.makePipe (makePipe t.world).1) (makePipe t.world).2) = (answer, t₁) := h
  cases h
  exact ⟨rfl, rfl⟩

theorem joinFrom_watched (rest : List (Watched S)) : ∀ (i : Nat) (left : Watched S) (t : Traced W),
    left.number = i → left.output = none →
    rest.map Watched.slot = slots (fun _ => none) (fun _ => none) (i + 1) rest.length →
    ∃ joint made failure, Joined i left rest t joint made failure (joinFrom i left rest t) := by
  induction rest with
  | nil =>
    intro i left t hn ho _
    refine ⟨fun _ => ⟨⟨0, .read⟩, ⟨0, .write⟩, false⟩, 0, none, rfl, Nat.le_refl 0, by simp, ?_, ?_, by simp⟩
    · simp [joinFrom, wiring, refusal]
    · simp [joinFrom, slots, Watched.slot, hn, ho]
  | cons right rest ih =>
    intro i left t hn ho hs
    rcases hm : makePipe t with ⟨answer, t₁⟩
    obtain ⟨-, ht₁⟩ := makePipe_watched hm
    cases answer with
    | error errno =>
      rw [joinFrom_error hm]
      refine ⟨fun _ => ⟨⟨0, .read⟩, ⟨0, .write⟩, false⟩, 0, some errno, rfl, Nat.zero_le _, by simp, ?_, ?_, by simp⟩
      · simp [ht₁, wiring, refusal]
      · rw [List.map_cons, hs, slots_succ]
        congr 1
        · simp [Watched.slot, hn, ho]
        · apply slots_congr
          · intro k hk
            rw [if_neg (by omega), if_neg (by omega)]
          · intro k hk
            rw [if_neg (by omega)]
    | ok ends =>
      obtain ⟨reader, writer⟩ := ends
      have hslot := offer_slot i writer t₁ ho
      have hcalls := offer_calls i left writer t₁
      rw [joinFrom_ok hm]
      set red := outputRedirected W left.stage with hred
      set l := offer i left writer t₁ with hl
      rw [List.length_cons, slots_succ, List.map_cons, List.cons.injEq] at hs
      obtain ⟨hright, hrest⟩ := hs
      have hnum : right.number = i + 1 := congrArg (·.1) hright
      have hout : right.output = none := congrArg (·.2.2) hright
      obtain ⟨joint', made, failure, h⟩ := ih (i + 1) (attachInput right reader l.2).1 (attachInput right reader l.2).2
        hnum hout hrest
      -- the joints behind stage `i` are those of the induction hypothesis
      let joint : Nat → Joint := fun k => if k = i then ⟨reader, writer, red⟩ else joint' k
      have hi : joint i = ⟨reader, writer, red⟩ := if_pos rfl
      have hk : ∀ k, i < k → joint k = joint' k := fun k hk => if_neg (by omega)
      refine ⟨joint, made + 1, failure, h.error, Nat.succ_le_succ h.made_le, ?_, ?_, ?_, ?_⟩
      · rw [h.complete, List.length_cons, Nat.add_right_cancel_iff]
      · have hin : (attachInput right reader l.2).2.calls = l.2.calls ++ [.attachInput right.number reader] := rfl
        have hb := h.calls
        rw [hin, hcalls, ht₁] at hb
        show (joinFrom (i + 1) (attachInput right reader l.2).1 rest (attachInput right reader l.2).2).2.2.calls = _
        rw [hb, wiring_succ hk, hi, hn, hnum]
        simp [Joint.calls]
      · show l.1.slot :: (joinFrom (i + 1) (attachInput right reader l.2).1 rest _).2.1.map Watched.slot = _
        rw [hslot, List.length_cons, slots_succ, h.slots]
        congr 1
        · rw [if_pos rfl, hi, hn]
          cases red <;> simp
        · apply slots_congr
          · intro k hki
            have hr : (attachInput right reader l.2).1.input = some reader := rfl
            by_cases e : k = i + 1
            · subst e
              rw [if_pos rfl, if_neg (by omega), if_pos (by omega), hr, Nat.add_sub_cancel, hi]
            · rw [if_neg e, if_neg (by omega : ¬ k = i), hk (k - 1) (by omega), Nat.add_right_comm, Nat.add_assoc]
          · intro k hki
            rw [hk k (by omega), Nat.add_right_comm, Nat.add_assoc]
      · intro k hlt
        cases k with
        | zero => exact ⟨left.stage, rfl, by rw [if_pos rfl, Nat.add_zero, hi]⟩
        | succ k =>
          obtain ⟨s, hs, ha⟩ := h.asked k (by omega)
          rw [hk (i + (k + 1)) (by omega), ← Nat.add_assoc, Nat.add_right_comm]
          cases k with
          | zero =>
            cases hs
            exact ⟨right.stage, rfl, by rw [if_neg (by omega)]; exact ⟨reader, l.2.world, ha⟩⟩
          | succ k => exact ⟨s, hs, by rw [if_neg (by omega)] at ha ⊢; exact ha⟩

/-! ## Messages -/

theorem announce_calls (style : String → String) (error : StageError) (t : Traced W) :
    (announce style error t).calls = t.calls ++ shown style (some error) := by
  unfold announce shown
  by_cases h : error.isSilent = true
  · simp only [h, if_true, List.append_nil]
    rfl
  · simp only [h]
    rfl

/-- A request to leave is silent, so that it makes no difference which way it is dealt with. -/
theorem conclude_calls (style : String → String) (error : StageError) (t : Traced W) :
    (conclude style error t).calls = t.calls ++ shown style (some error) := by
  unfold conclude
  split
  · simp only [shown, StageError.isSilent, if_true, List.append_nil]
    rfl
  · exact announce_calls style error t

/-! ## Starting -/

omit [Surroundings W] in
theorem start_watched {p p₁ : Watched S} {t t₁ : Traced W} {answer : Except StageError Unit}
    (h : start p t = (answer, p₁, t₁)) : p₁.slot = p.slot ∧ t₁.calls = t.calls ++ [.start p.number (failure? answer)] := by
  cases h
  exact ⟨rfl, rfl⟩

theorem goodStarts_of_le {n k : Nat} (h : n ≤ k) : goodStarts n k = [] := by
  simp [goodStarts, Nat.sub_eq_zero_of_le h]

theorem goodStarts_of_lt {n k : Nat} (h : k < n) : goodStarts n k = goodStarts n (k + 1) ++ [.start k none] := by
  have : n - k = n - (k + 1) + 1 := by omega
  simp [goodStarts, this, List.range'_succ]

/-- Of the stages from stage `i` on, `n` stages being there in all, those from the last down to stage `k` have
    been started, and stage `k` has failed; or all of them have been started well. -/
def StartedFrom (style : String → String) (i n : Nat) (t : Traced W) (r : Bool × List (Watched S) × Traced W) : Prop :=
  (r.1 = true ∧ r.2.2.calls = t.calls ++ goodStarts n i) ∨
    ∃ k error, i ≤ k ∧ k < n ∧ r.1 = false ∧
      r.2.2.calls = t.calls ++ (goodStarts n (k + 1) ++ .start k (some error) :: shown style (some error))

theorem startFrom_watched (style : String → String) (n : Nat) (ps : List (Watched S)) :
    ∀ (i : Nat) (t : Traced W), ps.map Watched.number = List.range' i ps.length → i + ps.length = n →
      StartedFrom style i n t (startFrom style i ps t) ∧
        (startFrom style i ps t).2.1.map Watched.slot = ps.map Watched.slot := by
  induction ps with
  | nil =>
    intro i t _ hlen
    refine ⟨.inl ⟨rfl, ?_⟩, rfl⟩
    rw [goodStarts_of_le (by simp at hlen; omega), List.append_nil]
    rfl
  | cons p rest ih =>
    intro i t hnum hlen
    rw [List.length_cons] at hlen
    rw [List.length_cons, List.range'_succ, List.map_cons, List.cons.injEq] at hnum
    obtain ⟨hp, hnum⟩ := hnum
    obtain ⟨hb, hslots⟩ := ih (i + 1) t hnum (by omega)
    rcases hr : startFrom style (i + 1) rest t with ⟨all, rest₁, t₁⟩
    rw [hr] at hb hslots
    rcases hb with ⟨hall, hc⟩ | ⟨k, error, hik, hkn, hall, hc⟩ <;> cases hall
    · rcases hst : start p t₁ with ⟨answer, p₁, t₂⟩
      obtain ⟨hs, ht₂⟩ := start_watched hst
      rw [hc, hp] at ht₂
      cases answer with
      | ok _ =>
        simp only [startFrom, hr, hst]
        refine ⟨.inl ⟨rfl, ?_⟩, by simp only [List.map_cons, hs, hslots]⟩
        rw [goodStarts_of_lt (by omega), ht₂, List.append_assoc]
        rfl
      | error error =>
        simp only [startFrom, hr, hst]
        refine ⟨.inr ⟨i, error, Nat.le_refl i, by omega, rfl, ?_⟩, by simp only [List.map_cons, hs, hslots]⟩
        have hn : (note (.startAbandoned i) t₂ : Traced W).calls = t₂.calls := rfl
        rw [announce_calls, hn, ht₂]
        simp [failure?]
    · simp only [startFrom, hr]
      exact ⟨.inr ⟨k, error, by omega, hkn, rfl, hc⟩, by simp only [List.map_cons, hslots]⟩

/-! ## Waiting -/

omit [Surroundings W] in
theorem wait_watched {p p₁ : Watched S} {t t₁ : Traced W} {answer : Except StageError Unit}
    (h : wait p t = (answer, p₁, t₁)) : p₁.slot = p.slot ∧ t₁.calls = t.calls ++ [.wait p.number (failure? answer)] := by
  cases h
  exact ⟨rfl, rfl⟩

omit [Surroundings W] in
theorem closeEnds_watched (isFirst isLast : Bool) (p : Watched S) (t : Traced W) :
    (closeEnds isFirst isLast p t).1.slot =
        (p.number, if isFirst then p.input else none, if isLast then p.output else none) ∧
      (closeEnds isFirst isLast p t).2.calls =
        t.calls ++ ((if isFirst then [] else [.detachInput p.number]) ++ if isLast then [] else [.detachOutput p.number]) := by
  cases isFirst <;> cases isLast
  · exact ⟨rfl, List.append_assoc ..⟩
  · exact ⟨rfl, rfl⟩
  · exact ⟨rfl, rfl⟩
  · exact ⟨rfl, (List.append_nil _).symm⟩

/-- Of the stages from stage `i` on, `n` stages being there in all, `m` have ended well, and the next one has
    failed if there is one. -/
structure WaitedFrom (style : String → String) (i n : Nat) (input output : Nat → Option PipeEnd) (t : Traced W)
    (m : Nat) (failure : Option StageError) (r : Next × List (Watched S) × Traced W) : Prop where
  next : r.1 = (failure.map verdict).getD .goOn
  le : i + m ≤ n
  complete : failure = none ↔ i + m = n
  calls : r.2.2.calls = t.calls ++ (goodWaits n i m ++ (badWait (i + m) failure ++ shown style failure))
  slots : r.2.1.map Watched.slot =
    slots (fun k => if k < i + m ∧ k ≠ 0 then none else input k) (fun k => if k < i + m ∧ k + 1 ≠ n then none else output k)
      i (n - i)

theorem waitFrom_watched (style : String → String) (n : Nat) (input output : Nat → Option PipeEnd)
    (ps : List (Watched S)) : ∀ (i : Nat) (t : Traced W), ps.map Watched.slot = slots input output i ps.length →
      i + ps.length = n →
      ∃ m failure, WaitedFrom style i n input output t m failure (waitFrom style (decide (i = 0)) ps t) := by
  induction ps with
  | nil =>
    intro i t _ hlen
    rw [List.length_nil, Nat.add_zero] at hlen
    subst hlen
    refine ⟨0, none, rfl, Nat.le_refl _, by simp, ?_, ?_⟩
    · simp [waitFrom, goodWaits, badWait, shown]
    · simp [waitFrom, slots]
  | cons p rest ih =>
    intro i t hs hlen
    rw [List.length_cons] at hlen
    have hs' := hs
    rw [List.length_cons, slots_succ, List.map_cons, List.cons.injEq] at hs
    obtain ⟨hp, hrest⟩ := hs
    have hnum : p.number = i := congrArg (·.1) hp
    rcases hw : wait p t with ⟨answer, p₁, t₁⟩
    obtain ⟨hp₁, ht₁⟩ := wait_watched hw
    rcases answer with error | _
    · rw [waitFrom_error hw]
      refine ⟨0, some error, rfl, by omega, by simp; omega, ?_, ?_⟩
      · rw [conclude_calls, ht₁, hnum]
        simp [goodWaits, badWait, failure?]
      · rw [List.map_cons, hp₁, ← List.map_cons, hs', List.length_cons, ← hlen, Nat.add_sub_cancel_left]
        apply slots_congr
        · intro k hk
          rw [if_neg (by omega)]
        · intro k hk
          rw [if_neg (by omega)]
    · have hlast : rest.isEmpty = decide (i + 1 = n) := by cases rest <;> simp at hlen ⊢ <;> omega
      have hp₁n : p₁.number = i := (congrArg (·.1) hp₁).trans hnum
      obtain ⟨hc, hcalls⟩ := closeEnds_watched (decide (i = 0)) (decide (i + 1 = n)) p₁ t₁
      rw [waitFrom_ok hw, hlast]
      set c := closeEnds (decide (i = 0)) (decide (i + 1 = n)) p₁ t₁
      have hfalse : decide (i + 1 = 0) = false := by simp
      obtain ⟨m, failure, h⟩ := ih (i + 1) c.2 hrest (by omega)
      rw [hfalse] at h
      refine ⟨m + 1, failure, h.next, by have := h.le; omega, ?_, ?_, ?_⟩
      · rw [h.complete, Nat.add_right_comm, Nat.add_assoc]
      · have hb := h.calls
        rw [hcalls, ht₁, hnum, hp₁n, Nat.add_right_comm, Nat.add_assoc] at hb
        rw [hb, goodWaits_succ]
        simp [closing, failure?]
      · have hin : p₁.input = input i := congrArg (·.2.1) (hp₁.trans hp)
        have hout : p₁.output = output i := congrArg (·.2.2) (hp₁.trans hp)
        have hlen : n - i = n - (i + 1) + 1 := by omega
        rw [List.map_cons, hc, h.slots, hp₁n, hin, hout, hlen, slots_succ]
        congr 1
        · by_cases hf : i = 0 <;> by_cases hl : i + 1 = n <;> simp [hf, hl]
        · apply slots_congr
          · intro k hk
            rw [Nat.add_right_comm, Nat.add_assoc]
          · intro k hk
            rw [Nat.add_right_comm, Nat.add_assoc]

/-! ## The whole run -/

/-- How a run goes. -/
inductive Course where
  /-- After `made` pipes no further one is to be had. -/
  | noPipe (made : Nat) (errno : Errno)
  /-- All pipes are there. The stages are started from the last down to `lowest`, which may fail; the first
      `ended` stages are waited for and end well, and the next one fails, if there is one. -/
  | ran (lowest : Nat) (startFailure : Option StageError) (ended : Nat) (waitFailure : Option StageError)

namespace Course

/-- A course that a run of `n` stages can take. -/
def Fits (n : Nat) : Course → Prop
  | noPipe made _ => made + 1 < n
  | ran lowest startFailure ended waitFailure =>
    lowest < n ∧ (startFailure = none → lowest = 0) ∧ ended ≤ n ∧ (waitFailure = none ↔ ended = n)

/-- How many pipes are made. -/
def made (n : Nat) : Course → Nat
  | noPipe made _ => made
  | ran .. => n - 1

/-- How many stages end well. -/
def ended : Course → Nat
  | noPipe .. => 0
  | ran _ _ ended _ => ended

/-- What the shell does next. -/
def next : Course → Next
  | noPipe .. => .goOn
  | ran _ _ _ waitFailure => (waitFailure.map verdict).getD .goOn

/-- The calls behind the wiring. -/
def calls (style : String → String) (n : Nat) : Course → List Call
  | noPipe _ errno => .makePipe (.error errno) :: shown style (some (.noPipe errno))
  | ran lowest startFailure ended waitFailure =>
    goodStarts n (lowest + 1) ++ [.start lowest startFailure] ++ shown style startFailure ++
      (goodWaits n 0 ended ++ badWait ended waitFailure ++ shown style waitFailure)

/-- What a reader finds who cares for no start and no wait that goes well. -/
theorem filterMap_ran {α : Type} {f : Call → Option α} (hs : ∀ i, f (.start i none) = none)
    (hw : ∀ i, f (.wait i none) = none) (hi : ∀ i, f (.detachInput i) = none) (ho : ∀ i, f (.detachOutput i) = none)
    (style : String → String) (n k m : Nat) (a b : Option StageError) :
    ((ran k a m b).calls style n).filterMap f =
      (f (.start k a)).toList ++ (shown style a).filterMap f ++
        ((badWait m b).filterMap f ++ (shown style b).filterMap f) := by
  have hstart : [Call.start k a].filterMap f = (f (.start k a)).toList := by cases h : f (.start k a) <;> simp [h]
  simp only [calls, List.filterMap_append, filterMap_goodStarts hs, filterMap_goodWaits hw hi ho, hstart,
    List.nil_append]

end Course

/-- What stage `k` is given to read from when the first `made` pipes have been wired. -/
def wiredInput (joint : Nat → Joint) (made k : Nat) : Option PipeEnd :=
  if 0 < k ∧ k ≤ made then some (joint (k - 1)).reader else none

/-- What stage `k` is given to write to when the first `made` pipes have been wired. -/
def wiredOutput (joint : Nat → Joint) (made k : Nat) : Option PipeEnd :=
  if k < made ∧ (joint k).redirected = false then some (joint k).writer else none

/-- The first stage has no input to give back. -/
theorem closed_input (joint : Nat → Joint) (made m k : Nat) :
    (if k < m ∧ k ≠ 0 then none else wiredInput joint made k) = if k < m then none else wiredInput joint made k := by
  by_cases h : k = 0
  · simp [h, wiredInput]
  · simp [h]

/-- The last stage has no output to give back. -/
theorem closed_output (joint : Nat → Joint) (n m k : Nat) :
    (if k < m ∧ k + 1 ≠ n then none else wiredOutput joint (n - 1) k) =
      if k < m then none else wiredOutput joint (n - 1) k := by
  by_cases h : k + 1 = n
  · have : ¬ k < n - 1 := by omega
    simp [h, wiredOutput, this]
  · simp [h]

theorem watched_cons (first : S) (rest : List S) :
    watched (first :: rest) = ⟨0, first, none, none⟩ :: rest.mapIdx fun i s => ⟨i + 1, s, none, none⟩ := by
  simp [watched, List.mapIdx_cons]

theorem watched_slots (stages : List S) (i : Nat) :
    (stages.mapIdx fun k s => (⟨k + i, s, none, none⟩ : Watched S)).map Watched.slot =
      slots (fun _ => none) (fun _ => none) i stages.length := by
  apply List.ext_getElem
  · simp [slots]
  · intro k h₁ h₂
    simp [slots, Watched.slot, Nat.add_comm]

theorem watched_stages (stages : List S) (i : Nat) :
    (stages.mapIdx fun k s => (⟨k + i, s, none, none⟩ : Watched S)).map Watched.stage = stages := by
  apply List.ext_getElem
  · simp
  · intro k h₁ h₂
    simp

/-- The run of these stages went so: it took the course `c`, and its pipes were wired as `joint` says. -/
structure Went (style : String → String) (stages : List S) (w : W) (joint : Nat → Joint) (c : Course) : Prop where
  fits : c.Fits stages.length
  asked : ∀ k < c.made stages.length, Asked W stages k (joint k).redirected
  next : (watch style stages w).1 = c.next
  calls : callsOf style stages w = wiring joint 0 (c.made stages.length) ++ c.calls style stages.length
  slots : (watch style stages w).2.1.map Watched.slot =
    slots (fun k => if k < c.ended then none else wiredInput joint (c.made stages.length) k)
      (fun k => if k < c.ended then none else wiredOutput joint (c.made stages.length) k) 0 stages.length

/-- What is not read off the wiring is read off the rest of the course. -/
theorem Went.filterMap_calls {style : String → String} {stages : List S} {w : W} {joint : Nat → Joint} {c : Course}
    {α : Type} {f : Call → Option α} (h : Went style stages w joint c) (hm : ∀ ends, f (.makePipe (.ok ends)) = none)
    (hd : ∀ e, f (.dropEnd e) = none) (hi : ∀ i e, f (.attachInput i e) = none)
    (ho : ∀ i e, f (.attachOutput i e) = none) :
    (callsOf style stages w).filterMap f = (c.calls style stages.length).filterMap f := by
  rw [h.calls, List.filterMap_append, filterMap_wiring_eq_nil hm hd hi ho, List.nil_append]

theorem numbers_of_slots {ps : List (Watched S)} {input output : Nat → Option PipeEnd} {i n : Nat}
    (h : ps.map Watched.slot = slots input output i n) : ps.length = n ∧ ps.map Watched.number = List.range' i ps.length := by
  have hlen : ps.length = n := by simpa [slots] using congrArg List.length h
  refine ⟨hlen, ?_⟩
  have := congrArg (List.map Prod.fst) h
  simpa [slots, hlen, Function.comp_def, Watched.slot] using this

/-- These stages have been joined by `made` pipes, wired as `joint` says, and then perhaps no further pipe was to
    be had. -/
structure Wired (stages : List S) (w : W) (joint : Nat → Joint) (made : Nat) (failure : Option Errno)
    (ps : List (Watched S)) (t : Traced W) : Prop where
  joined : join (watched stages) ({ world := w } : Traced W) = (failure.map .noPipe, ps, t)
  made_le : made ≤ stages.length - 1
  complete : failure = none ↔ made = stages.length - 1
  calls : t.calls = wiring joint 0 made ++ refusal failure
  slots : ps.map Watched.slot = slots (wiredInput joint made) (wiredOutput joint made) 0 stages.length
  asked : ∀ k < made, Asked W stages k (joint k).redirected

theorem join_watched (first : S) (rest : List S) (w : W) :
    ∃ joint made failure ps t, Wired (first :: rest) w joint made failure ps t := by
  let ps := rest.mapIdx fun i s => (⟨i + 1, s, none, none⟩ : Watched S)
  have hlen : ps.length = rest.length := List.length_mapIdx
  have hps : ps.map Watched.stage = rest := watched_stages rest 1
  obtain ⟨joint, made, failure, h⟩ := joinFrom_watched ps 0 ⟨0, first, none, none⟩ ({ world := w } : Traced W) rfl rfl
    (by rw [hlen]; exact watched_slots rest 1)
  have hcalls := h.calls
  have hslots := h.slots
  have herror := h.error
  rcases hj : joinFrom 0 (⟨0, first, none, none⟩ : Watched S) ps ({ world := w } : Traced W) with ⟨error, qs, t⟩
  rw [hj] at hcalls hslots herror
  cases herror
  have hle := h.made_le
  have hcomplete := h.complete
  rw [hlen] at hle hcomplete
  refine ⟨joint, made, failure, qs, t, by rw [watched_cons]; exact hj, hle, hcomplete, by simpa using hcalls, ?_, ?_⟩
  · rw [hslots, hlen]
    apply slots_congr
    · intro k _
      cases k <;> simp [wiredInput]
    · intro k _
      simp [wiredOutput]
  · intro k hk
    have := h.asked k hk
    rwa [List.map_cons, hps, Nat.zero_add] at this

omit [Surroundings W] [StageLike S W] in
theorem exists_startCalls {style : String → String} {n : Nat} {t : Traced W} {r : Bool × List (Watched S) × Traced W}
    (h : StartedFrom style 0 n t r) (hn : 0 < n) :
    ∃ k f, k < n ∧ (f = none → k = 0) ∧
      r.2.2.calls = t.calls ++ (goodStarts n (k + 1) ++ [.start k f] ++ shown style f) := by
  rcases h with ⟨-, hc⟩ | ⟨k, error, -, hk, -, hc⟩
  · refine ⟨0, none, hn, fun _ => rfl, ?_⟩
    rw [hc, goodStarts_of_lt hn, shown, List.append_nil]
  · exact ⟨k, some error, hk, by simp, by rw [hc]; simp⟩

/-- The course of a run once its stages have been joined. -/
theorem Wired.went {stages : List S} {w : W} {joint : Nat → Joint} {made : Nat} {failure : Option Errno}
    {ps : List (Watched S)} {t : Traced W} (h : Wired stages w joint made failure ps t) (hne : 0 < stages.length)
    (style : String → String) : ∃ c, Went style stages w joint c := by
  cases failure with
  | some errno =>
    have hwatch : watch style stages w = (.goOn, ps, announce style (.noPipe errno) t) := run_unjoined h.joined
    have hmade : made + 1 < stages.length := by
      have hle := h.made_le
      have : ¬ made = stages.length - 1 := by simpa using h.complete
      omega
    refine ⟨.noPipe made errno, hmade, h.asked, by rw [hwatch]; rfl, ?_, ?_⟩
    · rw [callsOf, hwatch, announce_calls, h.calls, List.append_assoc]
      rfl
    · rw [hwatch]
      exact h.slots
  | none =>
    have hmade : made = stages.length - 1 := h.complete.mp rfl
    subst hmade
    obtain ⟨hlen, hnum⟩ := numbers_of_slots h.slots
    obtain ⟨hstart, hstarted⟩ := startFrom_watched style stages.length ps 0 t hnum (by omega)
    have hwatch : watch style stages w = _ := run_joined h.joined
    rcases hr : startFrom style 0 ps t with ⟨all, qs, t₁⟩
    rw [hr] at hstart hstarted hwatch
    rw [h.slots] at hstarted
    obtain ⟨k, f, hk, hf, hc⟩ := exists_startCalls hstart hne
    have hlen' : qs.length = stages.length := (numbers_of_slots hstarted).1
    obtain ⟨m, g, hwait⟩ := waitFrom_watched style stages.length (wiredInput joint (stages.length - 1))
      (wiredOutput joint (stages.length - 1)) qs 0 t₁ (by rw [hlen']; exact hstarted) (by omega)
    refine ⟨.ran k f m g, ⟨hk, hf, by simpa using hwait.le, by simpa using hwait.complete⟩, h.asked, ?_, ?_, ?_⟩
    · rw [hwatch]
      exact hwait.next
    · rw [callsOf, hwatch]
      refine hwait.calls.trans ?_
      rw [hc, h.calls, Nat.zero_add]
      simp [Course.made, Course.calls, refusal]
    · have hs := hwait.slots
      rw [Nat.zero_add] at hs
      rw [hwatch]
      exact hs.trans (slots_congr (fun k _ => closed_input joint _ m k) (fun k _ => closed_output joint _ m k))

/-- Every run of a pipeline takes a course, and its calls, its answer and what its stages are left with follow
    from the course alone. -/
theorem watch_course (style : String → String) (first : S) (rest : List S) (w : W) :
    ∃ (joint : Nat → Joint) (c : Course), Went style (first :: rest) w joint c := by
  obtain ⟨joint, made, failure, ps, t, h⟩ := join_watched first rest w
  exact ⟨joint, h.went (Nat.succ_pos _) style⟩

end Pipeline

end CommandShell
