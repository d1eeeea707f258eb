/-
  CommandShell.Proofs.Pipeline.Order — the order in which a run calls its stages.

  `calls_in_order`: for any stages, whatever they and the system answer, the calls on the stages are the wiring
  from the first pipe to the last, the starts from the last stage down to the first that fails, and the waits
  from the first stage up to the first that fails, each good wait followed by the closing of the stage's own pipe
  ends. If a pipe is not to be had, only the wiring of the pipes before it has been done.
-/

import CommandShell.Proofs.Pipeline.Course

namespace CommandShell

namespace Pipeline

open Surroundings StageLike

/-- A call on a stage, not on the system or the user. -/
def Call.onStage : Call → Bool
  | .makePipe _ => false
  | .dropEnd _ => false
  | .complain _ _ => false
  | _ => true

/-- What the system answered when it was asked for a pipe. -/
def Call.pipeAnswer? : Call → Option (Except Errno (PipeEnd × PipeEnd))
  | .makePipe answer => some answer
  | _ => none

/-- The calls on the stages that wire the first `n` pipes. A stage that redirects its output gets no write end. -/
def handing (joint : Nat → Joint) (n : Nat) : List Call :=
  (List.range n).flatMap fun i =>
    (if (joint i).redirected then [] else [.attachOutput i (joint i).writer]) ++ [.attachInput (i + 1) (joint i).reader]

/-! ## The calls on the stages among all calls -/

theorem onStage_wiring (joint : Nat → Joint) (n : Nat) : (wiring joint 0 n).filter Call.onStage = handing joint n := by
  unfold wiring handing
  rw [List.filter_flatMap, List.range_eq_range']
  congr 1
  funext i
  cases h : (joint i).redirected <;> simp [Joint.calls, h, Call.onStage]

theorem onStage_shown (style : String → String) (failure : Option StageError) :
    (shown style failure).filter Call.onStage = [] := by
  rw [List.filter_eq_nil_iff]
  intro c hc
  obtain ⟨message, styled, rfl⟩ := mem_shown hc
  simp [Call.onStage]

theorem onStage_goodStarts (n k : Nat) : (goodStarts n k).filter Call.onStage = goodStarts n k := by
  rw [List.filter_eq_self]
  intro c hc
  obtain ⟨i, -, -, rfl⟩ := mem_goodStarts hc
  rfl

theorem onStage_goodWaits (n i m : Nat) : (goodWaits n i m).filter Call.onStage = goodWaits n i m := by
  rw [List.filter_eq_self]
  intro c hc
  obtain ⟨k, -, -, rfl | rfl | rfl⟩ := mem_goodWaits hc <;> rfl

theorem onStage_badWait (i : Nat) (failure : Option StageError) :
    (badWait i failure).filter Call.onStage = badWait i failure := by
  cases failure <;> rfl

/-! ## The answers for pipes among all calls -/

theorem pipeAnswer?_wiring (joint : Nat → Joint) (n : Nat) :
    (wiring joint 0 n).filterMap Call.pipeAnswer? =
      (List.range n).map fun i => .ok ((joint i).reader, (joint i).writer) := by
  rw [filterMap_wiring, List.map_eq_flatMap]
  congr 1
  funext i
  cases h : (joint i).redirected <;> simp [Joint.calls, h, Call.pipeAnswer?]

namespace Course

theorem onStage_noPipe (style : String → String) (n made : Nat) (errno : Errno) :
    ((noPipe made errno).calls style n).filter Call.onStage = [] := by
  simp only [calls, List.filter_cons, Call.onStage, onStage_shown]
  rfl

theorem onStage_ran (style : String → String) (n k m : Nat) (f g : Option StageError) :
    ((ran k f m g).calls style n).filter Call.onStage =
      (goodStarts n (k + 1) ++ [.start k f]) ++ (goodWaits n 0 m ++ badWait m g) := by
  simp [calls, List.filter_cons, Call.onStage, onStage_shown, onStage_goodStarts, onStage_goodWaits, onStage_badWait]

theorem pipeAnswer?_noPipe (style : String → String) (n made : Nat) (errno : Errno) :
    ((noPipe made errno).calls style n).filterMap Call.pipeAnswer? = [.error errno] := by
  rw [calls, List.filterMap_cons, filterMap_shown (fun _ _ => rfl)]
  rfl

theorem pipeAnswer?_ran (style : String → String) (n k m : Nat) (f g : Option StageError) :
    ((ran k f m g).calls style n).filterMap Call.pipeAnswer? = [] := by
  rw [filterMap_ran (fun _ => rfl) (fun _ => rfl) (fun _ => rfl) (fun _ => rfl), filterMap_shown (fun _ _ => rfl),
    filterMap_shown (fun _ _ => rfl)]
  cases g <;> rfl

end Course

variable {S W : Type} [Surroundings W] [StageLike S W]

/-- The calls on the stages of a pipeline come in a fixed order, and go as far as the answers allow. -/
theorem calls_in_order (style : String → String) (first : S) (rest : List S) (w : W) :
    let stages := first :: rest
    let n := stages.length
    let calls := (callsOf style stages w).filter Call.onStage
    let pipeAnswers := (callsOf style stages w).filterMap Call.pipeAnswer?
    -- watching changes nothing
    ((watch style stages w).1 = (run style stages w).1 ∧
      (watch style stages w).2.1.map Watched.stage = (run style stages w).2.1 ∧
      (watch style stages w).2.2.world = (run style stages w).2.2) ∧
    ∃ joint : Nat → Joint,
      -- all pipes are made
      ((∀ i < n - 1, Asked W stages i (joint i).redirected) ∧
        pipeAnswers = (List.range (n - 1)).map (fun i => .ok ((joint i).reader, (joint i).writer)) ∧
        ∃ k startFailure m waitFailure,
          k < n ∧ (startFailure = none → k = 0) ∧ m ≤ n ∧ (waitFailure = none ↔ m = n) ∧
          calls = handing joint (n - 1) ++ (goodStarts n (k + 1) ++ [.start k startFailure]) ++
            (goodWaits n 0 m ++ badWait m waitFailure)) ∨
      -- pipe `p` cannot be made
      (∃ p errno, 1 ≤ p ∧ p ≤ n - 1 ∧ (∀ i < p - 1, Asked W stages i (joint i).redirected) ∧
        pipeAnswers = (List.range (p - 1)).map (fun i => .ok ((joint i).reader, (joint i).writer)) ++ [.error errno] ∧
        calls = handing joint (p - 1)) := by
  intro stages n calls pipeAnswers
  obtain ⟨joint, c, h⟩ := watch_course style first rest w
  refine ⟨watch_run style stages w, joint, ?_⟩
  have hcalls : callsOf style stages w = _ := h.calls
  have hfits : c.Fits n := h.fits
  have hasked : ∀ i < c.made n, Asked W stages i (joint i).redirected := h.asked
  simp only [calls, pipeAnswers, hcalls, List.filter_append, List.filterMap_append, onStage_wiring, pipeAnswer?_wiring]
  cases c with
  | noPipe made errno =>
    right
    refine ⟨made + 1, errno, by omega, Nat.le_pred_of_lt hfits, hasked, ?_, ?_⟩
    · rw [Course.pipeAnswer?_noPipe]
      rfl
    · rw [Course.onStage_noPipe, List.append_nil]
      rfl
  | ran k f m g =>
    left
    obtain ⟨hk, hf, hm, hg⟩ := hfits
    refine ⟨hasked, ?_, k, f, m, g, hk, hf, hm, hg, ?_⟩
    · rw [Course.pipeAnswer?_ran, List.append_nil]
      rfl
    · rw [Course.onStage_ran, ← List.append_assoc]
      rfl

end Pipeline

end CommandShell
