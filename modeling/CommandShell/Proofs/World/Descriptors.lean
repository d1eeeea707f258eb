/-
  CommandShell.Proofs.World.Descriptors — what streams cost.

  A second descriptor for one of the shell's own streams costs nothing, one for any other stream costs one of the
  descriptors that are to be had (`Handle.cost`).
  - `duplicateAll_eq`: second descriptors are there for all of some streams if and only if their cost can be paid, and
    if it cannot, everything has been spent;
  - `Alters.closed`: what happens between opening and closing happens all the same if nothing was spent for it.
-/

import CommandShell.Proofs.World.Files
import CommandShell.Stage

namespace CommandShell

/-- How many descriptors it takes to hold a stream once more. -/
def Handle.cost : Handle → Nat
  | .standard _ => 0
  | _ => 1

@[simp] theorem Handle.cost_standard (stream : StandardStream) : (Handle.standard stream).cost = 0 := rfl
@[simp] theorem Handle.cost_pipeEnd (e : PipeEnd) : (Handle.pipeEnd e).cost = 1 := rfl

def Handle.costs : List Handle → Nat
  | [] => 0
  | h :: rest => h.cost + costs rest

namespace World

variable {places : Set Location} {w w' w'' : World}

/-! ## Spending -/

def spend (n : Nat) (w : World) : World := { w with spare := w.spare - n }

theorem duplicate_eq (h : Handle) (w : World) : w.duplicate h =
    if h.cost ≤ w.spare then (.ok (), w.spend h.cost) else (.error (.system .tooManyOpen), w) := by
  cases h with
  | standard stream => rfl
  | _ =>
    by_cases hs : w.spare = 0
    · rw [if_neg (by simp [Handle.cost, hs])]
      simp [duplicate, exhausted, hs]
    · rw [if_pos (by simpa [Handle.cost, Nat.one_le_iff_ne_zero] using hs)]
      simp [duplicate, exhausted, Handle.cost, spend, hs]

/-- Second descriptors for some streams are paid for together, or everything has been spent. -/
theorem duplicateAll_eq (handles : List Handle) : ∀ w : World, w.duplicateAll handles =
    if Handle.costs handles ≤ w.spare then (.ok (), w.spend (Handle.costs handles))
    else (.error (.system .tooManyOpen), w.spend w.spare) := by
  induction handles with
  | nil => intro w; rfl
  | cons h rest ih =>
    intro w
    have hcosts : Handle.costs (h :: rest) = h.cost + Handle.costs rest := rfl
    have hone : h.cost ≤ 1 := by cases h <;> simp [Handle.cost]
    rw [duplicateAll, duplicate_eq, hcosts]
    by_cases hfirst : h.cost ≤ w.spare
    · have hspare : (w.spend h.cost).spare = w.spare - h.cost := rfl
      simp only [if_pos hfirst, ih, hspare]
      by_cases hrest : Handle.costs rest ≤ w.spare - h.cost
      · rw [if_pos hrest, if_pos (by omega), spend, spend, spend, Nat.sub_sub]
      · rw [if_neg hrest, if_neg (by omega), spend, spend, spend, Nat.sub_self, Nat.sub_self]
    · -- nothing is left, or the first one could be paid
      have hnone : w.spare = 0 := by omega
      simp only [if_neg hfirst]
      rw [if_neg (by omega), hnone]
      rfl

/-- What is written to a file does not depend on what was spent. -/
theorem writeFile_spend (number : Nat) (data : Bytes) (n : Nat) (w : World) : (w.spend n).writeFile number data =
    ((w.writeFile number data).1, (w.writeFile number data).2.spend n) := by
  unfold writeFile spend
  dsimp only
  cases w.opened[number]? with
  | none => rfl
  | some file => cases hwrite : w.files.write file data <;> simp only [hwrite]

theorem spare_openRedirection_le (name : String) (r : Option Redirection) (w : World) :
    (w.openRedirection name r).2.spare ≤ w.spare := by
  unfold openRedirection keepOpen
  split
  · exact Nat.le_refl _
  · next r =>
    have hnoted := (alters_note (.redirecting r.target r.mode) w).spare
    rcases openFile_cases r.target r.mode (w.note (.redirecting r.target r.mode)) with ⟨fault, he⟩ | ⟨l, he, -⟩
    · simp only [he, hnoted, Nat.le_refl]
    · simp only [he, hnoted, Nat.sub_le]

theorem spare_close (h : Handle) (w : World) : (w.close h).spare = w.spare + h.cost := by
  cases h <;> rfl

/-! ## Closing -/

theorem closeSince_of_spare (h : w'.spare = w.spare) : w.closeSince w' = w' := by
  rw [closeSince, ← h]

/-- What was spent makes no difference to what else has changed. -/
theorem Alters.closed (h : Alters places w' w'') : Alters places (w.closeSince w') (w.closeSince w'') where
  rest := (congrArg w.closeSince h.rest :)
  errors := h.errors
  opened := h.opened
  kinds := h.kinds
  nodes := h.nodes

end World

theorem Stage.duplicate_eq (s : Stage) (handles : List Handle) (w : World) : s.duplicate handles w =
    if Handle.costs handles ≤ w.spare then (.ok (), w.spend (Handle.costs handles))
    else (.error (.io s.name (.system .tooManyOpen)), w.spend w.spare) := by
  rw [duplicate, World.duplicateAll_eq]
  by_cases h : Handle.costs handles ≤ w.spare
  · rw [if_pos h, if_pos h]
  · rw [if_neg h, if_neg h]

theorem Stage.spare_prepare_le (s : Stage) (w : World) : (s.prepare w).2.spare ≤ w.spare := by
  have hr : (s.redirected w).2.spare ≤ w.spare := by
    have hout := w.spare_openRedirection_le s.name s.command.stdout
    unfold redirected
    split
    · next heq => rw [heq] at hout; exact hout
    · next w₁ heq =>
      rw [heq] at hout
      have herr := w₁.spare_openRedirection_le s.name s.command.stderr
      split <;> next heq₁ => rw [heq₁] at herr; exact herr.trans hout
  unfold prepare
  split
  · next heq => rw [heq] at hr; exact hr
  · next outputs w₁ heq =>
    rw [heq] at hr
    have hd : (s.duplicate [outputs.stdout, outputs.stderr] w₁).2.spare ≤ w₁.spare := by
      rw [duplicate_eq]
      split <;> exact Nat.sub_le ..
    split
    · next heq₁ => rw [heq₁] at hd; exact hd.trans hr
    · next heq₁ =>
      rw [heq₁] at hd
      split <;> exact hd.trans hr

end CommandShell
