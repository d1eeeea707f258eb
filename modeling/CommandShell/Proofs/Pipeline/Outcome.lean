/-
  CommandShell.Proofs.Pipeline.Outcome — what a run answers, and what it shows the user.

  Every run takes a course (`watch_course`), and whoever reads its calls finds the course again: the pipes that were
  asked for, the starts and the waits with their answers, and the messages (`Went.followed`).
  - `Followed.wait_mem_iff`, `Followed.leaveRequested_iff`: so the answers of the waits, and with them what the shell
    does next, can be read off the course;
  - `run_outcome`: a run of any stages follows a course. The shell is to leave exactly when all pipes were made and a
    stage requested it in its wait, all stages before it having ended well. The messages are those of the failures met,
    in order and without the silent ones: that of a pipe alone, or that of one start and then that of one wait.
-/

import CommandShell.Pipeline.Rehearsal
import CommandShell.Proofs.Pipeline.Order

namespace CommandShell

namespace Pipeline

open Surroundings StageLike

namespace Call

/-- The stage that is started, and how its start fails. -/
def started? : Call → Option (Nat × Option StageError)
  | .start i failure => some (i, failure)
  | _ => none

/-- The stage that is waited for, and how its wait fails. -/
def waited? : Call → Option (Nat × Option StageError)
  | .wait i failure => some (i, failure)
  | _ => none

/-- A message to the user, as it is and as it is styled. -/
def message? : Call → Option (String × String)
  | .complain message styled => some (message, styled)
  | _ => none

end Call

/-- The message of a failure, unless it is silent. -/
def messageOf (style : String → String) (error : StageError) : Option (String × String) :=
  if error.isSilent then none else some (error.message, style error.message)

/-! ## The course in the calls -/

namespace Course

/-- The pipe that cannot be made. -/
def refused? : Course → Option Errno
  | noPipe _ errno => some errno
  | ran .. => none

/-- The starts of a run of `n` stages: from the last stage down to the first that fails. -/
def starts (n : Nat) : Course → List (Nat × Option StageError)
  | noPipe .. => []
  | ran lowest startFailure _ _ =>
    (List.range' (lowest + 1) (n - (lowest + 1))).reverse.map (·, none) ++ [(lowest, startFailure)]

def waitFailure? : Course → Option StageError
  | noPipe .. => none
  | ran _ _ _ waitFailure => waitFailure

/-- The waits: from the first stage up to the first that fails. -/
def waits (c : Course) : List (Nat × Option StageError) :=
  (List.range c.ended).map (·, none) ++ (c.waitFailure?.map fun error => (c.ended, some error)).toList

/-- The messages of the failures that are met. -/
def messages (style : String → String) : Course → List (String × String)
  | noPipe _ errno => (messageOf style (.noPipe errno)).toList
  | ran _ startFailure _ waitFailure =>
    (startFailure.bind (messageOf style)).toList ++ (waitFailure.bind (messageOf style)).toList

end Course

/-- These calls of a run of `n` stages follow the course `c`. -/
structure Followed (style : String → String) (n : Nat) (calls : List Call) (c : Course) : Prop where
  fits : c.Fits n
  /-- Pipes are asked for until there are enough, or one cannot be made. -/
  pipes : ∃ ends : List (PipeEnd × PipeEnd), ends.length = c.made n ∧
    calls.filterMap Call.pipeAnswer? = ends.map .ok ++ (c.refused?.map .error).toList
  starts : calls.filterMap Call.started? = c.starts n
  waits : calls.filterMap Call.waited? = c.waits
  messages : calls.filterMap Call.message? = c.messages style

theorem started?_goodStarts (n k : Nat) :
    (goodStarts n k).filterMap Call.started? = (List.range' k (n - k)).reverse.map (·, none) := by
  rw [goodStarts, List.filterMap_map]
  exact congrFun List.filterMap_eq_map _

theorem waited?_closing (n i : Nat) : (closing n i).filterMap Call.waited? = [] := by
  unfold closing
  split <;> split <;> rfl

theorem waited?_goodWaits (n m : Nat) :
    (goodWaits n 0 m).filterMap Call.waited? = (List.range m).map (·, none) := by
  rw [goodWaits, List.filterMap_flatMap, List.map_eq_flatMap, List.range_eq_range']
  congr 1
  funext i
  rw [List.filterMap_cons, waited?_closing]
  rfl

theorem message?_shown (style : String → String) (failure : Option StageError) :
    (shown style failure).filterMap Call.message? = (failure.bind (messageOf style)).toList := by
  cases failure with
  | none => rfl
  | some error =>
    cases h : error.isSilent <;> simp [shown, messageOf, h, Call.message?]

namespace Course

theorem started?_calls (style : String → String) (n : Nat) (c : Course) :
    (c.calls style n).filterMap Call.started? = c.starts n := by
  cases c with
  | noPipe made errno => rw [calls, List.filterMap_cons, filterMap_shown (fun _ _ => rfl)]; rfl
  | ran k f m g =>
    have hshown : ∀ failure, (shown style failure).filterMap Call.started? = [] :=
      filterMap_shown (fun _ _ => rfl) style
    have hwaits : (goodWaits n 0 m).filterMap Call.started? = [] :=
      filterMap_goodWaits (fun _ => rfl) (fun _ => rfl) (fun _ => rfl) n 0 m
    simp only [calls, List.filterMap_append, started?_goodStarts, hshown, hwaits]
    cases g <;> simp [badWait, starts, Call.started?]

theorem waited?_calls (style : String → String) (n : Nat) (c : Course) :
    (c.calls style n).filterMap Call.waited? = c.waits := by
  cases c with
  | noPipe made errno => rw [calls, List.filterMap_cons, filterMap_shown (fun _ _ => rfl)]; rfl
  | ran k f m g =>
    have hshown : ∀ failure, (shown style failure).filterMap Call.waited? = [] :=
      filterMap_shown (fun _ _ => rfl) style
    have hstarts : (goodStarts n (k + 1)).filterMap Call.waited? = [] := filterMap_goodStarts (fun _ => rfl) n (k + 1)
    simp only [calls, List.filterMap_append, waited?_goodWaits, hshown, hstarts]
    cases g <;> simp [badWait, waits, ended, waitFailure?, Call.waited?]

theorem message?_calls (style : String → String) (n : Nat) (c : Course) :
    (c.calls style n).filterMap Call.message? = c.messages style := by
  cases c with
  | noPipe made errno => rw [calls, List.filterMap_cons, message?_shown]; rfl
  | ran k f m g =>
    rw [filterMap_ran (fun _ => rfl) (fun _ => rfl) (fun _ => rfl) (fun _ => rfl), message?_shown, message?_shown]
    cases g <;> rfl

theorem pipeAnswer?_calls (style : String → String) (n : Nat) (c : Course) :
    (c.calls style n).filterMap Call.pipeAnswer? = (c.refused?.map .error).toList := by
  cases c with
  | noPipe made errno => exact pipeAnswer?_noPipe style n made errno
  | ran k f m g => exact pipeAnswer?_ran style n k m f g

end Course

variable {S W : Type} [Surroundings W] [StageLike S W]

/-- The calls of a run follow the course that it takes. -/
theorem Went.followed {style : String → String} {stages : List S} {w : W} {joint : Nat → Joint} {c : Course}
    (h : Went style stages w joint c) : Followed style stages.length (callsOf style stages w) c := by
  let ends := (List.range (c.made stages.length)).map fun i => ((joint i).reader, (joint i).writer)
  refine ⟨h.fits, ⟨ends, by simp [ends], ?_⟩, ?_, ?_, ?_⟩
  · rw [h.calls, List.filterMap_append, pipeAnswer?_wiring, Course.pipeAnswer?_calls, List.map_map]
    rfl
  · rw [h.filterMap_calls (fun _ => rfl) (fun _ => rfl) (fun _ _ => rfl) (fun _ _ => rfl), Course.started?_calls]
  · rw [h.filterMap_calls (fun _ => rfl) (fun _ => rfl) (fun _ _ => rfl) (fun _ _ => rfl), Course.waited?_calls]
  · rw [h.filterMap_calls (fun _ => rfl) (fun _ => rfl) (fun _ _ => rfl) (fun _ _ => rfl), Course.message?_calls]

/-! ## The answer -/

/-- All pipes between `n` stages were made, and a stage asked in its wait to leave with this code, the waits for all
    stages before it having gone well. -/
def LeaveRequested (n : Nat) (calls : List Call) (code : Int) : Prop :=
  (∃ ends : List (PipeEnd × PipeEnd), ends.length = n - 1 ∧ calls.filterMap Call.pipeAnswer? = ends.map .ok) ∧
    ∃ j < n, .wait j (some (.exitRequested code)) ∈ calls ∧ ∀ i < j, .wait i none ∈ calls

namespace Followed

variable {style : String → String} {n : Nat} {calls : List Call} {c : Course}

/-- The waits are those for the stages that end well, and the one that fails. -/
theorem wait_mem_iff (h : Followed style n calls c) {j : Nat} {failure : Option StageError} :
    .wait j failure ∈ calls ↔
      (failure = none ∧ j < c.ended) ∨ (j = c.ended ∧ failure ≠ none ∧ failure = c.waitFailure?) := by
  have hread : .wait j failure ∈ calls ↔ (j, failure) ∈ calls.filterMap Call.waited? := by
    rw [List.mem_filterMap]
    constructor
    · intro hmem
      exact ⟨_, hmem, rfl⟩
    · rintro ⟨call, hmem, hcall⟩
      cases call <;> cases hcall
      exact hmem
  rw [hread, h.waits, Course.waits]
  cases c.waitFailure? <;> cases failure <;> simp

theorem leaveRequested_iff (h : Followed style n calls c) (code : Int) :
    LeaveRequested n calls code ↔ c.next = .leave code := by
  obtain ⟨ends, hlength, hpipes⟩ := h.pipes
  have hfits := h.fits
  cases c with
  | noPipe made errno =>
    constructor
    · rintro ⟨-, j, -, hj, -⟩
      rcases h.wait_mem_iff.mp hj with ⟨hnone, -⟩ | ⟨-, -, hnone⟩ <;> cases hnone
    · intro hnext
      cases hnext
  | ran k f m g =>
    obtain ⟨-, -, hm, hg⟩ := hfits
    constructor
    · rintro ⟨-, j, -, hj, -⟩
      rcases h.wait_mem_iff.mp hj with ⟨hnone, -⟩ | ⟨-, -, hfailure⟩
      · cases hnone
      · have hfailure : some (.exitRequested code) = g := hfailure
        rw [← hfailure]
        rfl
    · intro hnext
      have hg' : g = some (.exitRequested code) := by
        cases g with
        | none => cases hnext
        | some error => cases error <;> simp_all [Course.next, verdict]
      have hlt : m < n := by
        have hne : m ≠ n := fun heq => by simp [hg.mpr heq] at hg'
        omega
      refine ⟨⟨ends, hlength, by rw [hpipes]; exact List.append_nil _⟩, m, hlt, ?_, ?_⟩
      · exact h.wait_mem_iff.mpr (.inr ⟨rfl, by simp, hg'.symm⟩)
      · intro i hi
        exact h.wait_mem_iff.mpr (.inl ⟨rfl, hi⟩)

end Followed

/-! ## The messages -/

theorem length_messageOf_le (style : String → String) (failure : Option StageError) :
    (failure.bind (messageOf style)).toList.length ≤ 1 := by
  cases failure.bind (messageOf style) <;> simp

theorem Course.length_messages_le (style : String → String) (c : Course) : (c.messages style).length ≤ 2 := by
  cases c with
  | noPipe made errno => exact Nat.le_succ_of_le (length_messageOf_le style (some (.noPipe errno)))
  | ran k f m g =>
    have hf := length_messageOf_le style f
    have hg := length_messageOf_le style g
    rw [messages, List.length_append]
    omega

theorem messageOf_eq_none_iff (style : String → String) (error : StageError) :
    messageOf style error = none ↔ (∃ name code, error = .exited name code) ∨ ∃ code, error = .exitRequested code := by
  cases error <;> simp [messageOf, StageError.isSilent]

/-- What a run does, answers and shows, for any stages and whatever they and the system answer. A code other than zero
    and a request to leave are not worth a message. -/
theorem run_outcome (style : String → String) (stages : List S) (w : W) :
    let calls := callsOf style stages w
    let next := (run style stages w).1
    let n := stages.length
    -- watching changes nothing
    ((watch style stages w).1 = next ∧ (watch style stages w).2.1.map Watched.stage = (run style stages w).2.1 ∧
      (watch style stages w).2.2.world = (run style stages w).2.2) ∧
    -- the pipes, starts, waits and messages
    (stages = [] ∧ calls = [] ∧ next = .goOn ∨ ∃ c, Followed style n calls c ∧ next = c.next) ∧
    (∀ code, next = .leave code ↔ LeaveRequested n calls code) ∧
    (next = .goOn ↔ ∀ code, ¬ LeaveRequested n calls code) ∧
    (calls.filterMap Call.message?).length ≤ 2 ∧
    (∀ error, messageOf style error = none ↔
      (∃ name code, error = .exited name code) ∨ ∃ code, error = .exitRequested code) := by
  intro calls next n
  have hwatch := watch_run style stages w
  have hleave : (∀ code, next = .leave code ↔ LeaveRequested n calls code) →
      (next = .goOn ↔ ∀ code, ¬ LeaveRequested n calls code) := by
    intro hiff
    simp only [← hiff]
    cases next <;> simp
  cases stages with
  | nil =>
    have hnever : ∀ code, next = .leave code ↔ LeaveRequested n calls code := by
      intro code
      constructor
      · intro h
        have h : Next.goOn = .leave code := h
        cases h
      · rintro ⟨-, j, hj, -⟩
        exact absurd hj (Nat.not_lt_zero j)
    exact ⟨hwatch, .inl ⟨rfl, rfl, rfl⟩, hnever, hleave hnever, Nat.zero_le 2, messageOf_eq_none_iff style⟩
  | cons first rest =>
    obtain ⟨joint, c, hwent⟩ := watch_course style first rest w
    have hfollowed : Followed style n calls c := hwent.followed
    have hnext : next = c.next := hwatch.1.symm.trans hwent.next
    have hiff : ∀ code, next = .leave code ↔ LeaveRequested n calls code := by
      intro code
      rw [hfollowed.leaveRequested_iff, hnext]
    refine ⟨hwatch, .inr ⟨c, hfollowed, hnext⟩, hiff, hleave hiff, ?_, messageOf_eq_none_iff style⟩
    rw [hfollowed.messages]
    exact c.length_messages_le style

/-- The last of three players cannot be started, which is said, and neither of the others is. All the same they are
    waited for, and the second of them asks to leave. -/
theorem run_outcome_leaving :
    let players : List Rehearsal.Player :=
      [{ name := "a" }, { name := "b", waitError := some (.exitRequested 3) },
       { name := "c", startError := some (.cannotStart "c" .notUtf8) }]
    let calls := callsOf id players ({} : Rehearsal.Book)
    (run id players ({} : Rehearsal.Book)).1 = .leave 3 ∧ LeaveRequested 3 calls 3 ∧
      ∃ c, Followed id 3 calls c ∧ c.starts 3 = [(2, some (.cannotStart "c" .notUtf8))] ∧
        c.waits = [(0, none), (1, some (.exitRequested 3))] := by
  intro players calls
  obtain ⟨-, hcourse, hleave, -⟩ := run_outcome id players ({} : Rehearsal.Book)
  have hnext : (run id players ({} : Rehearsal.Book)).1 = .leave 3 := by decide +kernel
  rcases hcourse with ⟨hnil, -⟩ | ⟨c, hfollowed, -⟩
  · exact absurd hnil (List.cons_ne_nil _ _)
  · have hstarts : calls.filterMap Call.started? = [(2, some (.cannotStart "c" .notUtf8))] := by decide +kernel
    have hwaits : calls.filterMap Call.waited? = [(0, none), (1, some (.exitRequested 3))] := by decide +kernel
    exact ⟨hnext, (hleave 3).mp hnext, c, hfollowed, hfollowed.starts.symm.trans hstarts,
      hfollowed.waits.symm.trans hwaits⟩

end Pipeline

end CommandShell
