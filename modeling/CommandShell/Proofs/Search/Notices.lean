/-
  CommandShell.Proofs.Search.Notices — a search takes down notices and does nothing else.

  Whether one program is looked for or all of them are listed, the world afterwards is the world before with some
  notices taken down (`World.Noted`). What every notice keeps, every search keeps:
  - `Noted.alters`: no file has changed but those that the log goes to;
  - `noted_find`, `noted_describe`: looking for a program, and saying what names mean.
-/

import CommandShell.Builtin
import CommandShell.Proofs.World.Files

namespace CommandShell

namespace World

/-- Nothing has happened but that notices were taken down. -/
inductive Noted (w : World) : World → Prop
  | refl : Noted w w
  | note {w' : World} (h : Noted w w') (n : Notice) : Noted w (w'.note n)

variable {w w' w'' : World}

theorem Noted.trans (h : Noted w w') (h' : Noted w' w'') : Noted w w'' := by
  induction h' with
  | refl => exact h
  | note _ n ih => exact ih.note n

theorem Noted.alters (h : Noted w w') : Alters ∅ w w' := by
  induction h with
  | refl => exact .refl ∅ w
  | note _ n ih => exact ih.trans (alters_note n _)

/-- A notice that may be left out. -/
theorem noted_ite (c : Prop) [Decidable c] (n : Notice) (w : World) : Noted w (if c then w else w.note n) := by
  split
  · exact .refl
  · exact Noted.refl.note n

end World

namespace Search

open World

theorem noted_searchPath (w : World) : Noted w (searchPath w).2 := by
  unfold searchPath
  split
  · exact .refl
  · exact Noted.refl.note .pathUnset

theorem noted_judge (path : Native) (found : Except Fault Target) (w : World) : Noted w (judge path found w).2 := by
  unfold judge
  split
  · exact .refl
  · exact noted_ite ..

theorem noted_findIn (name : String) (dirs : List Native) : ∀ w, Noted w (findIn name dirs w).2 := by
  induction dirs with
  | nil => intro w; exact .refl
  | cons dir rest ih =>
    intro w
    unfold findIn
    split
    · exact (noted_ite ..).trans (ih _)
    · split
      · have h : Noted w (isExecutableEntry dir name w).2 := noted_judge ..
        split
        · next heq => rw [heq] at h; exact h
        · next heq => rw [heq] at h; exact h.trans (ih _)
      · exact ih w

theorem noted_find (name : String) (w : World) : Noted w (find name w).2 := by
  unfold find
  split
  · exact .refl
  · split
    · have h : Noted w (isExecutable name w).2 := noted_judge ..
      split <;> next heq => rw [heq] at h; exact h
    · exact (noted_searchPath w).trans (noted_findIn ..)

theorem noted_programsIn (dir : Native) (names : List Native) : ∀ w, Noted w (programsIn dir names w).2 := by
  induction names with
  | nil => intro w; exact .refl
  | cons name rest ih => intro w; exact (noted_judge ..).trans (ih _)

end Search

namespace Builtin

open World

theorem noted_describe (words : List String) : ∀ w, Noted w (describe words w).2 := by
  induction words with
  | nil => intro w; exact .refl
  | cons word rest ih =>
    intro w
    unfold describe
    by_cases h : (ofName? word).isSome = true
    · simp only [h, if_true]
      exact ih w
    · have hf := Search.noted_find word w
      rcases hs : Search.find word w with ⟨found, w₁⟩
      rw [hs] at hf
      cases found <;> simp only [h] <;> exact hf.trans (ih w₁)

end Builtin

end CommandShell
