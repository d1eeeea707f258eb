/-
  CommandShell.Proofs.Stage.FailedStart — a start that fails has carried out nothing.

  A stage opens the targets of its redirections before anything else, and whatever goes wrong goes wrong before its
  builtin is called or its program runs. So when a start fails, all that has happened is that some targets were opened,
  with a descriptor each, and notices taken down (`World.Readied`).
  - `Readied.spare`: each open target has cost one descriptor;
  - `Readied.node`: of every place it is known what has become of it, from what stood there before;
  - `fails_startWith`: each way in which a start can fail, with the targets that were opened by then (`FailsFor`);
  - `startWith_error_congr`: a start that fails does so whatever its builtins do;
  - `start_failed`: so a failed start leaves everything but these targets as it was.
-/

import CommandShell.Program.Tools
import CommandShell.Proofs.FileSystem.Openings
import CommandShell.Proofs.Search.Agreement
import CommandShell.Proofs.Stage.Lifecycle

namespace CommandShell

theorem Pipes.write_error {ps ps' : Pipes} {e : PipeEnd} {data : Bytes} {fault : Fault}
    (h : ps.write e data = (.error fault, ps')) : ps' = ps := by
  unfold write at h
  grind

namespace World

/-! ## Opening targets -/

/-- The targets of these redirections were opened in this order, and notices were taken down. Nothing else has
    happened. -/
inductive Readied (w : World) : List Redirection → World → Prop
  | start : Readied w [] w
  | note {opened : List Redirection} {w' : World} (h : Readied w opened w') (n : Notice) : Readied w opened (w'.note n)
  | opened {opened : List Redirection} {w' w'' : World} {r : Redirection} {number : Nat} (h : Readied w opened w')
      (hopen : w'.keepOpen r.target r.mode = (.ok number, w'')) : Readied w (opened ++ [r]) w''

/-- The places of the regular files that these redirections lead to. -/
def targets (w : World) (opened : List Redirection) : Set Location :=
  {l | ∃ r ∈ opened, w.files.filePlace? w.cwd r.target = some l}

/-- How the file at a place is opened by these redirections. -/
def modesAt (w : World) (opened : List Redirection) (l : Location) : List OpenMode :=
  (opened.filter fun r => w.files.filePlace? w.cwd r.target = some l).map Redirection.mode

variable {w w' w'' : World} {opened : List Redirection} {l : Location} {path : Native} {mode : OpenMode} {number : Nat}

theorem modesAt_concat (w : World) (opened : List Redirection) (r : Redirection) (l : Location) :
    w.modesAt (opened ++ [r]) l =
      w.modesAt opened l ++ if w.files.filePlace? w.cwd r.target = some l then [r.mode] else [] := by
  by_cases hr : w.files.filePlace? w.cwd r.target = some l <;> simp [modesAt, hr]

theorem mem_modesAt :
    mode ∈ w.modesAt opened l ↔ ∃ r ∈ opened, w.files.filePlace? w.cwd r.target = some l ∧ r.mode = mode := by
  simp [modesAt, and_assoc]

theorem modesAt_ne_nil (h : l ∈ w.targets opened) : w.modesAt opened l ≠ [] := by
  obtain ⟨r, hr, hplace⟩ := h
  exact List.ne_nil_of_mem (mem_modesAt.mpr ⟨r, hr, hplace, rfl⟩)

/-- Opening a file that is no regular one changes no file, and any other opening changes the file at its place. -/
theorem openFile_at (h : w.openFile path mode = (.ok number, w')) :
    (∃ l, w.files.filePlace? w.cwd path = some l ∧ w'.files = w.files.afterOpening l mode) ∨
      w.files.filePlace? w.cwd path = none ∧ w'.files = w.files := by
  rcases openFile_cases path mode w with ⟨fault, he⟩ | ⟨l, he, hopen⟩
  · cases he.symm.trans h
  · cases he.symm.trans h
    rcases FileSystem.openForWriting_at hopen with ⟨hplace, hfiles⟩ | ⟨hplace, hfiles, -⟩
    · exact .inl ⟨l, hplace, hfiles⟩
    · exact .inr ⟨hplace, hfiles⟩

/-- If the file that was opened is a regular one, it is the one at the place of its path. -/
theorem openFile_openAt (h : w.openFile path mode = (.ok number, w')) :
    ∃ l, w'.OpenAt number l ∧ (w'.files.HoldsFile l → w.files.filePlace? w.cwd path = some l) := by
  rcases openFile_cases path mode w with ⟨fault, he⟩ | ⟨l, he, hopen⟩
  · cases he.symm.trans h
  · cases he.symm.trans h
    refine ⟨l, by simp [OpenAt], ?_⟩
    intro hfile
    rcases FileSystem.openForWriting_at hopen with ⟨hplace, -⟩ | ⟨-, hfiles, hnone⟩
    · exact hplace
    · rw [hfiles] at hfile
      exact absurd hfile hnone

theorem alters_openFile (h : w.openFile path mode = (.ok number, w')) :
    Alters {l | w.files.filePlace? w.cwd path = some l} w w' := by
  have hnodes : ∀ l, w.files.filePlace? w.cwd path ≠ some l → w'.files.node? l = w.files.node? l := by
    intro l hl
    rcases openFile_at h with ⟨place, hplace, hfiles⟩ | ⟨-, hfiles⟩
    · rw [hfiles]
      refine FileSystem.node?_afterOpening_ne mode fun heq => hl ?_
      rw [hplace, heq]
    · rw [hfiles]
  rcases openFile_cases path mode w with ⟨fault, he⟩ | ⟨place, he, -⟩
  · cases he.symm.trans h
  · cases he.symm.trans h
    exact ⟨rfl, fun _ => rfl, by simp, fun l hl => congrArg _ (hnodes l hl), fun l hl _ => hnodes l hl⟩

/-- A file that stays open costs a descriptor. -/
theorem keepOpen_ok (h : w.keepOpen path mode = (.ok number, w')) :
    ∃ v, w.openFile path mode = (.ok number, v) ∧ w' = v.spend 1 ∧ 0 < w.spare := by
  unfold keepOpen at h
  rcases hopen : w.openFile path mode with ⟨fault | number', v⟩
  · rw [hopen] at h
    cases h
  · rw [hopen] at h
    cases h
    rcases openFile_cases path mode w with ⟨fault, he⟩ | ⟨l, -, hfile⟩
    · cases he.symm.trans hopen
    · exact ⟨v, rfl, rfl, spare_pos_of_not_exhausted (FileSystem.not_full_of_openForWriting hfile)⟩

theorem openFile_error {fault : Fault} (h : w.openFile path mode = (.error fault, w')) : w' = w := by
  rcases openFile_cases path mode w with ⟨fault', he⟩ | ⟨l, he, -⟩
  · cases he.symm.trans h
    rfl
  · cases he.symm.trans h

theorem keepOpen_error {fault : Fault} (h : w.keepOpen path mode = (.error fault, w')) :
    w' = w ∧ w.openFile path mode = (.error fault, w) := by
  unfold keepOpen at h
  rcases hopen : w.openFile path mode with ⟨fault' | number, v⟩
  · rw [hopen] at h
    cases h
    obtain rfl := openFile_error hopen
    exact ⟨rfl, rfl⟩
  · rw [hopen] at h
    cases h

namespace Readied

theorem noted (h : Readied w opened w') (hn : Noted w' w'') : Readied w opened w'' := by
  induction hn with
  | refl => exact h
  | note _ n ih => exact ih.note n

theorem noted_of_nil (h : Readied w opened w') : opened = [] → Noted w w' := by
  induction h with
  | start => intro _; exact .refl
  | note _ n ih => intro hnil; exact (ih hnil).note n
  | opened _ _ _ => intro hnil; simp at hnil

theorem grows (h : Readied w opened w') : w.files.Grows w'.files := by
  induction h with
  | start => exact FileSystem.SameKinds.grows fun _ => rfl
  | note _ n ih => exact ih.trans (FileSystem.SameKinds.grows fun l => (alters_note n _).kinds l id)
  | opened _ hopen ih =>
    obtain ⟨v, hv, rfl, -⟩ := keepOpen_ok hopen
    show w.files.Grows v.files
    rcases openFile_at hv with ⟨l, -, hfiles⟩ | ⟨-, hfiles⟩
    · rw [hfiles]
      exact ih.trans (FileSystem.grows_afterOpening _ _ _)
    · rw [hfiles]
      exact ih

theorem cwd (h : Readied w opened w') : w'.cwd = w.cwd := by
  induction h with
  | start => rfl
  | note _ n ih => exact (alters_note n _).cwd.trans ih
  | opened _ hopen ih =>
    obtain ⟨v, hv, rfl, -⟩ := keepOpen_ok hopen
    exact (alters_openFile hv).cwd.trans ih

/-- Every target that is open has cost a descriptor. -/
theorem spare (h : Readied w opened w') : w'.spare + opened.length = w.spare := by
  induction h with
  | start => rfl
  | note _ n ih => rw [(alters_note n _).spare, ih]
  | opened _ hopen ih =>
    obtain ⟨v, hv, rfl, hpos⟩ := keepOpen_ok hopen
    have hspent : (v.spend 1).spare = v.spare - 1 := rfl
    rw [List.length_append, List.length_singleton, hspent, (alters_openFile hv).spare]
    omega

/-- The targets are where they were before the first of them was opened. -/
theorem filePlace? (h : Readied w opened w') (path : Native) :
    w'.files.filePlace? w'.cwd path = w.files.filePlace? w.cwd path := by
  rw [h.cwd]
  exact FileSystem.filePlace?_grown h.grows ..

/-- When all targets are closed again, nothing else has changed. -/
theorem alters (h : Readied w opened w') : Alters (w.targets opened) w (w.closeSince w') := by
  induction h with
  | start => exact .refl _ w
  | note _ n ih => exact ih.trans ((alters_note n _).mono (Set.empty_subset _)).closed
  | @opened opened w' w'' r number h hopen ih =>
    obtain ⟨v, hv, rfl, -⟩ := keepOpen_ok hopen
    have hbefore : w.targets opened ⊆ w.targets (opened ++ [r]) := by
      rintro l ⟨r', hr', hl⟩
      exact ⟨r', List.mem_append_left _ hr', hl⟩
    have hlast : {l | w'.files.filePlace? w'.cwd r.target = some l} ⊆ w.targets (opened ++ [r]) := by
      intro l hl
      exact ⟨r, by simp, (h.filePlace? r.target).symm.trans hl⟩
    exact (ih.mono hbefore).trans ((alters_openFile hv).mono hlast).closed

/-- What stands at a place is what stood there, opened by the redirections that lead there. -/
theorem node (h : Readied w opened w') (hlog : w.LogsElsewhere l) :
    w'.files.node? l = OpenMode.onNodeEach (w.modesAt opened l) (w.files.node? l) := by
  -- By induction on what was opened. The log goes elsewhere, so a notice has no part in it.
  induction h with
  | start => rfl
  | @note _ w' h n ih =>
    have hlog' : w'.LogsElsewhere l := (hlog.altered h.alters :)
    rw [(alters_note n _).nodes l id hlog', ih]
  | @opened opened w' w'' r number h hopen ih =>
    obtain ⟨v, hv, rfl, -⟩ := keepOpen_ok hopen
    show v.files.node? l = _
    rw [modesAt_concat, ← h.filePlace?]
    rcases openFile_at hv with ⟨place, hplace, hfiles⟩ | ⟨hplace, hfiles⟩
    · rw [hfiles, hplace]
      by_cases hl : place = l
      · subst hl
        rw [if_pos rfl, OpenMode.onNodeEach_concat, ← ih, FileSystem.node?_afterOpening_self]
      · rw [if_neg (by simpa using hl), List.append_nil, ← ih, FileSystem.node?_afterOpening_ne _ (Ne.symm hl)]
    · rw [hfiles, hplace, if_neg (by simp), List.append_nil, ih]

end Readied

/-! ## Failures that change nothing -/

theorem write_error {handle : Handle} {data : Bytes} {fault : Fault} (h : w.write handle data = (.error fault, w')) :
    w' = w := by
  cases handle with
  | standard stream => cases stream <;> cases h
  | pipeEnd e =>
    rcases hw : w.pipes.write e data with ⟨answer, pipes⟩
    simp only [World.write, hw] at h
    cases h
    rw [Pipes.write_error hw]
  | opened number =>
    rcases writeFile_cases number data w with ⟨fault', he⟩ | ⟨file, file', files, -, -, he⟩
    · cases he.symm.trans h
      rfl
    · cases he.symm.trans h

end World

namespace Stage

open World

/-! ## How a start fails -/

/-- The redirections of a stage in the order in which their targets are opened. -/
def redirections (s : Stage) : List Redirection := s.command.stdout.toList ++ s.command.stderr.toList

/-- A start fails with this error, when the targets of these redirections are open and nothing else has happened but
    that more descriptors were taken. -/
inductive FailsFor (s : Stage) (w : World) : StageError → List Redirection → World → Prop
  /-- The target of standard output cannot be opened, and none is open. -/
  | output {r : Redirection} {fault : Fault} {w' : World} (hr : s.command.stdout = some r) (hready : Readied w [] w')
      (hopen : w'.openFile r.target r.mode = (.error fault, w')) :
      FailsFor s w (.cannotOpen s.name r.target fault) [] w'
  /-- The target of standard error cannot be opened, and at most that of standard output is open. -/
  | errors {r : Redirection} {fault : Fault} {w' : World} (hr : s.command.stderr = some r)
      (hready : Readied w s.command.stdout.toList w') (hopen : w'.openFile r.target r.mode = (.error fault, w')) :
      FailsFor s w (.cannotOpen s.name r.target fault) s.command.stdout.toList w'
  /-- The descriptors last for the targets, but not for all the second ones that are asked for then. -/
  | descriptor {stdout stderr : Handle} {handles : List Handle} {w' : World} (hready : Readied w s.redirections w')
      (hasked : handles.Sublist [s.stdin, stdout, stderr])
      (hfew : w.spare < s.redirections.length + Handle.costs handles) :
      FailsFor s w (.io s.name (.system .tooManyOpen)) s.redirections w'
  /-- There is no thread for a builtin. -/
  | thread {fault : Fault} {w' : World} (hready : Readied w s.redirections w') (hthread : w.noThread = some fault) :
      FailsFor s w (.cannotStart s.name fault) s.redirections w'
  /-- There is no such command, and it cannot be said. -/
  | message {handle : Handle} {fault : Fault} {w' w'' : World} (hready : Readied w s.redirections w')
      (hmissing : (Search.find s.name w').1 = none) (hspent : w'' = w'.spend handle.cost)
      (hwrite : w''.write handle (Bytes.ofString s!"{s.name}: command not found\n") = (.error fault, w'')) :
      FailsFor s w (.io s.name fault) s.redirections w'
  /-- The program cannot be started. -/
  | program {path : Native} {stdout stderr : Handle} {fault : Fault} {w' w'' : World}
      (hready : Readied w s.redirections w') (hfound : (Search.find s.name w').1 = some path)
      (hspent : w'' = w'.spend (Handle.costs [s.stdin, stdout, stderr]))
      (hspawn : w''.spawn path s.command.argv s.stdin stdout stderr = (.error fault, w'')) :
      FailsFor s w (.cannotStart s.name fault) s.redirections w'

variable {find? : String → Option Builtin.Action} {s s' : Stage} {w w₁ w' : World} {e : StageError}
  {opened : List Redirection} {outputs : Outputs}

theorem FailsFor.readied (h : FailsFor s w e opened w') : Readied w opened w' := by
  cases h <;> assumption

/-- The start fails so, whatever was spent last. -/
def Fails (s : Stage) (w : World) (e : StageError) (w' : World) : Prop :=
  ∃ opened w₁, FailsFor s w e opened w₁ ∧ w.closeSince w' = w.closeSince w₁

theorem FailsFor.opened_subset (h : FailsFor s w e opened w') : opened ⊆ s.redirections := by
  cases h with
  | output _ _ _ => exact List.nil_subset _
  | errors _ _ _ => exact List.subset_append_left ..
  | _ => exact List.Subset.refl _

/-- Opening the target of a redirection opens it, or changes nothing and says why. -/
theorem readied_openRedirection (name : String) (r : Option Redirection) (h : Readied w opened w₁) :
    (∃ handle w₂, w₁.openRedirection name r = (.ok handle, w₂) ∧ Readied w (opened ++ r.toList) w₂) ∨
      ∃ r' fault w₂, r = some r' ∧ w₁.openRedirection name r = (.error (.cannotOpen name r'.target fault), w₂) ∧
        Readied w opened w₂ ∧ w₂.openFile r'.target r'.mode = (.error fault, w₂) := by
  cases r with
  | none => exact .inl ⟨none, w₁, rfl, by simpa using h⟩
  | some r =>
    have hnote := h.note (.redirecting r.target r.mode)
    unfold openRedirection
    dsimp only
    rcases hopen : (w₁.note (.redirecting r.target r.mode)).keepOpen r.target r.mode with ⟨fault | number, w₂⟩
    · obtain ⟨rfl, hfault⟩ := keepOpen_error hopen
      exact .inr ⟨r, fault, _, rfl, rfl, hnote, hfault⟩
    · exact .inl ⟨_, w₂, rfl, hnote.opened hopen⟩

/-- Either the targets are all open, or the start fails for one of them. -/
theorem readied_redirected (h : Readied w [] w₁) :
    (∃ outputs w₂, s.redirected w₁ = (.ok outputs, w₂) ∧ Readied w s.redirections w₂) ∨
      ∃ e opened w₂, s.redirected w₁ = (.error e, w₂) ∧ FailsFor s w e opened w₂ := by
  unfold redirected
  rcases readied_openRedirection s.name s.command.stdout h with
    ⟨stdout, w₂, ho, hready⟩ | ⟨r, fault, w₂, hr, ho, hready, hopen⟩
  · rw [List.nil_append] at hready
    rw [ho]
    dsimp only
    rcases readied_openRedirection s.name s.command.stderr hready with
      ⟨stderr, w₃, he, hready'⟩ | ⟨r, fault, w₃, hr, he, hready', hopen⟩
    · rw [he]
      exact .inl ⟨_, w₃, rfl, hready'⟩
    · rw [he]
      exact .inr ⟨_, _, w₃, rfl, .errors hr hready' hopen⟩
  · rw [ho]
    exact .inr ⟨_, _, w₂, rfl, .output hr hready hopen⟩

/-- Second descriptors are there, or the start fails for want of them. -/
theorem fails_duplicate {handles : List Handle} (hready : Readied w s.redirections w₁)
    (hasked : handles.Sublist [s.stdin, outputs.stdout, outputs.stderr]) :
    s.duplicate handles w₁ = (.ok (), w₁.spend (Handle.costs handles)) ∨
      ∃ e w₂, s.duplicate handles w₁ = (.error e, w₂) ∧ Fails s w e w₂ := by
  rw [duplicate_eq]
  split
  · exact .inl rfl
  · next hfew =>
    have hspare := hready.spare
    exact .inr ⟨_, _, rfl, _, w₁, .descriptor hready hasked (by omega), rfl⟩

theorem fails_prepare (hready : Readied w [] w₁) (h : s.prepare w₁ = (.error e, w')) : Fails s w e w' := by
  unfold prepare at h
  rcases readied_redirected (s := s) hready with ⟨outputs, w₂, ho, hready'⟩ | ⟨e', opened, w₂, ho, hfails⟩
  · simp only [ho] at h
    rcases fails_duplicate hready' (List.sublist_cons_self _ [outputs.stdout, outputs.stderr]) with
      hdup | ⟨e', w₃, hdup, hfails⟩
    · simp only [hdup] at h
      have hsame : w₂.noThread = w.noThread := (congrArg World.noThread hready'.alters.rest :)
      split at h
      · next fault hthread =>
        cases h
        exact ⟨_, w₂, .thread hready' (hsame.symm.trans hthread), rfl⟩
      · cases h
    · simp only [hdup] at h
      cases h
      exact hfails
  · simp only [ho] at h
    cases h
    exact ⟨_, _, hfails, rfl⟩

theorem fails_startAction {action : Builtin.Action} (hready : Readied w [] w₁)
    (h : s.startAction action w₁ = (.error e, s', w')) : Fails s w e w' := by
  unfold startAction at h
  split at h
  · next hprepare =>
    cases h
    exact fails_prepare hready hprepare
  · cases h

theorem fails_sayNotFound (hready : Readied w s.redirections w₁) (hmissing : (Search.find s.name w₁).1 = none)
    (h : s.sayNotFound outputs w₁ = (.error e, s', w')) : Fails s w e w' := by
  have hnote := hready.note (.commandNotFound s.name)
  have hasked : [outputs.stdout].Sublist [s.stdin, outputs.stdout, outputs.stderr] := by simp
  unfold sayNotFound at h
  dsimp only at h
  rcases fails_duplicate hnote hasked with hdup | ⟨e', w₂, hdup, hfails⟩
  · simp only [hdup] at h
    split at h
    · next fault w₂ hwrite =>
      cases h
      obtain rfl := write_error hwrite
      refine ⟨_, _, .message hnote ?_ rfl hwrite, rfl⟩
      rw [Search.find_noted (Noted.refl.note _), hmissing]
    · cases h
  · simp only [hdup] at h
    cases h
    exact hfails

theorem fails_startProgram (hready : Readied w [] w₁) (h : s.startProgram World.spawn w₁ = (.error e, s', w')) :
    Fails s w e w' := by
  unfold startProgram at h
  rcases readied_redirected (s := s) hready with ⟨outputs, w₂, ho, hready'⟩ | ⟨e', opened, w₂, ho, hfails⟩
  · simp only [ho] at h
    -- the search takes down notices, after which it would find the same
    have hnoted := Search.noted_find s.name w₂
    have hagain := Search.find_noted hnoted s.name
    rcases hfind : Search.find s.name w₂ with ⟨_ | path, w₃⟩
    · rw [hfind] at h hnoted hagain
      exact fails_sayNotFound (hready'.noted hnoted) hagain h
    rw [hfind] at h hnoted hagain
    dsimp only at h
    rcases fails_duplicate (hready'.noted hnoted) (List.Sublist.refl [s.stdin, outputs.stdout, outputs.stderr]) with
      hdup | ⟨e', w₄, hdup, hfails⟩
    · simp only [hdup] at h
      rcases hspawn : (w₃.spend (Handle.costs [s.stdin, outputs.stdout, outputs.stderr])).spawn path s.command.argv
          s.stdin outputs.stdout outputs.stderr with ⟨fault | number, w₄⟩
      · rw [hspawn] at h
        cases h
        obtain rfl := spawn_error hspawn
        exact ⟨_, _, .program (hready'.noted hnoted) hagain rfl hspawn, rfl⟩
      · rw [hspawn] at h
        cases h
    · simp only [hdup] at h
      cases h
      exact hfails
  · simp only [ho] at h
    cases h
    exact ⟨_, _, hfails, rfl⟩

/-- A start that fails has got no further than to its redirections, and closes what it has opened. -/
theorem fails_startWith (h : s.startWith find? World.spawn w = (.error e, s', w')) :
    ∃ opened w₁, FailsFor s w e opened w₁ ∧ w' = w.closeSince w₁ := by
  have hready : Readied w [] (w.note (.starting s.command.argv)) := Readied.start.note _
  unfold startWith at h
  split at h
  · cases h
  rcases hdispatch : s.dispatch find? World.spawn (w.note (.starting s.command.argv)) with ⟨answer, s₂, w₂⟩
  rw [hdispatch] at h
  cases h
  have hfails : Fails s w e w₂ := by
    unfold dispatch at hdispatch
    split at hdispatch
    · exact fails_startAction hready hdispatch
    · exact fails_startProgram hready hdispatch
  exact hfails

/-- No builtin has a part in a failed start: with others in their places it fails in the same way. -/
theorem startWith_error_congr {spawn : Spawner} {other? : String → Option Builtin.Action}
    (hsame : (other? s.name).isSome = (find? s.name).isSome)
    (h : s.startWith find? spawn w = (.error e, s', w')) : s.startWith other? spawn w = (.error e, s', w') := by
  unfold startWith dispatch at h ⊢
  split at h
  · cases h
  next hne =>
  rw [if_neg hne]
  cases hfind : find? s.name with
  | none =>
    have hother : other? s.name = none := by simpa [hfind] using hsame
    rw [hfind] at h
    rw [hother]
    exact h
  | some action =>
    rw [hfind] at h hsame
    obtain ⟨other, hother⟩ := Option.isSome_iff_exists.mp hsame
    rw [hother]
    unfold startAction at h ⊢
    rcases hprepare : s.prepare (w.note (.starting s.command.argv)) with ⟨error | outputs, w₁⟩
    · rw [hprepare] at h
      exact h
    · rw [hprepare] at h
      cases h

/-! ## What a failed start leaves -/

/-- A start has failed with this error and these targets open, and has carried out nothing. -/
structure NothingDone (s : Stage) (w : World) (e : StageError) (opened : List Redirection) (s' : Stage) (w' : World) :
    Prop where
  cause : ∃ w₁, FailsFor s w e opened w₁ ∧ w' = w.closeSince w₁
  /-- How far the stage has got, and its streams. -/
  stage : s' = s
  history : w'.history = w.history
  cwd : w'.cwd = w.cwd
  /-- No builtin was called: any others under the same names would have made no difference. -/
  builtins : ∀ find? : String → Option Builtin.Action, (∀ name, (find? name).isSome = (Builtin.actionOf? name).isSome) →
    s.startWith find? World.spawn w = (.error e, s', w')
  /-- No program was started. -/
  jobs : w'.jobs = w.jobs
  /-- Nothing has changed but the opened targets and the log. -/
  alters : Alters (w.targets opened) w w'
  /-- Without an opened target there is nothing but notices. -/
  noted : opened = [] → Noted w w'
  /-- A target that was missing is there, and empty. -/
  made : ∀ l, w.LogsElsewhere l → w.files.node? l = none → l ∈ w.targets opened →
    w'.files.node? l = some (.file FileSystem.newFileMode [])
  /-- A file that was there is empty if some target was opened to that end, and keeps what it holds otherwise. -/
  files : ∀ l bits data, w.LogsElsewhere l → w.files.node? l = some (.file bits data) →
    w'.files.node? l = some (.file bits (if .truncate ∈ w.modesAt opened l then [] else data))
  /-- What is no regular file stays what it is. -/
  others : ∀ l node, w.LogsElsewhere l → w.files.node? l = some node → (∀ bits data, node ≠ .file bits data) →
    w'.files.node? l = some node
  /-- A file that the stage would only have added to keeps what it holds. -/
  appended : ∀ l bits data, w.LogsElsewhere l → w.files.node? l = some (.file bits data) →
    (∀ r ∈ s.redirections, w.files.filePlace? w.cwd r.target = some l → r.mode = .append) →
    w'.files.node? l = some (.file bits data)

end Stage

end CommandShell
