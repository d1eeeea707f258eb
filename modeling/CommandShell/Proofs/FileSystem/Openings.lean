/-
  CommandShell.Proofs.FileSystem.Openings — what opening files for writing makes of a tree.

  Opening a path makes the file that is missing at its place, or empties the one that is there, or leaves it alone
  (`OpenMode.onNode`). Of a tree in which that has happened, and in which files were written, it can be said that it has
  grown: where nothing stood there may be a file now, and all else is of the kind that it was.
  - `filePlace?_grown`: in a tree that has grown, every path leads to the place that it led to before;
  - `openForWriting_at`: opening changes what stands at the place of its path, and nothing if the path leads to no
    regular file;
  - `onNodeEach_file`, `onNodeEach_none`, `onNodeEach_other`: what several openings make of one place.
-/

import CommandShell.Proofs.FileSystem.Kinds

namespace CommandShell

/-- What stands at a place, opened for writing. -/
def OpenMode.onNode (mode : OpenMode) : Option Node → Option Node
  | none => some (.file FileSystem.newFileMode [])
  | some (.file bits data) => some (.file bits (mode.leaves data))
  | node => node

/-- What stands at a place, opened for writing several times. -/
def OpenMode.onNodeEach (modes : List OpenMode) (node : Option Node) : Option Node :=
  modes.foldl (fun node mode => mode.onNode node) node

namespace OpenMode

theorem onNodeEach_cons (mode : OpenMode) (modes : List OpenMode) (node : Option Node) :
    onNodeEach (mode :: modes) node = onNodeEach modes (mode.onNode node) := rfl

theorem onNodeEach_concat (modes : List OpenMode) (mode : OpenMode) (node : Option Node) :
    onNodeEach (modes ++ [mode]) node = mode.onNode (onNodeEach modes node) := by
  simp [onNodeEach]

/-- A regular file loses what it holds if it is emptied at any time. -/
theorem onNodeEach_file (modes : List OpenMode) (bits : Permissions) (data : Bytes) :
    onNodeEach modes (some (.file bits data)) = some (.file bits (if .truncate ∈ modes then [] else data)) := by
  induction modes generalizing data with
  | nil => rfl
  | cons mode modes ih =>
    rw [onNodeEach_cons, onNode, ih]
    cases mode <;> simp [leaves]

/-- A missing file is made by the first opening, and is empty ever after. -/
theorem onNodeEach_none (mode : OpenMode) (modes : List OpenMode) :
    onNodeEach (mode :: modes) none = some (.file FileSystem.newFileMode []) := by
  rw [onNodeEach_cons, onNode, onNodeEach_file, ite_self]

/-- Whatever else stands there stays. -/
theorem onNodeEach_other (modes : List OpenMode) {node : Node} (h : ∀ bits data, node ≠ .file bits data) :
    onNodeEach modes (some node) = some node := by
  induction modes with
  | nil => rfl
  | cons mode modes ih =>
    have hnode : mode.onNode (some node) = some node := by
      cases node with
      | file bits data => exact absurd rfl (h bits data)
      | _ => rfl
    rw [onNodeEach_cons, hnode, ih]

end OpenMode

namespace FileSystem

/-- Files were made, emptied and written, and nothing else was done to the tree. -/
def Grows (fs fs' : FileSystem) : Prop :=
  ∀ l, (fs'.node? l).map Node.emptied = (fs.node? l).map Node.emptied ∨ fs.node? l = none ∧ fs'.HoldsFile l

variable {fs fs' fs'' : FileSystem} {cwd l : Location} {path : Native} {mode : OpenMode}

theorem SameKinds.grows (h : SameKinds fs fs') : Grows fs fs' := fun l => .inl (h l)

theorem HoldsFile.emptied (h : fs.HoldsFile l) (he : (fs'.node? l).map Node.emptied = (fs.node? l).map Node.emptied) :
    fs'.HoldsFile l := by
  rcases Node.emptied_cases he with hn | ⟨bits, data, data', -, hn⟩
  · rwa [HoldsFile, hn]
  · exact ⟨bits, data', hn⟩

theorem Grows.trans (h : Grows fs fs') (h' : Grows fs' fs'') : Grows fs fs'' := by
  intro l
  rcases h l with he | ⟨hnone, hfile⟩
  · rcases h' l with he' | ⟨hnone', hfile'⟩
    · exact .inl (he'.trans he)
    · rw [hnone', Option.map_none] at he
      exact .inr ⟨Option.map_eq_none_iff.mp he.symm, hfile'⟩
  · rcases h' l with he' | ⟨-, hfile'⟩
    · exact .inr ⟨hnone, hfile.emptied he'⟩
    · exact .inr ⟨hnone, hfile'⟩

/-! ## Opening -/

theorem node?_afterOpening_self (fs : FileSystem) (l : Location) (mode : OpenMode) :
    (fs.afterOpening l mode).node? l = mode.onNode (fs.node? l) := by
  cases hn : fs.node? l with
  | none => simp [afterOpening, hn, OpenMode.onNode]
  | some node => cases node <;> cases mode <;> simp [afterOpening, hn, OpenMode.onNode, OpenMode.leaves]

theorem grows_afterOpening (fs : FileSystem) (l : Location) (mode : OpenMode) : Grows fs (fs.afterOpening l mode) := by
  intro l'
  by_cases hl : l' = l
  · subst hl
    rw [node?_afterOpening_self]
    cases hn : fs.node? l' with
    | none => exact .inr ⟨rfl, _, _, by rw [node?_afterOpening_self, hn]; rfl⟩
    | some node => cases node <;> exact .inl rfl
  · exact .inl (congrArg _ (node?_afterOpening_ne mode hl))

/-- A path that was opened leads to the place of a regular file, or what it leads to is none and nothing was changed by
    opening it. -/
theorem openForWriting_at {full : Bool} {file : OpenFile} (h : fs.openForWriting cwd full path mode = .ok (file, fs')) :
    fs.filePlace? cwd path = some file.location ∧ fs' = fs.afterOpening file.location mode ∨
      fs.filePlace? cwd path = none ∧ fs' = fs ∧ ¬fs.HoldsFile file.location := by
  simp only [openForWriting, bind, Except.bind] at h
  split at h
  · cases h
  · next hcheck =>
    split at h
    · cases h
    · have hplace : ∀ {t : Target}, fs.follow .make cwd path (Path.steps path) = .ok t →
          fs.filePlace? cwd path = t.filePlace? := by
        intro t ht
        simp [filePlace?, hcheck, ht, Except.toOption]
      split at h
      · cases h
      · cases h
      · next location node hf =>
        have hn : fs.node? location = some node := walk_found maxLinks hf
        rw [hplace hf]
        cases node with
        | file bits data =>
          refine .inl ?_
          cases mode <;> simp only [openNode, afterOpening, Target.filePlace?] at h ⊢ <;> grind
        | directory mode => cases h
        | link | null | full =>
          cases h
          refine .inr ⟨rfl, rfl, ?_⟩
          intro hfile
          obtain ⟨bits, data, hfile⟩ := hfile
          cases hn.symm.trans hfile
      · next dir name hf =>
        have hn : fs.node? (name :: dir) = none := walk_found maxLinks hf
        rw [hplace hf]
        refine .inl ?_
        simp only [create, afterOpening, Target.filePlace?] at h ⊢
        grind

/-! ## Where paths lead -/

/-- The place that steps have led to, if they have led to the place of a regular file. -/
def placeOf (found : Except Errno Target) : Option Location := found.toOption.bind Target.filePlace?

theorem Grows.directoryGrants (h : Grows fs fs') (l : Location) (may : Permissions → Bool) :
    fs'.directoryGrants l may = fs.directoryGrants l may := by
  rcases h l with he | ⟨hnone, hfile⟩
  · exact directoryGrants_congr he may
  · rw [MayHoldFile.directoryGrants (.inr hfile), MayHoldFile.directoryGrants (.inl hnone)]

theorem Grows.leaving (h : Grows fs fs') (here : Location) {step step' : Except Errno Target}
    (hstep : placeOf step' = placeOf step) : placeOf (fs'.leaving here step') = placeOf (fs.leaving here step) := by
  unfold FileSystem.leaving
  rw [h.directoryGrants]
  split
  · exact hstep
  · rfl

theorem walkWith_grown (h : Grows fs fs') {purpose : Purpose}
    {follow follow' : Location → List Path.Step → Except Errno Target}
    (hf : ∀ here steps, placeOf (follow' here steps) = placeOf (follow here steps)) : ∀ steps here,
      placeOf (fs'.walkWith follow' purpose here steps) = placeOf (fs.walkWith follow purpose here steps) := by
  intro steps
  induction steps with
  | nil => intro here; rfl
  | cons step rest ih =>
    intro here
    cases step with
    | slash => exact ih here
    | stay => exact h.leaving here (ih here)
    | up => exact h.leaving here (ih here.tail)
    | into name =>
      refine h.leaving here ?_
      split
      · rfl
      · split
        · rfl
        · dsimp only
          rcases h (name :: here) with he | ⟨hnone, bits, data, hfile⟩
          · rcases Node.emptied_cases he with hn | ⟨bits, data, data', hn, hn'⟩
            · rw [hn]
              split
              · rfl
              · exact ih _
              · exact hf _ _
              · rfl
            · rw [hn, hn']
              cases rest <;> rfl
          · -- a file that was made ends the way where it would have ended before
            rw [hnone, hfile]
            cases rest <;> rfl

theorem walk_grown (h : Grows fs fs') (purpose : Purpose) (links : Nat) (here : Location) (steps : List Path.Step) :
    placeOf (fs'.walk purpose links here steps) = placeOf (fs.walk purpose links here steps) := by
  induction links generalizing here steps with
  | zero => exact walkWith_grown h (fun _ _ => rfl) steps here
  | succ links ih => exact walkWith_grown h ih steps here

/-- Paths lead to the places that they led to before. -/
theorem filePlace?_grown (h : Grows fs fs') (cwd : Location) (path : Native) :
    fs'.filePlace? cwd path = fs.filePlace? cwd path := by
  unfold filePlace?
  split
  · rfl
  · exact walk_grown h ..

end FileSystem

end CommandShell
