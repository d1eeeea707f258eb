/-
  CommandShell.Proofs.FileSystem.Kinds — trees of files that differ in what their files hold.

  What a regular file holds plays no part in finding it.
  - `walk_emptied`: a walk takes the same way through both trees;
  - `lookup_emptied`, `exists_emptied`, `directoryAt_emptied`: so the same paths lead to the same places.
-/

import CommandShell.Proofs.FileSystem.Places

namespace CommandShell

/-- Nodes that differ in what they hold are the same, or regular files with the same permission bits. -/
theorem Node.emptied_cases {n n' : Option Node} (h : n'.map emptied = n.map emptied) :
    n' = n ∨ ∃ bits data data', n = some (.file bits data) ∧ n' = some (.file bits data') := by
  rcases n with _ | node
  · exact .inl (Option.map_eq_none_iff.mp h)
  · obtain ⟨node', rfl, he⟩ := Option.map_eq_some_iff.mp h
    cases node <;> cases node' <;> simp_all [Node.emptied]

/-- The target without what a file there holds. -/
def Target.emptied : Target → Target
  | .leaf location node => .leaf location node.emptied
  | target => target

/-- Two findings that differ in what a file holds fail alike or lead to the same place. -/
theorem Target.emptied_cases {E : Type} {r r' : Except E Target} (h : r'.map emptied = r.map emptied) :
    (∃ e, r = .error e ∧ r' = .error e) ∨ ∃ t t', r = .ok t ∧ r' = .ok t' ∧ t'.emptied = t.emptied := by
  rcases r with e | t <;> rcases r' with e' | t' <;> simp_all [Except.map]

namespace FileSystem

/-- The same tree, but for what regular files hold. -/
def SameKinds (fs fs' : FileSystem) : Prop := ∀ l, (fs'.node? l).map Node.emptied = (fs.node? l).map Node.emptied

variable {fs fs' : FileSystem}

theorem SameKinds.isSome (h : SameKinds fs fs') (l : Location) : (fs'.node? l).isSome = (fs.node? l).isSome := by
  simpa using congrArg Option.isSome (h l)

theorem SameKinds.trans {fs'' : FileSystem} (h : SameKinds fs fs') (h' : SameKinds fs' fs'') : SameKinds fs fs'' :=
  fun l => (h' l).trans (h l)

/-- What stands at a place is the same, but for what it holds. -/
theorem SameKinds.cases (h : SameKinds fs fs') (l : Location) :
    fs'.node? l = fs.node? l ∨
      ∃ bits data data', fs.node? l = some (.file bits data) ∧ fs'.node? l = some (.file bits data') :=
  Node.emptied_cases (h l)

theorem SameKinds.modeAt (h : SameKinds fs fs') (l : Location) : fs'.modeAt l = fs.modeAt l := by
  rcases h.cases l with hl | ⟨bits, data, data', hn, hn'⟩
  · rw [FileSystem.modeAt, hl, ← FileSystem.modeAt]
  · simp [FileSystem.modeAt, hn, hn']

theorem SameKinds.mayHoldFile (h : SameKinds fs fs') {l : Location} (hl : fs.MayHoldFile l) : fs'.MayHoldFile l := by
  rcases h.cases l with he | ⟨bits, data, data', -, hn'⟩
  · rwa [MayHoldFile, HoldsFile, he]
  · exact .inr ⟨bits, data', hn'⟩

theorem SameKinds.directoryGrants (h : SameKinds fs fs') (l : Location) (may : Permissions → Bool) :
    fs'.directoryGrants l may = fs.directoryGrants l may :=
  directoryGrants_congr (h l) may

theorem SameKinds.leaving (h : SameKinds fs fs') (here : Location) {step step' : Except Errno Target}
    (hstep : step'.map Target.emptied = step.map Target.emptied) :
    (fs'.leaving here step').map Target.emptied = (fs.leaving here step).map Target.emptied := by
  unfold FileSystem.leaving
  rw [h.directoryGrants]
  split
  · exact hstep
  · rfl

theorem walkWith_emptied (h : SameKinds fs fs') {purpose : Purpose}
    {follow follow' : Location → List Path.Step → Except Errno Target}
    (hf : ∀ here steps, (follow' here steps).map Target.emptied = (follow here steps).map Target.emptied) :
    ∀ steps here, (fs'.walkWith follow' purpose here steps).map Target.emptied =
      (fs.walkWith follow purpose here steps).map Target.emptied := by
  intro steps
  induction steps with
  | nil => intro here; rfl
  | cons step rest ih =>
    intro here
    cases step with
    | slash => exact ih here
    | stay => exact h.leaving here (ih here)
    | up => exact h.leaving here (ih here.tail)
    | into name =>
      refine h.leaving here ?_
      split
      · rfl
      · split
        · simp only [longNameError, h.isSome]
        · dsimp only
          rcases h.cases (name :: here) with hn | ⟨bits, data, data', hn, hn'⟩
          · rw [hn]
            split
            · rfl
            · exact ih _
            · exact hf _ _
            · rfl
          · rw [hn, hn']
            dsimp only
            split <;> rfl

theorem walk_emptied (h : SameKinds fs fs') (purpose : Purpose) (links : Nat) (here : Location)
    (steps : List Path.Step) : (fs'.walk purpose links here steps).map Target.emptied =
      (fs.walk purpose links here steps).map Target.emptied := by
  induction links generalizing here steps with
  | zero => exact walkWith_emptied h (fun _ _ => rfl) steps here
  | succ links ih => exact walkWith_emptied h ih steps here

theorem present_emptied {found found' : Except Errno Target}
    (h : found'.map Target.emptied = found.map Target.emptied) :
    (present found').map Target.emptied = (present found).map Target.emptied := by
  rcases Target.emptied_cases h with ⟨errno, rfl, rfl⟩ | ⟨t, t', rfl, rfl, he⟩
  · rfl
  · cases t <;> cases t' <;> simp_all [Except.map, present, Target.emptied]

/-- What stands at an entry of a directory does not hang on what files hold. -/
theorem lookupEntry_emptied (h : SameKinds fs fs') (cwd : Location) (dir name : Native) :
    (fs'.lookupEntry cwd dir name).map Target.emptied = (fs.lookupEntry cwd dir name).map Target.emptied := by
  unfold lookupEntry
  split
  · rfl
  · exact present_emptied (walk_emptied h ..)

/-- Nor does what stands at a path. -/
theorem lookup_emptied (h : SameKinds fs fs') (cwd : Location) (path : Native) :
    (fs'.lookup cwd path).map Target.emptied = (fs.lookup cwd path).map Target.emptied := by
  have hfollow : (fs'.follow .find cwd path (Path.steps path)).map Target.emptied =
      (fs.follow .find cwd path (Path.steps path)).map Target.emptied := walk_emptied h ..
  unfold lookup
  cases checkPath path with
  | error fault => simp only [bind, Except.bind]
  | ok _ => exact present_emptied hfollow

theorem exists_emptied (h : SameKinds fs fs') (cwd : Location) (path : Native) :
    fs'.exists_ cwd path = fs.exists_ cwd path := by
  unfold exists_
  rcases Target.emptied_cases (lookup_emptied h cwd path) with ⟨fault, hr, hr'⟩ | ⟨t, t', hr, hr', -⟩
  · rw [hr, hr']
  · rw [hr, hr']
    rfl

theorem directoryAt_emptied (h : SameKinds fs fs') (cwd : Location) (path : Native) :
    fs'.directoryAt cwd path = fs.directoryAt cwd path := by
  unfold directoryAt
  rcases Target.emptied_cases (lookup_emptied h cwd path) with ⟨fault, hr, hr'⟩ | ⟨t, t', hr, hr', he⟩
  · rw [hr, hr']
  · rw [hr, hr']
    cases t <;> cases t' <;> simp_all [Target.emptied, bind, Except.bind]

end FileSystem

end CommandShell
