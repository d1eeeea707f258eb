/-
  CommandShell.Proofs.FileSystem.Places — where the regular file of a path stands, and what writing to it changes.

  A path leads to the place of a regular file when one stands there or could be made there (`filePlace?`). Which
  place that is depends on the directories and links on the way alone, so it stays the same while files are
  written or made:
  - `walk_stable`, `filePlace?_stable`: a change of what files hold, and of whether the file is there, moves no place;
  - `openForWriting_place`: opening a path for writing opens the file at its place, and touches no other;
  - `read_place`: reading a path reads the file at its place.
-/

import CommandShell.FileSystem.Access

namespace CommandShell

/-- The node with nothing in it, if it is a regular file. -/
def Node.emptied : Node → Node
  | .file mode _ => .file mode []
  | node => node

/-- What is left of a file's content when it is opened in this way. -/
def OpenMode.leaves : OpenMode → Bytes → Bytes
  | .truncate, _ => []
  | .append, content => content

/-- The place of a regular file, be it there or not. -/
def Target.filePlace? : Target → Option Location
  | .leaf location (.file _ _) => some location
  | .absent dir name => some (name :: dir)
  | _ => none

theorem Target.eq_of_filePlace?_leaf {l l' : Location} {node : Node} (h : (Target.leaf l' node).filePlace? = some l) :
    l' = l := by
  cases node <;> simp_all [filePlace?]

/-- The target is what stands in the tree. -/
def Target.FoundIn (fs : FileSystem) : Target → Prop
  | .directory _ => True
  | .leaf location node => fs.node? location = some node
  | .absent dir name => fs.node? (name :: dir) = none

namespace FileSystem

/-! ## Nodes -/

@[simp] theorem node?_put_self (fs : FileSystem) (l : Location) (n : Node) : (fs.put l n).node? l = some n := by
  simp [node?, put]

@[simp] theorem node?_put_ne (fs : FileSystem) (n : Node) {l l' : Location} (h : l' ≠ l) :
    (fs.put l n).node? l' = fs.node? l' := by
  have hl : (l' == l) = false := by simpa using h
  simp only [node?, put, List.lookup_cons, hl]
  induction fs.entries with
  | nil => rfl
  | cons entry rest ih =>
    obtain ⟨key, node⟩ := entry
    by_cases hk : key = l
    · simpa [hk, List.lookup_cons, hl] using ih
    · rw [List.filter_cons_of_pos (by simpa using hk), List.lookup_cons, List.lookup_cons, ih]

/-- A regular file stands there. -/
def HoldsFile (fs : FileSystem) (l : Location) : Prop := ∃ bits data, fs.node? l = some (.file bits data)

/-- Nothing stands there, or a regular file. -/
def MayHoldFile (fs : FileSystem) (l : Location) : Prop := fs.node? l = none ∨ fs.HoldsFile l

/-- The same tree, but for what regular files hold and for what stands at `l`. -/
def SameBut (l : Location) (fs fs' : FileSystem) : Prop :=
  ∀ l', l' ≠ l → (fs'.node? l').map Node.emptied = (fs.node? l').map Node.emptied

theorem directoryGrants_congr {fs fs' : FileSystem} {l : Location}
    (h : (fs'.node? l).map Node.emptied = (fs.node? l).map Node.emptied) (may : Permissions → Bool) :
    fs'.directoryGrants l may = fs.directoryGrants l may := by
  unfold directoryGrants
  cases hn : fs.node? l with
  | none =>
    have hn' : fs'.node? l = none := by simpa [hn] using h
    rw [hn']
  | some node =>
    obtain ⟨node', hn', hsame⟩ : ∃ node', fs'.node? l = some node' ∧ node'.emptied = node.emptied := by
      simpa [hn] using h
    rw [hn']
    cases node <;> cases node' <;> cases hsame <;> rfl

theorem MayHoldFile.directoryGrants {fs : FileSystem} {l : Location} (h : fs.MayHoldFile l) (may : Permissions → Bool) :
    fs.directoryGrants l may = true := by
  unfold FileSystem.directoryGrants
  rcases h with hn | ⟨bits, data, hn⟩ <;> rw [hn]

theorem leaving_eq_ok {fs : FileSystem} {here : Location} {step : Except Errno Target} {t : Target} :
    fs.leaving here step = .ok t ↔ fs.directoryGrants here Permissions.mayEnter = true ∧ step = .ok t := by
  unfold leaving
  split <;> simp_all

/-! ## Places stay where they are -/

section Walk

variable {fs fs' : FileSystem} {l : Location} {purpose : Purpose}

/-- Whenever one way of following steps leads to the file place `l`, so does the other. -/
def FollowsTo (l : Location) (f f' : Location → List Path.Step → Except Errno Target) : Prop :=
  ∀ here steps t, f here steps = .ok t → t.filePlace? = some l → ∃ t', f' here steps = .ok t' ∧ t'.filePlace? = some l

/-- At the place itself a walk that leads there ends. -/
theorem walkWith_arrives {follow follow' : Location → List Path.Step → Except Errno Target} {here : Location}
    {name : Native} {rest : List Path.Step} {t : Target} (hl : fs.MayHoldFile (name :: here))
    (hl' : fs'.MayHoldFile (name :: here))
    (hgrants : fs'.directoryGrants here Permissions.mayEnter = fs.directoryGrants here Permissions.mayEnter)
    (h : fs.walkWith follow purpose here (.into name :: rest) = .ok t) :
    ∃ t', fs'.walkWith follow' purpose here (.into name :: rest) = .ok t' ∧ t'.filePlace? = some (name :: here) := by
  simp only [walkWith, leaving_eq_ok] at h ⊢
  obtain ⟨henter, h⟩ := h
  rw [henter] at hgrants
  split at h
  · cases h
  · split at h
    · cases h
    · next hsize =>
      have hrest : rest = [] := by
        rcases hl with hn | ⟨bits, data, hn⟩ <;> simp only [hn] at h <;> split at h
        · next he => simpa using he
        · cases h
        · next he => simpa using he
        · cases h
      subst hrest
      rcases hl' with hn | ⟨bits, data, hn⟩
      · exact ⟨.absent here name, ⟨hgrants, by simp [hsize, hn]⟩, rfl⟩
      · exact ⟨.leaf (name :: here) (.file bits data), ⟨hgrants, by simp [hsize, hn]⟩, rfl⟩

/-- A step elsewhere is the same step in a tree that is the same elsewhere. -/
theorem walkWith_stable (hsame : SameBut l fs fs') (hl : fs.MayHoldFile l) (hl' : fs'.MayHoldFile l)
    {follow follow' : Location → List Path.Step → Except Errno Target} (hf : FollowsTo l follow follow') :
    FollowsTo l (fs.walkWith follow purpose) (fs'.walkWith follow' purpose) := by
  have hgrants : ∀ here, fs'.directoryGrants here Permissions.mayEnter = fs.directoryGrants here Permissions.mayEnter := by
    intro here
    by_cases hhere : here = l
    · rw [hhere, hl.directoryGrants, hl'.directoryGrants]
    · exact directoryGrants_congr (hsame _ hhere) _
  intro here steps
  induction steps generalizing here with
  | nil => intro t h ht; exact ⟨t, h, ht⟩
  | cons step rest ih =>
    intro t h ht
    cases step with
    | slash => exact ih here t h ht
    | stay =>
      simp only [walkWith, leaving_eq_ok, hgrants] at h ⊢
      obtain ⟨t', h', ht'⟩ := ih here t h.2 ht
      exact ⟨t', ⟨h.1, h'⟩, ht'⟩
    | up =>
      simp only [walkWith, leaving_eq_ok, hgrants] at h ⊢
      obtain ⟨t', h', ht'⟩ := ih here.tail t h.2 ht
      exact ⟨t', ⟨h.1, h'⟩, ht'⟩
    | into name =>
      by_cases hp : name :: here = l
      · subst hp
        exact walkWith_arrives hl hl' (hgrants here) h
      · have hnode := hsame _ hp
        simp only [walkWith, leaving_eq_ok, hgrants] at h ⊢
        obtain ⟨henter, h⟩ := h
        simp only [henter, true_and]
        split at h
        · cases h
        · next hslash =>
          rw [if_neg hslash]
          split at h
          · cases h
          · next hsize =>
            rw [if_neg hsize]
            -- what stands here is of one kind in both trees; only a directory or a link leads on
            rcases hn : fs.node? (name :: here) with _ | node
            · rw [hn, Option.map_none, Option.map_eq_none_iff] at hnode
              simp only [hn, hnode] at h ⊢
              exact ⟨t, h, ht⟩
            · obtain ⟨node', hn', he⟩ := Option.map_eq_some_iff.mp (hnode.trans (congrArg (Option.map Node.emptied) hn))
              rw [hn] at h
              rw [hn']
              cases node with
              | directory writable =>
                obtain rfl : node' = .directory writable := by cases node' <;> simp_all [Node.emptied]
                exact ih _ t h ht
              | link target =>
                obtain rfl : node' = .link target := by cases node' <;> simp_all [Node.emptied]
                exact hf _ _ t h ht
              | file | null | full =>
                simp only at h
                split at h
                · cases h
                  exact absurd (Target.eq_of_filePlace?_leaf ht) hp
                · cases h

/-- A change of what files hold, and of whether a file stands at `l`, leaves the ways that lead to `l`. -/
theorem walk_stable (hsame : SameBut l fs fs') (hl : fs.MayHoldFile l) (hl' : fs'.MayHoldFile l) (links : Nat) :
    FollowsTo l (fs.walk purpose links) (fs'.walk purpose links) := by
  induction links with
  | zero => exact walkWith_stable hsame hl hl' fun _ _ _ h => by cases h
  | succ links ih => exact walkWith_stable hsame hl hl' ih

/-- A walk finds what stands in the tree. -/
theorem walkWith_found {follow : Location → List Path.Step → Except Errno Target}
    (hf : ∀ here steps t, follow here steps = .ok t → t.FoundIn fs) :
    ∀ steps here t, fs.walkWith follow purpose here steps = .ok t → t.FoundIn fs := by
  intro steps
  induction steps with
  | nil => intro here t h; cases h; trivial
  | cons step rest ih =>
    intro here t h
    cases step with
    | slash => exact ih here t h
    | stay => exact ih here t (leaving_eq_ok.mp h).2
    | up => exact ih here.tail t (leaving_eq_ok.mp h).2
    | into name =>
      replace h := (leaving_eq_ok.mp h).2
      split at h
      · cases h
      · split at h
        · cases h
        · dsimp only at h
          split at h
          · next hn =>
            split at h <;> cases h
            exact hn
          · exact ih _ t h
          · exact hf _ _ t h
          · next hn =>
            split at h <;> cases h
            exact hn

theorem walk_found (links : Nat) {here : Location} {steps : List Path.Step} {t : Target}
    (h : fs.walk purpose links here steps = .ok t) : t.FoundIn fs := by
  induction links generalizing here steps t with
  | zero => exact walkWith_found (fun _ _ _ h => by cases h) steps here t h
  | succ links ih => exact walkWith_found (fun _ _ _ h => ih h) steps here t h

/-- Where a file could be made, what is there can be found. -/
theorem walkWith_find {follow follow' : Location → List Path.Step → Except Errno Target}
    (hf : ∀ here steps t, follow here steps = .ok t → follow' here steps = .ok t) :
    ∀ steps here t, fs.walkWith follow .make here steps = .ok t → fs.walkWith follow' .find here steps = .ok t := by
  intro steps
  induction steps with
  | nil => intro here t h; exact h
  | cons step rest ih =>
    intro here t h
    cases step with
    | slash => exact ih here t h
    | stay =>
      obtain ⟨henter, h⟩ := leaving_eq_ok.mp h
      exact leaving_eq_ok.mpr ⟨henter, ih here t h⟩
    | up =>
      obtain ⟨henter, h⟩ := leaving_eq_ok.mp h
      exact leaving_eq_ok.mpr ⟨henter, ih here.tail t h⟩
    | into name =>
      obtain ⟨henter, h⟩ := leaving_eq_ok.mp h
      refine leaving_eq_ok.mpr ⟨henter, ?_⟩
      rw [if_neg (by simp)]
      split at h
      · cases h
      · split at h
        · cases h
        · next hsize =>
          rw [if_neg hsize]
          dsimp only at h ⊢
          split at h
          · exact h
          · exact ih _ t h
          · exact hf _ _ t h
          · exact h

theorem walk_find (links : Nat) {here : Location} {steps : List Path.Step} {t : Target}
    (h : fs.walk .make links here steps = .ok t) : fs.walk .find links here steps = .ok t := by
  induction links generalizing here steps t with
  | zero => exact walkWith_find (fun _ _ _ h => h) steps here t h
  | succ links ih => exact walkWith_find (fun _ _ _ h => ih h) steps here t h

end Walk

/-! ## The file of a path -/

/-- The place of the regular file that a path leads to, be the file there or not. -/
def filePlace? (fs : FileSystem) (cwd : Location) (path : Native) : Option Location :=
  match checkPath path with
  | .error _ => none
  | .ok _ => (fs.follow .make cwd path (Path.steps path)).toOption.bind Target.filePlace?

/-- What the regular file at a place holds; nothing if there is none. -/
def contentAt (fs : FileSystem) (l : Location) : Bytes :=
  match fs.node? l with
  | some (.file _ data) => data
  | _ => []

/-- The permission bits of the regular file at a place, or those it would be made with. -/
def modeAt (fs : FileSystem) (l : Location) : Permissions :=
  match fs.node? l with
  | some (.file bits _) => bits
  | _ => newFileMode

/-- Can a regular file at a place be written to, or be made there? -/
def writableAt (fs : FileSystem) (l : Location) : Bool :=
  match fs.node? l with
  | some (.file bits _) => bits.mayWrite
  | some _ => false
  | none => (fs.node? l.tail).any Node.takesEntries

/-- The tree when what stands at a place has been opened for writing. -/
def afterOpening (fs : FileSystem) (l : Location) (mode : OpenMode) : FileSystem :=
  match fs.node? l, mode with
  | none, _ => fs.put l (.file newFileMode [])
  | some (.file bits _), .truncate => fs.put l (.file bits [])
  | _, _ => fs

variable {fs fs' : FileSystem} {cwd l : Location} {path : Native}

theorem filePlace?_eq_some : fs.filePlace? cwd path = some l ↔
    checkPath path = .ok () ∧ ∃ t, fs.follow .make cwd path (Path.steps path) = .ok t ∧ t.filePlace? = some l := by
  unfold filePlace?
  rcases hc : checkPath path with _ | _
  · simp
  · rcases hf : fs.follow .make cwd path (Path.steps path) with _ | t <;> simp [Except.toOption]

/-- At its place the file either is, or can be made if its directory allows it. -/
theorem filePlace?_cases (h : fs.filePlace? cwd path = some l) :
    (∃ bits data, fs.node? l = some (.file bits data) ∧
      fs.follow .make cwd path (Path.steps path) = .ok (.leaf l (.file bits data))) ∨
    ∃ dir name, l = name :: dir ∧ fs.node? l = none ∧
      fs.follow .make cwd path (Path.steps path) = .ok (.absent dir name) := by
  obtain ⟨-, t, hf, ht⟩ := filePlace?_eq_some.mp h
  have hfound := walk_found maxLinks hf
  unfold Target.filePlace? at ht
  split at ht
  · next bits data =>
    cases ht
    exact .inl ⟨bits, data, hfound, hf⟩
  · next dir name =>
    cases ht
    exact .inr ⟨dir, name, rfl, hfound, hf⟩
  · cases ht

theorem mayHoldFile_of_filePlace? (h : fs.filePlace? cwd path = some l) : fs.MayHoldFile l := by
  rcases filePlace?_cases h with ⟨bits, data, hn, -⟩ | ⟨-, -, -, hn, -⟩
  · exact .inr ⟨bits, data, hn⟩
  · exact .inl hn

/-- Places stay where they are while files are written and made. -/
theorem filePlace?_stable (hsame : SameBut l fs fs') (hl' : fs'.MayHoldFile l) (h : fs.filePlace? cwd path = some l) :
    fs'.filePlace? cwd path = some l := by
  obtain ⟨hc, t, hf, ht⟩ := filePlace?_eq_some.mp h
  exact filePlace?_eq_some.mpr ⟨hc, walk_stable hsame (mayHoldFile_of_filePlace? h) hl' maxLinks _ _ t hf ht⟩

/-- Opening a path for writing opens the file at its place. -/
theorem openForWriting_place (h : fs.filePlace? cwd path = some l) (hw : fs.writableAt l = true) (mode : OpenMode) :
    fs.openForWriting cwd false path mode = .ok (⟨l, mode, 0⟩, fs.afterOpening l mode) := by
  have hc := (filePlace?_eq_some.mp h).1
  simp only [openForWriting, hc]
  rcases filePlace?_cases h with ⟨bits, data, hn, hf⟩ | ⟨dir, name, rfl, hn, hf⟩
  · simp only [writableAt, hn] at hw
    cases mode <;> simp [hf, openNode, afterOpening, hn, hw, bind, Except.bind]
  · simp only [writableAt, hn, List.tail_cons] at hw
    rcases hparent : fs.node? dir with _ | parent
    · simp [hparent] at hw
    · have htakes : parent.takesEntries = true := by simpa [hparent] using hw
      simp [hf, create, afterOpening, hn, hparent, htakes, bind, Except.bind]

/-- Whatever a path leads to, opening it for writing makes, empties or leaves what stands there. -/
theorem openForWriting_ok {full : Bool} {mode : OpenMode} {r : OpenFile × FileSystem}
    (h : fs.openForWriting cwd full path mode = .ok r) : ∃ l, r = (⟨l, mode, 0⟩, fs.afterOpening l mode) := by
  simp only [openForWriting, bind, Except.bind] at h
  split at h
  · cases h
  · split at h
    · cases h
    · split at h
      · cases h
      · cases h
      · next location node hf =>
        have hn : fs.node? location = some node := walk_found maxLinks hf
        refine ⟨location, ?_⟩
        cases node <;> cases mode <;> simp only [openNode, afterOpening, hn] at h ⊢ <;> grind
      · next dir name hf =>
        have hn : fs.node? (name :: dir) = none := walk_found maxLinks hf
        refine ⟨name :: dir, ?_⟩
        simp only [create, afterOpening, hn] at h ⊢
        grind

theorem not_full_of_openForWriting {full : Bool} {mode : OpenMode} {r : OpenFile × FileSystem}
    (h : fs.openForWriting cwd full path mode = .ok r) : full = false := by
  simp only [openForWriting, bind, Except.bind] at h
  split at h
  · cases h
  · split at h
    · cases h
    · next hfull => simpa using hfull

/-- A path that was opened for writing leads to something that can be written to. -/
theorem writableAt_of_openForWriting (h : fs.filePlace? cwd path = some l) {full : Bool} {mode : OpenMode}
    {r : OpenFile × FileSystem} (ho : fs.openForWriting cwd full path mode = .ok r) : fs.writableAt l = true := by
  have hc := (filePlace?_eq_some.mp h).1
  have hfull := not_full_of_openForWriting ho
  subst hfull
  simp only [openForWriting, hc, bind, Except.bind] at ho
  rcases filePlace?_cases h with ⟨bits, data, hn, hf⟩ | ⟨dir, name, rfl, hn, hf⟩
  · simp only [hf, openNode] at ho
    simp only [writableAt, hn]
    by_cases hb : bits.mayWrite = true
    · exact hb
    · simp [hb] at ho
  · simp only [writableAt, hn, List.tail_cons]
    simp only [hf, create, Bool.false_eq_true, if_false] at ho
    split at ho
    · cases ho
    · next hcreated =>
      split at hcreated
      · next parent hparent =>
        rw [hparent, Option.any_some]
        split at hcreated
        · assumption
        · cases hcreated
      · cases hcreated

/-- Reading a path reads the file at its place, if its owner may read it. -/
theorem read_place (h : fs.filePlace? cwd path = some l) {bits : Permissions} {data : Bytes}
    (hn : fs.node? l = some (.file bits data)) :
    fs.read cwd false path = if bits.mayRead then .ok data else .error (.system .notPermitted) := by
  have hc := (filePlace?_eq_some.mp h).1
  rcases filePlace?_cases h with ⟨bits', data', hn', hf⟩ | ⟨-, -, -, hn', -⟩
  · cases hn.symm.trans hn'
    have hfind : fs.follow .find cwd path (Path.steps path) = .ok (.leaf l (.file bits data)) := walk_find maxLinks hf
    simp [read, lookup, hc, hfind, present, bind, Except.bind]
  · cases hn.symm.trans hn'

/-! ## After opening -/

theorem node?_afterOpening (hl : fs.MayHoldFile l) (mode : OpenMode) :
    (fs.afterOpening l mode).node? l = some (.file (fs.modeAt l) (mode.leaves (fs.contentAt l))) := by
  rcases hl with hn | ⟨bits, data, hn⟩ <;> cases mode <;> simp [afterOpening, hn, modeAt, contentAt, OpenMode.leaves]

/-- Whether a file can be written to or made is no matter of what files hold. -/
theorem writableAt_congr (hl : (fs'.node? l).map Node.emptied = (fs.node? l).map Node.emptied)
    (hd : (fs'.node? l.tail).map Node.emptied = (fs.node? l.tail).map Node.emptied) :
    fs'.writableAt l = fs.writableAt l := by
  have hdir : ∀ fs : FileSystem, (fs.node? l.tail).any Node.takesEntries =
      ((fs.node? l.tail).map Node.emptied).any Node.takesEntries := by
    intro fs
    rcases fs.node? l.tail with _ | node
    · rfl
    · cases node <;> rfl
  unfold writableAt
  simp only [hdir, hd]
  cases h : fs.node? l with
  | none =>
    rw [h, Option.map_none, Option.map_eq_none_iff] at hl
    rw [hl]
  | some node =>
    rw [h, Option.map_some] at hl
    obtain ⟨node', hn', he⟩ := Option.map_eq_some_iff.mp hl
    rw [hn']
    cases node <;> cases node' <;> simp_all [Node.emptied]

/-- A file that can be written to, or made, has the permission bit for it. -/
theorem mayWrite_modeAt (hw : fs.writableAt l = true) : (fs.modeAt l).mayWrite = true := by
  unfold writableAt at hw
  split at hw
  · next hn => simpa [modeAt, hn] using hw
  · cases hw
  · next hn =>
    simp only [modeAt, hn]
    decide

theorem node?_afterOpening_ne (mode : OpenMode) {l' : Location} (h : l' ≠ l) :
    (fs.afterOpening l mode).node? l' = fs.node? l' := by
  unfold afterOpening
  split <;> simp [h]

end FileSystem

end CommandShell
