/-
  CommandShell.Proofs.World.Files — what writing to files and to the log changes in a world.

  `World.Alters places w w'` says that from `w` to `w'` at most the files at `places` have changed, and those that
  the log goes to. All else but standard error and the notices is as it was.
  - `alters_note`: a notice changes nothing but the log;
  - `alters_opened`, `alters_writeFile_at`: using a file changes at most that file;
  - `openFile_place`: a path that leads to a regular file can be opened, at its place;
  - `writeFile_atEnd`, `writeEach_atEnd`: what is written behind the end of a regular file is added to it;
  - `writeTo_place`, `readFrom_place`: a history goes into its file, and comes from it.
-/

import CommandShell.Proofs.FileSystem.Places
import CommandShell.Proofs.History.Lines
import CommandShell.World
import Mathlib.Data.Set.Insert

namespace CommandShell

/-- What every ask keeps, asking all targets keeps. -/
theorem Fanout.each_preserves {α W : Type} {ask : α → W → Except Fault Unit × α × W} {P : W → Prop} {targets : List α}
    (h : ∀ a ∈ targets, ∀ w, P w → P (ask a w).2.2) : ∀ {w}, P w → P (Fanout.each ask targets w).2.2 := by
  induction targets with
  | nil => intro w hw; exact hw
  | cons target rest ih =>
    intro w hw
    exact ih (fun a ha => h a (by simp [ha])) (h target (by simp) w hw)

theorem Bytes.overwrite_end (content data : Bytes) : content.overwrite content.length data = content ++ data := by
  simp [overwrite]

/-- Writing to an open file changes what it holds and nothing else. -/
theorem FileSystem.write_ok {fs fs' : FileSystem} {f f' : OpenFile} {data : Bytes}
    (h : fs.write f data = .ok (f', fs')) :
    f'.location = f.location ∧ (∀ l, (fs'.node? l).map Node.emptied = (fs.node? l).map Node.emptied) ∧
      ∀ l, l ≠ f.location → fs'.node? l = fs.node? l := by
  have hput : ∀ {bits content new}, fs.node? f.location = some (.file bits content) →
      (∀ l, ((fs.put f.location (.file bits new)).node? l).map Node.emptied = (fs.node? l).map Node.emptied) ∧
        ∀ l, l ≠ f.location → (fs.put f.location (.file bits new)).node? l = fs.node? l := by
    intro bits content new hn
    refine ⟨fun l => ?_, fun l hl => node?_put_ne fs _ hl⟩
    by_cases hl : l = f.location
    · subst hl
      rw [node?_put_self, hn]
      rfl
    · rw [node?_put_ne fs _ hl]
  unfold write at h
  split at h
  · cases h
    exact ⟨rfl, fun _ => rfl, fun _ _ => rfl⟩
  · split at h
    · next hn =>
      split at h <;> cases h
      · exact ⟨rfl, hput hn⟩
      · exact ⟨rfl, hput hn⟩
    · cases h
    · cases h
      exact ⟨rfl, fun _ => rfl, fun _ _ => rfl⟩

namespace World

/-! ## Altered worlds -/

/-- Every file that the log goes to is open, and none of them is the one at `l`. -/
def LogsElsewhere (l : Location) (w : World) : Prop :=
  ∀ logger ∈ w.logger, ∀ number, LogTarget.file number ∈ logger.targets →
    ∃ f, w.opened[number]? = some f ∧ f.location ≠ l

/-- The log does not go to standard error. -/
def LogsSilently (w : World) : Prop := ∀ logger ∈ w.logger, LogTarget.stderr ∉ logger.targets

/-- The open file of this number is the one at `l`. -/
def OpenAt (number : Nat) (l : Location) (w : World) : Prop := (w.opened[number]?).map OpenFile.location = some l

/-- At most the files at `places` have changed, and those that the log goes to. -/
structure Alters (places : Set Location) (w w' : World) : Prop where
  rest : { w' with files := w.files, opened := w.opened, errors := w.errors, notices := w.notices } = w
  errors : w.LogsSilently → w'.errors = w.errors
  /-- Files stay open. -/
  opened : w.opened.map OpenFile.location <+: w'.opened.map OpenFile.location
  /-- Elsewhere there is a file where there was one, and may be used as before. -/
  kinds : ∀ l, l ∉ places → (w'.files.node? l).map Node.emptied = (w.files.node? l).map Node.emptied
  nodes : ∀ l, l ∉ places → w.LogsElsewhere l → w'.files.node? l = w.files.node? l

variable {w w' w'' : World} {places : Set Location} {l : Location} {number : Nat}

theorem Alters.cwd (h : Alters places w w') : w'.cwd = w.cwd := (congrArg World.cwd h.rest :)

theorem Alters.spare (h : Alters places w w') : w'.spare = w.spare := (congrArg World.spare h.rest :)

theorem Alters.output (h : Alters places w w') : w'.output = w.output := (congrArg World.output h.rest :)

theorem Alters.jobs (h : Alters places w w') : w'.jobs = w.jobs := (congrArg World.jobs h.rest :)

theorem Alters.runningJobs (h : Alters places w w') : w'.runningJobs = w.runningJobs :=
  congrArg (List.filter Job.isRunning) h.jobs

theorem Alters.pipes (h : Alters places w w') : w'.pipes = w.pipes := (congrArg World.pipes h.rest :)

theorem Alters.history (h : Alters places w w') : w'.history = w.history := (congrArg World.history h.rest :)

theorem Alters.logger (h : Alters places w w') : w'.logger = w.logger := (congrArg World.logger h.rest :)

/-- An open file stays the file that it is. -/
theorem OpenAt.later (hopened : w.opened.map OpenFile.location <+: w'.opened.map OpenFile.location)
    (h : w.OpenAt number l) : w'.OpenAt number l := by
  obtain ⟨more, hm⟩ := hopened
  unfold OpenAt at h ⊢
  rw [← List.getElem?_map] at h ⊢
  obtain ⟨hlt, -⟩ := List.getElem?_eq_some_iff.mp h
  rw [← hm, List.getElem?_append_left hlt, h]

/-- The log keeps going where it goes. -/
theorem LogsElsewhere.later (hlogger : w'.logger = w.logger)
    (hopened : w.opened.map OpenFile.location <+: w'.opened.map OpenFile.location) (h : w.LogsElsewhere l) :
    w'.LogsElsewhere l := by
  intro logger hl number hn
  rw [hlogger] at hl
  obtain ⟨f, hf, hne⟩ := h logger hl number hn
  have hat : w'.OpenAt number f.location := OpenAt.later hopened (by simp [OpenAt, hf])
  obtain ⟨f', hf', he⟩ := Option.map_eq_some_iff.mp hat
  exact ⟨f', hf', he ▸ hne⟩

theorem LogsElsewhere.altered (h : w.LogsElsewhere l) (ha : Alters places w w') : w'.LogsElsewhere l :=
  h.later ha.logger ha.opened

theorem Alters.refl (places : Set Location) (w : World) : Alters places w w where
  rest := rfl
  errors _ := rfl
  opened := List.prefix_rfl
  kinds _ _ := rfl
  nodes _ _ _ := rfl

theorem Alters.trans (h : Alters places w w') (h' : Alters places w' w'') : Alters places w w'' where
  rest := (congrArg (fun v : World =>
    { v with files := w.files, opened := w.opened, errors := w.errors, notices := w.notices }) h'.rest).trans h.rest
  errors hs := by
    have hs' : w'.LogsSilently := by
      unfold LogsSilently
      rw [h.logger]
      exact hs
    exact (h'.errors hs').trans (h.errors hs)
  opened := h.opened.trans h'.opened
  kinds l hl := (h'.kinds l hl).trans (h.kinds l hl)
  nodes l hl hlog := (h'.nodes l hl (hlog.altered h)).trans (h.nodes l hl hlog)

theorem Alters.mono {more : Set Location} (hsub : places ⊆ more) (h : Alters places w w') : Alters more w w' where
  rest := h.rest
  errors := h.errors
  opened := h.opened
  kinds l hl := h.kinds l fun hp => hl (hsub hp)
  nodes l hl := h.nodes l fun hp => hl (hsub hp)

/-- A change at one place only leaves all ways to that place. -/
theorem Alters.sameBut (h : Alters {l} w w') : FileSystem.SameBut l w.files w'.files :=
  fun l' hl' => h.kinds l' hl'

theorem Alters.filePlace? {path : Native} (h : Alters {l} w w') (hp : w.files.filePlace? w.cwd path = some l)
    (hl : w'.files.MayHoldFile l) : w'.files.filePlace? w'.cwd path = some l := by
  rw [h.cwd]
  exact FileSystem.filePlace?_stable h.sameBut hl hp

/-! ## Writing -/

/-- Writing either leaves the world as it is, or writes to the open file. -/
theorem writeFile_cases (number : Nat) (data : Bytes) (w : World) :
    (∃ fault, w.writeFile number data = (.error fault, w)) ∨
      ∃ file file' files, w.opened[number]? = some file ∧ w.files.write file data = .ok (file', files) ∧
        w.writeFile number data = (.ok (), { w with files, opened := w.opened.set number file' }) := by
  unfold writeFile
  split
  · exact .inl ⟨_, rfl⟩
  · next file hfile =>
    split
    · next file' files hwrite => exact .inr ⟨file, file', files, hfile, hwrite, rfl⟩
    · exact .inl ⟨_, rfl⟩

theorem alters_writeFile (data : Bytes)
    (h : ∀ f l, w.opened[number]? = some f → l ∉ places → w.LogsElsewhere l → f.location ≠ l) :
    Alters places w (w.writeFile number data).2 := by
  rcases writeFile_cases number data w with ⟨fault, he⟩ | ⟨file, file', files, hfile, hwrite, he⟩
  · rw [he]
    exact .refl places w
  · obtain ⟨hlocation, hkinds, hnodes⟩ := FileSystem.write_ok hwrite
    rw [he]
    refine ⟨rfl, fun _ => rfl, ?_, fun l _ => hkinds l, fun l hl hlog => hnodes l (h file l hfile hl hlog).symm⟩
    -- the file that is put back is the file that was there
    obtain ⟨hlt, hget⟩ := List.getElem?_eq_some_iff.mp hfile
    have hsame : (w.opened.map OpenFile.location).set number file'.location = w.opened.map OpenFile.location := by
      rw [hlocation, ← hget]
      simp [← List.map_set]
    exact ⟨[], (List.append_nil _).trans (List.map_set.trans hsame).symm⟩

theorem alters_writeFile_at (h : w.OpenAt number l) (data : Bytes) : Alters {l} w (w.writeFile number data).2 := by
  refine alters_writeFile data fun f l' hf hl' _ => ?_
  simp only [OpenAt, hf, Option.map_some, Option.some.injEq] at h
  rw [h]
  exact fun he => hl' he.symm

/-- A notice changes nothing but the log. -/
theorem alters_note (n : Notice) (w : World) : Alters ∅ w (w.note n) := by
  have hnoted : Alters ∅ w { w with notices := w.notices ++ [n] } :=
    ⟨rfl, fun _ => rfl, List.prefix_rfl, fun _ _ => rfl, fun _ _ _ => rfl⟩
  unfold note
  dsimp only
  split
  · exact hnoted
  · next logger hlogger =>
    split
    · generalize Text.plain (Bytes.ofString (w.logLine n)) = line
      refine Fanout.each_preserves (P := fun w' => Alters ∅ w w') (fun target ht w' hw' => hw'.trans ?_) hnoted
      have hlogger' : logger ∈ w'.logger := by rw [hw'.logger]; exact hlogger
      cases target with
      | file number =>
        refine alters_writeFile _ fun f l hf _ hlog => ?_
        obtain ⟨f', hf', hne⟩ := hlog logger hlogger' number ht
        cases hf.symm.trans hf'
        exact hne
      | stderr =>
        exact ⟨rfl, fun hs => absurd ht (hs logger hlogger'), List.prefix_rfl, fun _ _ => rfl, fun _ _ _ => rfl⟩
    · exact hnoted

theorem alters_lockHistory (w : World) : Alters ∅ w w.lockHistory := by
  unfold lockHistory
  split
  · exact alters_note ..
  · exact .refl ∅ w

theorem Alters.withHistory (h : Alters places w w') (history : History) :
    Alters places { w with history } { w' with history } where
  rest := (congrArg (fun v : World => { v with history }) h.rest :)
  errors := h.errors
  opened := h.opened
  kinds := h.kinds
  nodes := h.nodes

/-- Remembering a line changes the history, and nothing else but the log. -/
theorem alters_pushHistory (line : String) (w : World) :
    Alters ∅ { w with history := w.history.push line } (w.pushHistory line) := by
  have hpush : w.pushHistory line = { w.lockHistory with history := w.history.push line } := by
    rw [← (alters_lockHistory w).history]
    rfl
  rw [hpush]
  exact (alters_lockHistory w).withHistory (w.history.push line)

/-! ## Opening -/

/-- Opening either fails and leaves the world as it is, or opens what stands at some place. -/
theorem openFile_cases (path : Native) (mode : OpenMode) (w : World) :
    (∃ fault, w.openFile path mode = (.error fault, w)) ∨
      ∃ l, w.openFile path mode = (.ok w.opened.length,
          { w with files := w.files.afterOpening l mode, opened := w.opened ++ [⟨l, mode, 0⟩] }) ∧
        w.files.openForWriting w.cwd w.exhausted path mode = .ok (⟨l, mode, 0⟩, w.files.afterOpening l mode) := by
  unfold openFile
  split
  · next file files hopen =>
    obtain ⟨l, he⟩ := FileSystem.openForWriting_ok hopen
    cases he
    split
    · exact .inl ⟨_, rfl⟩
    · exact .inr ⟨l, rfl, hopen⟩
  · exact .inl ⟨_, rfl⟩

theorem alters_opened (l : Location) (mode : OpenMode) (w : World) :
    Alters {l} w { w with files := w.files.afterOpening l mode, opened := w.opened ++ [⟨l, mode, 0⟩] } where
  rest := rfl
  errors _ := rfl
  opened := by simp
  kinds l' hl' := congrArg _ (FileSystem.node?_afterOpening_ne mode hl')
  nodes l' hl' _ := FileSystem.node?_afterOpening_ne mode hl'

/-- A regular file can be opened for writing at `l`, or made there. -/
structure Openable (l : Location) (w : World) : Prop where
  descriptors : 0 < w.spare
  writable : w.files.writableAt l = true
  /-- A program cannot be written to while it runs. -/
  notRunning : ∀ job ∈ w.runningJobs, job.program ≠ l

theorem Openable.withHistory (ho : w.Openable l) (history : History) : Openable l { w with history } :=
  ⟨ho.descriptors, ho.writable, ho.notRunning⟩

theorem not_exhausted (h : 0 < w.spare) : w.exhausted = false := decide_eq_false (Nat.ne_of_gt h)

theorem spare_pos_of_not_exhausted (h : w.exhausted = false) : 0 < w.spare :=
  Nat.pos_of_ne_zero (of_decide_eq_false h)

/-- A path that leads to such a file can be opened. -/
theorem openFile_place {path : Native} (hp : w.files.filePlace? w.cwd path = some l) (ho : w.Openable l)
    (mode : OpenMode) : w.openFile path mode = (.ok w.opened.length,
      { w with files := w.files.afterOpening l mode, opened := w.opened ++ [⟨l, mode, 0⟩] }) := by
  have hidle : (w.runningJobs.any fun job => job.program = l) = false := by simpa using ho.notRunning
  simp [openFile, not_exhausted ho.descriptors, FileSystem.openForWriting_place hp ho.writable mode, hidle]

theorem openable_of_openFile {path : Native} {mode : OpenMode} (hp : w.files.filePlace? w.cwd path = some l)
    (h : (w.openFile path mode).1 = .ok number) : w.Openable l := by
  unfold openFile at h
  split at h
  · next file files hopen =>
    have hd := FileSystem.not_full_of_openForWriting hopen
    have hw := FileSystem.writableAt_of_openForWriting hp hopen
    rw [hd, FileSystem.openForWriting_place hp hw] at hopen
    cases hopen
    split at h
    · cases h
    · next hidle => exact ⟨spare_pos_of_not_exhausted hd, hw, by simpa using hidle⟩
  · cases h

/-- A file that was written to can be written to again. -/
theorem Openable.altered {bits : Permissions} {data : Bytes} (ho : w.Openable l) (ha : Alters {l} w w')
    (hn : w'.files.node? l = some (.file bits data)) (hb : bits.mayWrite = true) : w'.Openable l where
  descriptors := ha.spare ▸ ho.descriptors
  writable := by simpa [FileSystem.writableAt, hn] using hb
  notRunning := by
    rw [ha.runningJobs]
    exact ho.notRunning

/-- A world in which the file has not changed serves as well. -/
theorem Openable.untouched (ho : w.Openable l) (ha : Alters ∅ w w') : w'.Openable l where
  descriptors := ha.spare ▸ ho.descriptors
  writable := (FileSystem.writableAt_congr (ha.kinds l id) (ha.kinds l.tail id)).trans ho.writable
  notRunning := by
    rw [ha.runningJobs]
    exact ho.notRunning

/-! ## Writing behind the end -/

/-- The open file of this number is a regular one, and whatever is written to it goes behind what it holds. -/
def WritesAtEnd (number : Nat) (l : Location) (bits : Permissions) (content : Bytes) (w : World) : Prop :=
  w.files.node? l = some (.file bits content) ∧
    ∃ f, w.opened[number]? = some f ∧ f.location = l ∧ (f.mode = .append ∨ f.offset = content.length)

variable {bits : Permissions} {content : Bytes}

theorem WritesAtEnd.openAt (h : w.WritesAtEnd number l bits content) : w.OpenAt number l := by
  obtain ⟨-, f, hf, hl, -⟩ := h
  simp [OpenAt, hf, hl]

/-- A regular file that was just opened is written to behind its end. -/
theorem writesAtEnd_opened (hl : w.files.MayHoldFile l) (mode : OpenMode) :
    WritesAtEnd w.opened.length l (w.files.modeAt l) (mode.leaves (w.files.contentAt l))
      { w with files := w.files.afterOpening l mode, opened := w.opened ++ [⟨l, mode, 0⟩] } := by
  refine ⟨FileSystem.node?_afterOpening hl mode, ⟨l, mode, 0⟩, by simp, rfl, ?_⟩
  cases mode with
  | truncate => exact .inr rfl
  | append => exact .inl rfl

/-- What is written behind the end of a regular file is added to it. -/
theorem writeFile_atEnd (h : w.WritesAtEnd number l bits content) (data : Bytes) :
    (w.writeFile number data).1 = .ok () ∧
      (w.writeFile number data).2.WritesAtEnd number l bits (content ++ data) := by
  obtain ⟨hn, f, hf, rfl, hend⟩ := h
  have hlt := (List.getElem?_eq_some_iff.mp hf).1
  by_cases hd : data = []
  · subst hd
    have hset : (w.opened.set number f)[number]? = some f := by simp [hlt]
    simp only [writeFile, hf, FileSystem.write, List.isEmpty_nil, if_true, List.append_nil]
    exact ⟨trivial, hn, f, hset, rfl, hend⟩
  · have hd' : data.isEmpty = false := by simpa using hd
    have hput := FileSystem.node?_put_self w.files f.location (.file bits (content ++ data))
    cases hm : f.mode with
    | append =>
      simp only [writeFile, hf, FileSystem.write, hd', hn, hm, Bool.false_eq_true, if_false]
      exact ⟨trivial, hput, f, by simp [hlt], rfl, .inl hm⟩
    | truncate =>
      have ho : f.offset = content.length := hend.resolve_left (by simp [hm])
      simp only [writeFile, hf, FileSystem.write, hd', hn, hm, Bool.false_eq_true, if_false, ho, Bytes.overwrite_end]
      exact ⟨trivial, hput, { f with offset := content.length + data.length }, by simp [hlt, hm], rfl, .inr (by simp)⟩

theorem alters_writeEach (entries : List String) : ∀ {w : World}, w.OpenAt number l →
    Alters {l} w (History.writeEach number entries w).2 := by
  induction entries with
  | nil => intro w _; exact .refl _ w
  | cons entry rest ih =>
    intro w h
    have ha : Alters {l} w (Storage.writeFile number (History.storedLine entry) w).2 := alters_writeFile_at h _
    unfold History.writeEach
    split
    · next heq =>
      rw [heq] at ha
      exact ha.trans (ih (h.later ha.opened))
    · next heq =>
      rw [heq] at ha
      exact ha

theorem writeEach_atEnd (entries : List String) : ∀ {w : World} {content : Bytes}, w.WritesAtEnd number l bits content →
    (History.writeEach number entries w).1 = .ok () ∧
      (History.writeEach number entries w).2.WritesAtEnd number l bits (content ++ History.stored entries) := by
  induction entries with
  | nil => intro w content h; exact ⟨rfl, by simpa [History.writeEach, History.stored] using h⟩
  | cons entry rest ih =>
    intro w content h
    obtain ⟨hok, hend⟩ := writeFile_atEnd h (History.storedLine entry)
    have heq : Storage.writeFile number (History.storedLine entry) w =
        (.ok (), (w.writeFile number (History.storedLine entry)).2) := Prod.ext hok rfl
    simp only [History.writeEach, heq, History.stored, List.flatMap_cons, ← List.append_assoc]
    exact ih hend

/-! ## A history and its file -/

/-- A history that is written to a regular file is all that the file holds. -/
theorem writeTo_place {path : Native} (hp : w.files.filePlace? w.cwd path = some l) (ho : w.Openable l) (h : History) :
    (h.writeTo path w).1 = .ok () ∧ Alters {l} w (h.writeTo path w).2 ∧
      (h.writeTo path w).2.files.node? l = some (.file (w.files.modeAt l) (History.stored h.entries)) := by
  have hend := writesAtEnd_opened (FileSystem.mayHoldFile_of_filePlace? hp) .truncate
  have hopened : Storage.openFile path .truncate w = _ := openFile_place hp ho .truncate
  obtain ⟨hok, hend'⟩ := writeEach_atEnd h.entries hend
  simp only [History.writeTo, hopened]
  exact ⟨hok, (alters_opened l .truncate w).trans (alters_writeEach h.entries hend.openAt), hend'.1⟩

theorem readFrom_place {path : Native} {data : Bytes} (hp : w.files.filePlace? w.cwd path = some l)
    (hd : 0 < w.spare) (hn : w.files.node? l = some (.file bits data)) (hb : bits.mayRead = true)
    (h : History) : h.readFrom path w = h.load data.textLines := by
  have hread : Storage.readLines path w = .ok data.textLines := by
    show (w.files.read w.cwd w.exhausted path).map Bytes.textLines = _
    rw [not_exhausted hd, FileSystem.read_place hp hn, if_pos hb]
    rfl
  simp only [History.readFrom, hread]

end World

end CommandShell
