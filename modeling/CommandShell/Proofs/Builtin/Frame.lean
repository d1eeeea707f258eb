/-
  CommandShell.Proofs.Builtin.Frame — what a builtin may touch.

  Of the working directory, the history and the files, `cd` changes the first, `history -r` the second and `history -w`
  and `history -a` the file that they name. Whatever else a builtin is asked for, it changes none of them.
  - `alters_writeHistory`, `alters_appendHistory`, `alters_readHistory`: a use of a history file, whether it succeeds or
    fails at any point, changes at most that file and the history;
  - `alters_action`: what every builtin makes of its world, said once for all of them;
  - `apart_outputs`: the streams of a stage touch the files that they are redirected to and no others;
  - `action_framed`: so no call of a builtin, with whatever streams, goes beyond what it may touch.
-/

import CommandShell.Proofs.Builtin.Replies
import CommandShell.Proofs.Stage.FailedStart
import CommandShell.Proofs.World.Changes

namespace CommandShell

/-- Only a regular file is changed by writing to it. -/
theorem FileSystem.write_of_not_holdsFile {fs fs' : FileSystem} {f f' : OpenFile} {data : Bytes}
    (hnone : ¬fs.HoldsFile f.location) (h : fs.write f data = .ok (f', fs')) : fs' = fs := by
  unfold write at h
  split at h
  · cases h
    rfl
  · split at h
    · next hn => exact absurd ⟨_, _, hn⟩ hnone
    · cases h
    · cases h
      rfl

namespace World

variable {w w' w'' : World} {places own : Set Location} {l : Location} {number : Nat} {path : Native}

/-! ## Uses of a history file -/

/-- What is written to an open file changes no file but a regular one that it is. -/
theorem alters_writeFile_held (hat : w.OpenAt number l) (hheld : w.files.HoldsFile l → l ∈ places) (data : Bytes) :
    Alters places w (w.writeFile number data).2 := by
  have hopen := alters_writeFile_at hat data
  by_cases hfile : w.files.HoldsFile l
  · exact hopen.mono (Set.singleton_subset_iff.mpr (hheld hfile))
  · have hfiles : (w.writeFile number data).2.files = w.files := by
      rcases writeFile_cases number data w with ⟨fault, he⟩ | ⟨file, file', files, hget, hwrite, he⟩
      · rw [he]
      · rw [he]
        have hlocation : file.location = l := by simpa [OpenAt, hget] using hat
        exact FileSystem.write_of_not_holdsFile (hlocation ▸ hfile) hwrite
    exact ⟨hopen.rest, hopen.errors, hopen.opened, fun l _ => by rw [hfiles], fun l _ _ => by rw [hfiles]⟩

theorem alters_writeEach_held (entries : List String) : ∀ {w : World}, w.OpenAt number l →
    (w.files.HoldsFile l → l ∈ places) → Alters places w (History.writeEach number entries w).2 := by
  induction entries with
  | nil => intro w _ _; exact .refl places w
  | cons entry rest ih =>
    intro w hat hheld
    have ha : Alters places w (Storage.writeFile number (History.storedLine entry) w).2 :=
      alters_writeFile_held hat hheld _
    unfold History.writeEach
    split
    · next w₁ heq =>
      rw [heq] at ha
      refine ha.trans (ih (hat.later ha.opened) ?_)
      -- what was no regular file before it was written to is none now
      intro hfile
      by_cases hl : l ∈ places
      · exact hl
      · exact hheld (hfile.emptied (ha.kinds l hl).symm)
    · next heq =>
      rw [heq] at ha
      exact ha

/-- Entries that are written to a file change the file at the place of its path and no other. -/
theorem alters_stored {mode : OpenMode} (h : w.openFile path mode = (.ok number, w')) (entries : List String) :
    Alters {l | w.files.filePlace? w.cwd path = some l} w (History.writeEach number entries w').2 := by
  obtain ⟨l, hat, hheld⟩ := openFile_openAt h
  exact (alters_openFile h).trans (alters_writeEach_held entries hat hheld)

theorem alters_writeHistory (path : Native) (w : World) :
    Alters {l | w.files.filePlace? w.cwd path = some l} w (w.writeHistory path).2 := by
  rcases hopen : w.openFile path .truncate with ⟨answer, w₁⟩
  have hopen' : Storage.openFile path .truncate w = (answer, w₁) := hopen
  simp only [writeHistory, History.writeTo, hopen']
  cases answer with
  | error fault =>
    obtain rfl := openFile_error hopen
    exact .refl _ w₁
  | ok number => exact alters_stored hopen w.history.entries

theorem alters_appendHistory (path : Native) (w : World) : ∃ saved,
    Alters {l | w.files.filePlace? w.cwd path = some l} { w with history := ⟨w.history.entries, saved⟩ }
      (w.appendHistory path).2 := by
  rcases hopen : w.openFile path .append with ⟨answer, w₁⟩
  have hopen' : Storage.openFile path .append w = (answer, w₁) := hopen
  cases answer with
  | error fault =>
    obtain rfl := openFile_error hopen
    simp only [appendHistory, History.appendTo, hopen']
    exact ⟨w₁.history.saved, .refl _ w₁⟩
  | ok number =>
    have hstored := alters_stored hopen w.history.fresh
    rcases hwrite : History.writeEach number w.history.fresh w₁ with ⟨answer, w₂⟩
    rw [hwrite] at hstored
    cases answer with
    | error fault =>
      simp only [appendHistory, History.appendTo, hopen', hwrite]
      exact ⟨w.history.saved, hstored.withHistory w.history⟩
    | ok _ =>
      simp only [appendHistory, History.appendTo, hopen', hwrite]
      exact ⟨w.history.entries.length, hstored.withHistory w.history.markSaved⟩

theorem alters_readHistory (path : Native) (w : World) : ∃ saved,
    Alters ∅ { w with history := ⟨w.history.entries ++ w.entriesIn path, saved⟩ } (w.readHistory path).2 := by
  have hread : ∃ history : History, Alters ∅ { w with history } (w.readHistory path).2 := by
    unfold readHistory
    split
    · exact ⟨_, alters_note ..⟩
    · exact ⟨_, .refl ∅ _⟩
  obtain ⟨history, ha⟩ := hread
  have hentries : history.entries = w.history.entries ++ w.entriesIn path :=
    ha.entries.symm.trans (entries_readHistory path w)
  refine ⟨history.saved, ?_⟩
  rw [← hentries]
  exact ha

/-- Where the files have not changed, paths lead where they led. -/
theorem Alters.filePlace?_eq (h : Alters ∅ w w') (path : Native) :
    w'.files.filePlace? w'.cwd path = w.files.filePlace? w.cwd path := by
  rw [h.cwd]
  exact FileSystem.filePlace?_grown (FileSystem.SameKinds.grows fun l => h.kinds l id) ..

end World

namespace Builtin

open World

variable {w w' : World} {own : Set Location}

/-! ## What a call does to its world -/

/-- The path that `cd` follows, as the system reads it. -/
def cdPath (args : List String) (w : World) : String :=
  w.host.expandTilde w.env (args.head?.getD "~")

/-- The directory that a call goes to. -/
def goal? (b : Builtin) (args : List String) (w : World) : Option Location :=
  match b with
  | cd => (w.files.enter w.cwd (cdPath args w)).toOption
  | _ => none

/-- The file that a call writes the history to. -/
def destination? : Builtin → List String → Option String
  | history, "-w" :: file :: _ => some file
  | history, "-a" :: file :: _ => some file
  | _, _ => none

/-- The place of that file. -/
def destinations (b : Builtin) (args : List String) (w : World) : Set Location :=
  {l | ∃ file ∈ b.destination? args, w.files.filePlace? w.cwd file = some l}

/-- The world after a call, but for the files and the log. -/
def leaves (b : Builtin) (args : List String) (saved : Nat) (w : World) : World :=
  { w with cwd := (b.goal? args w).getD w.cwd, history := ⟨w.history.entries ++ b.adds args w, saved⟩ }

theorem source?_eq_some {b : Builtin} {args : List String} {file : String} :
    b.source? args = some file ↔ b = history ∧ ∃ rest, args = "-r" :: file :: rest := by
  constructor
  · intro h
    unfold source? at h
    split at h
    · cases h
      exact ⟨rfl, _, rfl⟩
    · cases h
  · intro ⟨hb, rest, hargs⟩
    rw [hb, hargs]
    rfl

theorem destination?_eq_some {b : Builtin} {args : List String} {file : String} : b.destination? args = some file ↔
    b = history ∧ ((∃ rest, args = "-w" :: file :: rest) ∨ ∃ rest, args = "-a" :: file :: rest) := by
  constructor
  · intro h
    unfold destination? at h
    split at h
    · cases h
      exact ⟨rfl, .inl ⟨_, rfl⟩⟩
    · cases h
      exact ⟨rfl, .inr ⟨_, rfl⟩⟩
    · cases h
  · intro ⟨hb, hargs⟩
    rcases hargs with ⟨rest, hargs⟩ | ⟨rest, hargs⟩ <;> rw [hb, hargs] <;> rfl

theorem goal?_eq_some {b : Builtin} {args : List String} {l : Location} :
    b.goal? args w = some l ↔ b = cd ∧ w.files.enter w.cwd (cdPath args w) = .ok l := by
  cases b with
  | cd => cases hd : w.files.enter w.cwd (cdPath args w) <;> simp [goal?, hd, Except.toOption]
  | _ => simp [goal?]

/-- A call that goes nowhere and reads no history file leaves the directory and the history. -/
theorem leaves_of_none {b : Builtin} {args : List String} (hgoal : b.goal? args w = none)
    (hsource : b.source? args = none) : b.leaves args w.history.saved w = w := by
  simp [leaves, adds, hgoal, hsource]

/-- A history command without a file takes a look at the history, or not even that. -/
theorem alters_runHistory {args : List String} (hsource : history.source? args = none)
    (hdestination : history.destination? args = none) (w : World) : Alters ∅ w (runHistory args w).2 := by
  unfold runHistory
  split
  · exact alters_lockHistory w
  · next rest =>
    cases rest with
    | nil => exact .refl ∅ w
    | cons file rest => cases hsource
  · next rest =>
    cases rest with
    | nil => exact .refl ∅ w
    | cons file rest => cases hdestination
  · next rest =>
    cases rest with
    | nil => exact .refl ∅ w
    | cons file rest => cases hdestination
  · split
    · exact alters_lockHistory w
    · exact .refl ∅ w

theorem alters_runCd (args : List String) (w : World) :
    Alters ∅ { w with cwd := (cd.goal? args w).getD w.cwd } (runCd args w).2 := by
  simp only [runCd, goal?, cdPath]
  cases w.files.enter w.cwd (w.host.expandTilde w.env (args.head?.getD "~")) with
  | ok location => exact alters_note ..
  | error fault => exact alters_note ..

/-- A call that uses no history file changes at most the directory, and that only by `cd`. -/
theorem alters_idle {b : Builtin} {args : List String} (hsource : b.source? args = none)
    (hdestination : b.destination? args = none) (w : World) :
    Alters ∅ { w with cwd := (b.goal? args w).getD w.cwd } (b.action args w).2 := by
  cases b with
  | cd => exact alters_runCd args w
  | echo => exact .refl ∅ w
  | exit =>
    simp only [action, runExit]
    split
    · exact .refl ∅ w
    · split <;> exact .refl ∅ w
  | history => exact alters_runHistory hsource hdestination w
  | pwd =>
    simp only [action, runPwd]
    split <;> exact .refl ∅ w
  | type => exact (noted_describe args w).alters

/-- Reading a history file adds its entries, and changes nothing else. -/
theorem alters_source {b : Builtin} {args : List String} {file : String} (h : b.source? args = some file) (w : World) :
    ∃ saved, Alters ∅ (b.leaves args saved w) (b.action args w).2 := by
  have hlock := alters_lockHistory w
  obtain ⟨saved, hread⟩ := alters_readHistory file w.lockHistory
  refine ⟨saved, ?_⟩
  rw [action_source h]
  have hgoal : b.goal? args w = none := by rw [(source?_eq_some.mp h).1]; rfl
  simp only [leaves, adds, hgoal, h, Option.getD_none]
  rw [hlock.history] at hread
  exact (hlock.withHistory _).trans hread

/-- Writing to a history file changes the file, and no entry. -/
theorem alters_destination {b : Builtin} {args : List String} {file : String} (h : b.destination? args = some file)
    (w : World) : ∃ saved, Alters (b.destinations args w) (b.leaves args saved w) (b.action args w).2 := by
  have hlock := alters_lockHistory w
  have hplaces : b.destinations args w = {l | w.lockHistory.files.filePlace? w.lockHistory.cwd file = some l} := by
    simp [destinations, h, hlock.filePlace?_eq]
  obtain ⟨rfl, hargs⟩ := destination?_eq_some.mp h
  rw [hplaces]
  rcases hargs with ⟨rest, rfl⟩ | ⟨rest, rfl⟩
  · refine ⟨w.history.saved, ?_⟩
    rw [leaves_of_none rfl rfl]
    exact (hlock.mono (Set.empty_subset _)).trans (alters_writeHistory file w.lockHistory)
  · obtain ⟨saved, happend⟩ := alters_appendHistory file w.lockHistory
    refine ⟨saved, ?_⟩
    rw [hlock.history] at happend
    have hleaves : history.leaves ("-a" :: file :: rest) saved w = { w with history := ⟨w.history.entries, saved⟩ } := by
      simp [leaves, goal?, adds, source?]
    rw [hleaves]
    exact ((hlock.withHistory _).mono (Set.empty_subset _)).trans happend

/-- What a call makes of its world: it goes where `cd` leads, adds the entries of the file that it reads, and writes to
    the file that it names. -/
theorem alters_action (b : Builtin) (args : List String) (w : World) : ∃ saved,
    (b.source? args = none → b.destination? args = none → saved = w.history.saved) ∧
      Alters (b.destinations args w) (b.leaves args saved w) (b.action args w).2 := by
  cases hsource : b.source? args with
  | some file =>
    obtain ⟨saved, h⟩ := alters_source hsource w
    exact ⟨saved, by simp, h.mono (Set.empty_subset _)⟩
  | none =>
    cases hdestination : b.destination? args with
    | some file =>
      obtain ⟨saved, h⟩ := alters_destination hdestination w
      exact ⟨saved, by simp, h⟩
    | none =>
      refine ⟨w.history.saved, fun _ _ => rfl, ?_⟩
      have hleaves : b.leaves args w.history.saved w = { w with cwd := (b.goal? args w).getD w.cwd } := by
        simp [leaves, adds, hsource]
      rw [hleaves]
      exact (alters_idle hsource hdestination w).mono (Set.empty_subset _)

end Builtin

/-! ## Streams -/

namespace World

variable {w w' w'' : World} {own : Set Location}

/-- The directory, the history and all files but those at `own` are as they were, and files have stayed open. -/
structure Keeps (own : Set Location) (w w' : World) : Prop extends Later w w' where
  cwd : w'.cwd = w.cwd
  history : w'.history = w.history
  nodes : ∀ l, l ∉ own → w'.files.node? l = w.files.node? l

theorem Keeps.refl (own : Set Location) (w : World) : Keeps own w w := ⟨.refl w, rfl, rfl, fun _ _ => rfl⟩

theorem Keeps.trans (h : Keeps own w w') (h' : Keeps own w' w'') : Keeps own w w'' where
  toLater := h.toLater.trans h'.toLater
  cwd := h'.cwd.trans h.cwd
  history := h'.history.trans h.history
  nodes l hl := (h'.nodes l hl).trans (h.nodes l hl)

theorem keeps_writeFile {number : Nat} (h : ∀ l, w.OpenAt number l → l ∈ own) (data : Bytes) :
    Keeps own w (w.writeFile number data).2 := by
  rcases writeFile_cases number data w with ⟨fault, he⟩ | ⟨file, file', files, hget, hwrite, he⟩
  · rw [he]
    exact .refl own w
  · have halters : Alters Set.univ w (w.writeFile number data).2 := alters_writeFile data (by simp)
    refine ⟨halters.later, halters.cwd, halters.history, ?_⟩
    intro l hl
    rw [he]
    refine (FileSystem.write_ok hwrite).2.2 l ?_
    intro heq
    exact hl (h l (by simp [OpenAt, hget, heq]))

/-- Writing to a stream touches the file that the stream is, if it is one. -/
theorem keeps_write {handle : Handle} (h : ∀ number l, handle = .opened number → w.OpenAt number l → l ∈ own)
    (data : Bytes) : Keeps own w (w.write handle data).2 := by
  have hstreams : ∀ (output errors : Bytes) (pipes : Pipes), Keeps own w { w with output, errors, pipes } :=
    fun _ _ _ => ⟨⟨List.prefix_rfl, rfl, List.prefix_rfl⟩, rfl, rfl, fun _ _ => rfl⟩
  cases handle with
  | standard stream => cases stream <;> exact hstreams ..
  | pipeEnd e => exact hstreams ..
  | opened number => exact keeps_writeFile (fun l hl => h number l rfl hl) data

end World

open World

/-- In every world that comes of `w`, the streams touch no file but those at `own`, and neither the directory nor the
    history. They may fail. -/
structure Outlet.Apart (outlet : Outlet World) (own : Set Location) (w : World) : Prop where
  write : ∀ stream data w', Later w w' → Keeps own w' (outlet.write stream data w').2
  flush : ∀ stream w', Later w w' → Keeps own w' (outlet.flush stream w').2

theorem Reply.keeps_deliver {outlet : Outlet World} {own : Set Location} {w w' : World} (h : outlet.Apart own w)
    (hlater : Later w w') (name : String) (reply : Reply) : Keeps own w' (reply.deliver name outlet w').2 := by
  cases hsay : reply.say with
  | none =>
    rw [reply.deliver_of_silent hsay]
    exact .refl own w'
  | some said =>
    obtain ⟨stream, text⟩ := said
    have hwritten := h.write stream (Bytes.ofString text) w' hlater
    rcases outlet.says_or_refuses stream text w' with ⟨w₂, hsays⟩ | ⟨fault, w₂, hrefuses⟩
    · rw [reply.deliver_of_says hsay hsays]
      obtain ⟨w₁, hwrite, hflush⟩ := hsays
      rw [hwrite] at hwritten
      have hflushed := h.flush stream w₁ (hlater.trans hwritten.toLater)
      rw [hflush] at hflushed
      exact hwritten.trans hflushed
    · rw [reply.deliver_of_refuses hsay hrefuses]
      cases hrefuses with
      | write hwrite =>
        rw [hwrite] at hwritten
        exact hwritten
      | @flush w₁ hwrite hflush =>
        rw [hwrite] at hwritten
        have hflushed := h.flush stream w₁ (hlater.trans hwritten.toLater)
        rw [hflush] at hflushed
        exact hwritten.trans hflushed

/-- The streams of a stage are apart, but for the files that they are redirected to. -/
theorem Stage.apart_outputs {o : Stage.Outputs} {own : Set Location} {w : World}
    (hopen : ∀ number stream, o.handle stream = .opened number → ∃ l ∈ own, w.OpenAt number l) :
    o.outlet.Apart own w where
  write stream data w' hlater := by
    refine keeps_write ?_ data
    intro number l hhandle hat
    obtain ⟨l', hl', hat'⟩ := hopen number stream hhandle
    obtain rfl : l' = l := Option.some.inj ((hat'.later hlater.opened).symm.trans hat)
    exact hl'
  flush stream w' _ := .refl own w'

/-! ## The frame -/

namespace Builtin

/-- A call has touched nothing that it may not touch, where its streams may touch the files at `own`. -/
structure Framed (b : Builtin) (args : List String) (own : Set Location) (w w' : World) : Prop where
  /-- The directory is left by `cd` alone, for the one that its path leads to. -/
  moved : w'.cwd ≠ w.cwd → b = cd ∧ w.files.enter w.cwd (cdPath args w) = .ok w'.cwd
  arrived : ∀ l, b = cd → w.files.enter w.cwd (cdPath args w) = .ok l → w'.cwd = l
  /-- Entries are added by `history -r` alone, and at the end. -/
  entries : ∃ added, w'.history.entries = w.history.entries ++ added ∧
    (added ≠ [] → b = history ∧ ∃ file rest, args = "-r" :: file :: rest)
  /-- A file is changed only by `history -w` and `history -a`, and only if it is the one that they name. -/
  files : ∀ l, l ∉ own → w.LogsElsewhere l → w'.files.node? l ≠ w.files.node? l → b = history ∧ ∃ file rest,
    (args = "-w" :: file :: rest ∨ args = "-a" :: file :: rest) ∧ w.files.filePlace? w.cwd file = some l
  /-- Every other call leaves all of it. -/
  others : ¬(b = cd ∧ ∃ l, w.files.enter w.cwd (cdPath args w) = .ok l) →
    ¬(b = history ∧ ∃ option ∈ ["-r", "-w", "-a"], ∃ file rest, args = option :: file :: rest) →
    w'.cwd = w.cwd ∧ w'.history = w.history ∧
      ∀ l, l ∉ own → w.LogsElsewhere l → w'.files.node? l = w.files.node? l

variable {w w₁ w₂ : World} {own : Set Location}

theorem of_mem_destinations {b : Builtin} {args : List String} {l : Location} (h : l ∈ b.destinations args w) :
    b = history ∧ ∃ file rest,
      (args = "-w" :: file :: rest ∨ args = "-a" :: file :: rest) ∧ w.files.filePlace? w.cwd file = some l := by
  obtain ⟨file, hfile, hplace⟩ := h
  obtain ⟨hb, ⟨rest, hargs⟩ | ⟨rest, hargs⟩⟩ := destination?_eq_some.mp hfile
  · exact ⟨hb, file, rest, .inl hargs, hplace⟩
  · exact ⟨hb, file, rest, .inr hargs, hplace⟩

/-- Without an option and a file behind it, no history file is used. -/
theorem uses_no_file {b : Builtin} {args : List String}
    (h : ¬(b = history ∧ ∃ option ∈ ["-r", "-w", "-a"], ∃ file rest, args = option :: file :: rest)) :
    b.source? args = none ∧ b.destination? args = none := by
  constructor
  · refine Option.eq_none_iff_forall_ne_some.mpr ?_
    intro file hfile
    obtain ⟨hb, rest, hargs⟩ := source?_eq_some.mp hfile
    exact h ⟨hb, "-r", by simp, file, rest, hargs⟩
  · refine Option.eq_none_iff_forall_ne_some.mpr ?_
    intro file hfile
    obtain ⟨hb, ⟨rest, hargs⟩ | ⟨rest, hargs⟩⟩ := destination?_eq_some.mp hfile
    · exact h ⟨hb, "-w", by simp, file, rest, hargs⟩
    · exact h ⟨hb, "-a", by simp, file, rest, hargs⟩

theorem framed_of_alters {b : Builtin} {args : List String} {saved : Nat}
    (hsaved : b.source? args = none → b.destination? args = none → saved = w.history.saved)
    (h : Alters (b.destinations args w) (b.leaves args saved w) w₁) (hkeeps : Keeps own w₁ w₂) :
    b.Framed args own w w₂ := by
  have hcwd : w₂.cwd = (b.goal? args w).getD w.cwd := hkeeps.cwd.trans h.cwd
  have hhistory : w₂.history = ⟨w.history.entries ++ b.adds args w, saved⟩ := hkeeps.history.trans h.history
  have hnodes : ∀ l, l ∉ own → l ∉ b.destinations args w → w.LogsElsewhere l → w₂.files.node? l = w.files.node? l := by
    intro l hown hl hlog
    exact (hkeeps.nodes l hown).trans (h.nodes l hl hlog)
  refine ⟨?_, ?_, ⟨b.adds args w, by rw [hhistory], ?_⟩, ?_, ?_⟩
  · intro hne
    cases hgoal : b.goal? args w with
    | none => exact absurd (by rw [hcwd, hgoal]; rfl) hne
    | some l =>
      rw [hcwd, hgoal]
      exact goal?_eq_some.mp hgoal
  · intro l hb hl
    rw [hcwd, goal?_eq_some.mpr ⟨hb, hl⟩]
    rfl
  · intro hadds
    cases hsource : b.source? args with
    | none => simp [adds, hsource] at hadds
    | some file =>
      obtain ⟨hb, rest, hargs⟩ := source?_eq_some.mp hsource
      exact ⟨hb, file, rest, hargs⟩
  · intro l hown hlog hne
    by_cases hl : l ∈ b.destinations args w
    · exact of_mem_destinations hl
    · exact absurd (hnodes l hown hl hlog) hne
  · intro hnowhere hnofile
    have hgoal : b.goal? args w = none := by
      refine Option.eq_none_iff_forall_ne_some.mpr ?_
      intro l hl
      exact hnowhere ⟨(goal?_eq_some.mp hl).1, l, (goal?_eq_some.mp hl).2⟩
    obtain ⟨hsource, hdest⟩ := uses_no_file hnofile
    refine ⟨by rw [hcwd, hgoal]; rfl, ?_, fun l hown hlog => hnodes l hown ?_ hlog⟩
    · rw [hhistory, hsaved hsource hdest]
      simp [adds, hsource]
    · intro hl
      obtain ⟨file, hfile, -⟩ := hl
      rw [hdest] at hfile
      cases hfile

/-- A `cd` that goes nowhere has this to say. -/
theorem action_cd_error {args : List String} {fault : Fault}
    (h : w.files.enter w.cwd (cdPath args w) = .error fault) :
    (cd.action args w).1 = .fail "cd" s!"cd: {cdPath args w}: No such file or directory\n" 1 := by
  simp only [cdPath] at h ⊢
  simp only [action, runCd, h]

/-- Whatever a builtin is called with, it touches nothing that it may not touch. That is so when it has yet to say what it
    has to say, for streams elsewhere have no part in it; and it stays so with streams in the same world, whether they
    take the text or not. A `cd` that fails reports it, if that can be said. -/
theorem action_framed (b : Builtin) (args : List String) (w : World) :
    let (reply, w₁) := b.action args w
    b.Framed args ∅ w w₁ ∧
      (∀ outlet own, outlet.Apart own w → b.Framed args own w (reply.deliver b.name outlet w₁).2) ∧
      ∀ fault, b = cd → w.files.enter w.cwd (cdPath args w) = .error fault → w₁.cwd = w.cwd ∧
        ∀ (V : Type) (outlet : Outlet V) (v v' : V),
          outlet.Says .stderr s!"cd: {cdPath args w}: No such file or directory\n" v v' →
            (reply.deliver b.name outlet v).1 = .result (.error (.exited "cd" 1)) := by
  obtain ⟨saved, hsaved, halters⟩ := alters_action b args w
  have hlater : Later w (b.action args w).2 := Changes.later (changes_action (.inr (Set.mem_univ _)) w)
  rcases haction : b.action args w with ⟨reply, w₁⟩
  rw [haction] at halters hlater
  have hframed : b.Framed args ∅ w w₁ := framed_of_alters hsaved halters (.refl ∅ w₁)
  refine ⟨hframed, ?_, ?_⟩
  · intro outlet own hapart
    exact framed_of_alters hsaved halters (reply.keeps_deliver hapart hlater b.name)
  · intro fault hb hfault
    constructor
    · by_cases hmoved : w₁.cwd = w.cwd
      · exact hmoved
      · cases hfault.symm.trans (hframed.moved hmoved).2
    · intro V outlet v v' hsays
      subst hb
      have hreply := action_cd_error hfault
      rw [haction] at hreply
      obtain rfl : reply = _ := hreply
      rw [Reply.deliver_of_says rfl hsays]
      rfl

/-- A system that reads a tilde as a directory that may not be entered, and streams that cannot be told of it. -/
theorem action_framed_unheard :
    let files := [([], .directory 0o755), ([.text "home"], .directory 0o644), ([.text "full"], .full),
      ([.text "f"], .file 0o644 [])]
    let w : World := { host := { (default : Host) with expandTilde := fun _ _ => "/home" }, files := ⟨files⟩, cwd := [],
                       history := ⟨["a"], 0⟩, opened := [⟨[.text "full"], .append, 0⟩] }
    let outlet := Stage.Outputs.outlet ⟨.standard .stdout, .opened 0⟩
    outlet.Apart {[.text "full"]} w ∧ (outlet.write .stderr [0] w).1 = .error (.system .noSpace) ∧
      let (reply, w₁) := cd.action [] w
      let (_, w₂) := reply.deliver cd.name outlet w₁
      w₂.cwd = [] ∧ w₂.history.entries = ["a"] ∧ w₂.files.node? [.text "f"] = some (.file 0o644 []) := by
  intro files w outlet
  have hapart : outlet.Apart {[.text "full"]} w := by
    refine Stage.apart_outputs ?_
    intro number stream hhandle
    cases stream with
    | stdout => cases hhandle
    | stderr =>
      cases hhandle
      exact ⟨[.text "full"], rfl, rfl⟩
  have hnowhere : w.files.enter w.cwd (cdPath [] w) = .error (.system .notPermitted) := by decide +kernel
  have hframed := (action_framed cd [] w).2.1 outlet _ hapart
  obtain ⟨hcwd, hhistory, hnodes⟩ := hframed.others (by simp [hnowhere]) (by simp)
  refine ⟨hapart, by decide +kernel, hcwd, congrArg History.entries hhistory, ?_⟩
  exact hnodes [.text "f"] (by simp) (fun logger hlogger => by cases hlogger)

end Builtin

end CommandShell
