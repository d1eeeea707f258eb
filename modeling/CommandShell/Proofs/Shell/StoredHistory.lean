/-
  CommandShell.Proofs.Shell.StoredHistory — what a session leaves of the history that was stored.

  A session loads the stored history, adds the lines that are entered, and in the end writes all of it over the file.
  Loading stops at the first line that is no text, which the shell only warns of; so what stands behind such a line is
  not loaded, and not written again.
  - `restoreHistory_loads`: at the beginning of a session the loadable entries are in the history;
  - `Reading.changes`: reading and carrying out lines only adds to it;
  - `storeHistory_file`: storing leaves the file alone, or writes the whole history over it;
  - `session_stored`: what the file holds after a session, and when nothing is lost.
-/

import CommandShell.Proofs.History.Reloading
import CommandShell.Proofs.Session.Conservation
import CommandShell.Shell

namespace CommandShell

namespace History

/-! ## What a file holds -/

/-- The entries of the lines of a file that can be read. -/
def legible (data : Bytes) : List String := entriesOf (texts data.textLines)

/-- The entries of the lines in front of the first that cannot be read. -/
def loadable (data : Bytes) : List String := entriesOf (readable data.textLines)

/-- The entries of readable lines that stand behind a line that cannot be read. -/
def cutOff (data : Bytes) : List String := (legible data).drop (loadable data).length

theorem loadable_append_cutOff (data : Bytes) : loadable data ++ cutOff data = legible data := by
  obtain ⟨more, hm⟩ := readable_isPrefix data.textLines
  have hl : legible data = loadable data ++ entriesOf more := by
    rw [legible, ← hm, entriesOf_append, loadable]
  rw [cutOff, hl, List.drop_left]

/-- Loadable entries come back as they are. -/
theorem survivors_loadable (data : Bytes) : survivors (loadable data) = loadable data := by
  refine survivors_of_lasting fun entry he => lasting_of_mem_entriesOf (fun text ht => ?_) he
  obtain ⟨line, hl, hok⟩ := List.mem_filterMap.mp ((readable_isPrefix data.textLines).mem ht)
  cases line with
  | error fault => cases hok
  | ok text' =>
    cases hok
    exact newline_notMem_textLines hl

theorem legible_stored (entries : List String) : legible (stored entries) = survivors entries := by
  rw [legible, textLines_stored, texts_map_ok, entriesOf_unreturned, survivors]

/-- What can be read of a file over which a history was written that begins with what was loaded from it. -/
theorem legible_rewritten (data : Bytes) (added : List String) :
    legible (stored (loadable data ++ added)) = loadable data ++ survivors added := by
  rw [legible_stored, survivors_append, survivors_loadable]

/-- Where every line can be read, nothing is cut off. -/
theorem cutOff_eq_nil {data : Bytes} (h : ∀ line ∈ data.lines, line.toString? ≠ none) : cutOff data = [] := by
  have hreadable : ∀ lines : List (Except Fault String), (∀ fault, .error fault ∉ lines) →
      readable lines = texts lines := by
    intro lines hl
    induction lines with
    | nil => rfl
    | cons line rest ih =>
      cases line with
      | error fault => exact absurd (List.mem_cons_self ..) (hl fault)
      | ok text =>
        have hrest := ih fun fault hm => hl fault (List.mem_cons_of_mem _ hm)
        simp [readable, hrest, texts, Except.toOption]
  have hok : ∀ fault, .error fault ∉ data.textLines := by
    intro fault hm
    obtain ⟨line, hl, he⟩ := List.mem_map.mp hm
    split at he
    · cases he
    · next hnone => exact h line hl hnone
  rw [cutOff, legible, loadable, hreadable _ hok, List.drop_length]

end History

namespace FileSystem

theorem exists_place {fs : FileSystem} {cwd l : Location} {path : Native} {bits : Permissions} {data : Bytes}
    (hp : fs.filePlace? cwd path = some l) (hn : fs.node? l = some (.file bits data)) : fs.exists_ cwd path = true := by
  have hc := (filePlace?_eq_some.mp hp).1
  rcases filePlace?_cases hp with ⟨bits', data', -, hf⟩ | ⟨-, -, -, hn', -⟩
  · have hfind : fs.follow .find cwd path (Path.steps path) = .ok (.leaf l (.file bits' data')) := walk_find maxLinks hf
    simp [exists_, lookup, hc, hfind, present, bind, Except.bind, Except.isOk, Except.toBool]
  · cases hn.symm.trans hn'

end FileSystem

namespace World

variable {w w' w'' : World} {l : Location} {bits : Permissions} {data : Bytes}

/-! ## A file that is left alone -/

/-- The world has gone on, but no descriptor is gone, and what stands at `l` is what stood there. -/
structure Spares (l : Location) (w w' : World) : Prop where
  later : Later w w'
  spare : w'.spare = w.spare
  node : w'.files.node? l = w.files.node? l

theorem Spares.refl (l : Location) (w : World) : Spares l w w := ⟨.refl w, rfl, rfl⟩

theorem Spares.trans (h : Spares l w w') (h' : Spares l w' w'') : Spares l w w'' :=
  ⟨h.later.trans h'.later, h'.spare.trans h.spare, h'.node.trans h.node⟩

theorem Changes.spares (h : Changes {.remembers} w w') (hnode : w'.files.node? l = w.files.node? l) : Spares l w w' :=
  ⟨h.later, h.spare (by simp), hnode⟩

theorem LogsElsewhere.spared (hlog : w.LogsElsewhere l) (h : Later w w') : w'.LogsElsewhere l :=
  hlog.later h.logger h.opened

theorem Alters.spares (h : Alters ∅ w w') (hlog : w.LogsElsewhere l) : Spares l w w' :=
  h.changes.spares (h.nodes l id hlog)

theorem spares_print (text : String) (w : World) : Spares l w (w.print text) := (changes_print text w).spares rfl

/-- Reading a history writes to no file but the log. -/
theorem spares_readHistory (path : Native) (hlog : w.LogsElsewhere l) : Spares l w (w.readHistory path).2 := by
  refine (changes_readHistory (by simp) path w).spares ?_
  unfold readHistory
  split
  · exact (alters_note ..).nodes l id hlog
  · rfl

/-- Writing a history to a path leaves a regular file elsewhere alone, and puts the history in place of the file that
    the path leads to. -/
theorem writeTo_file (h : History) (path : Native) (hlog : w.LogsElsewhere l)
    (hn : w.files.node? l = some (.file bits data)) :
    (h.writeTo path w).2.files.node? l = some (.file bits data) ∨
      0 < w.spare ∧ (h.writeTo path w).2.files.node? l = some (.file bits (History.stored h.entries)) := by
  rcases openFile_cases path .truncate w with ⟨fault, he⟩ | ⟨l', he, hopen⟩
  · have he : Storage.openFile path .truncate w = _ := he
    simp only [History.writeTo, he]
    exact .inl hn
  · have he : Storage.openFile path .truncate w = _ := he
    have hd : 0 < w.spare := spare_pos_of_not_exhausted (FileSystem.not_full_of_openForWriting hopen)
    simp only [History.writeTo, he]
    have hat : OpenAt w.opened.length l'
        { w with files := w.files.afterOpening l' .truncate, opened := w.opened ++ [⟨l', .truncate, 0⟩] } := by
      simp [OpenAt]
    by_cases hl : l = l'
    · subst hl
      have hend := writesAtEnd_opened (.inr ⟨bits, data, hn⟩) .truncate
      obtain ⟨-, hend'⟩ := writeEach_atEnd h.entries hend
      refine .inr ⟨hd, hend'.1.trans ?_⟩
      simp [FileSystem.modeAt, hn, OpenMode.leaves]
    · have halters := (alters_opened l' .truncate w).trans (alters_writeEach h.entries hat)
      exact .inl ((halters.nodes l hl hlog).trans hn)

end World

namespace Shell

open World History

variable (s : Shell) {effects : Set Effect} {w : World} {l : Location} {bits : Permissions} {data : Bytes}

theorem spares_warnOfHistory (use : HistoryUse) (fault : Fault) (hlog : w.LogsElsewhere l) :
    Spares l w (s.warnOfHistory use fault w) :=
  ((changes_note ..).trans (changes_printError ..)).spares ((alters_note ..).nodes l id hlog)

/-! ## The beginning -/

theorem spares_restoreHistory (hlog : w.LogsElsewhere l) : Spares l w (s.restoreHistory w) := by
  unfold restoreHistory
  split
  · exact (alters_note ..).spares hlog
  · have hlock := (alters_lockHistory w).spares hlog
    have hread := hlock.trans (spares_readHistory s.historyFile (hlog.spared hlock.later))
    split
    · next heq =>
      rw [heq] at hread
      exact hread.trans ((alters_lockHistory _).spares (hlog.spared hread.later))
    · next heq =>
      rw [heq] at hread
      exact hread.trans (s.spares_warnOfHistory .reading _ (hlog.spared hread.later))

/-- A new history gets the loadable entries of its file, whether or not all of the file can be read. -/
theorem restoreHistory_loads (hfresh : w.history = {}) (hd : 0 < w.spare)
    (hp : w.files.filePlace? w.cwd s.historyFile = some l) (hn : w.files.node? l = some (.file bits data))
    (hr : bits.mayRead = true) (hlog : w.LogsElsewhere l) : (s.restoreHistory w).history.entries = loadable data := by
  have hlock := alters_lockHistory w
  have hn₁ : w.lockHistory.files.node? l = some (.file bits data) := (hlock.nodes l id hlog).trans hn
  have hp₁ := (hlock.mono (Set.empty_subset {l})).filePlace? hp (.inr ⟨bits, data, hn₁⟩)
  have hread := readFrom_place hp₁ (hlock.spare ▸ hd) hn₁ hr w.lockHistory.history
  rw [hlock.history, hfresh, load_eq] at hread
  unfold restoreHistory readHistory
  rw [if_neg (by simp [FileSystem.exists_place hp hn]), hlock.history, hfresh, hread]
  cases fault? data.textLines with
  | none =>
    show (World.lockHistory _).history.entries = _
    rw [(alters_lockHistory _).history, (alters_note ..).history]
    rfl
  | some fault =>
    show (World.note _ _).history.entries = _
    rw [(alters_note ..).history]
    rfl

/-! ## The lines -/

theorem changes_prompt (w : World) : Changes effects w (s.prompt w) := by
  unfold prompt
  split
  · exact changes_print ..
  · exact .refl w

theorem changes_take (delivery : LineSource.Delivery) (w : World) :
    Changes {.remembers, .plumbs} w (s.take delivery w).2 := by
  unfold take
  split
  · exact (changes_note ..).trans (changes_print ..)
  · exact (changes_note ..).trans (changes_printError ..)
  · exact changes_note ..
  · next text =>
    split
    · exact .refl w
    · have h := Session.changes_carryOut (s.theme.error.paint s.coloured) text w
      split <;> next heq => rw [heq] at h; exact h

theorem changes_endInput (w : World) : Changes effects w (endInput w).2 := (changes_note ..).trans (changes_print ..)

theorem changes_readLines (deliveries : List LineSource.Delivery) : ∀ w,
    Changes {.remembers, .plumbs} w (s.readLines deliveries w).2 := by
  induction deliveries with
  | nil => intro w; exact (s.changes_prompt w).trans (changes_endInput _)
  | cons delivery rest ih =>
    intro w
    have h := (s.changes_prompt w).trans (s.changes_take delivery _)
    unfold readLines
    split
    · next heq => rw [heq] at h; exact h
    · next heq => rw [heq] at h; exact h.trans (ih _)

theorem changes_readInput (limit : Nat) : ∀ ahead w,
    Changes {.remembers, .plumbs} w (s.readInput limit ahead w).2 := by
  induction limit with
  | zero => intro ahead w; exact (s.changes_prompt w).trans (changes_endInput _)
  | succ limit ih =>
    intro ahead w
    unfold readInput
    dsimp only
    have htaken : Changes {.remembers, .plumbs} w { w with input := (LineSource.takeLine ahead w.input).2.2 } :=
      (Change.stream _ w.output w.errors w).changes
    have h := (htaken.trans (s.changes_prompt _)).trans
      (s.changes_take (LineSource.deliverNext (LineSource.takeLine ahead w.input).1) _)
    split
    · next heq => rw [heq] at h; exact h
    · next heq => rw [heq] at h; exact h.trans (ih _ _)

/-- A way of reading lines and carrying them out: as they are delivered, or from standard input. -/
inductive Reading : (World → Int × World) → Prop
  | delivered (deliveries : List LineSource.Delivery) : Reading (s.readLines deliveries)
  | input (limit : Nat) (ahead : Bytes) : Reading (s.readInput limit ahead)

theorem Reading.changes {s : Shell} {lines : World → Int × World} (h : s.Reading lines) (w : World) :
    Changes {.remembers, .plumbs} w (lines w).2 := by
  cases h with
  | delivered deliveries => exact s.changes_readLines deliveries w
  | input limit ahead => exact s.changes_readInput limit ahead w

/-! ## The end -/

theorem changes_storeHistory (w : World) : Changes effects w (s.storeHistory w) := by
  unfold storeHistory
  dsimp only
  have hlock : Changes effects w w.lockHistory := changes_lockHistory w
  split
  · exact hlock
  · have h := (hlock.trans (changes_note (.historySaving w.lockHistory.history.entries.length s.historyFile) _)).trans
      (changes_writeHistory s.historyFile _)
    split
    · next heq => rw [heq] at h; exact h
    · next heq => rw [heq] at h; exact h.trans ((changes_note ..).trans (changes_printError ..))

/-- Storing leaves a file as it is, or writes the whole history over it. -/
theorem storeHistory_file (hlog : w.LogsElsewhere l) (hn : w.files.node? l = some (.file bits data)) :
    (s.storeHistory w).files.node? l = some (.file bits data) ∨
      0 < w.spare ∧
        (s.storeHistory w).files.node? l = some (.file bits (stored w.history.entries)) := by
  have hlock := alters_lockHistory w
  unfold storeHistory
  dsimp only
  split
  · exact .inl ((hlock.nodes l id hlog).trans hn)
  · have hnoted := hlock.trans (alters_note (.historySaving w.lockHistory.history.entries.length s.historyFile) _)
    have hlog₁ := hlog.altered hnoted
    have hwritten := writeTo_file w.history s.historyFile hlog₁ ((hnoted.nodes l id hlog).trans hn)
    rw [hnoted.spare] at hwritten
    have hsame := hnoted.history
    simp only [writeHistory, hsame]
    split
    · next heq =>
      rw [heq] at hwritten
      exact hwritten
    · next fault w₁ heq =>
      have hchanges : Changes ∅ _ (writeHistory s.historyFile
          (w.lockHistory.note (.historySaving w.lockHistory.history.entries.length s.historyFile))).2 :=
        changes_writeHistory ..
      simp only [writeHistory, hsame] at hchanges
      rw [heq] at hwritten hchanges
      rw [(s.spares_warnOfHistory .saving fault (hlog₁.spared hchanges.later)).node]
      exact hwritten

theorem spares_goodbye (w : World) : Spares l w (s.goodbye w) := by
  unfold goodbye
  split
  · exact .refl l w
  · exact spares_print ..

/-- Behind the storing of the history nothing but the log is written. -/
theorem session_node (lines : World → Int × World)
    (hlog : (lines (s.restoreHistory (w.note .shellStarting))).2.LogsElsewhere l) :
    (s.session lines w).2.files.node? l =
      (s.storeHistory (lines (s.restoreHistory (w.note .shellStarting))).2).files.node? l := by
  have hstored : Changes ∅ _ (s.storeHistory (lines (s.restoreHistory (w.note .shellStarting))).2) :=
    s.changes_storeHistory _
  have hlog₁ := hlog.spared hstored.later
  have hgoodbye := s.spares_goodbye (s.storeHistory (lines (s.restoreHistory (w.note .shellStarting))).2) (l := l)
  exact ((alters_note ..).nodes l id (hlog₁.spared hgoodbye.later)).trans hgoodbye.node

/-- After a session whose lines leave it alone, the file of the history is as it was, or holds what was loaded from it
    and then what was added. What could be read of it can still be read, unless entries were cut off and not entered
    again: so nothing is lost from a file all lines of which are texts. -/
theorem session_stored {lines : World → Int × World} (hlines : s.Reading lines) (hfresh : w.history = {})
    (hp : w.files.filePlace? w.cwd s.historyFile = some l) (hn : w.files.node? l = some (.file bits data))
    (hr : bits.mayRead = true) (hlog : w.LogsElsewhere l)
    (huntouched : (lines (s.restoreHistory (w.note .shellStarting))).2.files.node? l =
      (s.restoreHistory (w.note .shellStarting)).files.node? l) :
    ∃ added data', (s.session lines w).2.files.node? l = some (.file bits data') ∧
      (data' = data ∨ data' = stored (loadable data ++ added) ∧
        (lines (s.restoreHistory (w.note .shellStarting))).2.history.entries = loadable data ++ added) ∧
      (legible data <+: legible data' ↔ data' = data ∨ cutOff data <+: survivors added) ∧
      ((∀ line ∈ data.lines, line.toString? ≠ none) → legible data <+: legible data') := by
  have hnoted := alters_note .shellStarting w
  have hlog₀ := hlog.altered hnoted
  have hn₀ : (w.note .shellStarting).files.node? l = some (.file bits data) := (hnoted.nodes l id hlog).trans hn
  have hrestored := s.spares_restoreHistory hlog₀
  have hchanges := hlines.changes (s.restoreHistory (w.note .shellStarting))
  have hread := hchanges.later
  have hlater := hrestored.later.trans hread
  have hlog₂ := hlog₀.spared hlater
  have hn₂ := (huntouched.trans hrestored.node).trans hn₀
  rw [s.session_node lines hlog₂]
  rcases s.storeHistory_file hlog₂ hn₂ with hsame | ⟨hd, hover⟩
  · exact ⟨[], data, hsame, .inl rfl, ⟨fun _ => .inl rfl, fun _ => List.prefix_rfl⟩, fun _ => List.prefix_rfl⟩
  · rw [hchanges.spare (by simp), hrestored.spare] at hd
    have hp₀ := (hnoted.mono (Set.empty_subset {l})).filePlace? hp (.inr ⟨bits, data, hn₀⟩)
    have hloaded := s.restoreHistory_loads (hnoted.history.trans hfresh) hd hp₀ hn₀ hr hlog₀
    obtain ⟨added, hadded⟩ := hread.entries
    rw [hloaded] at hadded
    rw [← hadded] at hover
    -- both sides begin with what was loaded
    have hkept : legible data <+: legible (stored (loadable data ++ added)) ↔ cutOff data <+: survivors added := by
      rw [legible_rewritten, ← loadable_append_cutOff]
      exact List.prefix_append_right_inj _
    refine ⟨added, _, hover, .inr ⟨rfl, hadded.symm⟩, ⟨fun h => .inr (hkept.mp h), fun h => ?_⟩, fun hall => ?_⟩
    · rcases h with he | h
      · exact ⟨[], by rw [List.append_nil, he]⟩
      · exact hkept.mpr h
    · exact hkept.mpr (by rw [cutOff_eq_nil hall]; exact List.nil_prefix)

/-- A line is added behind a line that came without its newline. -/
theorem session_stored_one_more :
    let s : Shell := { theme := .plain, coloured := false, historyFile := "h", prompts := false }
    let files := [([], .directory 0o755), ([.text "h"], .file 0o600 (Bytes.ofString " a "))]
    let w : World := { host := default, files := ⟨files⟩, cwd := [] }
    ∃ data', (s.session (s.readLines [.line "echo", .ended]) w).2.files.node? [.text "h"] = some (.file 0o600 data') ∧
      legible (Bytes.ofString " a ") <+: legible data' := by
  intro s files w
  have hn : w.files.node? [.text "h"] = some (.file 0o600 (Bytes.ofString " a ")) := by decide +kernel
  obtain ⟨-, data', hfile, -, -, hkept⟩ := s.session_stored (.delivered [.line "echo", .ended]) rfl (by decide +kernel)
    hn (by decide) (by simp [World.LogsElsewhere, w]) (by decide +kernel)
  exact ⟨data', hfile, hkept (by decide +kernel)⟩

/-- What stands behind a line that is no text is gone after a session in which nothing is entered. -/
theorem session_loses_cutOff :
    let s : Shell := { theme := .plain, coloured := false, historyFile := "h", prompts := false }
    let data : Bytes := Bytes.ofString "a\n" ++ 255 :: Bytes.ofString "\nb\n"
    let files := [([], .directory 0o755), ([.text "h"], .file 0o600 data)]
    let w : World := { host := default, files := ⟨files⟩, cwd := [] }
    legible data = ["a", "b"] ∧
      (s.session (s.readLines [.ended]) w).2.files.node? [.text "h"] = some (.file 0o600 (Bytes.ofString "a\n")) ∧
      legible (Bytes.ofString "a\n") = ["a"] := by
  decide +kernel

end Shell

end CommandShell
