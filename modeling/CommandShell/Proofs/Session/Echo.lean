/-
  CommandShell.Proofs.Session.Echo — lines that write words to a file, from their text to what the file holds.

  An echo line is the word `echo` and quoted words, with a redirection of standard output anywhere among them.
  - `EchoLine.pipelineOf_text`: it is read as the command that it looks like;
  - `carryOut_echo`: carrying it out writes its words to the file, and leaves everything else but the history and
    the log;
  - `echo_lines`: after any number of such lines the file holds what the last truncating line and the lines behind it
    wrote.
-/

import CommandShell.Proofs.Command.RoundTrip
import CommandShell.Proofs.World.Descriptors
import CommandShell.Session

namespace CommandShell

/-! ## The lines -/

/-- A sign right in front of a text, with nothing between them. -/
theorem Reads.behindSign {mark : Mark} {how : OpenMode} {b : List Char} {us : List Token} (hb : Reads b us)
    (hne : b.head? ≠ some '>') : Reads (mark.chars ++ how.sign ++ b) (.redirect mark.stream how :: us) := by
  intro s hs hw
  have hm := Scanner.mode_of_modes hs
  rw [Scanner.run_operator hm (fun _ => hw) (fun _ => hne), Scanner.operator, Scanner.flush_of_nil hw,
    hb (s.emit _) hs hw]
  simp [Scanner.emit, Scanner.emitAll]

/-- A line that writes words to a file. The words are quoted; the target may be spelled in any way. -/
structure EchoLine where
  /-- The words in front of the redirection. -/
  before : List String
  /-- The words behind it. -/
  after : List String
  mark : Mark
  how : OpenMode
  /-- The spaces between the sign and the target. -/
  gap : Nat := 0
  spelling : List Segment
  /-- How many spaces there are between the parts beyond the one that must be. -/
  gaps : List Nat := []
  words_ne : ∀ word ∈ before ++ after, word ≠ ""
  toOutput : mark.stream = .stdout

namespace EchoLine

def words (e : EchoLine) : List String := e.before ++ e.after

def target (e : EchoLine) : String := String.ofList (e.spelling.flatMap Segment.text)

def command (e : EchoLine) : Command := { argv := "echo" :: e.words, stdout := some ⟨e.how, e.target⟩ }

def redirection (e : EchoLine) : List Char :=
  e.mark.chars ++ e.how.sign ++ spaces e.gap ++ e.spelling.flatMap Segment.chars

/-- A quoted word, and the token that it is read as. -/
def quotedPart (word : String) : List Char × List Token := (Text.quoted word.toList, [.word word])

/-- The parts of the line with the tokens that they are read as. -/
def parts (e : EchoLine) : List (List Char × List Token) :=
  ("echo".toList, [.word "echo"]) :: (e.before.map quotedPart ++
    (e.redirection, [.redirect e.mark.stream e.how, .word e.target]) :: e.after.map quotedPart)

def text (e : EchoLine) : String := String.ofList (spread e.gaps (e.parts.map Prod.fst))

/-- What the line writes. -/
def output (e : EchoLine) : Bytes := Bytes.ofString (" ".intercalate e.words ++ "\n")

variable (e : EchoLine)

theorem echo_reads : Reads "echo".toList [.word "echo"] :=
  (Lexeme.word [.bare "echo".toList (by simp [Plain])] (by simp [Segment.text])).reads

theorem redirection_reads (ht : e.target ≠ "") :
    Reads e.redirection [.redirect e.mark.stream e.how, .word e.target] := by
  have hne : e.spelling.flatMap Segment.text ≠ [] := fun h => ht (by simp [target, h])
  have hword : Reads (e.spelling.flatMap Segment.chars) [.word e.target] := (Lexeme.word e.spelling hne).reads
  unfold redirection
  cases e.gap with
  | zero => simpa [spaces] using hword.behindSign (head?_segments_ne e.spelling)
  | succ n => exact (Lexeme.operator e.mark e.how).reads.spaced n hword

theorem parts_read (ht : e.target ≠ "") : ∀ part ∈ e.parts, Reads part.1 part.2 := by
  have hquoted : ∀ word ∈ e.words, Reads (quotedPart word).1 (quotedPart word).2 :=
    fun word hw => quoted_reads (e.words_ne word hw)
  intro part hp
  rcases List.mem_cons.mp hp with rfl | hp
  · exact echo_reads
  · rcases List.mem_append.mp hp with hp | hp
    · obtain ⟨word, hw, rfl⟩ := List.mem_map.mp hp
      exact hquoted word (List.mem_append_left _ hw)
    · rcases List.mem_cons.mp hp with rfl | hp
      · exact e.redirection_reads ht
      · obtain ⟨word, hw, rfl⟩ := List.mem_map.mp hp
        exact hquoted word (List.mem_append_right _ hw)

/-- The parts as pieces of a written command. -/
def layout : Layout where
  pieces := .word "echo" :: (e.before.map .word ++ .redirection e.mark e.how e.target :: e.after.map .word)

theorem filterMap_words (ws : List String) : (ws.map Piece.word).filterMap Piece.word? = ws := by
  simp [List.filterMap_map, Function.comp_def, Piece.word?]

theorem filterMap_redirections (stream : OutStream) (ws : List String) :
    (ws.map Piece.word).filterMap (Piece.redirection? stream) = [] := by
  simp [Piece.redirection?]

theorem layout_of : e.layout.Of e.command where
  words := by
    simp only [layout, List.filterMap_cons, List.filterMap_append, filterMap_words, Piece.word?]
    rfl
  stdout := by
    simp only [layout, List.filterMap_cons, List.filterMap_append, filterMap_redirections, Piece.redirection?,
      e.toOutput, if_true]
    rfl
  stderr := by
    simp only [layout, List.filterMap_cons, List.filterMap_append, filterMap_redirections, Piece.redirection?,
      e.toOutput]
    rfl

theorem tokens_parts : e.parts.flatMap Prod.snd = e.layout.tokens := by
  simp [parts, layout, Layout.tokens, Piece.tokens, quotedPart, List.flatMap_map]

/-- The line is read as its command. -/
theorem pipelineOf_text (ht : e.target ≠ "") : pipelineOf (tokensOf e.text) = [e.command] := by
  have hreads : Reads e.text.toList e.layout.tokens := by
    rw [text, String.toList_ofList, ← e.tokens_parts]
    exact Reads.spread (e.parts_read ht) e.gaps
  rw [hreads.tokensOf, pipelineOf_ended e.layout.inner_tokens, e.layout_of.kept_eq (by simp [command])]

theorem not_allBlank : Text.allBlank e.text = false := by
  obtain ⟨rest, hrest⟩ : ∃ rest, e.text.toList = 'e' :: rest := by
    rw [text, String.toList_ofList, parts]
    rcases e.before.map quotedPart with _ | ⟨part, parts⟩ <;> exact ⟨_, rfl⟩
  have he : Text.isBlank 'e' = false := by decide
  simp [Text.allBlank, hrest, he]

end EchoLine

/-! ## Carrying one out -/

/-- Where nothing runs, there is nothing to wait for. -/
theorem World.settle_idle {w : World} (h : w.runningJobs = []) : w.settle = w := by
  have hended : ∀ number, (w.finishJob number).2 = w := by
    intro number
    unfold finishJob
    split
    · rfl
    · next job hjob =>
      split
      · rfl
      · next hstatus =>
        have hmem : job ∈ w.runningJobs :=
          List.mem_filter.mpr ⟨List.mem_of_getElem? hjob, by simp [Job.isRunning, hstatus]⟩
        rw [h] at hmem
        cases hmem
  have hsettled : ∀ n, settleBelow n w = w := by
    intro n
    induction n with
    | zero => rfl
    | succ n ih => rw [settleBelow, hended, ih]
  exact hsettled _

/-- One stage that has done its work when it was started is all that its pipeline does. -/
theorem Session.runCommands_done {style : String → String} {c : Command} {w w' : World}
    (h : ({ command := c } : Stage).start w =
      (.ok (), { command := c, progress := .builtin (.result (.ok ())) }, w')) (hidle : w'.runningJobs = []) :
    runCommands style [c] w = (.goOn, w') := by
  have hstart : StageLike.start ({ command := c } : Stage) w = _ := h
  have hwait : StageLike.wait ({ command := c, progress := .builtin (.result (.ok ())) } : Stage) w' =
      (.ok (), ({ command := c, progress := .finished } : Stage), w') := rfl
  simp only [runCommands, Pipeline.run, Pipeline.join, Pipeline.joinFrom, Pipeline.startFrom, Pipeline.waitFrom,
    List.map_cons, List.map_nil, hstart, hwait, Pipeline.closeEnds, if_true, List.isEmpty_nil, List.foldl_cons,
    List.foldl_nil]
  have hdrop : ({ command := c, progress := .finished } : Stage).drop w' = w' := rfl
  rw [hdrop, World.settle_idle hidle]

namespace EchoLine

variable (e : EchoLine)

/-- Starting the command opens the file and writes the words to it. It takes a descriptor for the file and another one
    for the thread that writes, and gives both back. -/
theorem start_command {w w₁ w₂ : World} {number : Nat}
    (hopen : ((w.note (.starting e.command.argv)).note (.redirecting e.target e.how)).openFile e.target e.how =
      (.ok number, w₁)) (hd : 2 ≤ w₁.spare) (hthread : w₁.noThread = none)
    (hwrite : w₁.writeFile number e.output = (.ok (), w₂)) (hspare : w₂.spare = w.spare) :
    ({ command := e.command } : Stage).start w =
      (.ok (), { command := e.command, progress := .builtin (.result (.ok ())) }, w₂) := by
  have haction : Builtin.actionOf? ({ command := e.command } : Stage).name = some Builtin.runEcho := by
    have hname : Builtin.ofName? "echo" = some .echo := by decide
    show (Builtin.ofName? "echo").map Builtin.action = _
    rw [hname]
    rfl
  have hredirected : ({ command := e.command } : Stage).redirected (w.note (.starting e.command.argv)) =
      (.ok ⟨.opened number, .standard .stderr⟩, w₁.spend 1) := by
    have hout : (w.note (.starting e.command.argv)).openRedirection ({ command := e.command } : Stage).name
        e.command.stdout = (.ok (some (.opened number)), w₁.spend 1) := by
      simp only [World.openRedirection, World.keepOpen, command] at hopen ⊢
      simp only [hopen]
      rfl
    simp only [Stage.redirected, hout]
    rfl
  have hduplicate : ({ command := e.command } : Stage).duplicate [.opened number, .standard .stderr] (w₁.spend 1) =
      (.ok (), w₁.spend 2) := by
    have henough : Handle.costs [.opened number, .standard .stderr] ≤ (w₁.spend 1).spare := Nat.le_sub_of_add_le hd
    rw [Stage.duplicate_eq, if_pos henough]
    rfl
  have hprepared : ({ command := e.command } : Stage).prepare (w.note (.starting e.command.argv)) =
      (.ok ⟨.opened number, .standard .stderr⟩, w₁.spend 2) := by
    have hthread' : (w₁.spend 2).noThread = none := hthread
    simp only [Stage.prepare, hredirected, hduplicate, hthread']
  have hsaid : Builtin.runEcho e.command.arguments (w₁.spend 2) =
      (.out (" ".intercalate e.words ++ "\n"), w₁.spend 2) := rfl
  have hdelivered : (Reply.out (" ".intercalate e.words ++ "\n")).deliver ({ command := e.command } : Stage).name
      (Stage.Outputs.outlet ⟨.opened number, .standard .stderr⟩) (w₁.spend 2) = (.result (.ok ()), w₂.spend 2) := by
    have hput : (Stage.Outputs.outlet ⟨.opened number, .standard .stderr⟩).write .stdout
        (Bytes.ofString (" ".intercalate e.words ++ "\n")) (w₁.spend 2) = (.ok (), w₂.spend 2) := by
      show (w₁.spend 2).writeFile number e.output = _
      rw [World.writeFile_spend, hwrite]
    simp only [Reply.deliver, Reply.out, hput]
    rfl
  have hne : e.command.isEmpty = false := rfl
  have hclosed : w.closeSince (w₂.spend 2) = w₂ := World.closeSince_of_spare hspare
  simp only [Stage.start, Stage.startWith, hne, Stage.dispatch, haction, Stage.startAction, hprepared, hsaid, hdelivered,
    Bool.false_eq_true, if_false, hclosed]

/-- What a file holds after the line, if it held `old` before. -/
def upon (old : Bytes) : Bytes := e.how.leaves old ++ e.output

/-- Carrying out the line writes its words to the file. -/
theorem carryOut_echo (style : String → String) {w : World} {l : Location}
    (hp : w.files.filePlace? w.cwd e.target = some l) (ho : w.Openable l) (hspare : 2 ≤ w.spare)
    (hthread : w.noThread = none) (hidle : w.runningJobs = []) (hlog : w.LogsElsewhere l) :
    ∃ w', Session.carryOut style e.text w = (.goOn, w') ∧
      World.Alters {l} { w with history := w.history.push e.text } w' ∧
      w'.files.node? l = some (.file (w.files.modeAt l) (e.upon (w.files.contentAt l))) := by
  have ht : e.target ≠ "" := by
    intro he
    have hrefused : FileSystem.checkPath (.text "") = .error (.system .noEntry) := rfl
    rw [he, FileSystem.filePlace?_eq_some, hrefused] at hp
    cases hp.1
  -- up to the opening of the file only the log is written
  let w₀ := ((w.pushHistory e.text).note (.parsed 1)).note (.starting e.command.argv)
  let w₁ := w₀.note (.redirecting e.target e.how)
  have hnoted : World.Alters ∅ { w with history := w.history.push e.text } w₁ :=
    (((World.alters_pushHistory e.text w).trans (World.alters_note ..)).trans (World.alters_note ..)).trans
      (World.alters_note ..)
  have hnode : w₁.files.node? l = w.files.node? l := hnoted.nodes l id hlog
  have hmay : w₁.files.MayHoldFile l := by
    unfold FileSystem.MayHoldFile FileSystem.HoldsFile
    rw [hnode]
    exact FileSystem.mayHoldFile_of_filePlace? hp
  have hp₁ : w₁.files.filePlace? w₁.cwd e.target = some l := (hnoted.mono (Set.empty_subset _)).filePlace? hp hmay
  have ho₁ : w₁.Openable l := (ho.withHistory _).untouched hnoted
  have hopen := World.openFile_place hp₁ ho₁ e.how
  have hend := World.writesAtEnd_opened hmay e.how
  obtain ⟨hok, hend'⟩ := World.writeFile_atEnd hend e.output
  have halters := (hnoted.mono (Set.empty_subset _)).trans
    ((World.alters_opened l e.how w₁).trans (World.alters_writeFile_at hend.openAt e.output))
  have hspare₁ : 2 ≤ w₁.spare := hnoted.spare ▸ hspare
  have hthread₁ : w₁.noThread = none := (congrArg World.noThread hnoted.rest :).trans hthread
  have hkept : (w.pushHistory e.text |>.note (.parsed 1)).spare = w.spare :=
    ((World.alters_pushHistory e.text w).trans (World.alters_note ..)).spare
  have hstart := e.start_command hopen hspare₁ hthread₁ (Prod.ext hok rfl) (halters.spare.trans hkept.symm)
  refine ⟨_, ?_, halters, ?_⟩
  · rw [Session.carryOut, if_neg (by simp [e.not_allBlank])]
    simp only [e.pipelineOf_text ht]
    exact Session.runCommands_done hstart (halters.runningJobs.trans hidle)
  · have hmode : w₁.files.modeAt l = w.files.modeAt l := by simp only [FileSystem.modeAt, hnode]
    have hcontent : w₁.files.contentAt l = w.files.contentAt l := by simp only [FileSystem.contentAt, hnode]
    rw [hend'.1, hmode, hcontent]
    rfl

end EchoLine

/-! ## Any number of them -/

namespace Session

/-- Carry out lines one after the other. -/
def carryOutAll (style : String → String) : List String → World → List Next × World
  | [], w => ([], w)
  | line :: rest, w =>
    let (next, w) := carryOut style line w
    let (nexts, w) := carryOutAll style rest w
    (next :: nexts, w)

theorem carryOutAll_echo (style : String → String) {l : Location} (lines : List EchoLine) : ∀ {w : World},
    (∀ e ∈ lines, w.files.filePlace? w.cwd e.target = some l) → w.Openable l → 2 ≤ w.spare → w.noThread = none →
    w.runningJobs = [] → w.LogsElsewhere l →
    ∃ w', carryOutAll style (lines.map EchoLine.text) w = (lines.map fun _ => .goOn, w') ∧
      World.Alters {l} { w with history := ⟨w.history.entries ++ lines.map EchoLine.text, w.history.saved⟩ } w' ∧
      w'.files.contentAt l = lines.foldl (fun old e => e.upon old) (w.files.contentAt l) ∧
      (lines ≠ [] ∨ w.files.HoldsFile l → w'.files.HoldsFile l) := by
  induction lines with
  | nil =>
    intro w _ _ _ _ _ _
    exact ⟨w, rfl, by simpa using World.Alters.refl {l} w, rfl, fun h => h.resolve_left (by simp)⟩
  | cons e rest ih =>
    intro w hp ho hspare hthread hidle hlog
    obtain ⟨w₁, hcarried, halters, hnode⟩ := e.carryOut_echo style (hp e (by simp)) ho hspare hthread hidle hlog
    have hholds : w₁.files.HoldsFile l := ⟨_, _, hnode⟩
    obtain ⟨w₂, hrest, halters₂, hcontent, hholds₂⟩ := ih
      (fun e' he' => halters.filePlace? (hp e' (by simp [he'])) (.inr hholds))
      ((ho.withHistory _).altered halters hnode (FileSystem.mayWrite_modeAt ho.writable))
      (halters.spare ▸ hspare) ((congrArg World.noThread halters.rest :).trans hthread)
      (halters.runningJobs.trans hidle) (hlog.later halters.logger halters.opened)
    refine ⟨w₂, ?_, ?_, ?_, fun _ => hholds₂ (.inr hholds)⟩
    · simp only [List.map_cons, carryOutAll, hcarried, hrest]
    · have hhistory : w₁.history = w.history.push e.text := halters.history
      rw [hhistory] at halters₂
      refine (halters.withHistory ⟨w.history.entries ++ (e :: rest).map EchoLine.text, w.history.saved⟩).trans ?_
      simpa [History.push] using halters₂
    · rw [hcontent, List.foldl_cons]
      simp only [FileSystem.contentAt, hnode]

/-- Lines that append leave what was there, with all that they write behind it. -/
theorem foldl_upon_append {lines : List EchoLine} (h : ∀ e ∈ lines, e.how = .append) : ∀ old,
    lines.foldl (fun old e => e.upon old) old = old ++ lines.flatMap EchoLine.output := by
  induction lines with
  | nil => intro old; simp
  | cons e rest ih =>
    intro old
    have he : e.how = .append := h e (by simp)
    rw [List.foldl_cons, ih fun e' he' => h e' (by simp [he'])]
    simp [EchoLine.upon, OpenMode.leaves, he]

/-- Of what was there before a line that truncates nothing is left. -/
theorem foldl_upon_truncate {earlier later : List EchoLine} {last : EchoLine} (hl : last.how = .truncate)
    (h : ∀ e ∈ later, e.how = .append) (old : Bytes) :
    (earlier ++ last :: later).foldl (fun old e => e.upon old) old = (last :: later).flatMap EchoLine.output := by
  rw [List.foldl_append, List.foldl_cons, foldl_upon_append h]
  simp [EchoLine.upon, OpenMode.leaves, hl]

/-- Lines that write words to one file, carried out where no program runs and there are a thread and two descriptors
    for a line: each goes on, all are remembered, and the file holds what was written to it. Nothing else changes but
    the log. -/
theorem echo_lines (style : String → String) (lines : List EchoLine) {w : World} {l : Location}
    (hp : ∀ e ∈ lines, w.files.filePlace? w.cwd e.target = some l) (ho : w.Openable l) (hspare : 2 ≤ w.spare)
    (hthread : w.noThread = none) (hidle : w.runningJobs = []) (hlog : w.LogsElsewhere l) :
    let r := carryOutAll style (lines.map EchoLine.text) w
    r.1 = lines.map (fun _ => .goOn) ∧ r.2.output = w.output ∧ (w.LogsSilently → r.2.errors = w.errors) ∧
      r.2.history = ⟨w.history.entries ++ lines.map EchoLine.text, w.history.saved⟩ ∧
      (lines ≠ [] → r.2.files.HoldsFile l) ∧
      (∀ earlier last later, lines = earlier ++ last :: later → last.how = .truncate →
        (∀ e ∈ later, e.how = .append) → r.2.files.contentAt l = (last :: later).flatMap EchoLine.output) ∧
      ((∀ e ∈ lines, e.how = .append) →
        r.2.files.contentAt l = w.files.contentAt l ++ lines.flatMap EchoLine.output) ∧
      ∀ l', l' ≠ l → w.LogsElsewhere l' → r.2.files.node? l' = w.files.node? l' := by
  intro r
  obtain ⟨w', hcarried, halters, hcontent, hholds⟩ := carryOutAll_echo style lines hp ho hspare hthread hidle hlog
  have hr : r = (lines.map fun _ => .goOn, w') := hcarried
  rw [hr]
  refine ⟨rfl, halters.output, halters.errors, halters.history, fun hne => hholds (.inl hne), ?_, ?_, halters.nodes⟩
  · intro earlier last later hcut hl hlater
    rw [hcontent, hcut]
    exact foldl_upon_truncate hl hlater _
  · intro happend
    rw [hcontent]
    exact foldl_upon_append happend _

/-- A word with a quote, a sign and spaces, twice truncating and then appending. -/
theorem echo_lines_signs :
    let files : List (Location × Node) := [([], .directory 0o755), (["f"], .file 0o600 [0])]
    let w : World := { files := ⟨files⟩, cwd := [], spare := 2, host := default }
    let e : OpenMode → EchoLine := fun how =>
      { before := ["it's > "], after := ["\n"], mark := .one, how, spelling := [.single ['f'] (by simp)]
        words_ne := by simp, toOutput := rfl }
    (carryOutAll id ([e .truncate, e .truncate, e .append].map EchoLine.text) w).2.files.contentAt ["f"] =
        [e .truncate, e .append].flatMap EchoLine.output ∧
      [e .truncate, e .append].flatMap EchoLine.output = Bytes.ofString "it's >  \n\nit's >  \n\n" := by
  intro files w e
  obtain ⟨-, -, -, -, -, h, -⟩ := echo_lines id [e .truncate, e .truncate, e .append] (w := w) (l := ["f"])
    (by decide +kernel) ⟨by decide, by decide +kernel, by simp [w, World.runningJobs]⟩ (by decide) rfl rfl
    (by simp [World.LogsElsewhere, w])
  exact ⟨h [e .truncate] (e .truncate) [e .append] rfl rfl (by simp [e]), by decide +kernel⟩

end Session

end CommandShell
