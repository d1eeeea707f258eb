/-
  CommandShell.Proofs.Shell.Evaluation — which lines a session carries out, and how it ends.

  A session is given lines, interruptions, an end or a failure. `Evaluates` says what it makes of them without saying
  how it reads: it carries out some lines in order, does nothing but wait between them, and comes to an end.
  - `obeys_stop`, `obeys_pass`: what one delivery does to a session;
  - `obeys_readLines`, `obeys_readInput`: so all lines are carried out that are not blank, up to the one that leaves the
    shell or to the first end or failure, and none behind it;
  - `storeHistory_place`, `storeHistory_nothing`: in the end the history is stored;
  - `session_evaluates`: both for whole sessions.
-/

import CommandShell.Proofs.FileSystem.Kinds
import CommandShell.Proofs.Shell.StoredHistory

namespace CommandShell

namespace LineSource

/-- A delivery that need not end a session. -/
def Delivery.passes : Delivery → Bool
  | line _ => true
  | interrupted => true
  | _ => false

/-- The line of a delivery, if it is not blank. -/
def Delivery.entered? : Delivery → Option String
  | line text => if Text.trim text = "" then none else some text
  | _ => none

end LineSource

namespace Shell

open World LineSource

variable (s : Shell)

/-- How a session comes to its end. -/
inductive Ending where
  /-- A line leaves the shell. -/
  | left (line : String) (code : Int)
  | ended
  | failed (fault : Fault)

namespace Ending

def delivery : Ending → Delivery
  | left line _ => .line line
  | ended => .ended
  | failed fault => .failed fault

def code : Ending → Int
  | left _ code => code
  | ended => 0
  | failed _ => 1

/-- The line that is carried out last. -/
def line? : Ending → Option String
  | left line _ => some line
  | _ => none

end Ending

/-- How the shell shows errors. -/
def errorStyle : String → String := s.theme.error.paint s.coloured

/-- The shell does nothing but wait for a line: it shows prompts, takes down interruptions and reads input. -/
inductive Waits : World → World → Prop
  | rest (w : World) : Waits w w
  | prompt {w w' : World} : Waits w w' → Waits w (s.prompt w')
  | interrupted {w w' : World} : Waits w w' → Waits w (w'.note .interrupted)
  | input {w w' : World} (input : Bytes) : Waits w w' → Waits w { w' with input }

/-- The shell carries out these lines, each of which goes on, and then comes to this end. -/
inductive Evaluates : List String → Ending → World → World → Prop
  | line {line : String} {rest : List String} {ending : Ending} {w v v' w' : World} (hwaits : s.Waits w v)
      (hinked : Text.trim line ≠ "") (hline : Session.carryOut s.errorStyle line v = (.goOn, v'))
      (hrest : Evaluates rest ending v' w') : Evaluates (line :: rest) ending w w'
  | left {line : String} {code : Int} {w v w' : World} (hwaits : s.Waits w v) (hinked : Text.trim line ≠ "")
      (hline : Session.carryOut s.errorStyle line v = (.leave code, w')) : Evaluates [] (.left line code) w w'
  | ended {w v : World} (hwaits : s.Waits w v) : Evaluates [] .ended w (endInput v).2
  | failed {fault : Fault} {w v : World} (hwaits : s.Waits w v) :
      Evaluates [] (.failed fault) w (s.failInput fault v).2

/-- Given these deliveries, the shell carries out the lines that are not blank, up to the one at which it ends. -/
def Obeys (supplied : List Delivery) (w : World) (result : Int × World) : Prop :=
  ∃ before ending after, supplied = before ++ Ending.delivery ending :: after ∧ (∀ d ∈ before, d.passes = true) ∧
    s.Evaluates (before.filterMap Delivery.entered?) ending w result.2 ∧ result.1 = ending.code

variable {s} {w v w' : World}

/-! ## One delivery -/

theorem Waits.trans (h : s.Waits w v) (h' : s.Waits v w') : s.Waits w w' := by
  induction h' with
  | rest => exact h
  | prompt _ ih => exact ih.prompt
  | interrupted _ ih => exact ih.interrupted
  | input input _ ih => exact ih.input input

theorem Evaluates.after_wait {lines : List String} {ending : Ending} (hw : s.Waits w v)
    (h : s.Evaluates lines ending v w') : s.Evaluates lines ending w w' := by
  cases h with
  | line hwaits hinked hline hrest => exact .line (hw.trans hwaits) hinked hline hrest
  | left hwaits hinked hline => exact .left (hw.trans hwaits) hinked hline
  | ended hwaits => exact .ended (hw.trans hwaits)
  | failed hwaits => exact .failed (hw.trans hwaits)

/-- What the shell does with a delivery. -/
theorem take_cases (delivery : Delivery) (v : World) :
    (∃ ending : Ending, ending.delivery = delivery ∧ (s.take delivery v).1 = some ending.code ∧
      s.Evaluates [] ending v (s.take delivery v).2) ∨
    (s.take delivery v).1 = none ∧ delivery.passes = true ∧
      ∀ {lines ending w'}, s.Evaluates lines ending (s.take delivery v).2 w' →
        s.Evaluates (delivery.entered?.toList ++ lines) ending v w' := by
  cases delivery with
  | ended => exact .inl ⟨.ended, rfl, rfl, .ended (.rest v)⟩
  | failed fault => exact .inl ⟨.failed fault, rfl, rfl, .failed (.rest v)⟩
  | interrupted => exact .inr ⟨rfl, rfl, fun h => h.after_wait (.interrupted (.rest v))⟩
  | line text =>
    by_cases hblank : Text.trim text = ""
    · have htake : s.take (.line text) v = (none, v) := by
        simp only [take, Text.trim_eq_empty_iff.mp hblank, if_true]
      rw [htake]
      refine .inr ⟨rfl, rfl, fun h => ?_⟩
      simpa [Delivery.entered?, hblank] using h
    · have hinked : Text.allBlank text = false := by
        simpa using fun h => hblank (Text.trim_eq_empty_iff.mpr h)
      rcases hline : Session.carryOut s.errorStyle text v with ⟨_ | code, w₁⟩
      · have htake : s.take (.line text) v = (none, w₁) := by
          rw [errorStyle] at hline
          simp [take, hinked, hline]
        rw [htake]
        refine .inr ⟨rfl, rfl, fun h => ?_⟩
        simpa [Delivery.entered?, hblank] using Evaluates.line (.rest v) hblank hline h
      · have htake : s.take (.line text) v = (some code, w₁) := by
          rw [errorStyle] at hline
          simp [take, hinked, hline]
        rw [htake]
        exact .inl ⟨.left text code, rfl, rfl, .left (.rest v) hblank hline⟩

/-- A delivery at which the shell ends. -/
theorem obeys_stop {delivery : Delivery} {rest : List Delivery} {code : Int} (hw : s.Waits w v)
    (h : s.take delivery v = (some code, w')) : s.Obeys (delivery :: rest) w (code, w') := by
  rcases s.take_cases delivery v with ⟨ending, rfl, hcode, heval⟩ | ⟨hnone, -⟩
  · rw [h] at hcode heval
    cases hcode
    exact ⟨[], ending, rest, rfl, by simp, heval.after_wait hw, rfl⟩
  · rw [h] at hnone
    cases hnone

/-- A delivery that goes by. -/
theorem obeys_pass {delivery : Delivery} {rest : List Delivery} {result : Int × World} (hw : s.Waits w v)
    (h : s.take delivery v = (none, w')) (hrest : s.Obeys rest w' result) : s.Obeys (delivery :: rest) w result := by
  obtain ⟨before, ending, after, rfl, hpasses, heval, hcode⟩ := hrest
  rcases s.take_cases delivery v with ⟨ending, -, hsome, -⟩ | ⟨-, hpass, hthen⟩
  · rw [h] at hsome
    cases hsome
  · rw [h] at hthen
    refine ⟨delivery :: before, ending, after, rfl, ?_, ?_, hcode⟩
    · intro d hd
      rcases List.mem_cons.mp hd with rfl | hd
      · exact hpass
      · exact hpasses d hd
    · have hcons : (delivery :: before).filterMap Delivery.entered? =
          delivery.entered?.toList ++ before.filterMap Delivery.entered? := by
        cases hd : delivery.entered? <;> simp [hd]
      rw [hcons]
      exact (hthen heval).after_wait hw

/-! ## All deliveries -/

theorem obeys_ended (w : World) : s.Obeys [.ended] w (endInput (s.prompt w)) := by
  have htake : s.take .ended (s.prompt w) = (some 0, (endInput (s.prompt w)).2) := rfl
  exact obeys_stop (.prompt (.rest w)) htake

/-- Behind the last of the deliveries there is an end. -/
theorem obeys_readLines (deliveries : List Delivery) : ∀ w : World,
    s.Obeys (deliveries ++ [.ended]) w (s.readLines deliveries w) := by
  induction deliveries with
  | nil => exact obeys_ended
  | cons delivery rest ih =>
    intro w
    unfold readLines
    split
    · next htake => exact obeys_stop (.prompt (.rest w)) htake
    · next w₁ htake => exact obeys_pass (.prompt (.rest w)) htake (ih w₁)

/-- What standard input delivers to the shell, which shares it with the programs that it runs. -/
def inputDeliveries (s : Shell) : (limit : Nat) → (ahead : Bytes) → World → List Delivery
  | 0, _, _ => [.ended]
  | limit + 1, ahead, w =>
    let (line, ahead, input) := takeLine ahead w.input
    deliverNext line ::
      match s.take (deliverNext line) (s.prompt { w with input }) with
      | (some _, _) => []
      | (none, w) => s.inputDeliveries limit ahead w

theorem obeys_readInput (limit : Nat) : ∀ (ahead : Bytes) (w : World),
    s.Obeys (s.inputDeliveries limit ahead w) w (s.readInput limit ahead w) := by
  induction limit with
  | zero => exact fun _ => obeys_ended
  | succ limit ih =>
    intro ahead w
    have hwaits : s.Waits w (s.prompt { w with input := (takeLine ahead w.input).2.2 }) := .prompt (.input _ (.rest w))
    unfold inputDeliveries readInput
    rcases htake : s.take (deliverNext (takeLine ahead w.input).1)
      (s.prompt { w with input := (takeLine ahead w.input).2.2 }) with ⟨code | code, w₁⟩
    · simp only [htake]
      exact obeys_pass hwaits htake (ih _ w₁)
    · simp only [htake]
      exact obeys_stop hwaits htake

/-- What a way of reading lines is given when it begins in this world. -/
inductive Supply (s : Shell) : (World → Int × World) → World → List Delivery → Prop
  | delivered (deliveries : List Delivery) (w : World) : Supply s (s.readLines deliveries) w (deliveries ++ [.ended])
  | input (limit : Nat) (ahead : Bytes) (w : World) :
      Supply s (s.readInput limit ahead) w (s.inputDeliveries limit ahead w)

theorem Supply.obeys {lines : World → Int × World} {supplied : List Delivery} (h : s.Supply lines w supplied) :
    s.Obeys supplied w (lines w) := by
  cases h with
  | delivered deliveries => exact obeys_readLines deliveries w
  | input limit ahead => exact obeys_readInput limit ahead w

/-! ## What is remembered -/

theorem Waits.changes (h : s.Waits w w') : Changes ∅ w w' := by
  induction h with
  | rest => exact .refl w
  | prompt _ ih => exact ih.trans (s.changes_prompt _)
  | interrupted _ ih => exact ih.trans (changes_note ..)
  | @input w' input _ ih => exact ih.trans (Change.stream input w'.output w'.errors w').changes

theorem Waits.entries (h : s.Waits w w') : w'.history.entries = w.history.entries := h.changes.entries id

theorem changes_failInput (s : Shell) (fault : Fault) (w : World) : Changes ∅ w (s.failInput fault w).2 :=
  (changes_note ..).trans (changes_printError ..)

/-- A line is remembered before anything that it adds. -/
theorem entries_carryOut (style : String → String) {line : String} (h : Text.trim line ≠ "") (w : World) :
    ∃ added, (Session.carryOut style line w).2.history.entries = w.history.entries ++ line :: added := by
  have hinked : ¬ Text.allBlank line = true := fun hblank => h (Text.trim_eq_empty_iff.mpr hblank)
  rw [Session.carryOut, if_neg hinked]
  obtain ⟨added, ha⟩ := (Session.changes_runCommands style (pipelineOf (tokensOf line))
    ((w.pushHistory line).note (.parsed (pipelineOf (tokensOf line)).length))).later.entries
  refine ⟨added, ha.symm.trans ?_⟩
  rw [(alters_note ..).entries, (alters_pushHistory line w).entries, List.append_cons]
  rfl

/-- What is remembered is each line that was carried out, and behind it what it added. -/
theorem Evaluates.entries {lines : List String} {ending : Ending} (h : s.Evaluates lines ending w w') :
    ∃ blocks : List (String × List String), blocks.map Prod.fst = lines ++ ending.line?.toList ∧
      w'.history.entries = w.history.entries ++ blocks.flatMap fun block => block.1 :: block.2 := by
  induction h with
  | @line line rest ending w v v' w' hwaits hinked hline _ ih =>
    obtain ⟨blocks, hblocks, he⟩ := ih
    obtain ⟨added, ha⟩ := entries_carryOut s.errorStyle hinked v
    simp only [hline, hwaits.entries] at ha
    exact ⟨(line, added) :: blocks, by simp [hblocks], by simp [he, ha]⟩
  | @left line code w v w' hwaits hinked hline =>
    obtain ⟨added, ha⟩ := entries_carryOut s.errorStyle hinked v
    rw [hline, hwaits.entries] at ha
    exact ⟨[(line, added)], rfl, by simpa using ha⟩
  | ended hwaits => exact ⟨[], rfl, by simpa using (hwaits.changes.trans (changes_endInput _)).entries id⟩
  | failed hwaits => exact ⟨[], rfl, by simpa using (hwaits.changes.trans (s.changes_failInput _ _)).entries id⟩

/-! ## What is stored -/

variable {l : Location}

/-- Whatever goes to the log, there are files where there were. -/
theorem sameKinds_of_alters (h : Alters ∅ w w') : FileSystem.SameKinds w.files w'.files := fun l => h.kinds l id

theorem exists_lockHistory (w : World) (path : Native) :
    w.lockHistory.files.exists_ w.lockHistory.cwd path = w.files.exists_ w.cwd path := by
  have hlock := alters_lockHistory w
  rw [hlock.cwd]
  exact FileSystem.exists_emptied (sameKinds_of_alters hlock) w.cwd path

/-- Where there is neither an entry nor a file, none is made. -/
theorem storeHistory_nothing (hempty : w.history.entries = []) (hno : w.files.exists_ w.cwd s.historyFile = false) :
    s.storeHistory w = w.lockHistory := by
  simp [storeHistory, exists_lockHistory, hno, (alters_lockHistory w).history, hempty]

/-- Otherwise a file that can be written to gets the whole history. -/
theorem storeHistory_place (hp : w.files.filePlace? w.cwd s.historyFile = some l) (ho : w.Openable l)
    (h : w.history.entries ≠ [] ∨ w.files.exists_ w.cwd s.historyFile = true) :
    (s.storeHistory w).files.node? l = some (.file (w.files.modeAt l) (History.stored w.history.entries)) := by
  have hlock := alters_lockHistory w
  have hnoted := hlock.trans (alters_note (.historySaving w.lockHistory.history.entries.length s.historyFile) _)
  have hkinds := sameKinds_of_alters hnoted
  have hplace := (hnoted.mono (Set.empty_subset {l})).filePlace? hp
    (hkinds.mayHoldFile (FileSystem.mayHoldFile_of_filePlace? hp))
  obtain ⟨hok, -, hfile⟩ := writeTo_place hplace (ho.untouched hnoted) w.history
  rw [hkinds.modeAt] at hfile
  have hstores : (w.lockHistory.history.entries.isEmpty &&
      !w.lockHistory.files.exists_ w.lockHistory.cwd s.historyFile) = false := by
    rw [exists_lockHistory, hlock.history]
    rcases h with h | h <;> simp [h]
  simp only [storeHistory, hstores, Bool.false_eq_true, if_false, writeHistory, hnoted.history]
  split
  · next heq =>
    rw [heq] at hfile
    exact hfile
  · next heq =>
    rw [heq] at hok
    cases hok

/-! ## Whole sessions -/

theorem files_goodbye (s : Shell) (w : World) : (s.goodbye w).files = w.files := by
  unfold goodbye
  split <;> rfl

theorem changes_goodbye (s : Shell) (w : World) : Changes ∅ w (s.goodbye w) := by
  unfold goodbye
  split
  · exact .refl w
  · exact changes_print ..

/-- A session carries out the lines that it is given and that are not blank, each once and in order, up to the first
    that leaves the shell, the first end or the first failure, which decides its code. It remembers these lines and what
    they add, and nothing else. Then the history is stored: a file that can be written to holds its entries, one a line,
    and where there are no entries and no file, none is made. Behind that nothing but the log is written. -/
theorem session_evaluates (s : Shell) (w : World) {lines : World → Int × World} {supplied : List Delivery}
    (hsupply : s.Supply lines (s.restoreHistory (w.note .shellStarting)) supplied) :
    let begun := s.restoreHistory (w.note .shellStarting)
    let closing := (lines begun).2
    let final := s.session lines w
    (∃ before ending after, supplied = before ++ Ending.delivery ending :: after ∧ (∀ d ∈ before, d.passes = true) ∧
      s.Evaluates (before.filterMap Delivery.entered?) ending begun closing ∧ final.1 = ending.code ∧
      ∃ blocks : List (String × List String),
        blocks.map Prod.fst = before.filterMap Delivery.entered? ++ ending.line?.toList ∧
        final.2.history.entries = begun.history.entries ++ blocks.flatMap fun block => block.1 :: block.2) ∧
    final.2.history.entries = closing.history.entries ∧
    (closing.history.entries = [] → closing.files.exists_ closing.cwd s.historyFile = false →
      closing.files.SameKinds final.2.files) ∧
    (∀ l, closing.files.filePlace? closing.cwd s.historyFile = some l → closing.Openable l →
      closing.history.entries ≠ [] ∨ closing.files.exists_ closing.cwd s.historyFile = true →
      (s.storeHistory closing).files.node? l =
        some (.file (closing.files.modeAt l) (closing.history.entries.flatMap History.storedLine))) ∧
    ∀ l, closing.LogsElsewhere l → final.2.files.node? l = (s.storeHistory closing).files.node? l := by
  intro begun closing final
  have hfinal : Changes ∅ closing final.2 :=
    ((s.changes_storeHistory _).trans (s.changes_goodbye _)).trans (changes_note ..)
  obtain ⟨before, ending, after, hsupplied, hpasses, heval, hcode⟩ := hsupply.obeys
  obtain ⟨blocks, hblocks, hentries⟩ := heval.entries
  refine ⟨⟨before, ending, after, hsupplied, hpasses, heval, hcode, blocks, hblocks, ?_⟩, hfinal.entries id, ?_,
    fun l hplace hopenable hstored => storeHistory_place hplace hopenable hstored, fun l => s.session_node lines⟩
  · exact (hfinal.entries id).trans hentries
  · intro hempty hno
    have hlocked : closing.files.SameKinds (s.storeHistory closing).files := by
      rw [storeHistory_nothing hempty hno]
      exact sameKinds_of_alters (alters_lockHistory closing)
    have hended : (s.goodbye (s.storeHistory closing)).files.SameKinds final.2.files :=
      sameKinds_of_alters (alters_note ..)
    rw [files_goodbye] at hended
    exact hlocked.trans hended

/-- A blank line and an interruption go by, and what comes behind the line that leaves the shell is not carried out. -/
theorem session_evaluates_up_to_exit :
    let s : Shell := { theme := .plain, coloured := false, historyFile := "h", prompts := true }
    let w : World := { host := default, files := ⟨[([], .directory 0o755)]⟩, cwd := [] }
    let deliveries := [.line " ", .interrupted, .line "echo a", .line "exit 3 ", .line "echo b", .failed .notUtf8]
    let final := s.session (s.readLines deliveries) w
    final.1 = 3 ∧ final.2.files.node? [.text "h"] = some (.file 0o644 (Bytes.ofString "echo a\nexit 3 \n")) := by
  intro s w deliveries final
  let closing := (s.readLines deliveries (s.restoreHistory (w.note .shellStarting))).2
  obtain ⟨-, -, -, hstored, hkept⟩ := s.session_evaluates w (.delivered deliveries _)
  have hopenable : closing.Openable [.text "h"] := ⟨by decide +kernel, by decide +kernel, by decide +kernel⟩
  have hlogger : closing.logger = none := by decide +kernel
  have hlog : closing.LogsElsewhere [.text "h"] := by simp [LogsElsewhere, hlogger]
  have hfile := (hkept _ hlog).trans (hstored _ (by decide +kernel) hopenable (by decide +kernel))
  exact ⟨by decide +kernel, hfile.trans (by decide +kernel)⟩

end Shell

end CommandShell
