/-
  CommandShell.Proofs.Builtin.Leaving — `exit` asks to leave, whatever its arguments.

  The first argument gives the code, and only that one counts. If it is no number that a code can be, `exit` complains
  and asks to leave with 2; it fails to ask only if the complaint cannot be written.
  - `Asks`: what the arguments ask for, case by case, and `asks_total` that there is no other case;
  - `leave_of_start`: a request to leave goes through the pipeline as it was made;
  - `exit_leaves`: so a line with nothing but this command leaves with that code.
-/

import CommandShell.Proofs.Builtin.Replies
import CommandShell.Proofs.Session.WellFormed
import CommandShell.Proofs.Stage.Dispatch
import CommandShell.Proofs.Text.Numerals
import CommandShell.Proofs.Token.Kept

namespace CommandShell

/-! ## From the stage to the line -/

namespace Session

/-- A line with a word that has a character to see is not blank. -/
theorem not_allBlank_of_mem_pipelineOf {line word : String} {c : Command} (h : c ∈ pipelineOf (tokensOf line))
    (hword : word ∈ c.argv) {letter : Char} (hletter : letter ∈ word.toList) (hseen : Text.isBlank letter = false) :
    Text.allBlank line = false := by
  have hmem := Scanner.mem_line_of_mem_word ((drawnFrom_of_mem_pipelineOf h).words word hword) hletter
  rw [Text.allBlank, List.all_eq_false]
  exact ⟨letter, hmem, by simp [hseen]⟩

/-- If the only stage of a pipeline asks to leave, that is what the pipeline does. -/
theorem leave_of_start {style : String → String} {c : Command} {code : Int} {w w' : World}
    (h : ({ command := c } : Stage).start w =
      (.ok (), { command := c, progress := .builtin (.result (.error (.exitRequested code))) }, w')) :
    (runCommands style [c] w).1 = .leave code := by
  have hstart : StageLike.start ({ command := c } : Stage) w = _ := h
  have hwait : StageLike.wait
      ({ command := c, progress := .builtin (.result (.error (.exitRequested code))) } : Stage) w' =
      (.error (.exitRequested code), ({ command := c, progress := .finished } : Stage), w') := rfl
  simp only [runCommands, Pipeline.run, Pipeline.join, Pipeline.joinFrom, Pipeline.startFrom, Pipeline.waitFrom,
    List.map_cons, List.map_nil, hstart, hwait]

end Session

namespace Builtin

/-! ## What the arguments ask for -/

/-- The code that these arguments of `exit` ask for, and the complaint about them, if there is one. -/
inductive Asks : List String → Int → Option String → Prop
  | nothing : Asks [] 0 none
  | code {arg : String} {v : Int} (h : Text.IsExitCode arg v) (rest : List String) : Asks (arg :: rest) v none
  | noCode {arg : String} (h : ∀ v, ¬Text.IsExitCode arg v) (rest : List String) :
      Asks (arg :: rest) 2 (some s!"exit: {arg}: numeric argument required\n")

/-- What `exit` replies: the complaint, and the request. -/
def request (code : Int) (complaint : Option String) : Reply :=
  { say := complaint.map fun text => (.stderr, text), outcome := .result (.error (.exitRequested code)) }

theorem asks_total (args : List String) : ∃ code complaint, Asks args code complaint := by
  cases args with
  | nil => exact ⟨0, none, .nothing⟩
  | cons arg rest =>
    by_cases h : ∃ v, Text.IsExitCode arg v
    · obtain ⟨v, hv⟩ := h
      exact ⟨v, none, .code hv rest⟩
    · exact ⟨2, _, .noCode (not_exists.mp h) rest⟩

theorem action_of_asks {args : List String} {code : Int} {complaint : Option String} (h : Asks args code complaint)
    (w : World) : exit.action args w = (request code complaint, w) := by
  show runExit args w = _
  cases h with
  | nothing => rfl
  | code h rest =>
    simp only [runExit, List.head?_cons, Text.exitCode?_eq_some.mpr h]
    rfl
  | noCode h rest =>
    simp only [runExit, List.head?_cons, Text.exitCode?_eq_none.mpr h]
    rfl

/-- How calls of `exit` with these arguments end, on whatever streams. -/
structure Leaves (args : List String) (code : Int) (complaint : Option String) (w : World) : Prop where
  world : (exit.action args w).2 = w
  silent : complaint = none → ∀ {V : Type} (outlet : Outlet V) (v : V),
    (exit.action args w).1.deliver exit.name outlet v = (.result (.error (.exitRequested code)), v)
  complains : ∀ text, complaint = some text → ∀ {V : Type} (outlet : Outlet V) (v : V),
    (∃ v', outlet.Says .stderr text v v' ∧
      (exit.action args w).1.deliver exit.name outlet v = (.result (.error (.exitRequested code)), v')) ∨
    ∃ fault v', outlet.Refuses .stderr text v fault v' ∧
      (exit.action args w).1.deliver exit.name outlet v = (.result (.error (.io "exit" fault)), v')
  further : args ≠ [] → ∀ more, exit.action (args ++ more) w = exit.action args w
  /-- A line that is this command and no more, where there is a thread for it. -/
  line : w.noThread = none → ∀ style line, pipelineOf (tokensOf line) = [{ argv := "exit" :: args }] →
    (Session.carryOut style line w).1 = .leave code

variable {args : List String} {code : Int} {complaint : Option String}

theorem start_exit (h : Asks args code complaint) {w : World} (hthread : w.noThread = none) : ∃ w',
    ({ command := { argv := "exit" :: args } } : Stage).start w = (.ok (),
      { command := { argv := "exit" :: args }, progress := .builtin (.result (.error (.exitRequested code))) }, w') := by
  obtain ⟨w₁, -, hstart⟩ := Stage.start_of_builtin (Stage.Calls.fresh "exit" args hthread)
    (by decide : ofName? "exit" = some exit)
  have haction : exit.action ({ argv := "exit" :: args } : Command).arguments w₁ = (request code complaint, w₁) :=
    action_of_asks h w₁
  simp only [haction] at hstart
  cases complaint with
  | none =>
    rw [Reply.deliver_of_silent rfl] at hstart
    exact ⟨_, hstart⟩
  | some text =>
    obtain ⟨w₂, hsays, -⟩ := Stage.Outputs.records_standard.says .stderr text w₁
    rw [Reply.deliver_of_says rfl hsays] at hstart
    exact ⟨_, hstart⟩

/-- Whatever its arguments, `exit` asks to leave, with the code that they ask for; nothing but a complaint that cannot
    be written keeps it from that. -/
theorem exit_leaves (args : List String) (w : World) : (∃ code complaint, Asks args code complaint) ∧
    ∀ code complaint, Asks args code complaint → Leaves args code complaint w := by
  refine ⟨asks_total args, ?_⟩
  intro code complaint h
  have haction := action_of_asks h w
  constructor
  case world => rw [haction]
  case silent =>
    intro hnone V outlet v
    rw [haction, Reply.deliver_of_silent (by rw [hnone]; rfl)]
    rfl
  case complains =>
    intro text hsome V outlet v
    have hsay : (request code complaint).say = some (.stderr, text) := by
      rw [hsome]
      rfl
    rw [haction]
    rcases outlet.says_or_refuses .stderr text v with ⟨v', hsays⟩ | ⟨fault, v', hrefuses⟩
    · exact .inl ⟨v', hsays, Reply.deliver_of_says hsay hsays _⟩
    · exact .inr ⟨fault, v', hrefuses, Reply.deliver_of_refuses hsay hrefuses _⟩
  case further =>
    intro hne more
    obtain ⟨arg, rest, rfl⟩ := List.exists_cons_of_ne_nil hne
    rfl
  case line =>
    intro hthread style line hline
    have hmem : ({ argv := "exit" :: args } : Command) ∈ pipelineOf (tokensOf line) := by simp [hline]
    have hseen : Text.allBlank line = false := Session.not_allBlank_of_mem_pipelineOf hmem List.mem_cons_self
      (by decide : 'e' ∈ "exit".toList) (by decide)
    have hnoted := (World.alters_pushHistory line w).trans (World.alters_note (.parsed 1) _)
    have hthread' : ((w.pushHistory line).note (.parsed 1)).noThread = none :=
      (congrArg World.noThread hnoted.rest :).trans hthread
    obtain ⟨w', hstart⟩ := start_exit h hthread'
    rw [Session.carryOut, if_neg (by simp [hseen])]
    simp only [hline]
    exact Session.leave_of_start hstart

/-- The least code behind zeros, with an argument more, and the least number that is too large for one. -/
theorem exit_leaves_at_limits :
    let w : World := { files := ⟨[]⟩, cwd := [], host := default }
    Asks ["-0002147483648", "x"] (-2147483648) none ∧
    Asks ["+2147483648"] 2 (some "exit: +2147483648: numeric argument required\n") ∧
    (Session.carryOut id "'exit' -0002147483648 x" w).1 = .leave (-2147483648) ∧
    (Session.carryOut id "ex\\it  +2147483648" w).1 = .leave 2 ∧
    ∀ {V : Type} (outlet : Outlet V) (v : V), (exit.action ["-0002147483648", "x"] w).1.deliver exit.name outlet v =
      (.result (.error (.exitRequested (-2147483648))), v) := by
  intro w
  have hcode : Asks ["-0002147483648", "x"] (-2147483648) none :=
    .code (Text.exitCode?_eq_some.mp (by decide +kernel)) _
  have hlarge : Asks ["+2147483648"] 2 (some "exit: +2147483648: numeric argument required\n") :=
    .noCode (Text.exitCode?_eq_none.mp (by decide +kernel)) []
  have hleaves := (exit_leaves ["-0002147483648", "x"] w).2 _ _ hcode
  have hcomplains := (exit_leaves ["+2147483648"] w).2 _ _ hlarge
  refine ⟨hcode, hlarge, hleaves.line rfl _ _ ?_, hcomplains.line rfl _ _ ?_, hleaves.silent rfl⟩
  · decide +kernel
  · decide +kernel

end Builtin

end CommandShell
