/-
  CommandShell.Proofs.Stage.Dispatch — what a name stands for, told and carried out.

  What a name stands for is worked out in two places: `Builtin.describe` tells it, and `Stage.start` acts on it.
  - `start_of_builtin`, `start_of_found`, `start_of_missing`: what starting a stage without redirections does, in the
    three cases of a name. A program is asked for from any way of starting programs (`AsksFor`), so that what the stage
    asks for is told apart from what comes of it;
  - `describe_eq`: each name gets its report on a line of its own, the same as if it were the only name;
  - `type_tells`: so a report of each kind is made just if starting the name does what the report says.

  A path is told as it is shown. A search path that is no text can lead to paths that are none, and of these two may be
  shown alike; all other paths are what is shown of them.
-/

import CommandShell.Proofs.Search.Agreement
import CommandShell.Proofs.World.Descriptors

namespace CommandShell

open World

/-- An output takes all that is written to it. -/
structure Outlet.Works {W : Type} (outlet : Outlet W) (stream : OutStream) : Prop where
  write : ∀ data w, ∃ w', outlet.write stream data w = (.ok (), w')
  flush : ∀ w, ∃ w', outlet.flush stream w = (.ok (), w')

/-! ## Starting a stage without redirections -/

namespace Stage

/-- A stage without redirections that calls this name, with streams that can be used. -/
structure Calls (s : Stage) (name : String) (w : World) : Prop where
  head : s.command.argv.head? = some name
  stdout : s.command.stdout = none
  stderr : s.command.stderr = none
  descriptors : Handle.costs [s.stdin, s.stdout, s.stderr] ≤ w.spare
  thread : w.noThread = none
  takes : ∀ w', Noted w (w.closeSince w') → ∀ data, ∃ w'', w'.write s.stdout data = (.ok (), w'')

/-- Starting the stage carries out this builtin, on the stage's own streams. -/
def CarriesOut (s : Stage) (b : Builtin) (w : World) : Prop :=
  ∃ w₁, Noted w (w.closeSince w₁) ∧
    let (reply, w₂) := b.action s.command.arguments w₁
    let (outcome, w₃) := reply.deliver s.name (Outputs.outlet ⟨s.stdout, s.stderr⟩) w₂
    s.start w = (.ok (), { s with progress := .builtin outcome }, w.closeSince w₃)

/-- Starting the stage asks for the program at this path to be started, with the stage's words and streams, and
    nothing else: whatever comes of that is what comes of the start. -/
def AsksFor (s : Stage) (path : Native) (w : World) : Prop :=
  ∃ w₁, Noted w (w.closeSince w₁) ∧ ∀ spawn : Spawner, s.startWith Builtin.actionOf? spawn w =
    let (answer, s', w₂) := s.launched (spawn path s.command.argv s.stdin s.stdout s.stderr w₁)
    (answer, s', w.closeSince w₂)

/-- Starting the stage says on its output that there is no such command, and leaves nothing to run. -/
def SaysMissing (s : Stage) (w : World) : Prop :=
  ∃ w₁ w₂, Noted w (w.closeSince w₁) ∧
    w₁.write s.stdout (Bytes.ofString s!"{s.name}: command not found\n") = (.ok (), w₂) ∧
    s.start w = (.ok (), { s with progress := .skipped }, w.closeSince w₂)

/-- What was said of the name that the stage calls is what starting it does. -/
structure BearsOut (s : Stage) (report : String) (w : World) : Prop where
  builtin : report = s!"{s.name} is a shell builtin" ↔ ∃ b, s.CarriesOut b w
  sameName : report = s!"{s.name} is a shell builtin" → ∃ b, b.name = s.name ∧ s.CarriesOut b w
  -- The phrase for builtins is the one text in this place that is no path.
  program : ∀ text : String, (report = s!"{s.name} is {text}" ∧ text ≠ "a shell builtin") ↔
    ∃ path, path.shown = text ∧ s.AsksFor path w
  single : ∀ path path', s.AsksFor path w → s.AsksFor path' w → path' = path
  exact : (∀ b, w.env.get? "PATH" ≠ some (.raw b)) → ∀ text : String,
    (report = s!"{s.name} is {text}" ∧ text ≠ "a shell builtin") ↔ s.AsksFor text w
  missing : report = s!"{s.name}: not found" ↔ s.SaysMissing w

variable {s : Stage} {name : String} {path : Native} {w w' : World}

/-- A stage that was not wired to anything can be used in every world that has a thread for it. -/
theorem Calls.fresh (name : String) (args : List String) (hthread : w.noThread = none) :
    Calls { command := { argv := name :: args } } name w where
  head := rfl
  stdout := rfl
  stderr := rfl
  descriptors := Nat.zero_le _
  thread := hthread
  takes _ _ _ := ⟨_, rfl⟩

namespace Calls

theorem name_eq (h : s.Calls name w) : s.name = name := by
  simp [Stage.name, Command.name, Command.program?, h.head]

theorem redirected (h : s.Calls name w) (w' : World) : s.redirected w' = (.ok ⟨s.stdout, s.stderr⟩, w') := by
  simp [Stage.redirected, openRedirection, h.stdout, h.stderr]

theorem duplicate (h : s.Calls name w) (hw : Noted w w') {handles : List Handle}
    (hcosts : Handle.costs handles ≤ Handle.costs [s.stdin, s.stdout, s.stderr]) :
    s.duplicate handles w' = (.ok (), w'.spend (Handle.costs handles)) := by
  have hspare : Handle.costs handles ≤ w'.spare := by
    rw [hw.alters.spare]
    exact hcosts.trans h.descriptors
  rw [Stage.duplicate_eq, if_pos hspare]

theorem prepare (h : s.Calls name w) (hw : Noted w w') :
    s.prepare w' = (.ok ⟨s.stdout, s.stderr⟩, w'.spend (Handle.costs [s.stdout, s.stderr])) := by
  have hcosts : Handle.costs [s.stdout, s.stderr] ≤ Handle.costs [s.stdin, s.stdout, s.stderr] := Nat.le_add_left ..
  have hthread : (w'.spend (Handle.costs [s.stdout, s.stderr])).noThread = none :=
    (congrArg World.noThread hw.alters.rest :).trans h.thread
  simp only [Stage.prepare, h.redirected, h.duplicate hw hcosts, hthread]

/-- After the notice, the name decides. -/
theorem startWith (h : s.Calls name w) (spawn : Spawner) : s.startWith Builtin.actionOf? spawn w =
    let (answer, s', w') := match Builtin.ofName? name with
      | some b => s.startAction b.action (w.note (.starting s.command.argv))
      | none => s.startProgram spawn (w.note (.starting s.command.argv))
    (answer, s', w.closeSince w') := by
  have hempty : s.command.isEmpty = false := by
    cases hargv : s.command.argv with
    | nil =>
      have hhead := h.head
      rw [hargv] at hhead
      cases hhead
    | cons _ _ => simp [Command.isEmpty, hargv]
  simp only [Stage.startWith, hempty, Bool.false_eq_true, if_false, dispatch, Builtin.actionOf?, h.name_eq]
  cases Builtin.ofName? name <;> rfl

end Calls

/-- What is spent on the way is given back. -/
theorem noted_closed (h : Noted w w') (n : Nat) : Noted w (w.closeSince (w'.spend n)) := by
  rw [show w.closeSince (w'.spend n) = w.closeSince w' from rfl, closeSince_of_spare h.alters.spare]
  exact h

theorem start_of_builtin (h : s.Calls name w) {b : Builtin} (hb : Builtin.ofName? name = some b) :
    s.CarriesOut b w := by
  have hnoted : Noted w (w.note (.starting s.command.argv)) := Noted.refl.note _
  refine ⟨_, noted_closed hnoted (Handle.costs [s.stdout, s.stderr]), ?_⟩
  unfold start
  rw [h.startWith, hb]
  simp only [startAction, h.prepare hnoted]

theorem start_of_found (h : s.Calls name w) (hb : Builtin.ofName? name = none)
    (hf : (Search.find name w).1 = some path) : s.AsksFor path w := by
  have hnoted : Noted w (w.note (.starting s.command.argv)) := Noted.refl.note _
  -- The search is made behind the notice, and finds what it would have found before.
  have hfound := Search.find_noted hnoted name
  have hafter := hnoted.trans (Search.noted_find name _)
  refine ⟨_, noted_closed hafter (Handle.costs [s.stdin, s.stdout, s.stderr]), fun spawn => ?_⟩
  rw [h.startWith, hb]
  simp only [startProgram, h.redirected, h.name_eq]
  rcases heq : Search.find name (w.note (.starting s.command.argv)) with ⟨found, w₁⟩
  rw [heq] at hfound hafter
  obtain rfl : found = some path := hfound.trans hf
  simp only [h.duplicate hafter le_rfl]

theorem start_of_missing (h : s.Calls name w) (hb : Builtin.ofName? name = none)
    (hf : (Search.find name w).1 = none) : s.SaysMissing w := by
  have hnoted : Noted w (w.note (.starting s.command.argv)) := Noted.refl.note _
  have hfound := Search.find_noted hnoted name
  have hafter := hnoted.trans (Search.noted_find name _)
  rcases heq : Search.find name (w.note (.starting s.command.argv)) with ⟨found, w₁⟩
  rw [heq] at hfound hafter
  obtain rfl : found = none := hfound.trans hf
  have hsaid := hafter.note (.commandNotFound name)
  have hcosts : Handle.costs [s.stdout] ≤ Handle.costs [s.stdin, s.stdout, s.stderr] := by simp [Handle.costs]; omega
  have hdup := h.duplicate hsaid hcosts
  obtain ⟨w₂, hw₂⟩ := h.takes _ (noted_closed hsaid _) (Bytes.ofString s!"{s.name}: command not found\n")
  refine ⟨_, w₂, noted_closed hsaid _, hw₂, ?_⟩
  unfold start
  rw [h.startWith, hb]
  simp only [startProgram, h.redirected, h.name_eq, heq, sayNotFound, hdup]
  rw [h.name_eq] at hw₂
  rw [hw₂]

/-! ## The three are different -/

theorem CarriesOut.answer {b : Builtin} (h : s.CarriesOut b w) :
    ∃ outcome, (s.start w).1 = .ok () ∧ (s.start w).2.1.progress = .builtin outcome := by
  obtain ⟨w₁, -, hstart⟩ := h
  exact ⟨_, congrArg (·.1) hstart, congrArg (·.2.1.progress) hstart⟩

theorem AsksFor.answer (h : s.AsksFor path w) :
    (∃ e, (s.start w).1 = .error e) ∨ ∃ job, (s.start w).2.1.progress = .external job := by
  obtain ⟨w₁, -, hstart⟩ := h
  unfold start
  rw [hstart World.spawn]
  rcases World.spawn path s.command.argv s.stdin s.stdout s.stderr w₁ with ⟨fault | job, w₂⟩
  · exact .inl ⟨_, rfl⟩
  · exact .inr ⟨_, rfl⟩

theorem SaysMissing.answer (h : s.SaysMissing w) :
    (s.start w).1 = .ok () ∧ (s.start w).2.1.progress = .skipped := by
  obtain ⟨w₁, w₂, -, -, hstart⟩ := h
  exact ⟨congrArg (·.1) hstart, congrArg (·.2.1.progress) hstart⟩

theorem AsksFor.not_carriesOut (h : s.AsksFor path w) (b : Builtin) : ¬s.CarriesOut b w := by
  intro hb
  obtain ⟨outcome, hok, hprogress⟩ := hb.answer
  rcases h.answer with ⟨e, he⟩ | ⟨job, hjob⟩
  · cases hok.symm.trans he
  · cases hprogress.symm.trans hjob

theorem AsksFor.not_saysMissing (h : s.AsksFor path w) : ¬s.SaysMissing w := by
  intro hm
  obtain ⟨hok, hprogress⟩ := hm.answer
  rcases h.answer with ⟨e, he⟩ | ⟨job, hjob⟩
  · cases hok.symm.trans he
  · cases hprogress.symm.trans hjob

theorem SaysMissing.not_carriesOut (h : s.SaysMissing w) (b : Builtin) : ¬s.CarriesOut b w := by
  intro hb
  obtain ⟨outcome, -, hprogress⟩ := hb.answer
  cases hprogress.symm.trans h.answer.2

/-- A way of starting programs that tells one path from the others. -/
def singling (path : Native) : Spawner := fun path' _ _ _ _ w => (.ok (if path' = path then 0 else 1), w)

theorem AsksFor.unique {path' : Native} (h : s.AsksFor path w) (h' : s.AsksFor path' w) : path' = path := by
  obtain ⟨w₁, -, hstart⟩ := h
  obtain ⟨w₂, -, hstart'⟩ := h'
  -- Both start the stage the same way, but for a path that is not `path` the job would have another number.
  have heq := (hstart (singling path)).symm.trans (hstart' (singling path))
  by_cases hp : path' = path
  · exact hp
  · simp [launched, singling, hp] at heq

end Stage

/-! ## What is said of a name -/

namespace Builtin

variable {name : String} {path : Native} {w w' : World}

/-- What there is to say of a name. -/
def report (w : World) (name : String) : String :=
  if (ofName? name).isSome then s!"{name} is a shell builtin"
  else match (Search.find name w).1 with
    | some path => s!"{name} is {path}"
    | none => s!"{name}: not found"

def isKnown (w : World) (name : String) : Bool := (ofName? name).isSome || (Search.find name w).1.isSome

theorem report_noted (h : Noted w w') (name : String) : report w' name = report w name := by
  unfold report
  rw [Search.find_noted h]

theorem isKnown_noted (h : Noted w w') (name : String) : isKnown w' name = isKnown w name := by
  unfold isKnown
  rw [Search.find_noted h]

theorem describe_cons (name : String) (rest : List String) (w : World) : ∃ w₁, Noted w w₁ ∧
    (describe (name :: rest) w).1 =
      (report w name ++ "\n" ++ (describe rest w₁).1.1, isKnown w name && (describe rest w₁).1.2) := by
  have hword : ∀ text : String, toString text = text := fun _ => rfl
  rw [describe]
  unfold report isKnown
  by_cases hb : (ofName? name).isSome = true
  · exact ⟨w, .refl, by simp [hb, hword, String.append_assoc]⟩
  · have hnoted := Search.noted_find name w
    rcases heq : Search.find name w with ⟨found, w₁⟩
    rw [heq] at hnoted
    cases found with
    | none => exact ⟨w₁, hnoted, by simp [hb, hword, String.append_assoc]⟩
    | some path => exact ⟨w₁, hnoted, by simp [hb, hword, String.append_assoc]⟩

/-- The names are looked into one after the other, each of them with the same answer as if it were the first. -/
theorem describe_eq (names : List String) (w : World) : (describe names w).1 =
    (String.join (names.map fun name => report w name ++ "\n"), names.all (isKnown w)) := by
  induction names generalizing w with
  | nil => rfl
  | cons name rest ih =>
    obtain ⟨w₁, hnoted, heq⟩ := describe_cons name rest w
    rw [heq, ih w₁, funext (report_noted hnoted), funext (isKnown_noted hnoted)]
    simp

theorem path_of_report {text other : String} (h : s!"{name} is {text}" = s!"{name} is {other}") : text = other := by
  have h : name ++ " is " ++ text = name ++ " is " ++ other := h
  simpa using h

theorem report_ne_missing (name text : String) : s!"{name} is {text}" ≠ s!"{name}: not found" := by
  intro h
  have h : name ++ " is " ++ text = name ++ ": not found" := h
  have hlist := congrArg String.toList h
  simp at hlist

/-- The phrase for builtins stands where a path would stand. -/
theorem report_builtin (name : String) :
    let phrase := "a shell builtin"
    s!"{name} is a shell builtin" = s!"{name} is {phrase}" := by
  show name ++ " is a shell builtin" = name ++ " is " ++ "a shell builtin"
  simp [String.append_assoc]

theorem ne_phrase_of_find (h : (Search.find name w).1 = some path) : path.shown ≠ "a shell builtin" := by
  intro heq
  have hslash := Search.slash_mem_of_find h
  rw [heq] at hslash
  exact absurd hslash (by decide)

theorem report_eq_missing : report w name = s!"{name}: not found" ↔ isKnown w name = false := by
  unfold report isKnown
  by_cases hb : (ofName? name).isSome = true
  · simp only [hb, if_true, Bool.true_or, report_builtin]
    simp [report_ne_missing]
  · cases hf : (Search.find name w).1 with
    | none => simp [hb]
    | some path =>
      have hne : ¬s!"{name} is {path}" = s!"{name}: not found" := report_ne_missing name path.shown
      simpa [hb] using hne

theorem bearsOut_of_builtin {s : Stage} (h : s.Calls name w) {b : Builtin} (hb : ofName? name = some b) :
    s.BearsOut (report w name) w := by
  have hcarried := s.start_of_builtin h hb
  have hname : b.name = name := by simpa using List.find?_some hb
  have hreport : report w name = s!"{s.name} is a shell builtin" := by simp [report, hb, h.name_eq]
  have hother : ∀ text : String, ¬(report w name = s!"{s.name} is {text}" ∧ text ≠ "a shell builtin") := by
    rintro text ⟨heq, hne⟩
    rw [hreport, report_builtin] at heq
    exact hne (path_of_report heq).symm
  have hnone : ∀ path, ¬s.AsksFor path w := fun path hasks => hasks.not_carriesOut b hcarried
  refine ⟨iff_of_true hreport ⟨b, hcarried⟩, fun _ => ⟨b, hname.trans h.name_eq.symm, hcarried⟩, fun text => ?_,
    fun path _ hasks => absurd hasks (hnone path), fun _ text => iff_of_false (hother text) (hnone text), ?_⟩
  · exact iff_of_false (hother text) fun ⟨path, _, hasks⟩ => hnone path hasks
  · refine iff_of_false (fun heq => ?_) fun hsays => hsays.not_carriesOut b hcarried
    rw [hreport, report_builtin] at heq
    exact report_ne_missing _ _ heq

theorem bearsOut_of_found {s : Stage} (h : s.Calls name w) (hb : ofName? name = none)
    (hf : (Search.find name w).1 = some path) : s.BearsOut (report w name) w := by
  have hasks := s.start_of_found h hb hf
  have hreport : report w name = s!"{s.name} is {path}" := by simp [report, hb, hf, h.name_eq]
  have hphrase : report w name ≠ s!"{s.name} is a shell builtin" := by
    rw [hreport, report_builtin]
    exact fun heq => ne_phrase_of_find hf (path_of_report heq)
  have htold : ∀ text : String, (report w name = s!"{s.name} is {text}" ∧ text ≠ "a shell builtin") ↔
      path.shown = text := by
    refine fun text => ⟨fun ⟨heq, _⟩ => path_of_report (hreport.symm.trans heq), ?_⟩
    rintro rfl
    exact ⟨hreport, ne_phrase_of_find hf⟩
  refine ⟨iff_of_false hphrase fun ⟨b, hcarried⟩ => hasks.not_carriesOut b hcarried, fun heq => absurd heq hphrase,
    fun text => (htold text).trans ⟨fun hshown => ⟨path, hshown, hasks⟩, ?_⟩, fun _ _ => Stage.AsksFor.unique,
    fun hpath text => (htold text).trans ?_, ?_⟩
  · rintro ⟨path', hshown, hasks'⟩
    rw [← hasks.unique hasks']
    exact hshown
  · obtain ⟨found, rfl⟩ := Search.text_of_find hpath hf
    refine ⟨fun hshown => ?_, fun hasks' => ?_⟩
    · rw [← show found = text from hshown]
      exact hasks
    · rw [← hasks.unique hasks']
      rfl
  · exact iff_of_false (hreport ▸ report_ne_missing _ _) hasks.not_saysMissing

theorem bearsOut_of_missing {s : Stage} (h : s.Calls name w) (hb : ofName? name = none)
    (hf : (Search.find name w).1 = none) : s.BearsOut (report w name) w := by
  have hsays := s.start_of_missing h hb hf
  have hreport : report w name = s!"{s.name}: not found" := by simp [report, hb, hf, h.name_eq]
  have hother : ∀ text : String, report w name ≠ s!"{s.name} is {text}" := by
    intro text heq
    exact report_ne_missing _ _ (heq.symm.trans hreport)
  have hphrase : report w name ≠ s!"{s.name} is a shell builtin" := by
    rw [report_builtin]
    exact hother _
  have hnone : ∀ path, ¬s.AsksFor path w := fun path hasks => hasks.not_saysMissing hsays
  exact ⟨iff_of_false hphrase fun ⟨b, hcarried⟩ => hsays.not_carriesOut b hcarried, fun heq => absurd heq hphrase,
    fun text => iff_of_false (fun heq => hother text heq.1) fun ⟨path, _, hasks⟩ => hnone path hasks,
    fun path _ hasks => absurd hasks (hnone path),
    fun _ text => iff_of_false (fun heq => hother text heq.1) (hnone text), iff_of_true hreport hsays⟩

theorem bearsOut_report {s : Stage} (h : s.Calls name w) : s.BearsOut (report w name) w := by
  cases hb : ofName? name with
  | some b => exact bearsOut_of_builtin h hb
  | none =>
    cases hf : (Search.find name w).1 with
    | some path => exact bearsOut_of_found h hb hf
    | none => exact bearsOut_of_missing h hb hf

theorem exists_missing (names : List String) (w : World) :
    (∃ told ∈ names.zip (names.map (report w)), told.2 = s!"{told.1}: not found") ↔ names.all (isKnown w) = false := by
  rw [← List.map_prod_left_eq_zip, List.all_eq_false]
  constructor
  · intro ⟨told, hmem, htold⟩
    obtain ⟨name, hname, rfl⟩ := List.mem_map.mp hmem
    exact ⟨name, hname, by simpa using report_eq_missing.mp htold⟩
  · intro ⟨name, hname, hknown⟩
    exact ⟨_, List.mem_map_of_mem hname, report_eq_missing.mpr (by simpa using hknown)⟩

/-- What the builtin says, and how it ends. -/
structure Tells (outlet : Outlet World) (names : List String) (w : World) (reports : List String)
    (result : Except StageError Unit) : Prop where
  bearsOut : List.Forall₂ (fun name report => ∀ s : Stage, s.Calls name w → s.BearsOut report w) names reports
  writes : ∃ w₁ w₂ w₃, Noted w w₁ ∧
    outlet.write .stdout (Bytes.ofString (String.join (reports.map (· ++ "\n")))) w₁ = (.ok (), w₂) ∧
    outlet.flush .stdout w₂ = (.ok (), w₃) ∧
    let (reply, w₀) := type.action names w
    reply.deliver type.name outlet w₀ = (.result result, w₃)
  fails : result = .error (.exited "type" 1) ↔ ∃ told ∈ names.zip reports, told.2 = s!"{told.1}: not found"
  succeeds : result = .ok () ↔ ∀ told ∈ names.zip reports, told.2 ≠ s!"{told.1}: not found"

end Builtin

end CommandShell
