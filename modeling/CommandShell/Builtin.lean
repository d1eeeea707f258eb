/-
  CommandShell.Builtin — the commands that the shell carries out itself.

  A builtin does what it does to the world, and replies with at most one text for one of its two outputs and
  with its result. The result counts only if the text could be written.
-/

import CommandShell.Search
import CommandShell.Text.Decimal

namespace CommandShell

inductive Outcome where
  | result (result : Except StageError Unit)
  | crashed (message : Option String)

/-- What a builtin has to say, and how it ends if that can be said. -/
structure Reply where
  say : Option (OutStream × String) := none
  outcome : Outcome := .result (.ok ())

structure Outlet (W : Type) where
  write : OutStream → Bytes → W → Except Fault Unit × W
  flush : OutStream → W → Except Fault Unit × W

namespace Reply

def ok : Reply := {}

def out (text : String) : Reply := { say := some (.stdout, text) }

def error (e : StageError) : Reply := { outcome := .result (.error e) }

/-- A message on standard error, and a silent failure. -/
def fail (name message : String) (code : Int) : Reply :=
  { say := some (.stderr, message), outcome := .result (.error (.exited name code)) }

/-- Write what there is to say. If it cannot be written, that is the result. -/
def deliver {W : Type} (name : String) (outlet : Outlet W) (reply : Reply) (w : W) : Outcome × W :=
  match reply.say with
  | none => (reply.outcome, w)
  | some (stream, text) =>
    match outlet.write stream (Bytes.ofString text) w with
    | (.error fault, w) => (.result (.error (.io name fault)), w)
    | (.ok _, w) =>
      match outlet.flush stream w with
      | (.error fault, w) => (.result (.error (.io name fault)), w)
      | (.ok _, w) => (reply.outcome, w)

end Reply

inductive Builtin where
  | cd
  | echo
  | exit
  | history
  | pwd
  | type
  deriving DecidableEq, Repr

abbrev Builtin.Action := List String → World → Reply × World

namespace Builtin

def name : Builtin → String
  | cd => "cd"
  | echo => "echo"
  | exit => "exit"
  | history => "history"
  | pwd => "pwd"
  | type => "type"

def all : List Builtin := [cd, echo, exit, history, pwd, type]

def ofName? (s : String) : Option Builtin := all.find? fun b => b.name = s

/-! ## The working directory -/

def runPwd (_ : List String) (w : World) : Reply × World :=
  match w.workingDirectory? with
  | some path => (.out (path ++ "\n"), w)
  | none => (.error (.io "pwd" (.system .noEntry)), w)

def runCd (args : List String) (w : World) : Reply × World :=
  let path := w.host.expandTilde w.env (args.head?.getD "~")
  match w.files.enter w.cwd path with
  | .ok location => (.ok, { w with cwd := location }.note (.directoryChanged path))
  | .error fault =>
    (.fail "cd" s!"cd: {path}: No such file or directory\n" 1, w.note (.directoryKept path fault))

/-! ## Leaving, and saying something -/

def runExit (args : List String) (w : World) : Reply × World :=
  match args.head? with
  | none => (.error (.exitRequested 0), w)
  | some arg =>
    match Text.exitCode? arg with
    | some code => (.error (.exitRequested code), w)
    | none =>
      ({ say := some (.stderr, s!"exit: {arg}: numeric argument required\n"),
         outcome := .result (.error (.exitRequested 2)) }, w)

def runEcho (args : List String) (w : World) : Reply × World :=
  (.out (" ".intercalate args ++ "\n"), w)

/-! ## What a name means -/

/-- What each name means, a line each, and whether all of them mean something. -/
def describe : List String → World → (String × Bool) × World
  | [], w => (("", true), w)
  | word :: rest, w =>
    let ((line, known), w) :=
      if (ofName? word).isSome then ((s!"{word} is a shell builtin\n", true), w)
      else match Search.find word w with
        | (some path, w) => ((s!"{word} is {path}\n", true), w)
        | (none, w) => ((s!"{word}: not found\n", false), w)
    let ((lines, allKnown), w) := describe rest w
    ((line ++ lines, known && allKnown), w)

def runType (args : List String) (w : World) : Reply × World :=
  let ((lines, allKnown), w) := describe args w
  ({ say := some (.stdout, lines),
     outcome := .result (if allKnown then .ok () else .error (.exited "type" 1)) }, w)

/-! ## History -/

def historyReply (file : String) : Except Fault Unit → Reply
  | .ok _ => .ok
  | .error fault => .fail "history" s!"history: {file}: {fault.message}\n" 1

/-- A use of a history file, which needs its name. -/
def withFile (option : String) (file : Option String) (use : Native → World → Except Fault Unit × World)
    (w : World) : Reply × World :=
  match file with
  | none => (.fail "history" s!"history: {option}: option requires an argument\n" 2, w)
  | some file =>
    let (answer, w) := use file w.lockHistory
    (historyReply file answer, w)

def readFile (file : Native) (w : World) : Except Fault Unit × World :=
  let (answer, w) := w.readHistory file
  (answer.map fun _ => (), w)

def listHistory (last : Option Nat) (w : World) : Reply × World :=
  let w := w.lockHistory
  (.out (w.history.listing last), w)

def runHistory (args : List String) (w : World) : Reply × World :=
  match args with
  | [] => listHistory none w
  | "-r" :: rest => withFile "-r" rest.head? readFile w
  | "-w" :: rest => withFile "-w" rest.head? World.writeHistory w
  | "-a" :: rest => withFile "-a" rest.head? World.appendHistory w
  | arg :: _ =>
    match Text.count? arg with
    | some n => listHistory (some n) w
    | none => (.fail "history" s!"history: {arg}: numeric argument required\n" 2, w)

/-! ## All of them -/

def action : Builtin → Action
  | cd => runCd
  | echo => runEcho
  | exit => runExit
  | history => runHistory
  | pwd => runPwd
  | type => runType

def actionOf? (s : String) : Option Action := (ofName? s).map action

end Builtin

end CommandShell
