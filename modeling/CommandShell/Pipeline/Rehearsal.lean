/-
  CommandShell.Pipeline.Rehearsal — a pipeline whose stages only write down what is asked of them.

  A player stands for a stage with a fixed script: whether it redirects its output, what its start and its wait
  answer, and what it writes when it starts. The stage book keeps every call in order.
-/

import CommandShell.Pipeline

namespace CommandShell

namespace Rehearsal

inductive Event where
  | attachInput (name : String)
  | attachOutput (name : String)
  | start (name : String)
  | wait (name : String)
  | detachInput (name : String)
  | detachOutput (name : String)
  | read (name : String) (data : Bytes)
  /-- The player would read for ever: somebody still holds the write end. -/
  | blocked (name : String)
  deriving DecidableEq, Repr

structure Player where
  name : String
  redirected : Bool := false
  startError : Option StageError := none
  waitError : Option StageError := none
  emit : Option String := none
  stdin : Option PipeEnd := none
  stdout : Option PipeEnd := none
  deriving DecidableEq, Repr

structure Book where
  pipes : Pipes := []
  noDescriptors : Bool := false
  events : List Event := []
  notices : List Notice := []
  /-- The messages shown, before they were styled. -/
  messages : List String := []
  errors : String := ""
  deriving DecidableEq, Repr

namespace Book

def add (e : Event) (b : Book) : Book := { b with events := b.events ++ [e] }

def makePipe (b : Book) : Except Errno (PipeEnd × PipeEnd) × Book :=
  if b.noDescriptors then (.error .tooManyOpen, b)
  else let (ends, pipes) := b.pipes.create; (.ok ends, { b with pipes })

def dropEnd (b : Book) (e : PipeEnd) : Book := { b with pipes := b.pipes.release e }

def dropHeld (e : Option PipeEnd) (b : Book) : Book :=
  match e with
  | some e => b.dropEnd e
  | none => b

def note (n : Notice) (b : Book) : Book := { b with notices := b.notices ++ [n] }

def complain (style : String → String) (message : String) (b : Book) : Book :=
  { b with messages := b.messages ++ [message], errors := b.errors ++ style message ++ "\n" }

end Book

instance : Surroundings Book where
  makePipe := Book.makePipe
  dropEnd e b := b.dropEnd e
  note := Book.note
  complain := Book.complain

namespace Player

def attachInput (p : Player) (e : PipeEnd) (b : Book) : Player × Book :=
  ({ p with stdin := some e }, b.add (.attachInput p.name))

def attachOutput (p : Player) (e : PipeEnd) (b : Book) : Player × Book :=
  ({ p with stdout := some e }, b.add (.attachOutput p.name))

def say (p : Player) (text : String) (b : Book) : Book :=
  match p.stdout with
  | some e => { b with pipes := (b.pipes.write e (Bytes.ofString text)).2 }
  | none => b

def start (p : Player) (b : Book) : Except StageError Unit × Player × Book :=
  let b := b.add (.start p.name)
  match p.startError with
  | some error => (.error error, p, b)
  | none => (.ok (), p, (p.emit.map fun text => p.say text b).getD b)

def readAll (p : Player) (b : Book) : Book :=
  match p.stdin with
  | some e =>
    if b.pipes.blocks e then b.add (.blocked p.name)
    else
      let (answer, pipes) := b.pipes.read e
      Book.add (.read p.name (answer.toOption.getD [])) { b with pipes }
  | none => b

def wait (p : Player) (b : Book) : Except StageError Unit × Player × Book :=
  let b := p.readAll (b.add (.wait p.name))
  match p.waitError with
  | some error => (.error error, p, b)
  | none => (.ok (), p, b)

def detachInput (p : Player) (b : Book) : Player × Book :=
  ({ p with stdin := none }, (b.add (.detachInput p.name)).dropHeld p.stdin)

def detachOutput (p : Player) (b : Book) : Player × Book :=
  ({ p with stdout := none }, (b.add (.detachOutput p.name)).dropHeld p.stdout)

end Player

instance : StageLike Player Book where
  outputRedirected := Player.redirected
  attachInput := Player.attachInput
  attachOutput := Player.attachOutput
  start := Player.start
  wait := Player.wait
  detachInput := Player.detachInput
  detachOutput := Player.detachOutput

end Rehearsal

end CommandShell
