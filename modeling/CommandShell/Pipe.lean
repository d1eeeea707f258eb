/-
  CommandShell.Pipe — pipes and their two ends.

  A pipe holds what was written to it and not yet read, and counts the holders of its two ends. Reading to the
  end is possible once nobody holds the write end; writing needs a holder of the read end.
-/

import CommandShell.Fault
import CommandShell.Text.Bytes

namespace CommandShell

inductive PipeSide where
  | read
  | write
  deriving DecidableEq, Repr

structure PipeEnd where
  pipe : Nat
  side : PipeSide
  deriving DecidableEq, Repr

structure Pipe where
  data : Bytes := []
  readers : Nat := 1
  writers : Nat := 1
  deriving DecidableEq, Repr

abbrev Pipes := List Pipe

namespace Pipes

/-- A new pipe: its read end and its write end. -/
def create (ps : Pipes) : (PipeEnd × PipeEnd) × Pipes :=
  ((⟨ps.length, .read⟩, ⟨ps.length, .write⟩), ps ++ [({} : Pipe)])

def share (ps : Pipes) (e : PipeEnd) : Pipes :=
  ps.modify e.pipe fun p =>
    match e.side with
    | .read => { p with readers := p.readers + 1 }
    | .write => { p with writers := p.writers + 1 }

def release (ps : Pipes) (e : PipeEnd) : Pipes :=
  ps.modify e.pipe fun p =>
    match e.side with
    | .read => { p with readers := p.readers - 1 }
    | .write => { p with writers := p.writers - 1 }

def write (ps : Pipes) (e : PipeEnd) (data : Bytes) : Except Fault Unit × Pipes :=
  if data.isEmpty then (.ok (), ps)
  else match ps[e.pipe]? with
    | none => (.error (.system .badDescriptor), ps)
    | some p =>
      if e.side = .read then (.error (.system .badDescriptor), ps)
      else if p.readers = 0 then (.error (.system .brokenPipe), ps)
      else (.ok (), ps.modify e.pipe fun p => { p with data := p.data ++ data })

/-- Would reading to the end wait for somebody who holds the write end? -/
def blocks (ps : Pipes) (e : PipeEnd) : Bool :=
  match ps[e.pipe]? with
  | some p => 0 < p.writers
  | none => false

def read (ps : Pipes) (e : PipeEnd) : Except Fault Bytes × Pipes :=
  match ps[e.pipe]? with
  | none => (.error (.system .badDescriptor), ps)
  | some p =>
    if e.side = .write then (.error (.system .badDescriptor), ps)
    else (.ok p.data, ps.modify e.pipe fun p => { p with data := [] })

end Pipes

end CommandShell
