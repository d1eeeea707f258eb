/-
  CommandShell.Buffer — a place in memory to write to, which may refuse.

  A buffer collects what is written to it and counts the flushes. It can be made to refuse writes or flushes;
  writing nothing always succeeds.
-/

import CommandShell.Fault
import CommandShell.Text.Bytes

namespace CommandShell

structure Buffer where
  writeFault : Option Fault := none
  flushFault : Option Fault := none
  data : Bytes := []
  flushes : Nat := 0
  deriving DecidableEq, Repr

namespace Buffer

def write (data : Bytes) (b : Buffer) : Except Fault Unit × Buffer :=
  if data.isEmpty then (.ok (), b)
  else match b.writeFault with
    | some fault => (.error fault, b)
    | none => (.ok (), { b with data := b.data ++ data })

def flush (b : Buffer) : Except Fault Unit × Buffer :=
  match b.flushFault with
  | some fault => (.error fault, b)
  | none => (.ok (), { b with flushes := b.flushes + 1 })

end Buffer

end CommandShell
