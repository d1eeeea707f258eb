/-
  CommandShell.Fanout — one record, several targets.

  Every target is asked, in order and with the same data, whatever the others answered. The answer is that of
  the first target that failed, and success if none did.
-/

import CommandShell.Fault
import CommandShell.Text.Bytes

namespace CommandShell.Fanout

/-- Of two answers in order, the first failure. -/
def firstFault : Except Fault Unit → Except Fault Unit → Except Fault Unit
  | .error fault, _ => .error fault
  | .ok _, answer => answer

def each {α W : Type} (ask : α → W → Except Fault Unit × α × W) : List α → W → Except Fault Unit × List α × W
  | [], w => (.ok (), [], w)
  | target :: rest, w =>
    let (answer, target, w) := ask target w
    let (answers, rest, w) := each ask rest w
    (firstFault answer answers, target :: rest, w)

/-- Write to every target. Success counts all the bytes. -/
def write {α W : Type} (put : Bytes → α → W → Except Fault Unit × α × W) (data : Bytes) (targets : List α) (w : W) :
    Except Fault Nat × List α × W :=
  let (answer, targets, w) := each (put data) targets w
  (answer.map fun _ => data.length, targets, w)

def flush {α W : Type} (push : α → W → Except Fault Unit × α × W) (targets : List α) (w : W) :
    Except Fault Unit × List α × W :=
  each push targets w

end CommandShell.Fanout
