/-
  CommandShell.Text.ControlSequence — a text without what would steer a terminal.

  An escape character begins a control sequence. What follows it decides how far the sequence goes: it ends with
  its final byte, or it is a string that goes on to a terminator. `plain` takes the sequences and the control
  characters out of a text. Blanks of a line stay: the tab, the newline, the form feed and the carriage return
  are kept in front of a final byte too, and what stands behind them is text again.
-/

import CommandShell.Text.Bytes

namespace CommandShell.Text

/-- How much of a control sequence has been read. -/
inductive ControlState where
  | ground
  | escape
  | intermediate
  | parameters
  | deviceEntry
  | deviceParameters
  | deviceIntermediate
  /-- The beginning of a command for the operating system, which a bell ends. -/
  | systemCommand
  | string
  deriving DecidableEq, Repr

def isIntermediateByte (b : UInt8) : Bool := 0x20 ≤ b && b ≤ 0x2f

def isParameterByte (b : UInt8) : Bool := 0x30 ≤ b && b ≤ 0x3f

def isFinalByte (b : UInt8) : Bool := 0x40 ≤ b && b ≤ 0x7e

/-- The tab, the newline, the form feed and the carriage return. -/
def isBlankControl (b : UInt8) : Bool := b = 0x09 || b = 0x0a || b = 0x0c || b = 0x0d

namespace ControlState

/-- The state that a byte behind the escape character leads to. -/
def afterEscape? (b : UInt8) : Option ControlState :=
  if isIntermediateByte b then some intermediate
  else if b = 0x5b then some parameters
  else if b = 0x5d then some systemCommand
  else if b = 0x50 then some deviceEntry
  else if b = 0x58 || b = 0x5e || b = 0x5f then some string
  else if isParameterByte b || isFinalByte b then some ground
  else none

/-- The state that a byte leads to; none if it stays as it is. Two cancelling characters and a new escape
    character end whatever has begun. -/
def next? (s : ControlState) (b : UInt8) : Option ControlState :=
  if b = 0x18 || b = 0x1a then some ground
  else if b = 0x1b then some escape
  else match s with
    | ground => none
    | escape => afterEscape? b
    | intermediate => if isParameterByte b || isFinalByte b then some ground else none
    | parameters => if isFinalByte b then some ground else none
    | deviceEntry =>
      if isIntermediateByte b then some deviceIntermediate
      else if isParameterByte b then some deviceParameters
      else if isFinalByte b then some string
      else none
    | deviceParameters =>
      if isIntermediateByte b then some deviceIntermediate
      else if 0x3c ≤ b && b ≤ 0x7e then some string
      else none
    | deviceIntermediate => if isParameterByte b || isFinalByte b then some string else none
    | systemCommand => if b = 0x07 then some ground else none
    | string => if b = 0x9c then some ground else none

/-- Are control characters obeyed, and not part of a string? -/
def obeysControls : ControlState → Bool
  | ground | escape | intermediate | parameters => true
  | _ => false

def keeps (s : ControlState) (b : UInt8) : Bool :=
  (s = ground && ((0x20 ≤ b && b ≤ 0x7e) || 0xc2 ≤ b)) || (s.obeysControls && isBlankControl b)

end ControlState

structure Sieve where
  state : ControlState := .ground
  /-- The byte before was kept. What follows it is judged as text, even if a sequence is not at its end. -/
  keeping : Bool := false
  /-- How many bytes the character that has begun still lacks. -/
  owed : Nat := 0
  deriving DecidableEq, Repr

def Sieve.step (s : Sieve) (b : UInt8) : Bool × Sieve :=
  if 0 < s.owed then (true, { s with owed := s.owed - 1 })
  else
    let seen := if s.keeping then .ground else s.state
    let keep := seen.keeps b
    let state := if keep && 0x80 ≤ b then .ground else (seen.next? b).getD s.state
    let owed := if keep then ((Bytes.shape? b).map fun shape => shape.1 - 1).getD 0 else 0
    (keep, { state, keeping := keep, owed })

def sift : Sieve → Bytes → Bytes
  | _, [] => []
  | s, b :: rest =>
    let (keep, s) := s.step b
    if keep then b :: sift s rest else sift s rest

/-- The text without control sequences and without control characters other than blanks of a line. -/
def plain (text : Bytes) : Bytes := sift {} text

end CommandShell.Text
