/-
  CommandShell.Pipeline — running the stages of a pipeline.

  Neighbouring stages are joined by pipes. The stages are started from the last to the first, so that whoever
  reads is there before whoever writes, and waited for from the first to the last; a stage gives its pipe ends
  back when it has ended well. The first failure of a start keeps the stages before it from starting, and the
  first failure of a wait ends the waiting. A stage whose output is redirected gets no write end: what follows
  it reads nothing.
-/

import CommandShell.Log
import CommandShell.Pipe

namespace CommandShell

inductive Next where
  | goOn
  | leave (code : Int)
  deriving DecidableEq, Repr

/-- What a pipeline needs from the world around it. -/
class Surroundings (W : Type) where
  makePipe : W → Except Errno (PipeEnd × PipeEnd) × W
  /-- Give up an end that nobody took. -/
  dropEnd : PipeEnd → W → W
  note : Notice → W → W
  complain : (String → String) → String → W → W

/-- What a pipeline does with one of its stages. -/
class StageLike (S W : Type) where
  outputRedirected : S → Bool
  attachInput : S → PipeEnd → W → S × W
  attachOutput : S → PipeEnd → W → S × W
  start : S → W → Except StageError Unit × S × W
  wait : S → W → Except StageError Unit × S × W
  detachInput : S → W → S × W
  detachOutput : S → W → S × W

namespace Pipeline

open Surroundings StageLike

variable {S W : Type} [Surroundings W] [StageLike S W]

/-- Record a failure, and show it unless it is silent. -/
def announce (style : String → String) (error : StageError) (w : W) : W :=
  let w := note (.failed error) w
  if error.isSilent then w else complain style error.message w

/-- Join stage `i` to the stages behind it. If a pipe cannot be made, the stages joined so far stay joined. -/
def joinFrom (i : Nat) (left : S) : List S → W → Option StageError × List S × W
  | [], w => (none, [left], w)
  | right :: rest, w =>
    match makePipe w with
    | (.error errno, w) => (some (.noPipe errno), left :: right :: rest, w)
    | (.ok (reader, writer), w) =>
      let (left, w) :=
        if outputRedirected W left then (left, dropEnd writer (note (.writeEndUnused i) w))
        else attachOutput left writer w
      let (right, w) := attachInput right reader w
      let (error, rest, w) := joinFrom (i + 1) right rest w
      (error, left :: rest, w)

def join : List S → W → Option StageError × List S × W
  | [], w => (none, [], w)
  | first :: rest, w => joinFrom 0 first rest w

/-- Start the stages from `i` on, the last first. Tells whether all of them started. -/
def startFrom (style : String → String) (i : Nat) : List S → W → Bool × List S × W
  | [], w => (true, [], w)
  | stage :: rest, w =>
    match startFrom style (i + 1) rest w with
    | (false, rest, w) => (false, stage :: rest, w)
    | (true, rest, w) =>
      match start stage w with
      | (.ok _, stage, w) => (true, stage :: rest, w)
      | (.error error, stage, w) => (false, stage :: rest, announce style error (note (.startAbandoned i) w))

/-- Give back the pipe ends of a stage that ended well: the first stage has no end to read from and the last none
    to write to. -/
def closeEnds (isFirst isLast : Bool) (stage : S) (w : W) : S × W :=
  let (stage, w) := if isFirst then (stage, w) else detachInput stage w
  if isLast then (stage, w) else detachOutput stage w

def waitFrom (style : String → String) (isFirst : Bool) : List S → W → Next × List S × W
  | [], w => (.goOn, [], w)
  | stage :: rest, w =>
    match wait stage w with
    | (.error (.exitRequested code), stage, w) => (.leave code, stage :: rest, note (.exitReceived code) w)
    | (.error error, stage, w) => (.goOn, stage :: rest, announce style error w)
    | (.ok _, stage, w) =>
      let (stage, w) := closeEnds isFirst rest.isEmpty stage w
      let (next, rest, w) := waitFrom style false rest w
      (next, stage :: rest, w)

def run (style : String → String) (stages : List S) (w : W) : Next × List S × W :=
  match join stages w with
  | (some error, stages, w) => (.goOn, stages, announce style error w)
  | (none, stages, w) =>
    let (_, stages, w) := startFrom style 0 stages w
    waitFrom style true stages w

end Pipeline

end CommandShell
