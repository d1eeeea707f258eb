/-
  CommandShell.Proofs.Builtin.Replies — what becomes of the text that a builtin has to say.

  A text goes to one stream: it is written and then flushed, and either may fail. `Outlet.Says` and `Outlet.Refuses`
  are the two things that can happen to it.
  - `says_or_refuses`: one of them does;
  - `deliver_of_silent`, `deliver_of_says`, `deliver_of_refuses`: a builtin ends as it meant to, unless its text was
    refused, which is then how it ends;
  - `Records.says`: streams that take everything say every text, and nothing besides;
  - `records_standard`: the shell's own streams do.
-/

import CommandShell.Stage

namespace CommandShell

variable {W : Type} {outlet : Outlet W} {stream : OutStream} {text name : String} {reply : Reply} {w w' : W} {fault : Fault}

namespace Outlet

/-- The text is written and flushed. -/
def Says (outlet : Outlet W) (stream : OutStream) (text : String) (w w' : W) : Prop :=
  ∃ w₁, outlet.write stream (Bytes.ofString text) w = (.ok (), w₁) ∧ outlet.flush stream w₁ = (.ok (), w')

/-- The text cannot be written, or what was written cannot be flushed. -/
inductive Refuses (outlet : Outlet W) (stream : OutStream) (text : String) (w : W) (fault : Fault) (w' : W) : Prop
  | write (h : outlet.write stream (Bytes.ofString text) w = (.error fault, w'))
  | flush {w₁ : W} (hwrite : outlet.write stream (Bytes.ofString text) w = (.ok (), w₁))
      (h : outlet.flush stream w₁ = (.error fault, w'))

theorem says_or_refuses (outlet : Outlet W) (stream : OutStream) (text : String) (w : W) :
    (∃ w', outlet.Says stream text w w') ∨ ∃ fault w', outlet.Refuses stream text w fault w' := by
  rcases hwrite : outlet.write stream (Bytes.ofString text) w with ⟨answer, w₁⟩
  cases answer with
  | error fault => exact .inr ⟨fault, w₁, .write hwrite⟩
  | ok _ =>
    rcases hflush : outlet.flush stream w₁ with ⟨answer, w₂⟩
    cases answer with
    | error fault => exact .inr ⟨fault, w₂, .flush hwrite hflush⟩
    | ok _ => exact .inl ⟨w₂, w₁, hwrite, hflush⟩

/-- The streams take all that is written to them, and `heard` tells what each of them has got. -/
structure Records (outlet : Outlet W) (heard : OutStream → W → Bytes) : Prop where
  write : ∀ stream data w, ∃ w', outlet.write stream data w = (.ok (), w') ∧ heard stream w' = heard stream w ++ data ∧
    ∀ other, other ≠ stream → heard other w' = heard other w
  flush : ∀ stream w, ∃ w', outlet.flush stream w = (.ok (), w') ∧ ∀ other, heard other w' = heard other w

theorem Records.says {heard : OutStream → W → Bytes} (h : outlet.Records heard) (stream : OutStream) (text : String)
    (w : W) : ∃ w', outlet.Says stream text w w' ∧ heard stream w' = heard stream w ++ Bytes.ofString text ∧
      ∀ other, other ≠ stream → heard other w' = heard other w := by
  obtain ⟨w₁, hwrite, hheard, hothers⟩ := h.write stream (Bytes.ofString text) w
  obtain ⟨w₂, hflush, hkept⟩ := h.flush stream w₁
  refine ⟨w₂, ⟨w₁, hwrite, hflush⟩, (hkept stream).trans hheard, ?_⟩
  intro other hne
  exact (hkept other).trans (hothers other hne)

end Outlet

/-- What the shell's own streams have got. -/
def World.heard : OutStream → World → Bytes
  | .stdout, w => w.output
  | .stderr, w => w.errors

theorem Stage.Outputs.records_standard :
    (Stage.Outputs.outlet ⟨.standard .stdout, .standard .stderr⟩).Records World.heard where
  write stream data w := by
    cases stream with
    | stdout =>
      refine ⟨_, rfl, rfl, ?_⟩
      intro other hne
      cases other with
      | stdout => exact absurd rfl hne
      | stderr => rfl
    | stderr =>
      refine ⟨_, rfl, rfl, ?_⟩
      intro other hne
      cases other with
      | stdout => rfl
      | stderr => exact absurd rfl hne
  flush _ w := ⟨w, rfl, fun _ => rfl⟩

namespace Reply

theorem deliver_of_silent (h : reply.say = none) (name : String) (outlet : Outlet W) (w : W) :
    reply.deliver name outlet w = (reply.outcome, w) := by
  simp only [deliver, h]

theorem deliver_of_says (hsay : reply.say = some (stream, text)) (h : outlet.Says stream text w w') (name : String) :
    reply.deliver name outlet w = (reply.outcome, w') := by
  obtain ⟨w₁, hwrite, hflush⟩ := h
  simp only [deliver, hsay, hwrite, hflush]

theorem deliver_of_refuses (hsay : reply.say = some (stream, text)) (h : outlet.Refuses stream text w fault w')
    (name : String) : reply.deliver name outlet w = (.result (.error (.io name fault)), w') := by
  cases h with
  | write hwrite => simp only [deliver, hsay, hwrite]
  | flush hwrite hflush => simp only [deliver, hsay, hwrite, hflush]

end Reply

end CommandShell
