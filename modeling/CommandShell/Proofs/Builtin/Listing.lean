/-
  CommandShell.Proofs.Builtin.Listing — what `history` lists when it is given a count.

  A listing has a line for each entry, with the entry's number. Asked for the last few, it leaves out the lines before
  them and changes none of the others, so every entry keeps its number.
  - `listing_none`, `listing_some`: the listings, line by line;
  - `listing_split`: the shorter listing is the end of the whole one;
  - `history_argument`: which arguments are counts, and what becomes of them and of all others.
-/

import CommandShell.Proofs.Builtin.Replies
import CommandShell.Proofs.Text.Numerals
import CommandShell.Proofs.World.Files

namespace CommandShell

namespace History

/-- The lines of entries of which the first has this number. -/
def numbered : Nat → List String → String
  | _, [] => ""
  | number, entry :: rest => "    " ++ toString number ++ "  " ++ entry ++ "\n" ++ numbered (number + 1) rest

/-- How many entries come before the last `n`. -/
def skipped (h : History) (n : Nat) : Nat := h.entries.length - min n h.entries.length

theorem numbered_append (xs ys : List String) : ∀ number,
    numbered number (xs ++ ys) = numbered number xs ++ numbered (number + xs.length) ys := by
  induction xs with
  | nil =>
    intro number
    simp [numbered]
  | cons entry rest ih =>
    intro number
    have hnext : number + 1 + rest.length = number + (rest.length + 1) := by omega
    simp only [List.cons_append, numbered, ih, String.append_assoc, List.length_cons, hnext]

theorem join_listed (entries : List String) : ∀ number,
    String.join ((entries.zipIdx number).map listed) = numbered number entries := by
  induction entries with
  | nil =>
    intro number
    rfl
  | cons entry rest ih =>
    intro number
    rw [List.zipIdx_cons, List.map_cons, String.join_cons, ih, numbered]
    rfl

theorem listing_none (h : History) : h.listing none = numbered 1 h.entries := join_listed h.entries 1

theorem length_take_skipped (h : History) (n : Nat) : (h.entries.take (h.skipped n)).length = h.skipped n := by
  rw [List.length_take]
  unfold skipped
  omega

theorem listing_some (h : History) (n : Nat) :
    h.listing (some n) = numbered (h.skipped n + 1) (h.entries.drop (h.skipped n)) := by
  have hskip : h.entries.length - n = h.skipped n := by
    unfold skipped
    omega
  have hdrop : (h.entries.zipIdx 1).drop (h.skipped n) = (h.entries.drop (h.skipped n)).zipIdx (1 + h.skipped n) := by
    conv_lhs => rw [← List.take_append_drop (h.skipped n) h.entries, List.zipIdx_append, h.length_take_skipped n]
    exact List.drop_left' (by rw [List.length_zipIdx, h.length_take_skipped n])
  show String.join (((h.entries.zipIdx 1).drop (h.entries.length - n)).map listed) = _
  rw [hskip, hdrop, join_listed, Nat.add_comm]

/-- The listing of the last entries is the end of the whole listing. -/
theorem listing_split (h : History) (n : Nat) :
    h.listing none = numbered 1 (h.entries.take (h.skipped n)) ++ h.listing (some n) := by
  rw [listing_none, listing_some]
  conv_lhs => rw [← List.take_append_drop (h.skipped n) h.entries, numbered_append, h.length_take_skipped n, Nat.add_comm]

end History

namespace Builtin

variable {V : Type} {outlet : Outlet V} {heard : OutStream → V → Bytes} {b : Builtin} {args : List String} {w : World}

/-- The call ends with this result, after it has written exactly this text, to this stream. -/
def Answers (b : Builtin) (args : List String) (w : World) (outlet : Outlet V) (heard : OutStream → V → Bytes) (v : V)
    (stream : OutStream) (text : String) (result : Except StageError Unit) : Prop :=
  let (outcome, v') := (b.action args w).1.deliver b.name outlet v
  outcome = .result result ∧ heard stream v' = heard stream v ++ Bytes.ofString text ∧
    ∀ other, other ≠ stream → heard other v' = heard other v

/-- On streams that take everything, what a builtin means to say and how it means to end is what it does. -/
theorem answers_of_records (h : outlet.Records heard) {stream : OutStream} {text : String}
    {result : Except StageError Unit} (hsay : (b.action args w).1.say = some (stream, text))
    (hresult : (b.action args w).1.outcome = .result result) (v : V) :
    b.Answers args w outlet heard v stream text result := by
  obtain ⟨v', hsays, hheard, hothers⟩ := h.says stream text v
  unfold Answers
  rw [Reply.deliver_of_says hsay hsays, hresult]
  exact ⟨rfl, hheard, hothers⟩

theorem answers_listing (h : outlet.Records heard) {last : Option Nat}
    (haction : history.action args w = listHistory last w) (v : V) :
    history.Answers args w outlet heard v .stdout (w.history.listing last) (.ok ()) := by
  have hheld : w.lockHistory.history = w.history := (World.alters_lockHistory w).history
  apply answers_of_records h
  · rw [haction, ← hheld]
    rfl
  · rw [haction]
    rfl

theorem action_argument {arg : String} (harg : arg ∉ ["-r", "-w", "-a"]) (rest : List String) (w : World) :
    history.action (arg :: rest) w = match Text.count? arg with
      | some n => listHistory (some n) w
      | none => (.fail "history" s!"history: {arg}: numeric argument required\n" 2, w) := by
  simp only [List.mem_cons, List.not_mem_nil, or_false, not_or] at harg
  obtain ⟨hr, hw, ha⟩ := harg
  show runHistory (arg :: rest) w = _
  unfold runHistory
  split
  · next heq => cases heq
  · next heq => cases heq; exact absurd rfl hr
  · next heq => cases heq; exact absurd rfl hw
  · next heq => cases heq; exact absurd rfl ha
  · next heq => cases heq; rfl

/-- An argument of `history` that is no option is a count or is refused. A count gives the last so many entries, all of
    them if there are not that many, as they stand in the whole listing. -/
theorem history_argument (h : outlet.Records heard) {arg : String} (harg : arg ∉ ["-r", "-w", "-a"])
    (rest : List String) (w : World) (v : V) :
    (∀ n, Text.IsCount arg n →
      let before := w.history.skipped n
      let first := History.numbered 1 (w.history.entries.take before)
      let last := History.numbered (before + 1) (w.history.entries.drop before)
      history.Answers (arg :: rest) w outlet heard v .stdout last (.ok ()) ∧
      history.Answers [] w outlet heard v .stdout (first ++ last) (.ok ())) ∧
    ((∀ n, ¬Text.IsCount arg n) →
      history.Answers (arg :: rest) w outlet heard v .stderr s!"history: {arg}: numeric argument required\n"
        (.error (.exited "history" 2))) := by
  have haction := action_argument harg rest w
  constructor
  · intro n hcount before first last
    have hlast : w.history.listing (some n) = last := w.history.listing_some n
    have hall : w.history.listing none = first ++ last := by
      rw [← hlast]
      exact w.history.listing_split n
    rw [Text.count?_eq_some.mpr hcount] at haction
    rw [← hall, ← hlast]
    exact ⟨answers_listing h haction v, answers_listing h rfl v⟩
  · intro hnone
    rw [Text.count?_eq_none.mpr hnone] at haction
    apply answers_of_records h
    · rw [haction]
      rfl
    · rw [haction]
      rfl

/-- A plus sign and zeros in front of a count, and the least number that is too large for one. -/
theorem history_argument_at_limits :
    let w : World := { files := ⟨[]⟩, cwd := [], host := default, history := { entries := ["ls", "pwd", "exit"] } }
    let outlet := Stage.Outputs.outlet ⟨.standard .stdout, .standard .stderr⟩
    outlet.Records World.heard ∧ "+002" ∉ ["-r", "-w", "-a"] ∧ "18446744073709551616" ∉ ["-r", "-w", "-a"] ∧
    Text.IsCount "+002" 2 ∧ (∀ n, ¬Text.IsCount "18446744073709551616" n) ∧
    history.Answers ["+002"] w outlet World.heard w .stdout "    2  pwd\n    3  exit\n" (.ok ()) ∧
    history.Answers [] w outlet World.heard w .stdout "    1  ls\n    2  pwd\n    3  exit\n" (.ok ()) ∧
    history.Answers ["18446744073709551616"] w outlet World.heard w .stderr
      "history: 18446744073709551616: numeric argument required\n" (.error (.exited "history" 2)) := by
  intro w outlet
  have hrecords : outlet.Records World.heard := Stage.Outputs.records_standard
  have hcount : Text.IsCount "+002" 2 := Text.count?_eq_some.mp (by decide +kernel)
  have hlarge : ∀ n, ¬Text.IsCount "18446744073709551616" n := Text.count?_eq_none.mp (by decide +kernel)
  have hfirst : History.numbered 1 (w.history.entries.take (w.history.skipped 2)) = "    1  ls\n" := by decide +kernel
  have hlines : History.numbered (w.history.skipped 2 + 1) (w.history.entries.drop (w.history.skipped 2)) =
      "    2  pwd\n    3  exit\n" := by
    decide +kernel
  have hanswers := (history_argument hrecords (by decide : "+002" ∉ ["-r", "-w", "-a"]) [] w w).1 2 hcount
  simp only [hfirst, hlines] at hanswers
  have hrefused := (history_argument hrecords (by decide : "18446744073709551616" ∉ ["-r", "-w", "-a"]) [] w w).2 hlarge
  exact ⟨hrecords, by decide, by decide, hcount, hlarge, hanswers.1, hanswers.2, hrefused⟩

end Builtin

end CommandShell
