/-
  CommandShell.Proofs.Command.RoundTrip — commands written as a line are read back from it.

  Words and targets are written in single quotes, so they may hold any characters. A layout is one way to write
  a command: its words in order, with the redirections put anywhere among them.
  - `quoted_segments`: a text in single quotes is a spelling of the text;
  - `Layout.reads`, `written_reads`: the tokens of a written command, and of a written line;
  - `Layout.Of.command_eq`: the clause of a layout means the command it lays out;
  - `pipelineOf_tokensOf_written`: the commands of a written line are those it was written for.
-/

import CommandShell.Proofs.Command.Meaning
import CommandShell.Proofs.Token.Spelling
import CommandShell.Text.Quoted
import Mathlib.Data.List.Forall2

namespace CommandShell

/-! ## Written commands -/

/-- What stands between two spaces of a written command: a word, or an operator with its target. -/
inductive Piece where
  | word (text : String)
  | redirection (mark : Mark) (how : OpenMode) (target : String)
  deriving DecidableEq, Repr

namespace Piece

def chars : Piece → List Char
  | .word text => Text.quoted text.toList
  | .redirection mark how target => mark.chars ++ how.sign ++ ' ' :: Text.quoted target.toList

def word? : Piece → Option String
  | .word text => some text
  | .redirection _ _ _ => none

/-- The redirection, if it is one of this stream. -/
def redirection? (stream : OutStream) : Piece → Option Redirection
  | .word _ => none
  | .redirection mark how target => if mark.stream = stream then some ⟨how, target⟩ else none

def tokens : Piece → List Token
  | .word text => [.word text]
  | .redirection mark how target => [.redirect mark.stream how, .word target]

/-- The texts of the piece have characters, without which there would be no word. -/
def Inked : Piece → Prop
  | .word text => text ≠ ""
  | .redirection _ _ target => target ≠ ""

end Piece

structure Layout where
  pieces : List Piece
  /-- How many spaces there are between the pieces beyond the one that must be. -/
  gaps : List Nat := []
  deriving DecidableEq, Repr

namespace Layout

def chars (l : Layout) : List Char := spread l.gaps (l.pieces.map Piece.chars)

def tokens (l : Layout) : List Token := l.pieces.flatMap Piece.tokens

/-- The layout is one of this command: its words in order, and each redirection once, anywhere. -/
structure Of (l : Layout) (c : Command) : Prop where
  words : l.pieces.filterMap Piece.word? = c.argv
  stdout : l.pieces.filterMap (Piece.redirection? .stdout) = c.stdout.toList
  stderr : l.pieces.filterMap (Piece.redirection? .stderr) = c.stderr.toList

end Layout

/-- The line that lays out a pipeline. -/
def written (layouts : List Layout) : String := " | ".intercalate (layouts.map fun l => String.ofList l.chars)

/-- A command that can be written: it has words, and none of its texts is empty. -/
structure Command.Writable (c : Command) : Prop where
  argv : c.argv ≠ []
  words : ∀ text ∈ c.argv, text ≠ ""
  stdout : ∀ r ∈ c.stdout, r.target ≠ ""
  stderr : ∀ r ∈ c.stderr, r.target ≠ ""

/-! ## The tokens of a written line -/

/-- Quotes around a text spell it: its runs without quotes in turn, and an escaped quote between them. -/
theorem quoted_segments (cs : List Char) : ∃ run hr, ∃ xs : List Segment,
    Text.quoted cs = (Segment.single run hr :: xs).flatMap Segment.chars ∧
      (Segment.single run hr :: xs).flatMap Segment.text = cs := by
  induction cs with
  | nil => exact ⟨[], by simp, [], rfl, rfl⟩
  | cons c cs ih =>
    obtain ⟨run, hr, xs, hc, ht⟩ := ih
    by_cases e : c = '\''
    · refine ⟨[], by simp, .escaped c :: .single run hr :: xs, ?_, ?_⟩
      · rw [List.flatMap_cons, List.flatMap_cons, ← hc, e]
        rfl
      · rw [List.flatMap_cons, List.flatMap_cons, ht]
        rfl
    · refine ⟨c :: run, by simp [hr, Ne.symm e], xs, ?_, ?_⟩
      · simp only [Text.quoted, Text.quoteBody, if_neg e, List.flatMap_cons, Segment.chars] at hc ⊢
        simpa using hc
      · simpa [Segment.text] using ht

theorem quoted_reads {text : String} (h : text ≠ "") : Reads (Text.quoted text.toList) [.word text] := by
  obtain ⟨run, hr, xs, hc, ht⟩ := quoted_segments text.toList
  have hne : (Segment.single run hr :: xs).flatMap Segment.text ≠ [] := by
    rw [ht]
    simpa using h
  have hx := (Lexeme.word _ hne).reads
  rw [hc]
  rwa [Lexeme.token, ht, String.ofList_toList] at hx

theorem Piece.reads (p : Piece) (h : p.Inked) : Reads p.chars p.tokens := by
  cases p with
  | word text => exact quoted_reads h
  | redirection mark how target => exact (Lexeme.operator mark how).reads.space (quoted_reads h)

theorem Layout.reads (l : Layout) (h : ∀ p ∈ l.pieces, p.Inked) : Reads l.chars l.tokens :=
  Reads.spread (fun p hp => p.reads (h p hp)) l.gaps

/-- A pipe with its spaces stands between two texts of a line. -/
theorem Reads.piped {a b : List Char} {ts us : List Token} (ha : Reads a ts) (hb : Reads b us) :
    Reads (a ++ " | ".toList ++ b) (ts ++ [.pipe] ++ us) := by
  have h := ha.space (Lexeme.pipe.reads.space hb)
  simpa [Lexeme.chars, Lexeme.token] using h

theorem written_reads {layouts : List Layout} (h : ∀ l ∈ layouts, ∀ p ∈ l.pieces, p.Inked) :
    Reads (written layouts).toList ([Token.pipe].intercalate (layouts.map Layout.tokens)) := by
  induction layouts with
  | nil => exact Reads.nil
  | cons l ls ih =>
    have hl := l.reads (h l (by simp))
    have hls := ih fun l' hl' => h l' (by simp [hl'])
    cases ls with
    | nil => simpa [written] using hl
    | cons l' ls =>
      have e : (written (l :: l' :: ls)).toList = l.chars ++ " | ".toList ++ (written (l' :: ls)).toList := by
        simp [written]
      rw [e, List.map_cons, List.map_cons, List.intercalate_cons_cons]
      exact hl.piped hls

/-! ## The meaning of a layout -/

theorem arguments_pieces (ps : List Piece) :
    Clause.arguments (ps.flatMap Piece.tokens) = ps.filterMap Piece.word? := by
  induction ps with
  | nil => rfl
  | cons p ps ih => cases p <;> simp [Piece.tokens, Piece.word?, ih, List.filterMap_cons]

theorem lastOf_pieces (stream : OutStream) (ps : List Piece) :
    Clause.lastOf stream (Clause.bindings (ps.flatMap Piece.tokens)) =
      (ps.filterMap (Piece.redirection? stream)).getLast? := by
  induction ps with
  | nil => rfl
  | cons p ps ih =>
    cases p with
    | word text => simpa [Piece.tokens, Piece.redirection?] using ih
    | redirection mark how target =>
      simp only [Piece.tokens, List.flatMap_cons, List.cons_append, List.nil_append, Clause.bindings_target,
        Clause.lastOf_cons, ih, Piece.redirection?, List.filterMap_cons]
      by_cases e : mark.stream = stream
      · simp [e, List.getLast?_cons]
      · simp [e]

theorem Layout.Of.command_eq {l : Layout} {c : Command} (h : l.Of c) : Clause.command l.tokens = c := by
  have last : ∀ o : Option Redirection, o.toList.getLast? = o := fun o => by cases o <;> rfl
  simp only [Clause.command, Layout.tokens, arguments_pieces, lastOf_pieces, h.words, h.stdout, h.stderr, last]

theorem Layout.inner_tokens (l : Layout) : Inner l.tokens := by
  intro t ht
  obtain ⟨p, -, hp⟩ := List.mem_flatMap.mp ht
  cases p with
  | word text => simp only [Piece.tokens, List.mem_singleton] at hp; subst hp; simp
  | redirection mark how target =>
    simp only [Piece.tokens, List.mem_cons, List.not_mem_nil, or_false] at hp
    rcases hp with rfl | rfl <;> simp

/-- A layout of a command with words is kept, and is that command. -/
theorem Layout.Of.kept_eq {l : Layout} {c : Command} (h : l.Of c) (hc : c.argv ≠ []) : kept l.tokens = [c] := by
  rw [kept, h.command_eq]
  simp [hc]

theorem pipelineOf_layouts {layouts : List Layout} {commands : List Command}
    (h : List.Forall₂ Layout.Of layouts commands) (hc : ∀ c ∈ commands, c.argv ≠ []) :
    pipelineOf ([Token.pipe].intercalate (layouts.map Layout.tokens) ++ [.eof]) = commands := by
  induction h with
  | nil =>
    have h : pipelineOf ([] ++ [.eof]) = kept [] := pipelineOf_ended (by simp [Inner]) []
    exact h
  | @cons l c ls cs hl hls ih =>
    have hk := hl.kept_eq (hc c (by simp))
    have ih := ih fun c' hc' => hc c' (by simp [hc'])
    cases hls with
    | nil =>
      rw [List.map_cons, List.map_nil, List.intercalate_singleton, pipelineOf_ended l.inner_tokens, hk]
    | cons hl' hls =>
      rw [List.map_cons, List.map_cons, List.intercalate_cons_cons, List.append_assoc, List.append_assoc,
        List.singleton_append, pipelineOf_piped l.inner_tokens, hk]
      rw [List.map_cons] at ih
      rw [ih]
      rfl

/-! ## There and back -/

theorem Layout.Of.inked {l : Layout} {c : Command} (h : l.Of c) (hc : c.Writable) : ∀ p ∈ l.pieces, p.Inked := by
  intro p hp
  cases p with
  | word text =>
    refine hc.words text ?_
    rw [← h.words]
    exact List.mem_filterMap.mpr ⟨_, hp, rfl⟩
  | redirection mark how target =>
    have hr : ⟨how, target⟩ ∈ l.pieces.filterMap (Piece.redirection? mark.stream) :=
      List.mem_filterMap.mpr ⟨_, hp, by simp [Piece.redirection?]⟩
    cases hs : mark.stream with
    | stdout => rw [hs, h.stdout] at hr; exact hc.stdout _ (Option.mem_toList.mp hr)
    | stderr => rw [hs, h.stderr] at hr; exact hc.stderr _ (Option.mem_toList.mp hr)

theorem inked_of_layouts {layouts : List Layout} {commands : List Command} (hl : List.Forall₂ Layout.Of layouts commands)
    (hc : ∀ c ∈ commands, c.Writable) : ∀ l ∈ layouts, ∀ p ∈ l.pieces, p.Inked := by
  induction hl with
  | nil => simp
  | cons ho _ ih =>
    intro l hm
    rcases List.mem_cons.mp hm with rfl | hm
    · exact ho.inked (hc _ (by simp))
    · exact ih (fun c hc' => hc c (by simp [hc'])) l hm

/-- Commands written as a line are read back from it: whatever characters their words and targets have, wherever
    among the words each redirection stands, and however standard output is named. -/
theorem pipelineOf_tokensOf_written (commands : List Command) (hc : ∀ c ∈ commands, c.Writable) (layouts : List Layout)
    (hl : List.Forall₂ Layout.Of layouts commands) : pipelineOf (tokensOf (written layouts)) = commands := by
  rw [(written_reads (inked_of_layouts hl hc)).tokensOf]
  exact pipelineOf_layouts hl fun c hm => (hc c hm).argv

/-- A command whose texts are made of quotes, backslashes, spaces and signs, with a redirection before and one
    among its words, twice in a pipeline. -/
theorem written_signs_read_back :
    let c : Command :=
      { argv := ["echo", "it's \\", "1>|"]
        stdout := some ⟨.append, "2 >"⟩
        stderr := some ⟨.truncate, "'"⟩ }
    let l : Layout :=
      { pieces := [.redirection .two .truncate "'", .word "echo", .word "it's \\", .redirection .one .append "2 >",
          .word "1>|"]
        gaps := [3] }
    l.Of c ∧ c.Writable ∧ pipelineOf (tokensOf (written [l, l])) = [c, c] := by
  intro c l
  have hl : l.Of c := ⟨rfl, rfl, rfl⟩
  have hc : c.Writable := ⟨by simp [c], by simp [c], by simp [c], by simp [c]⟩
  refine ⟨hl, hc, pipelineOf_tokensOf_written [c, c] ?_ [l, l] (.cons hl (.cons hl .nil))⟩
  intro c' hm
  simp only [List.mem_cons, List.not_mem_nil, or_false, or_self] at hm
  rw [hm]
  exact hc

end CommandShell
