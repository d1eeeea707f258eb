/-
  CommandShell.Proofs.History.Lines — entries on disk and back.

  On disk an entry is written as it is, with a newline behind it; reading cuts at every newline, takes a carriage
  return off, trims, and drops what is blank.
  - `lines_storedLine`: a stored entry is read as the lines that it has;
  - `load_eq`: what loading adds to a history, counts and fails with;
  - `textLines_stored`: stored entries can always be read.
-/

import CommandShell.History
import CommandShell.Proofs.Text.Native
import Mathlib.Data.List.DropRight

namespace CommandShell

namespace Bytes

theorem newline_notMem_ofString {s : String} (h : '\n' ∉ s.toList) : newline ∉ ofString s :=
  fun hm => h ((mem_ofString (by decide)).mp hm)

/-! ## Lines -/

theorem linesFrom_finished {line : Bytes} (h : newline ∉ line) (rest : Bytes) : ∀ start,
    linesFrom start (line ++ newline :: rest) = dropReturn (start.reverse ++ line) :: lines rest := by
  induction line with
  | nil => intro start; simp [linesFrom, lines]
  | cons b line ih =>
    intro start
    have hb : b ≠ newline := fun he => h (by simp [he])
    simp [linesFrom, hb, ih fun hm => h (by simp [hm])]

/-- A newline ends a line. -/
theorem lines_finished {line : Bytes} (h : newline ∉ line) (rest : Bytes) :
    lines (line ++ newline :: rest) = dropReturn line :: lines rest := by
  exact linesFrom_finished h rest []

theorem newline_notMem_dropReturn {line : Bytes} (h : newline ∉ line) : newline ∉ dropReturn line := by
  unfold dropReturn
  split
  · exact fun hm => h (List.dropLast_subset line hm)
  · exact h

/-- No line has a newline in it. -/
theorem newline_notMem_linesFrom (b : Bytes) :
    ∀ start, newline ∉ start → ∀ line ∈ linesFrom start b, newline ∉ line := by
  induction b with
  | nil =>
    intro start h line hl
    simp only [linesFrom] at hl
    split at hl
    · cases hl
    · simpa [List.mem_singleton.mp hl] using h
  | cons b rest ih =>
    intro start h line hl
    simp only [linesFrom] at hl
    split at hl
    · rcases List.mem_cons.mp hl with rfl | hl
      · exact newline_notMem_dropReturn (by simpa using h)
      · exact ih [] (by simp) line hl
    · next hb => exact ih (b :: start) (by simp [h, Ne.symm hb]) line hl

/-- A text without a carriage return at its end. -/
def unreturned (s : String) : String := if s.toList.getLast? = some '\r' then String.ofList s.toList.dropLast else s

theorem getLast?_ofString (s : String) :
    (ofString s).getLast? = some carriageReturn ↔ s.toList.getLast? = some '\r' := by
  rcases List.eq_nil_or_concat s.toList with hs | ⟨front, c, hs⟩
  · simp [ofString, hs]
  · simp only [ofString, hs, List.concat_eq_append, List.flatMap_append, List.flatMap_singleton, List.getLast?_append,
      List.getLast?_singleton]
    rcases hb : (String.utf8EncodeChar c).getLast? with _ | b
    · exact absurd (List.getLast?_eq_none_iff.mp hb) (by simp)
    · simp only [Option.some_or, Option.some.injEq]
      constructor
      · rintro rfl
        exact eq_of_mem_encodeChar (by decide) (List.mem_of_getLast? hb)
      · rintro rfl
        exact (Option.some.inj hb).symm

theorem dropReturn_ofString (s : String) : dropReturn (ofString s) = ofString (unreturned s) := by
  unfold dropReturn unreturned
  by_cases h : s.toList.getLast? = some '\r'
  · rw [if_pos ((getLast?_ofString s).mpr h), if_pos h]
    obtain ⟨front, hs⟩ := List.getLast?_eq_some_iff.mp h
    have hcr : String.utf8EncodeChar '\r' = [carriageReturn] := rfl
    simp [ofString, hs, hcr]
  · rw [if_neg fun hl => h ((getLast?_ofString s).mp hl), if_neg h]

theorem lines_splitAux (cs : List Char) (rest : Bytes) : ∀ item : List Char, '\n' ∉ item →
    lines (ofString (String.ofList (item.reverse ++ cs)) ++ newline :: rest) =
      (Path.splitAux item '\n' cs).map (fun piece => ofString (unreturned (String.ofList piece))) ++ lines rest := by
  induction cs with
  | nil =>
    intro item h
    have hm : newline ∉ ofString (String.ofList item.reverse) := newline_notMem_ofString (by simpa using h)
    simp [Path.splitAux, lines_finished hm, dropReturn_ofString]
  | cons c cs ih =>
    intro item h
    by_cases hc : c = '\n'
    · subst hc
      have hm : newline ∉ ofString (String.ofList item.reverse) := newline_notMem_ofString (by simpa using h)
      have hsplit : ofString (String.ofList (item.reverse ++ '\n' :: cs)) =
          ofString (String.ofList item.reverse) ++ newline :: ofString (String.ofList cs) := by
        simp [ofString, String.utf8EncodeChar, newline]
      rw [hsplit, List.append_assoc, List.cons_append, lines_finished hm, dropReturn_ofString]
      simpa [Path.splitAux] using ih [] (by simp)
    · simpa [Path.splitAux, hc] using ih (c :: item) (by simp [h, Ne.symm hc])

end Bytes

namespace Path

theorem splitAux_eq_singleton {α : Type} [DecidableEq α] {sep : α} (cs : List α) : ∀ item, sep ∉ cs →
    splitAux item sep cs = [item.reverse ++ cs] := by
  induction cs with
  | nil => intro item _; simp [splitAux]
  | cons c cs ih =>
    intro item h
    have hc : c ≠ sep := fun he => h (by simp [he])
    simp [splitAux, hc, ih (c :: item) fun hm => h (by simp [hm])]

theorem split_eq_singleton {sep : Char} {text : String} (h : sep ∉ text.toList) : split sep text = [text] := by
  simp [split, splitAux_eq_singleton text.toList [] h]

theorem sep_notMem_splitAux {α : Type} [DecidableEq α] {sep : α} (cs : List α) : ∀ item, sep ∉ item →
    ∀ piece ∈ splitAux item sep cs, sep ∉ piece := by
  induction cs with
  | nil => intro item h piece hp; simpa [List.mem_singleton.mp hp] using h
  | cons c cs ih =>
    intro item h piece hp
    simp only [splitAux] at hp
    split at hp
    · rcases List.mem_cons.mp hp with rfl | hp
      · simpa using h
      · exact ih [] (by simp) piece hp
    · next hc => exact ih (c :: item) (by simp [h, Ne.symm hc]) piece hp

theorem sep_notMem_split {sep : Char} {text piece : String} (h : piece ∈ split sep text) : sep ∉ piece.toList := by
  obtain ⟨cs, hcs, rfl⟩ := List.mem_map.mp h
  simpa using sep_notMem_splitAux text.toList [] (by simp) cs hcs

end Path

namespace Text

/-! ## Trimming -/

theorem trimEnd_append_blank (cs : List Char) {c : Char} (h : isBlank c = true) : trimEnd (cs ++ [c]) = trimEnd cs := by
  simp [trimEnd, h]

theorem trim_unreturned (s : String) : trim (Bytes.unreturned s) = trim s := by
  unfold Bytes.unreturned
  split
  · next h =>
    obtain ⟨front, hs⟩ := List.getLast?_eq_some_iff.mp h
    have hcr : isBlank '\r' = true := by decide
    simp only [trim, hs, List.dropLast_concat, String.toList_ofList, trimStart, List.dropWhile_append]
    by_cases hf : (front.dropWhile isBlank).isEmpty = true
    · rw [if_pos hf]
      simp [List.isEmpty_iff.mp hf, hcr, trimEnd]
    · rw [if_neg hf, trimEnd_append_blank _ hcr]
  · rfl

/-- No white space stands at the beginning or at the end. -/
structure Tight (s : String) : Prop where
  head : ∀ c, s.toList.head? = some c → isBlank c = false
  last : ∀ c, s.toList.getLast? = some c → isBlank c = false

theorem dropWhile_eq_self {cs : List Char} (h : ∀ c, cs.head? = some c → isBlank c = false) :
    cs.dropWhile isBlank = cs := by
  cases cs with
  | nil => rfl
  | cons c cs => simp [h c rfl]

theorem trim_of_tight {s : String} (h : Tight s) : trim s = s := by
  have hend : trimEnd s.toList = s.toList := by
    unfold trimEnd
    rw [dropWhile_eq_self (by simpa using h.last), List.reverse_reverse]
  rw [trim, trimStart, dropWhile_eq_self h.head, hend, String.ofList_toList]

theorem not_blank_of_head?_dropWhile {cs : List Char} {c : Char} (h : (cs.dropWhile isBlank).head? = some c) :
    isBlank c = false := by
  have := List.head?_dropWhile_not isBlank cs
  rwa [h] at this

/-- What is cut off at the end leaves the beginning. -/
theorem trimEnd_isPrefix (cs : List Char) : trimEnd cs <+: cs := by
  have h := List.reverse_prefix.mpr (List.dropWhile_suffix isBlank (l := cs.reverse))
  rwa [List.reverse_reverse] at h

theorem tight_trim (s : String) : Tight (trim s) where
  head c h := by
    rw [trim, String.toList_ofList] at h
    obtain ⟨more, hm⟩ := trimEnd_isPrefix (trimStart s.toList)
    have hhead : (trimStart s.toList).head? = some c := by rw [← hm, List.head?_append, h]; rfl
    exact not_blank_of_head?_dropWhile hhead
  last c h := by
    rw [trim, String.toList_ofList, trimEnd, List.getLast?_reverse] at h
    exact not_blank_of_head?_dropWhile h

/-- Nothing is left of a blank text, and of no other. -/
theorem trim_eq_empty_iff {s : String} : trim s = "" ↔ allBlank s = true := by
  have hend : ∀ cs : List Char, trimEnd cs = [] ↔ ∀ c ∈ cs, isBlank c = true := by
    intro cs
    simp [trimEnd, List.dropWhile_eq_nil_iff]
  rw [trim, String.ofList_eq_empty_iff, trimStart, hend, ← List.dropWhile_eq_nil_iff, List.dropWhile_idempotent,
    List.dropWhile_eq_nil_iff, allBlank, List.all_eq_true]

theorem mem_of_mem_trim {s : String} {c : Char} (h : c ∈ (trim s).toList) : c ∈ s.toList := by
  simp only [trim, trimEnd, trimStart, String.toList_ofList, List.mem_reverse] at h
  have h₁ := (List.dropWhile_sublist isBlank).mem h
  exact (List.dropWhile_sublist isBlank).mem (List.mem_reverse.mp h₁)

end Text

namespace History

/-! ## Loading -/

/-- The texts in front of the first line that cannot be read. -/
def readable : List (Except Fault String) → List String
  | .ok text :: rest => text :: readable rest
  | _ => []

/-- What is wrong with the first line that cannot be read. -/
def fault? : List (Except Fault String) → Option Fault
  | [] => none
  | .error fault :: _ => some fault
  | .ok _ :: rest => fault? rest

/-- The texts of all lines that can be read. -/
def texts (lines : List (Except Fault String)) : List String := lines.filterMap Except.toOption

/-- The entries that lines make: trimmed, and without the blank ones. -/
def entriesOf (texts : List String) : List String := (texts.map Text.trim).filter (· ≠ "")

@[simp] theorem entriesOf_append (ts ts' : List String) : entriesOf (ts ++ ts') = entriesOf ts ++ entriesOf ts' := by
  simp [entriesOf]

theorem entriesOf_cons (text : String) (ts : List String) :
    entriesOf (text :: ts) = if Text.trim text = "" then entriesOf ts else Text.trim text :: entriesOf ts := by
  by_cases h : Text.trim text = "" <;> simp [entriesOf, h]

theorem addLines_eq (lines : List (Except Fault String)) : ∀ h : History, h.addLines lines =
    ((fault? lines).elim (.ok (entriesOf (readable lines)).length) .error,
      { h with entries := h.entries ++ entriesOf (readable lines) }) := by
  induction lines with
  | nil => intro h; simp [addLines, fault?, readable, entriesOf]
  | cons line rest ih =>
    intro h
    cases line with
    | error fault => simp [addLines, fault?, readable, entriesOf]
    | ok text =>
      by_cases ht : Text.trim text = ""
      · simp [addLines, ht, ih, fault?, readable, entriesOf_cons]
      · have hne : (Text.trim text).isEmpty = false := by simpa using ht
        cases hf : fault? rest <;> simp [addLines, ht, hne, ih, fault?, hf, readable, entriesOf_cons, push, Except.map]

/-- What loading adds are the entries in front of the first line that cannot be read. Only if there is no such line
    the entries count as saved. -/
theorem load_eq (h : History) (lines : List (Except Fault String)) : h.load lines =
    match fault? lines with
    | none => (.ok (entriesOf (readable lines)).length,
        ⟨h.entries ++ entriesOf (readable lines), (h.entries ++ entriesOf (readable lines)).length⟩)
    | some fault => (.error fault, ⟨h.entries ++ entriesOf (readable lines), h.saved⟩) := by
  unfold load
  rw [addLines_eq]
  cases fault? lines <;> rfl

theorem readable_isPrefix (lines : List (Except Fault String)) : readable lines <+: texts lines := by
  induction lines with
  | nil => exact List.prefix_rfl
  | cons line rest ih =>
    cases line with
    | error fault => exact List.nil_prefix
    | ok text => exact List.cons_prefix_cons.mpr ⟨rfl, ih⟩

@[simp] theorem readable_map_ok (ts : List String) : readable (ts.map .ok) = ts := by
  induction ts with
  | nil => rfl
  | cons text ts ih => simp [readable, ih]

@[simp] theorem texts_map_ok (ts : List String) : texts (ts.map .ok) = ts := by
  induction ts with
  | nil => rfl
  | cons text ts ih => simpa [texts, Except.toOption] using ih

@[simp] theorem fault?_map_ok (ts : List String) : fault? (ts.map .ok) = none := by
  induction ts with
  | nil => rfl
  | cons text ts ih => simpa [fault?] using ih

/-! ## Storing and loading -/

/-- The bytes that entries are stored as. -/
def stored (entries : List String) : Bytes := entries.flatMap storedLine

/-- A stored entry is read as the lines that it has. -/
theorem lines_storedLine (entry : String) (rest : Bytes) : (storedLine entry ++ rest).lines =
    (Path.split '\n' entry).map (fun piece => Bytes.ofString (Bytes.unreturned piece)) ++ rest.lines := by
  have h := Bytes.lines_splitAux entry.toList rest [] (by simp)
  have hline : storedLine entry = Bytes.ofString entry ++ [Bytes.newline] := by
    rw [storedLine, Bytes.ofString_append]
    rfl
  simpa [hline, Path.split, Function.comp_def] using h

theorem lines_stored (entries : List String) : (stored entries).lines =
    (entries.flatMap (Path.split '\n')).map fun piece => Bytes.ofString (Bytes.unreturned piece) := by
  induction entries with
  | nil => rfl
  | cons entry rest ih =>
    rw [stored] at ih
    simp [stored, lines_storedLine, ih]

theorem textLines_stored (entries : List String) :
    Bytes.textLines (stored entries) = ((entries.flatMap (Path.split '\n')).map Bytes.unreturned).map .ok := by
  simp [Bytes.textLines, lines_stored, Bytes.toString?_ofString, Function.comp_def]

/-- The lines of a file have no newlines in them. -/
theorem newline_notMem_textLines {data : Bytes} {text : String} (h : .ok text ∈ Bytes.textLines data) :
    '\n' ∉ text.toList := by
  intro hc
  obtain ⟨line, hl, ht⟩ := List.mem_map.mp h
  split at ht <;> cases ht
  next hs =>
  refine Bytes.newline_notMem_linesFrom data [] (by simp) line hl ?_
  rw [Bytes.eq_ofString_of_toString? hs]
  exact List.mem_flatMap.mpr ⟨'\n', hc, by decide⟩

/-! ## Reading and appending -/

section Files

variable {W : Type} [Storage W]

/-- Appending leaves the history as it is, unless all that is new was written. -/
theorem appendTo_cases (path : Native) (h : History) (w : W) :
    (∃ fault w', h.appendTo path w = (.error fault, h, w')) ∨
      ∃ number w₁ w', Storage.openFile path .append w = (.ok number, w₁) ∧ writeEach number h.fresh w₁ = (.ok (), w') ∧
        h.appendTo path w = (.ok (), h.markSaved, w') := by
  unfold appendTo
  split
  · exact .inl ⟨_, _, rfl⟩
  · next number w₁ hopen =>
    split
    · next w' hwrite => exact .inr ⟨number, w₁, w', hopen, hwrite, rfl⟩
    · exact .inl ⟨_, _, rfl⟩

/-- Reading adds entries, and marks them as saved if it got to the end. -/
theorem readFrom_cases (path : Native) (h : History) (w : W) : ∃ added,
    (∃ fault, h.readFrom path w = (.error fault, ⟨h.entries ++ added, h.saved⟩)) ∨
      ∃ count, h.readFrom path w = (.ok count, ⟨h.entries ++ added, (h.entries ++ added).length⟩) := by
  unfold readFrom
  split
  · next fault _ => exact ⟨[], .inl ⟨fault, by simp⟩⟩
  · next lines _ =>
    refine ⟨entriesOf (readable lines), ?_⟩
    rw [load_eq]
    cases fault? lines with
    | none => exact .inr ⟨_, rfl⟩
    | some fault => exact .inl ⟨fault, rfl⟩

end Files

end History

end CommandShell
