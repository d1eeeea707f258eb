/-
  CommandShell.Proofs.Completion.Offers — what is offered for a cursor at any byte of any line.

  A position may lie beyond the line or inside a character. `IsSlice` says what stands between two bytes of a text, if
  anything does, and `Typed` that the cursor stands in or right behind the first word.
  - `takeBytes_eq_some`: the characters up to a byte, when a character ends there;
  - `offer?_of_typed`, `typed_of_offer?`: there is something to offer exactly at such a cursor;
  - `offer_exact`: the offer is made of the words that go on from what was typed, it stands where the word begins, and
    anywhere else it is empty and stands at the cursor.
-/

import CommandShell.Completion
import CommandShell.Proofs.Completion.SortedSet
import Mathlib.Data.List.TakeWhile

namespace CommandShell.Completion

/-! ## Bytes and characters -/

/-- From the byte `start` up to the byte `stop` a text is `part`; both bytes lie between characters. -/
def IsSlice (text : String) (start stop : Nat) (part : String) : Prop :=
  ∃ before after, text = before ++ part ++ after ∧ before.utf8ByteSize = start ∧ start + part.utf8ByteSize = stop

theorem byteLength_append (a b : List Char) : byteLength (a ++ b) = byteLength a + byteLength b := by
  induction a with
  | nil => simp [byteLength]
  | cons c a ih =>
    simp only [byteLength, List.cons_append, List.foldr_cons] at ih ⊢
    omega

theorem byteLength_cons (c : Char) (cs : List Char) : byteLength (c :: cs) = c.utf8Size + byteLength cs := rfl

theorem utf8ByteSize_ofList (cs : List Char) : (String.ofList cs).utf8ByteSize = byteLength cs := by
  induction cs with
  | nil => rfl
  | cons c cs ih => rw [String.ofList_cons, String.utf8ByteSize_append, String.utf8ByteSize_singleton, ih, byteLength_cons]

theorem byteLength_toList (s : String) : byteLength s.toList = s.utf8ByteSize := by
  rw [← utf8ByteSize_ofList, String.ofList_toList]

/-- The first bytes of a text are some of its characters if one of them ends there. -/
theorem takeBytes_eq_some {n : Nat} {cs head : List Char} :
    takeBytes n cs = some head ↔ ∃ rest, cs = head ++ rest ∧ byteLength head = n := by
  fun_induction takeBytes n cs generalizing head with
  | case1 cs =>
    constructor
    · intro h
      cases h
      exact ⟨cs, rfl, rfl⟩
    · rintro ⟨rest, -, hsize⟩
      cases head with
      | nil => rfl
      | cons c head =>
        have := c.utf8Size_pos
        rw [byteLength_cons] at hsize
        omega
  | case2 n =>
    constructor
    · intro h
      cases h
    · rintro ⟨rest, he, hsize⟩
      obtain ⟨rfl, -⟩ := List.append_eq_nil_iff.mp he.symm
      simp [byteLength] at hsize
  | case3 n c cs hc ih =>
    constructor
    · intro h
      obtain ⟨head', hh, rfl⟩ := Option.map_eq_some_iff.mp h
      obtain ⟨rest, rfl, hsize⟩ := ih.mp hh
      refine ⟨rest, rfl, ?_⟩
      rw [byteLength_cons]
      omega
    · rintro ⟨rest, he, hsize⟩
      cases head with
      | nil => simp [byteLength] at hsize
      | cons d head =>
        obtain ⟨rfl, rfl⟩ := List.cons_eq_cons.mp he
        rw [byteLength_cons] at hsize
        rw [ih.mpr ⟨rest, rfl, by omega⟩]
        rfl
  | case4 n c cs hc =>
    constructor
    · intro h
      cases h
    · rintro ⟨rest, he, hsize⟩
      cases head with
      | nil => simp [byteLength] at hsize
      | cons d head =>
        obtain ⟨rfl, -⟩ := List.cons_eq_cons.mp he
        rw [byteLength_cons] at hsize
        omega

theorem takeBytes_eq_some_iff_isSlice {line : String} {pos : Nat} {head : List Char} :
    takeBytes pos line.toList = some head ↔ IsSlice line 0 pos (String.ofList head) := by
  rw [takeBytes_eq_some]
  constructor
  · rintro ⟨rest, he, hsize⟩
    refine ⟨"", String.ofList rest, ?_, rfl, by rw [utf8ByteSize_ofList, hsize, Nat.zero_add]⟩
    rw [String.empty_append, ← String.ofList_append, ← he, String.ofList_toList]
  · rintro ⟨before, after, rfl, hbefore, hsize⟩
    have hempty : before = "" := String.utf8ByteSize_eq_zero_iff.mp hbefore
    refine ⟨after.toList, by simp [hempty], ?_⟩
    rw [← utf8ByteSize_ofList, ← hsize, Nat.zero_add]

/-! ## The first word -/

/-- Up to the byte `pos` a line is white space, `blank`, and then the beginning of a word, `stem`. -/
structure Typed (line : String) (pos : Nat) (blank stem : String) : Prop where
  head : IsSlice line 0 pos (blank ++ stem)
  blank : ∀ c ∈ blank.toList, Text.isBlank c = true
  nonempty : stem ≠ ""
  solid : ∀ c ∈ stem.toList, Text.isBlank c = false

namespace Typed

variable {line blank stem : String} {pos : Nat}

theorem takeBytes (h : Typed line pos blank stem) :
    Completion.takeBytes pos line.toList = some (blank.toList ++ stem.toList) := by
  rw [takeBytes_eq_some_iff_isSlice, ← String.toList_append, String.ofList_toList]
  exact h.head

theorem size (h : Typed line pos blank stem) : blank.utf8ByteSize + stem.utf8ByteSize = pos := by
  obtain ⟨before, after, -, -, hsize⟩ := h.head
  rw [← hsize, String.utf8ByteSize_append, Nat.zero_add]

/-- Trimming leaves what was typed of the word. -/
theorem trimStart (h : Typed line pos blank stem) : Text.trimStart (blank.toList ++ stem.toList) = stem.toList := by
  have hblank : blank.toList.dropWhile Text.isBlank = [] := List.dropWhile_eq_nil_iff.mpr h.blank
  have hstem : stem.toList.dropWhile Text.isBlank = stem.toList := by
    cases hs : stem.toList with
    | nil => rfl
    | cons c cs => simp [h.solid c (by simp [hs])]
  rw [Text.trimStart, List.dropWhile_append, hblank, hstem]
  rfl

/-- The word begins where the white space ends. -/
theorem isSlice (h : Typed line pos blank stem) : IsSlice line blank.utf8ByteSize pos stem := by
  obtain ⟨before, after, he, hbefore, -⟩ := h.head
  have hempty : before = "" := String.utf8ByteSize_eq_zero_iff.mp hbefore
  refine ⟨blank, after, ?_, rfl, h.size⟩
  rw [he, hempty, String.empty_append]

theorem isSlice_blank (h : Typed line pos blank stem) : IsSlice line 0 blank.utf8ByteSize blank := by
  obtain ⟨before, after, he, hbefore, -⟩ := h.head
  have hempty : before = "" := String.utf8ByteSize_eq_zero_iff.mp hbefore
  refine ⟨"", stem ++ after, ?_, rfl, Nat.zero_add _⟩
  rw [he, hempty, String.empty_append, String.empty_append, String.append_assoc]

theorem lt (h : Typed line pos blank stem) : blank.utf8ByteSize < pos := by
  have hpos : 0 < stem.utf8ByteSize := Nat.pos_of_ne_zero fun he => h.nonempty (String.utf8ByteSize_eq_zero_iff.mp he)
  have := h.size
  omega

end Typed

variable {words : PrefixTree} {line blank stem : String} {pos : Nat} {o : Offer}

theorem offer?_of_typed (words : PrefixTree) (h : Typed line pos blank stem) :
    offer? words line pos = some ⟨blank.utf8ByteSize, candidates (words.startingWith stem)⟩ := by
  have hword : (stem.toList.isEmpty || stem.toList.any Text.isBlank) = false := by simpa using ⟨h.nonempty, h.solid⟩
  have hstart : byteLength (blank.toList ++ stem.toList) - byteLength stem.toList = blank.utf8ByteSize := by
    rw [byteLength_append, byteLength_toList, Nat.add_sub_cancel]
  simp only [offer?, h.takeBytes, Option.bind_eq_bind, Option.bind_some, h.trimStart, hword, Bool.false_eq_true, if_false,
    hstart, String.ofList_toList]

theorem typed_of_offer? (h : offer? words line pos = some o) : ∃ blank stem, Typed line pos blank stem := by
  simp only [offer?, Option.bind_eq_bind, Option.bind_eq_some_iff] at h
  obtain ⟨head, hhead, h⟩ := h
  split at h
  · cases h
  · next hstem =>
    simp only [Bool.or_eq_true, List.isEmpty_iff, List.any_eq_true, not_or, not_exists, not_and] at hstem
    refine ⟨String.ofList (head.takeWhile Text.isBlank), String.ofList (Text.trimStart head), ?_, ?_, ?_, ?_⟩
    · rw [← String.ofList_append, Text.trimStart, List.takeWhile_append_dropWhile]
      exact takeBytes_eq_some_iff_isSlice.mp hhead
    · intro c hc
      rw [String.toList_ofList] at hc
      exact List.mem_takeWhile_imp hc
    · simpa using hstem.1
    · intro c hc
      rw [String.toList_ofList] at hc
      simpa using hstem.2 c hc

theorem offer_of_not_typed (words : PrefixTree) (h : ∀ blank stem, ¬ Typed line pos blank stem) :
    offer words line pos = ⟨pos, []⟩ := by
  cases ho : offer? words line pos with
  | none => rw [offer, ho]; rfl
  | some o =>
    obtain ⟨blank, stem, ht⟩ := typed_of_offer? ho
    exact absurd ht (h blank stem)

/-! ## The candidates -/

theorem display_candidates (names : List String) : (candidates names).map Candidate.display = names := by
  unfold candidates
  split
  · rfl
  · simp [Function.comp_def]

theorem length_candidates (names : List String) : (candidates names).length = names.length := by
  rw [← List.length_map (f := Candidate.display), display_candidates]

/-- Only a single candidate brings a space along. -/
theorem replacement_candidates (names : List String) : ∀ c ∈ candidates names,
    c.replacement = if names.length = 1 then c.display ++ " " else c.display := by
  intro c hc
  unfold candidates at hc
  split at hc
  · cases List.mem_singleton.mp hc
    rfl
  · next hmany =>
    obtain ⟨name, -, rfl⟩ := List.mem_map.mp hc
    have hlength : names.length ≠ 1 := by
      intro hone
      obtain ⟨a, ha⟩ := List.length_eq_one_iff.mp hone
      exact hmany a ha
    rw [if_neg hlength]

/-- What an offer has to be when `stem` was typed behind `blank`. -/
structure Completes (words : List String) (line : String) (pos : Nat) (blank stem : String) (o : Offer) : Prop where
  displays : ∀ word, word ∈ o.candidates.map Candidate.display ↔ word ∈ words ∧ stem.toList <+: word.toList
  increasing : (o.candidates.map Candidate.display).Pairwise fun a b => a.toList < b.toList
  start : o.start = blank.utf8ByteSize
  start_lt : o.start < pos
  replaced : IsSlice line o.start pos stem
  replacement : ∀ c ∈ o.candidates, c.replacement = if o.candidates.length = 1 then c.display ++ " " else c.display

theorem completes_offer (words : List String) (h : Typed line pos blank stem) :
    Completes words line pos blank stem (offer (.ofWords words) line pos) := by
  have ho : offer (.ofWords words) line pos =
      ⟨blank.utf8ByteSize, candidates ((PrefixTree.ofWords words).startingWith stem)⟩ := by
    rw [offer, offer?_of_typed _ h]
    rfl
  have hordered := PrefixTree.ordered_ofWords words
  rw [ho]
  refine ⟨fun word => ?_, ?_, rfl, h.lt, h.isSlice, fun c hc => ?_⟩
  · rw [display_candidates, PrefixTree.mem_startingWith hordered, PrefixTree.mem_tails_ofWords]
    simp [String.toList_inj]
  · rw [display_candidates]
    exact PrefixTree.pairwise_startingWith hordered stem
  · rw [length_candidates]
    exact replacement_candidates _ c hc

/-- The piece that is left of a text when it is trimmed can be cut out of it by bytes. -/
theorem isSlice_trimStart (head : List Char) : byteLength (Text.trimStart head) ≤ byteLength head ∧
    IsSlice (String.ofList head) (byteLength head - byteLength (Text.trimStart head)) (byteLength head)
      (String.ofList (Text.trimStart head)) := by
  have hparts : head.takeWhile Text.isBlank ++ Text.trimStart head = head := List.takeWhile_append_dropWhile
  have hsize : byteLength (head.takeWhile Text.isBlank) + byteLength (Text.trimStart head) = byteLength head := by
    rw [← byteLength_append, hparts]
  refine ⟨by omega, String.ofList (head.takeWhile Text.isBlank), "", ?_, ?_, ?_⟩
  · rw [String.append_empty, ← String.ofList_append, hparts]
  · rw [utf8ByteSize_ofList]
    omega
  · rw [utf8ByteSize_ofList]
    omega

/-- The offer at any byte of any line. Behind white space and the beginning of a word it has exactly the words that
    begin like that, each once and in increasing order, and stands where the word begins; a candidate that is the only
    one has a space behind it. Anywhere else nothing is offered, at the cursor itself. What is cut out of the line on
    the way is always there to be cut out. -/
theorem offer_exact (words : List String) (line : String) (pos : Nat) :
    (∀ blank stem, Typed line pos blank stem →
      Completes words line pos blank stem (offer (.ofWords words) line pos)) ∧
    ((∀ blank stem, ¬ Typed line pos blank stem) → offer (.ofWords words) line pos = ⟨pos, []⟩) ∧
    ∀ head, takeBytes pos line.toList = some head → IsSlice line 0 pos (String.ofList head) ∧
      byteLength (Text.trimStart head) ≤ byteLength head ∧
      IsSlice (String.ofList head) (byteLength head - byteLength (Text.trimStart head)) (byteLength head)
        (String.ofList (Text.trimStart head)) := by
  refine ⟨fun blank stem ht => completes_offer words ht, offer_of_not_typed _, fun head hhead => ?_⟩
  exact ⟨takeBytes_eq_some_iff_isSlice.mp hhead, isSlice_trimStart head⟩

/-- White space of several bytes and a letter of two: the word begins at the fourth byte, and the only candidate for it
    brings a space along. Inside the letter there is nothing to offer. -/
theorem offer_exact_behind_wide_blank :
    Typed "\u3000é x" 5 "\u3000" "é" ∧
      offer (.ofWords ["zoo", "état", "e"]) "\u3000é x" 5 = ⟨3, [⟨"état", "état "⟩]⟩ ∧
      (∀ c ∈ (offer (.ofWords ["zoo", "état", "e"]) "\u3000é x" 5).candidates, c.replacement = c.display ++ " ") ∧
      (∀ blank stem, ¬ Typed "\u3000é x" 4 blank stem) ∧
      offer (.ofWords ["zoo", "état", "e"]) "\u3000é x" 4 = ⟨4, []⟩ := by
  have hblank : "\u3000".toList.all Text.isBlank = true := by decide +kernel
  have hsolid : "é".toList.any Text.isBlank = false := by decide +kernel
  have ht : Typed "\u3000é x" 5 "\u3000" "é" := by
    refine ⟨⟨"", " x", by decide, by decide, by decide⟩, List.all_eq_true.mp hblank, by decide, fun c hc => ?_⟩
    simpa using List.any_eq_false.mp hsolid c hc
  have ho : offer (.ofWords ["zoo", "état", "e"]) "\u3000é x" 5 = ⟨3, [⟨"état", "état "⟩]⟩ := by decide +kernel
  have hinside : ∀ blank stem, ¬ Typed "\u3000é x" 4 blank stem := by
    intro blank stem h
    have hnone : takeBytes 4 "\u3000é x".toList = none := by decide +kernel
    rw [h.takeBytes] at hnone
    cases hnone
  have hexact := offer_exact ["zoo", "état", "e"] "\u3000é x"
  have hcompletes := (hexact 5).1 _ _ ht
  refine ⟨ht, ho, fun c hc => ?_, hinside, (hexact 4).2.1 hinside⟩
  have hreplacement := hcompletes.replacement c hc
  rwa [ho] at hreplacement

end CommandShell.Completion
