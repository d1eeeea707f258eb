/-
  CommandShell.Proofs.Completion.FirstWord — a completed word and what the scanner makes of it.

  Completion takes any white space for a gap and knows nothing of quotes; the scanner separates words at plain spaces
  only, and gives quotes, backslashes and signs a meaning. So a word that was filled in is read as that word
  - if only spaces stand before it, since other white space is a part of the word (`blank_kept`), and
  - if none of its characters has a meaning of its own (`tokensOf_gap_word`),
  and otherwise never is: no quoting makes up for what it drops (`offered_word_read_back`).
-/

import CommandShell.Proofs.Completion.Offers
import CommandShell.Proofs.Token.Kept

namespace CommandShell

/-! ## Gaps -/

/-- White space other than the space stands for itself. -/
theorem plain_of_blank {c : Char} (hb : Text.isBlank c = true) (hc : c ≠ ' ') : Plain c := by
  have ne : ∀ d : Char, Text.isBlank d = false → c ≠ d := by
    rintro d hd rfl
    rw [hb] at hd
    cases hd
  exact ⟨ne _ (by decide), ne _ (by decide), ne _ (by decide), hc, ne _ (by decide), ne _ (by decide)⟩

namespace Scanner

theorem run_space_start (rest : List Char) : start.run (' ' :: rest) = start.run rest := by
  have h : Move start (' ' :: rest) start rest := Move.space rfl
  exact h.run_eq

theorem run_spaces_start {gap : List Char} (h : ∀ c ∈ gap, c = ' ') (rest : List Char) :
    start.run (gap ++ rest) = start.run rest := by
  induction gap with
  | nil => rfl
  | cons c gap ih =>
    obtain rfl : c = ' ' := h c (by simp)
    rw [List.cons_append, run_space_start]
    exact ih fun d hd => h d (by simp [hd])

/-- White space is a gap of spaces only, or some of it begins the first word. -/
theorem blank_kept {gap : List Char} (hgap : ∀ c ∈ gap, Text.isBlank c = true) (rest : List Char) :
    (∀ c ∈ gap, c = ' ') ∨ ∃ c, Text.isBlank c = true ∧ [c] <+: (start.run (gap ++ rest)).kept := by
  induction gap with
  | nil => exact .inl (by simp)
  | cons c gap ih =>
    have hc := hgap c (by simp)
    by_cases hspace : c = ' '
    · subst hspace
      rw [List.cons_append, run_space_start]
      rcases ih fun d hd => hgap d (by simp [hd]) with hall | hkept
      · exact .inl (by simpa using hall)
      · exact .inr hkept
    · have hn : ¬ start.NumbersOperator c (gap ++ rest) := by
        rintro ⟨-, rfl | rfl, -, -⟩
        · exact absurd hc (by decide)
        · exact absurd hc (by decide)
      refine .inr ⟨c, hc, ?_⟩
      rw [List.cons_append, run_plain rfl (plain_of_blank hc hspace) hn]
      exact kept_isPrefix (start.take c) (gap ++ rest)

end Scanner

open Scanner in
/-- A word behind white space, with at most a space behind it, is read as itself if and only if that white space is
    spaces and the word has no character with a meaning of its own. -/
theorem tokensOf_gap_word {gap d tail : List Char} (hgap : ∀ c ∈ gap, Text.isBlank c = true)
    {first : Char} (hfirst : d.head? = some first) (hsolid : Text.isBlank first = false)
    (htail : tail = [] ∨ tail = [' ']) :
    tokensOf (String.ofList (gap ++ (d ++ tail))) = [.word (String.ofList d), .eof] ↔
      (∀ c ∈ gap, c = ' ') ∧ ∀ c ∈ d, Plain c := by
  have hspace : d.head? ≠ some ' ' := by
    rw [hfirst]
    rintro ⟨rfl⟩
    cases hsolid
  rw [tokensOf, String.toList_ofList]
  constructor
  · intro h
    have hspaces : ∀ c ∈ gap, c = ' ' := by
      rcases blank_kept hgap (d ++ tail) with hall | ⟨c, hc, hkept⟩
      · exact hall
      · -- other white space would be the first character of the word
        rw [(finish_eq_word h).2, String.toList_ofList] at hkept
        obtain ⟨more, rfl⟩ := hkept
        cases hfirst
        rw [hc] at hsolid
        cases hsolid
    rw [run_spaces_start hspaces] at h
    exact ⟨hspaces, plain_of_finish hspace htail h⟩
  · rintro ⟨hspaces, hplain⟩
    have hne : d ≠ [] := by
      rintro rfl
      cases hfirst
    let word : Lexeme := .word [.bare d hplain] (by simpa [Segment.text] using hne)
    have hreads : Reads (d ++ tail) [word.token] := by
      have hchars : word.chars = d := by simp [word, Lexeme.chars, Segment.chars]
      rcases htail with rfl | rfl
      · simpa [spaces, hchars] using word.reads.padded 0 0
      · simpa [spaces, hchars] using word.reads.padded 0 1
    have hline : Reads (String.ofList (d ++ tail)).toList [word.token] := by
      rw [String.toList_ofList]
      exact hreads
    have htokens := hline.tokensOf
    rw [tokensOf, String.toList_ofList] at htokens
    rw [run_spaces_start hspaces, htokens]
    simp [word, Lexeme.token, Segment.text]

namespace Completion

variable {words : PrefixTree} {line : String} {pos : Nat}

/-- There is one text up to a byte. -/
theorem IsSlice.head_unique {n : Nat} {a b : String} (ha : IsSlice line 0 n a) (hb : IsSlice line 0 n b) : a = b := by
  rw [← String.ofList_toList (s := a), ← takeBytes_eq_some_iff_isSlice] at ha
  rw [← String.ofList_toList (s := b), ← takeBytes_eq_some_iff_isSlice, ha, Option.some.injEq] at hb
  exact String.toList_inj.mp hb

theorem isPrefix_of_mem_startingWith {stem name : String} (h : name ∈ words.startingWith stem) :
    stem.toList <+: name.toList := by
  unfold PrefixTree.startingWith at h
  split at h
  · obtain ⟨tail, -, rfl⟩ := List.mem_map.mp h
    rw [String.toList_ofList]
    exact List.prefix_append ..
  · cases h

/-- A candidate goes on from what was typed, and at most a space is put behind it. -/
theorem exists_typed {c : Candidate} (hc : c ∈ (offer words line pos).candidates) :
    ∃ blank stem tail, Typed line pos blank stem ∧ (offer words line pos).start = blank.utf8ByteSize ∧
      stem.toList <+: c.display.toList ∧ c.replacement.toList = c.display.toList ++ tail ∧ (tail = [] ∨ tail = [' ']) := by
  cases ho : offer? words line pos with
  | none =>
    rw [offer, ho] at hc
    cases hc
  | some o =>
    obtain ⟨blank, stem, ht⟩ := typed_of_offer? ho
    have hoffer : offer words line pos = ⟨blank.utf8ByteSize, candidates (words.startingWith stem)⟩ := by
      rw [offer, offer?_of_typed words ht]
      rfl
    rw [hoffer] at hc ⊢
    have hname : c.display ∈ words.startingWith stem := by
      rw [← display_candidates (words.startingWith stem)]
      exact List.mem_map_of_mem hc
    have hreplacement := replacement_candidates _ c hc
    split at hreplacement
    · exact ⟨blank, stem, [' '], ht, rfl, isPrefix_of_mem_startingWith hname, by simp [hreplacement], .inr rfl⟩
    · exact ⟨blank, stem, [], ht, rfl, isPrefix_of_mem_startingWith hname, by simp [hreplacement], .inl rfl⟩

/-- A candidate that is put into its place is read as the word that was shown if and only if only spaces stand before
    it and none of its characters has a meaning of its own. -/
theorem offered_word_read_back (words : PrefixTree) (line : String) (pos : Nat) (c : Candidate)
    (hc : c ∈ (offer words line pos).candidates) :
    ∃ before, IsSlice line 0 (offer words line pos).start before ∧
      (∀ other, IsSlice line 0 (offer words line pos).start other → other = before) ∧
      (tokensOf (before ++ c.replacement) = [.word c.display, .eof] ↔
        (∀ x ∈ before.toList, x = ' ') ∧ ∀ x ∈ c.display.toList, Plain x) := by
  obtain ⟨blank, stem, tail, ht, hstart, hstem, hreplacement, htail⟩ := exists_typed hc
  have hbefore : IsSlice line 0 (offer words line pos).start blank := by
    rw [hstart]
    exact ht.isSlice_blank
  refine ⟨blank, hbefore, fun other ho => ho.head_unique hbefore, ?_⟩
  -- the word begins with what was typed, so not with white space
  obtain ⟨first, rest, hfirst⟩ : ∃ first rest, stem.toList = first :: rest := by
    refine List.exists_cons_of_ne_nil ?_
    simpa using ht.nonempty
  have hhead : c.display.toList.head? = some first := by
    obtain ⟨more, he⟩ := hstem
    rw [← he, hfirst]
    rfl
  have hread := tokensOf_gap_word ht.blank hhead (ht.solid first (by simp [hfirst])) htail
  rw [← hreplacement, String.ofList_append, String.ofList_toList, String.ofList_toList, String.ofList_toList] at hread
  exact hread

/-- Of two candidates the one with a quote in it is not read back. -/
theorem offered_word_read_back_unless_quoted :
    (offer (.ofWords ["it's", "is"]) " i" 2).candidates = [⟨"is", "is"⟩, ⟨"it's", "it's"⟩] ∧
      tokensOf (" " ++ "is") = [.word "is", .eof] ∧ tokensOf (" " ++ "it's") ≠ [.word "it's", .eof] := by
  have ho : offer (.ofWords ["it's", "is"]) " i" 2 = ⟨1, [⟨"is", "is"⟩, ⟨"it's", "it's"⟩]⟩ := by decide +kernel
  have hgap : IsSlice " i" 0 (offer (.ofWords ["it's", "is"]) " i" 2).start " " := by
    rw [ho]
    exact ⟨"", "i", by decide, by decide, by decide⟩
  obtain ⟨before, -, honly, hplain⟩ := offered_word_read_back (.ofWords ["it's", "is"]) " i" 2 ⟨"is", "is"⟩ (by simp [ho])
  obtain ⟨before', -, honly', hquoted⟩ :=
    offered_word_read_back (.ofWords ["it's", "is"]) " i" 2 ⟨"it's", "it's"⟩ (by simp [ho])
  rw [← honly " " hgap] at hplain
  rw [← honly' " " hgap] at hquoted
  refine ⟨by rw [ho], hplain.mpr ⟨by simp, fun x hx => ?_⟩, fun h => ?_⟩
  · have hx : x = 'i' ∨ x = 's' := by simpa using hx
    rcases hx with rfl | rfl <;> decide
  · exact absurd ((hquoted.mp h).2 '\'' (by simp)) (by decide)

end Completion

end CommandShell
