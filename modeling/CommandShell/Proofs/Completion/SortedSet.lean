/-
  CommandShell.Proofs.Completion.SortedSet — a prefix tree is the sorted set of its words.

  The branches at a place stand in strictly increasing order (`Branches.Ordered`), which inserting keeps. So there is
  one way to follow a stem, and the words come out in increasing order of their characters.
  - `mem_tails_insert`, `mem_tails_ofWords`: the words of a tree are those that were inserted;
  - `Branches.append_mem_words`: the place that a stem leads to has the words with that stem;
  - `startingWith_ofWords`: what is found is the set of the inserted words with the stem, in increasing order.
-/

import CommandShell.Completion.PrefixTree
import Mathlib.Data.Char
import Mathlib.Data.List.Lex
import Mathlib.Data.List.Sort

namespace CommandShell

namespace Branches

/-- The characters of the branches at one place. -/
def heads : Branches → List Char
  | .none => []
  | .branch c _ _ after => c :: after.heads

/-- At every place the branches stand in strictly increasing order. -/
def Ordered : Branches → Prop
  | .none => True
  | .branch c _ below after => below.Ordered ∧ after.Ordered ∧ ∀ d ∈ after.heads, c < d

variable {b below after : Branches} {c d : Char} {cs t stem : List Char} {isWord : Bool} {place : PrefixTree}

/-! ## The words along the branches -/

@[simp] theorem mem_words_branch : cs ∈ (branch c isWord below after).words ↔
    cs = [c] ∧ isWord = true ∨ (∃ t ∈ below.words, c :: t = cs) ∨ cs ∈ after.words := by
  cases isWord <;> simp [words]

/-- A word begins with one of the branches. -/
theorem head_mem_heads : c :: cs ∈ b.words → c ∈ b.heads := by
  induction b with
  | none => simp [words]
  | branch d isWord below after _ ih =>
    intro h
    rcases mem_words_branch.mp h with ⟨he, -⟩ | ⟨t, -, he⟩ | h
    · cases he
      simp [heads]
    · cases he
      simp [heads]
    · simp [heads, ih h]

theorem nil_notMem_words : [] ∉ b.words := by
  induction b with
  | none => simp [words]
  | branch d isWord below after _ ih => simp [ih]

/-- A word of its own in front of other branches. -/
@[simp] theorem words_branch_single (c : Char) (cs : List Char) (after : Branches) :
    (branch c cs.isEmpty (single cs) after).words = (c :: cs) :: after.words := by
  induction cs generalizing c after with
  | nil => simp [single, words]
  | cons d cs ih =>
    have hbelow : (single (d :: cs)).words = [d :: cs] := ih d .none
    simp [words, hbelow]

@[simp] theorem heads_single (c : Char) (cs : List Char) : (single (c :: cs)).heads = [c] := rfl

theorem ordered_single (cs : List Char) : (single cs).Ordered := by
  induction cs with
  | nil => trivial
  | cons c cs ih => exact ⟨ih, trivial, by simp [heads]⟩

/-! ## Inserting -/

theorem mem_heads_insert : d ∈ (b.insert (c :: cs)).heads ↔ d = c ∨ d ∈ b.heads := by
  induction b with
  | none => simp [insert, heads]
  | branch e isWord below after _ ih =>
    unfold insert
    split
    · next h => simp [h, heads]
    · split
      · simp [heads]
      · simp only [heads, List.mem_cons, ih]
        tauto

/-- Inserting a word adds that word and nothing else. -/
theorem mem_words_insert (b : Branches) (word : List Char) :
    cs ∈ (b.insert word).words ↔ cs ∈ b.words ∨ cs = word ∧ word ≠ [] := by
  fun_induction insert b word generalizing cs with
  | case1 b => simp
  | case2 c word => simp [single, words]
  | case3 d isWord below after word ih =>
    cases word with
    | nil =>
      simp only [mem_words_branch, ih, List.isEmpty_nil, Bool.or_true]
      grind
    | cons e word =>
      simp only [mem_words_branch, ih, List.isEmpty_cons, Bool.or_false]
      grind
  | case4 d isWord below after c word hne hlt =>
    rw [words_branch_single, List.mem_cons]
    grind
  | case5 d isWord below after c word hne hlt ih =>
    simp only [mem_words_branch, ih]
    grind

theorem ordered_insert (h : b.Ordered) (word : List Char) : (b.insert word).Ordered := by
  fun_induction insert b word with
  | case1 b => exact h
  | case2 c word => exact ordered_single _
  | case3 d isWord below after word ih =>
    obtain ⟨hbelow, hafter, hlt⟩ := h
    exact ⟨ih hbelow, hafter, hlt⟩
  | case4 d isWord below after c word hne hlt =>
    refine ⟨ordered_single word, h, ?_⟩
    -- what stands behind `d` is greater than `d`, and so than `c`
    intro e he
    rcases List.mem_cons.mp he with rfl | he
    · exact hlt
    · exact hlt.trans (h.2.2 e he)
  | case5 d isWord below after c word hne hlt ih =>
    obtain ⟨hbelow, hafter, hhead⟩ := h
    refine ⟨hbelow, ih hafter, ?_⟩
    intro e he
    rcases mem_heads_insert.mp he with rfl | he
    · exact lt_of_le_of_ne (not_lt.mp hlt) (Ne.symm hne)
    · exact hhead e he

/-! ## Order -/

theorem pairwise_words (h : b.Ordered) : b.words.Pairwise (· < ·) := by
  induction b with
  | none => simp [words]
  | branch c isWord below after ihbelow ihafter =>
    obtain ⟨hbelow, hafter, hhead⟩ := h
    have hcons : (below.words.map (c :: ·)).Pairwise (· < ·) :=
      List.pairwise_map.mpr ((ihbelow hbelow).imp fun hlt => List.cons_lt_cons_iff.mpr (.inr ⟨rfl, hlt⟩))
    -- words behind this branch begin with a greater character
    have hbehind : ∀ t, ∀ u ∈ after.words, c :: t < u := by
      intro t u hu
      cases u with
      | nil => exact absurd hu nil_notMem_words
      | cons d u => exact List.cons_lt_cons_iff.mpr (.inl (hhead d (head_mem_heads hu)))
    have hword : ∀ t ∈ below.words, [c] < c :: t := by
      intro t ht
      cases t with
      | nil => exact absurd ht nil_notMem_words
      | cons d t => exact List.cons_lt_cons_iff.mpr (.inr ⟨rfl, List.nil_lt_cons d t⟩)
    unfold words
    refine List.pairwise_append.mpr ⟨List.pairwise_append.mpr ⟨?_, hcons, ?_⟩, ihafter hafter, ?_⟩
    · split <;> simp
    · intro u hu v hv
      obtain ⟨t, ht, rfl⟩ := List.mem_map.mp hv
      split at hu <;> simp at hu
      subst hu
      exact hword t ht
    · intro u hu v hv
      rcases List.mem_append.mp hu with hu | hu
      · split at hu <;> simp at hu
        subst hu
        exact hbehind [] v hv
      · obtain ⟨t, -, rfl⟩ := List.mem_map.mp hu
        exact hbehind t v hv

/-! ## Following a stem -/

theorem ordered_walk (h : b.Ordered) (hw : b.walk stem = some place) : place.branches.Ordered := by
  fun_induction walk b stem with
  | case1 => cases hw
  | case2 => cases hw
  | case3 isWord below after d cs hnil =>
    cases hw
    exact h.1
  | case4 isWord below after d cs hcons ih => exact ih h.1 hw
  | case5 d isWord below after c cs hne ih => exact ih h.2.1 hw

/-- The words with a stem are those of the place that it leads to. -/
theorem append_mem_words (h : b.Ordered) (hs : stem ≠ []) :
    stem ++ t ∈ b.words ↔ ∃ place, b.walk stem = some place ∧ t ∈ place.tails := by
  fun_induction walk b stem with
  | case1 => exact absurd rfl hs
  | case2 => simp [words]
  | case3 isWord below after d cs hnil =>
    obtain rfl := List.isEmpty_iff.mp hnil
    have hbehind : d :: t ∉ after.words := fun hm => absurd (h.2.2 d (head_mem_heads hm)) (lt_irrefl d)
    cases isWord <;> simp [PrefixTree.tails, hbehind, or_comm]
  | case4 isWord below after d cs hcons ih =>
    have hcs : cs ≠ [] := fun he => hcons (by simp [he])
    have hbehind : d :: (cs ++ t) ∉ after.words := fun hm => absurd (h.2.2 d (head_mem_heads hm)) (lt_irrefl d)
    rw [← ih h.1 hcs]
    simp [hbehind, hcs]
  | case5 d isWord below after c cs hne ih =>
    rw [← ih h.2.1 (by simp)]
    simp [hne, Ne.symm hne]

end Branches

namespace PrefixTree

open Branches

variable {t : PrefixTree} {cs : List Char}

/-! ## The words of a tree -/

@[simp] theorem mem_tails : cs ∈ t.tails ↔ cs = [] ∧ t.isWord = true ∨ cs ∈ t.branches.words := by
  unfold tails
  split <;> simp [*]

theorem mem_tails_insert (t : PrefixTree) (word : String) :
    cs ∈ (t.insert word).tails ↔ cs ∈ t.tails ∨ cs = word.toList := by
  simp only [mem_tails, insert, mem_words_insert, Bool.or_eq_true, List.isEmpty_iff]
  grind

/-- After any number of insertions, in any order, the tree has the words that it had and those that were inserted. -/
theorem mem_tails_foldl (words : List String) :
    ∀ t : PrefixTree, cs ∈ (words.foldl insert t).tails ↔ cs ∈ t.tails ∨ ∃ word ∈ words, cs = word.toList := by
  induction words with
  | nil => intro t; simp
  | cons word rest ih =>
    intro t
    rw [List.foldl_cons, ih, mem_tails_insert]
    simp [or_assoc]

theorem mem_tails_ofWords (words : List String) : cs ∈ (ofWords words).tails ↔ ∃ word ∈ words, cs = word.toList := by
  rw [ofWords, mem_tails_foldl]
  simp [empty, Branches.words]

theorem ordered_ofWords (words : List String) : (ofWords words).branches.Ordered := by
  suffices h : ∀ t : PrefixTree, t.branches.Ordered → (words.foldl insert t).branches.Ordered from h empty trivial
  induction words with
  | nil => intro t ht; exact ht
  | cons word rest ih => intro t ht; exact ih _ (ordered_insert ht word.toList)

theorem pairwise_tails (h : t.branches.Ordered) : t.tails.Pairwise (· < ·) := by
  unfold tails
  refine List.pairwise_append.mpr ⟨?_, pairwise_words h, ?_⟩
  · split <;> simp
  · intro u hu v hv
    split at hu <;> simp at hu
    subst hu
    cases v with
    | nil => exact absurd hv nil_notMem_words
    | cons c v => exact List.nil_lt_cons c v

/-! ## Searching -/

theorem ordered_walk {stem : List Char} {place : PrefixTree} (h : t.branches.Ordered)
    (hw : t.walk stem = some place) : place.branches.Ordered := by
  unfold walk at hw
  split at hw
  · cases hw
    exact h
  · exact Branches.ordered_walk h hw

theorem append_mem_tails (h : t.branches.Ordered) (stem : List Char) :
    stem ++ cs ∈ t.tails ↔ ∃ place, t.walk stem = some place ∧ cs ∈ place.tails := by
  cases stem with
  | nil => simp [walk]
  | cons c stem =>
    rw [mem_tails, append_mem_words h (by simp)]
    simp [walk]

/-- What is found are the words with the stem. -/
theorem mem_startingWith (h : t.branches.Ordered) (stem word : String) :
    word ∈ t.startingWith stem ↔ word.toList ∈ t.tails ∧ stem.toList <+: word.toList := by
  have hfound : word ∈ t.startingWith stem ↔
      ∃ place, t.walk stem.toList = some place ∧ ∃ tail ∈ place.tails, stem.toList ++ tail = word.toList := by
    unfold startingWith
    split
    · next place hw =>
      simp only [hw, List.mem_map, Option.some.injEq, exists_eq_left']
      refine exists_congr fun tail => and_congr_right fun _ => ?_
      rw [← String.toList_inj, String.toList_ofList]
    · next hw => simp [hw]
  rw [hfound]
  constructor
  · rintro ⟨place, hw, tail, htail, he⟩
    rw [← he]
    exact ⟨(append_mem_tails h _).mpr ⟨place, hw, htail⟩, List.prefix_append ..⟩
  · rintro ⟨hword, tail, he⟩
    rw [← he] at hword
    obtain ⟨place, hw, htail⟩ := (append_mem_tails h _).mp hword
    exact ⟨place, hw, tail, htail, he⟩

/-- Words come out in increasing order of their characters, each once. -/
theorem pairwise_startingWith (h : t.branches.Ordered) (stem : String) :
    (t.startingWith stem).Pairwise fun a b => a.toList < b.toList := by
  unfold startingWith
  split
  · next place hw =>
    refine List.pairwise_map.mpr ((pairwise_tails (ordered_walk h hw)).imp fun {a b} hlt => ?_)
    rw [String.toList_ofList, String.toList_ofList]
    exact List.Lex.append_left _ hlt _
  · exact List.Pairwise.nil

/-- A search finds exactly the inserted words that begin with the stem, each once, in strictly increasing order of
    their characters. So in what order and how often words were inserted makes no difference. -/
theorem startingWith_ofWords (words : List String) (stem : String) :
    (∀ word, word ∈ (ofWords words).startingWith stem ↔ word ∈ words ∧ stem.toList <+: word.toList) ∧
      ((ofWords words).startingWith stem).Pairwise (fun a b => a.toList < b.toList) ∧
      ∀ others : List String, (∀ word, word ∈ others ↔ word ∈ words) →
        (ofWords others).startingWith stem = (ofWords words).startingWith stem := by
  have hmem : ∀ words : List String, ∀ word,
      word ∈ (ofWords words).startingWith stem ↔ word ∈ words ∧ stem.toList <+: word.toList := by
    intro words word
    rw [mem_startingWith (ordered_ofWords words), mem_tails_ofWords]
    simp [String.toList_inj]
  have hsorted := fun words => pairwise_startingWith (ordered_ofWords words) stem
  refine ⟨hmem words, hsorted words, fun others hsame => ?_⟩
  -- two lists in strictly increasing order with the same members are the same list
  have : Std.Irrefl fun a b : String => a.toList < b.toList := ⟨fun a => lt_irrefl a.toList⟩
  have : Std.Antisymm fun a b : String => a.toList < b.toList := ⟨fun a b h h' => absurd h (lt_asymm h')⟩
  refine (hsorted others).eq_of_mem_iff (hsorted words) fun word => ?_
  rw [hmem, hmem, hsame]

/-- Words that are inserted twice or in another order are found as they are. -/
theorem startingWith_ofWords_again :
    (∀ word, word ∈ ["b", "ab", "", "a", "b"] ↔ word ∈ ["", "a", "ab", "b"]) ∧
      (ofWords ["b", "ab", "", "a", "b"]).startingWith "a" = (ofWords ["", "a", "ab", "b"]).startingWith "a" := by
  have hsame : ∀ word, word ∈ ["b", "ab", "", "a", "b"] ↔ word ∈ ["", "a", "ab", "b"] := by
    intro word
    simp only [List.mem_cons, List.not_mem_nil]
    tauto
  exact ⟨hsame, (startingWith_ofWords ["", "a", "ab", "b"] "a").2.2 _ hsame⟩

example : (ofWords ["b", "ab", "", "a", "b"]).startingWith "a" = ["a", "ab"] := by decide +kernel

end PrefixTree

end CommandShell
