/-
  CommandShell.Completion.PrefixTree — a set of words, kept by their common beginnings.

  The branches at one place stand in increasing order of their characters, so that the words of a tree come out
  in order.
-/

namespace CommandShell

/-- The branches at one place of a tree. A branch has a character, tells whether a word ends with it, and leads
    to the branches below it; `after` are the branches that stand behind it. -/
inductive Branches where
  | none
  | branch (c : Char) (isWord : Bool) (below after : Branches)
  deriving DecidableEq, Repr

namespace Branches

def single : List Char → Branches
  | [] => .none
  | c :: cs => .branch c cs.isEmpty (single cs) .none

def insert : Branches → List Char → Branches
  | bs, [] => bs
  | .none, c :: cs => single (c :: cs)
  | .branch d isWord below after, c :: cs =>
    if c = d then .branch d (isWord || cs.isEmpty) (below.insert cs) after
    else if c < d then .branch c cs.isEmpty (single cs) (.branch d isWord below after)
    else .branch d isWord below (after.insert (c :: cs))

def words : Branches → List (List Char)
  | .none => []
  | .branch c isWord below after =>
    (if isWord then [[c]] else []) ++ below.words.map (c :: ·) ++ after.words

end Branches

/-- A place in the tree: does a word end here, and how can words go on? -/
structure PrefixTree where
  isWord : Bool := false
  branches : Branches := .none
  deriving DecidableEq, Repr

def Branches.walk : Branches → List Char → Option PrefixTree
  | _, [] => Option.none
  | .none, _ :: _ => Option.none
  | .branch d isWord below after, c :: cs =>
    if c = d then (if cs.isEmpty then some ⟨isWord, below⟩ else below.walk cs)
    else after.walk (c :: cs)

namespace PrefixTree

def empty : PrefixTree := {}

def insert (t : PrefixTree) (word : String) : PrefixTree :=
  { isWord := t.isWord || word.toList.isEmpty, branches := t.branches.insert word.toList }

def ofWords (words : List String) : PrefixTree := words.foldl insert empty

/-- What follows from this place, in order. -/
def tails (t : PrefixTree) : List (List Char) :=
  (if t.isWord then [[]] else []) ++ t.branches.words

def walk (t : PrefixTree) (stem : List Char) : Option PrefixTree :=
  if stem.isEmpty then some t else t.branches.walk stem

def startingWith (t : PrefixTree) (stem : String) : List String :=
  match t.walk stem.toList with
  | some place => place.tails.map fun tail => String.ofList (stem.toList ++ tail)
  | none => []

end PrefixTree

end CommandShell
