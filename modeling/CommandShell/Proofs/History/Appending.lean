/-
  CommandShell.Proofs.History.Appending — every entry is appended once.

  A history is used in turns: lines are pushed, files are read, written and appended to, and meanwhile others may
  change the files. Any use of a file may fail, at any point. What holds of one turn (`saved_turn`, `grows_turn`,
  `content_append`) gives what holds of every run of turns from an empty history:
  - `turns_cut`: before each turn, the entries that count as saved are those up to the last mark;
  - `append_discipline`: an append adds to its file the entries from that mark on, so that no two of them add the
    same entry.
-/

import CommandShell.Proofs.World.Files

namespace CommandShell

open Storage

/-- Storage with regular files, to the end of which one can write. -/
class RegularFiles (W : Type) [Storage W] where
  /-- The path leads to a regular file, be it there or not. -/
  IsRegular : Native → W → Prop
  content : Native → W → Bytes
  /-- What is written to the open file of this number goes behind what the file of the path holds. -/
  WritesAtEnd : Nat → Native → W → Prop
  openFile_ok {path : Native} {number : Nat} {w w' : W} : IsRegular path w →
    openFile path .append w = (.ok number, w') → WritesAtEnd number path w' ∧ content path w' = content path w
  writeFile_ok {path : Native} {number : Nat} {data : Bytes} {w w' : W} : WritesAtEnd number path w →
    writeFile number data w = (.ok (), w') → WritesAtEnd number path w' ∧ content path w' = content path w ++ data

/-- What the file that a path leads to holds. -/
def World.contentOf (path : Native) (w : World) : Bytes :=
  ((w.files.filePlace? w.cwd path).map w.files.contentAt).getD []

theorem World.contentOf_eq {w : World} {path : Native} {l : Location} {bits : Permissions} {data : Bytes}
    (hp : w.files.filePlace? w.cwd path = some l) (hn : w.files.node? l = some (.file bits data)) :
    w.contentOf path = data := by
  simp [contentOf, hp, FileSystem.contentAt, hn]

instance : RegularFiles World where
  IsRegular path w := (w.files.filePlace? w.cwd path).isSome = true
  content := World.contentOf
  WritesAtEnd number path w :=
    ∃ l bits, w.files.filePlace? w.cwd path = some l ∧ w.WritesAtEnd number l bits (w.contentOf path)
  openFile_ok {path number w w'} hr he := by
    obtain ⟨l, hp⟩ := Option.isSome_iff_exists.mp hr
    have he : w.openFile path .append = (.ok number, w') := he
    have ho := World.openable_of_openFile hp (congrArg Prod.fst he)
    cases he.symm.trans (World.openFile_place hp ho .append)
    have hend := World.writesAtEnd_opened (FileSystem.mayHoldFile_of_filePlace? hp) .append
    have hp' := (World.alters_opened l .append w).filePlace? hp (.inr ⟨_, _, hend.1⟩)
    have hc : w.files.contentAt l = w.contentOf path := by simp [World.contentOf, hp]
    have hc' := World.contentOf_eq hp' hend.1
    exact ⟨⟨l, _, hp', hc'.symm ▸ hend⟩, hc'.trans hc⟩
  writeFile_ok {path number data w w'} h he := by
    obtain ⟨l, bits, hp, hend⟩ := h
    obtain ⟨-, hend'⟩ := World.writeFile_atEnd hend data
    have halters := World.alters_writeFile_at hend.openAt data
    have he : w.writeFile number data = (.ok (), w') := he
    rw [he] at hend' halters
    have hp' := halters.filePlace? hp (.inr ⟨_, _, hend'.1⟩)
    have hc' := World.contentOf_eq hp' hend'.1
    exact ⟨⟨l, bits, hp', hc'.symm ▸ hend'⟩, hc'⟩

namespace History

/-! ## Turns -/

/-- What can be done with a history, or meanwhile to the files. -/
inductive Deed (W : Type) where
  | push (line : String)
  | read (path : Native)
  | write (path : Native)
  | append (path : Native)
  | meanwhile (change : W → W)

/-- One deed, and what it met and left. -/
structure Turn (W : Type) where
  deed : Deed W
  before : History
  worldBefore : W
  answer : Except Fault Unit
  after : History
  worldAfter : W

/-- The number of entries behind which the next append begins, if this turn sets it. -/
def Turn.mark? {W : Type} (t : Turn W) : Option Nat :=
  match t.deed, t.answer with
  | .read _, .ok _ => some t.after.entries.length
  | .append _, .ok _ => some t.after.entries.length
  | _, _ => none

/-- The latest mark of these turns. -/
def lastMark {W : Type} (ts : List (Turn W)) : Nat := (ts.filterMap Turn.mark?).getLast?.getD 0

theorem lastMark_concat {W : Type} (past : List (Turn W)) (t : Turn W) :
    lastMark (past ++ [t]) = t.mark?.getD (lastMark past) := by
  cases hm : t.mark? <;> simp [lastMark, hm]

/-- The turn appended to a file, with success. -/
def Turn.Appended {W : Type} (t : Turn W) : Prop := (∃ path, t.deed = .append path) ∧ t.answer = .ok ()

/-- The entry of this index is one that an append behind these turns writes. -/
def Turn.Writes {W : Type} (earlier : List (Turn W)) (t : Turn W) (i : Nat) : Prop :=
  lastMark earlier ≤ i ∧ i < t.before.entries.length

section Turns

variable {W : Type} [Storage W]

def Deed.perform : Deed W → History → W → Except Fault Unit × History × W
  | .push line, h, w => (.ok (), h.push line, w)
  | .read path, h, w => let (answer, h) := h.readFrom path w; (answer.map fun _ => (), h, w)
  | .write path, h, w => let (answer, w) := h.writeTo path w; (answer, h, w)
  | .append path, h, w => h.appendTo path w
  | .meanwhile change, h, w => (.ok (), h, change w)

def Deed.turn (deed : Deed W) (h : History) (w : W) : Turn W :=
  let (answer, h', w') := deed.perform h w
  ⟨deed, h, w, answer, h', w'⟩

/-- The turns that deeds make, one after the other. -/
def turns : List (Deed W) → History → W → List (Turn W)
  | [], _, _ => []
  | deed :: rest, h, w => deed.turn h w :: turns rest (deed.turn h w).after (deed.turn h w).worldAfter

/-! ## One turn -/

variable (deed : Deed W) (h : History) (w : W)

/-- What counts as saved moves to the mark of the turn. -/
theorem saved_turn : (deed.turn h w).after.saved = (deed.turn h w).mark?.getD h.saved := by
  cases deed with
  | push line => rfl
  | write path => rfl
  | meanwhile change => rfl
  | read path =>
    obtain ⟨added, ⟨fault, he⟩ | ⟨count, he⟩⟩ := readFrom_cases path h w <;>
      simp [Deed.turn, Deed.perform, he, Turn.mark?, Except.map]
  | append path =>
    rcases appendTo_cases path h w with ⟨fault, w', he⟩ | ⟨_, _, w', -, -, he⟩ <;>
      simp [Deed.turn, Deed.perform, he, Turn.mark?, markSaved]

theorem grows_turn : h.entries <+: (deed.turn h w).after.entries := by
  cases deed with
  | push line => exact List.prefix_append ..
  | write path => exact List.prefix_rfl
  | meanwhile change => exact List.prefix_rfl
  | read path =>
    obtain ⟨added, ⟨fault, he⟩ | ⟨count, he⟩⟩ := readFrom_cases path h w <;> simp [Deed.turn, Deed.perform, he]
  | append path =>
    rcases appendTo_cases path h w with ⟨fault, w', he⟩ | ⟨_, _, w', -, -, he⟩ <;>
      simp [Deed.turn, Deed.perform, he, markSaved]

theorem mark?_eq_length {m : Nat} (hm : (deed.turn h w).mark? = some m) : m = (deed.turn h w).after.entries.length := by
  unfold Turn.mark? at hm
  split at hm <;> cases hm <;> rfl

/-- Nothing counts as saved that is not there. -/
theorem bounded_turn (hb : h.saved ≤ h.entries.length) :
    (deed.turn h w).after.saved ≤ (deed.turn h w).after.entries.length := by
  rw [saved_turn]
  cases hm : (deed.turn h w).mark? with
  | none => exact hb.trans (grows_turn deed h w).length_le
  | some m => exact (mark?_eq_length deed h w hm).le

theorem saved_le_turn (hb : h.saved ≤ h.entries.length) : h.saved ≤ (deed.turn h w).after.saved := by
  rw [saved_turn]
  cases hm : (deed.turn h w).mark? with
  | none => exact le_rfl
  | some m =>
    rw [Option.getD_some, mark?_eq_length deed h w hm]
    exact hb.trans (grows_turn deed h w).length_le

/-- An append that succeeds marks all entries. -/
theorem saved_of_appended {t : Turn W} (ht : ∃ deed : Deed W, t = deed.turn t.before t.worldBefore) (ha : t.Appended) :
    t.after.saved = t.before.entries.length := by
  obtain ⟨deed, ht⟩ := ht
  obtain ⟨⟨path, hd⟩, hok⟩ := ha
  rw [ht] at hd hok ⊢
  obtain rfl : deed = .append path := hd
  rcases appendTo_cases path t.before t.worldBefore with ⟨fault, w', he⟩ | ⟨_, _, w', -, -, he⟩
  · simp [Deed.turn, Deed.perform, he] at hok
  · simp [Deed.turn, Deed.perform, he, markSaved]

/-! ## Runs of turns -/

/-- After these turns the entries up to the last mark count as saved. -/
def Marked (past : List (Turn W)) (h : History) : Prop := h.saved = lastMark past ∧ h.saved ≤ h.entries.length

variable {deed h w}

theorem Marked.turn {past : List (Turn W)} (hm : Marked past h) :
    Marked (past ++ [deed.turn h w]) (deed.turn h w).after :=
  ⟨by rw [saved_turn, lastMark_concat, hm.1], bounded_turn deed h w hm.2⟩

/-- Each turn of a run meets a history that is marked by the turns before it. -/
theorem turns_cut {deeds : List (Deed W)} {earlier later : List (Turn W)} {t : Turn W} : ∀ {h : History} {w : W}
    {past : List (Turn W)}, Marked past h → turns deeds h w = earlier ++ t :: later →
      Marked (past ++ earlier) t.before ∧ h.saved ≤ t.before.saved ∧
        (∃ deed : Deed W, t = deed.turn t.before t.worldBefore) ∧ ∃ rest, later = turns rest t.after t.worldAfter := by
  induction earlier generalizing deeds with
  | nil =>
    intro h w past hm he
    cases deeds with
    | nil => cases he
    | cons deed rest =>
      obtain ⟨rfl, rfl⟩ := List.cons.inj he
      have hm' : Marked (past ++ []) h := by simpa using hm
      exact ⟨hm', le_rfl, ⟨deed, rfl⟩, rest, rfl⟩
  | cons t₀ earlier ih =>
    intro h w past hm he
    cases deeds with
    | nil => cases he
    | cons deed rest =>
      obtain ⟨rfl, hrest⟩ := List.cons.inj he
      obtain ⟨hmarked, hle, hturn, hlater⟩ := ih hm.turn hrest
      refine ⟨by simpa using hmarked, ?_, hturn, hlater⟩
      exact (saved_le_turn deed h w hm.2).trans hle

end Turns

/-! ## The files -/

section Files

variable {W : Type} [Storage W] [RegularFiles W]

open RegularFiles

theorem content_writeEach {path : Native} {number : Nat} (entries : List String) : ∀ {w w' : W},
    WritesAtEnd number path w → writeEach number entries w = (.ok (), w') →
      content path w' = content path w ++ stored entries := by
  induction entries with
  | nil =>
    intro w w' _ he
    cases he
    simp [stored]
  | cons entry rest ih =>
    intro w w' hend he
    unfold writeEach at he
    split at he
    · next w₁ hwrite =>
      obtain ⟨hend₁, hcontent⟩ := writeFile_ok hend hwrite
      rw [ih hend₁ he, hcontent]
      simp [stored]
    · cases he

/-- A successful append adds to a regular file what no file has got. -/
theorem content_append {path : Native} {h h' : History} {w w' : W} (hr : IsRegular path w)
    (he : h.appendTo path w = (.ok (), h', w')) : content path w' = content path w ++ stored h.fresh := by
  rcases appendTo_cases path h w with ⟨fault, w₂, he'⟩ | ⟨number, w₁, w₂, hopen, hwrite, he'⟩
  · cases he.symm.trans he'
  · cases he.symm.trans he'
    obtain ⟨hend, hcontent⟩ := openFile_ok hr hopen
    rw [content_writeEach _ hend hwrite, hcontent]

/-- What a turn does to the history and to the files, behind the turns `earlier`. -/
structure Turn.Orderly (earlier : List (Turn W)) (t : Turn W) : Prop where
  bounded : t.before.saved ≤ t.before.entries.length ∧ t.after.saved ≤ t.after.entries.length
  grows : t.before.entries <+: t.after.entries
  append_adds : ∀ path, t.deed = .append path → t.answer = .ok () → IsRegular path t.worldBefore →
    content path t.worldAfter = content path t.worldBefore ++ stored (t.before.entries.drop (lastMark earlier))
  append_failed : ∀ path fault, t.deed = .append path → t.answer = .error fault → t.after = t.before
  write_keeps : ∀ path, t.deed = .write path → t.after = t.before
  read_failed : ∀ path fault, t.deed = .read path → t.answer = .error fault → t.after.saved = t.before.saved

theorem orderly_turn {deed : Deed W} {h : History} {w : W} {earlier : List (Turn W)} (hm : Marked earlier h) :
    (deed.turn h w).Orderly earlier where
  bounded := ⟨hm.2, bounded_turn deed h w hm.2⟩
  grows := grows_turn deed h w
  append_adds path hd ha hr := by
    obtain rfl : deed = .append path := hd
    have he : h.appendTo path w = (.ok (), (h.appendTo path w).2) := Prod.ext ha rfl
    show content path (h.appendTo path w).2.2 = content path w ++ stored (h.entries.drop (lastMark earlier))
    rw [← hm.1]
    exact content_append hr he
  append_failed path fault hd ha := by
    obtain rfl : deed = .append path := hd
    rcases appendTo_cases path h w with ⟨_, w', he⟩ | ⟨_, _, w', -, -, he⟩ <;>
      simp_all [Deed.turn, Deed.perform]
  write_keeps path hd := by
    obtain rfl : deed = .write path := hd
    rfl
  read_failed path fault hd ha := by
    obtain rfl : deed = .read path := hd
    rw [saved_turn]
    have hnone : (Deed.turn (.read path) h w).mark? = none := by
      unfold Turn.mark?
      rw [ha]
      rfl
    rw [hnone]
    rfl

/-- In a run from an empty history every turn is orderly, and no entry is written by two appends that succeed. -/
theorem append_discipline (deeds : List (Deed W)) (w : W) {earlier later : List (Turn W)} {t : Turn W}
    (h : turns deeds {} w = earlier ++ t :: later) :
    t.Orderly earlier ∧ ∀ between t' rest, later = between ++ t' :: rest → t.Appended → t'.Appended →
      ∀ i, ¬ (t.Writes earlier i ∧ t'.Writes (earlier ++ t :: between) i) := by
  have hstart : Marked ([] : List (Turn W)) {} := ⟨rfl, le_rfl⟩
  obtain ⟨hm, -, hturn, later', hlater⟩ := turns_cut hstart h
  have horder : t.Orderly earlier := by
    obtain ⟨deed, ht⟩ := hturn
    rw [ht]
    exact orderly_turn hm
  refine ⟨horder, fun between t' rest hcut ha ha' i hi => ?_⟩
  have hsaved := saved_of_appended hturn ha
  -- what the later append begins with is what counted as saved before it, and that never shrinks
  have hmark : Marked (earlier ++ [t]) t.after := by
    obtain ⟨deed, ht⟩ := hturn
    rw [ht]
    exact hm.turn
  obtain ⟨hm', hle, -, -⟩ := turns_cut hmark (hlater.symm.trans hcut)
  have hbegin : lastMark (earlier ++ t :: between) = t'.before.saved := by simpa using hm'.1.symm
  have h₁ := hi.1.2
  have h₂ := hi.2.1
  omega

theorem append_discipline_past_failure : ∃ (earlier : List (Turn World)) (t : Turn World),
    turns [.push "a", .append "f", .push "b", .append "d", .append "f"] {}
        ({ host := default, files := ⟨[([], .directory 0o755), ([.text "d"], .directory 0o755)]⟩, cwd := [] } : World) = earlier ++ [t] ∧
      t.before.entries.drop (lastMark earlier) = ["b"] ∧ t.answer = .ok () ∧
      t.worldAfter.contentOf "f" =
        t.worldBefore.contentOf "f" ++ stored (t.before.entries.drop (lastMark earlier)) := by
  have hcut := fun ts (h : ts ≠ ([] : List (Turn World))) => (List.dropLast_concat_getLast h).symm
  refine ⟨_, _, hcut _ (by simp [turns]), by decide +kernel, by decide +kernel, ?_⟩
  refine (append_discipline _ _ (hcut _ _)).1.append_adds "f" rfl (by decide +kernel) ?_
  show (FileSystem.filePlace? _ _ _).isSome = true
  decide +kernel

end Files

end History

end CommandShell
