/-
  CommandShell.Proofs.Search.Agreement — looking for one program and listing all of them come to the same.

  A search takes down notices, and notices may go to a file; but what a file holds makes no difference to a search
  (`offers_noted`). So both searches can be said in terms of the world that they begin in: a directory offers a name
  if it lists it and the entry may be run.
  - `findIn_eq`: a search for a name ends at the first directory that offers it;
  - `mem_programs`: a list of all programs has the names that some directory offers;
  - `searches_agree`: a name is listed if and only if it can be found, the list is strictly increasing, and the
    commands that can be completed are the builtins and the names that can be found.
-/

import CommandShell.Completion.Commands
import CommandShell.Proofs.Completion.SortedSet
import CommandShell.Proofs.FileSystem.Kinds
import CommandShell.Proofs.Search.Notices
import CommandShell.Proofs.Text.Native

namespace CommandShell

/-- A name that an entry of a directory can have: it is not empty and has no slash. -/
def Native.IsProper : Native → Prop
  | .text s => s ≠ "" ∧ '/' ∉ s.toList
  | .raw b => b ≠ [] ∧ 47 ∉ b

instance : DecidablePred Native.IsProper
  | .text s => inferInstanceAs (Decidable (s ≠ "" ∧ '/' ∉ s.toList))
  | .raw b => inferInstanceAs (Decidable (b ≠ [] ∧ 47 ∉ b))

/-! ## What a directory lists -/

namespace FileSystem

variable {fs fs' : FileSystem}

theorem mem_names {l : Location} {name : Native} : name ∈ fs.names l ↔ (fs.node? (name :: l)).isSome = true := by
  rw [node?, List.lookup_isSome_iff, names, List.mem_filterMap]
  refine exists_congr fun entry => and_congr_right fun _ => ?_
  obtain ⟨location, node⟩ := entry
  cases location with
  | nil => simp
  | cons name' dir =>
    simp only [Option.ite_none_right_eq_some, Option.some.injEq, beq_iff_eq, List.cons.injEq]
    grind

/-- The names that a directory lists; none if it cannot be listed. -/
def listed (fs : FileSystem) (cwd : Location) (full : Bool) (dir : Native) : List Native :=
  (fs.list cwd full dir).toOption.getD []

theorem mem_listed_emptied (h : SameKinds fs fs') (cwd : Location) (full : Bool) (dir name : Native) :
    name ∈ fs'.listed cwd full dir ↔ name ∈ fs.listed cwd full dir := by
  unfold listed list
  rw [directoryAt_emptied h]
  cases checkPath dir with
  | error fault => exact Iff.rfl
  | ok _ =>
    cases full with
    | true => exact Iff.rfl
    | false =>
      rcases fs.directoryAt cwd dir with fault | l
      · exact Iff.rfl
      · show name ∈ (if fs'.directoryGrants l Permissions.mayRead then .ok (fs'.names l) else _ : Except ..).toOption.getD _ ↔
          name ∈ (if fs.directoryGrants l Permissions.mayRead then .ok (fs.names l) else _ : Except ..).toOption.getD _
        rw [h.directoryGrants]
        split
        · exact mem_names.trans ((by rw [h.isSome]) : _ ↔ _) |>.trans mem_names.symm
        · exact Iff.rfl

/-- No entry has an empty name or one with a slash in it. -/
def WellNamed (fs : FileSystem) : Prop := ∀ entry ∈ fs.entries, ∀ name ∈ entry.1, name.IsProper

instance (fs : FileSystem) : Decidable fs.WellNamed :=
  inferInstanceAs (Decidable (∀ entry ∈ fs.entries, ∀ name ∈ entry.1, name.IsProper))

theorem WellNamed.of_mem_listed (h : fs.WellNamed) {cwd : Location} {full : Bool} {dir name : Native}
    (hm : name ∈ fs.listed cwd full dir) : name.IsProper := by
  unfold listed list at hm
  cases hc : checkPath dir with
  | error fault => simp [hc, bind, Except.bind, Except.toOption] at hm
  | ok _ =>
    simp only [hc, bind, Except.bind] at hm
    split at hm
    · simp [Except.toOption] at hm
    · rcases hd : fs.directoryAt cwd dir with fault | l
      · simp [hd, Except.toOption] at hm
      · have hn : name ∈ fs.names l := by
          rw [hd] at hm
          dsimp only at hm
          split at hm
          · exact hm
          · cases hm
        obtain ⟨⟨location, node⟩, hentry, he⟩ := List.mem_filterMap.mp hn
        cases location with
        | nil => cases he
        | cons name' l' =>
          simp only [Option.ite_none_right_eq_some, Option.some.injEq] at he
          exact h _ hentry name (by simp [he.2])

end FileSystem

namespace Search

open World

variable {w w' : World} {dir : Native} {name : String}

/-! ## What a directory offers -/

/-- May the entry of this name be run? -/
def runs (w : World) (dir name : Native) : Bool := (w.files.lookupEntry w.cwd dir name).toOption.any mayRun

/-- Does a directory list this name, and may the entry be run? -/
def offers (w : World) (dir name : Native) : Bool :=
  (w.files.listed w.cwd w.exhausted dir).contains name && runs w dir name

theorem mayRun_emptied (t : Target) : mayRun t.emptied = mayRun t := by
  cases t with
  | leaf location node => cases node <;> rfl
  | _ => rfl

/-- What a file holds makes no difference to whether it may be run. -/
theorem mayRun_found {found found' : Except Fault Target} (h : found'.map Target.emptied = found.map Target.emptied) :
    found'.toOption.any mayRun = found.toOption.any mayRun := by
  rcases Target.emptied_cases h with ⟨fault, hr, hr'⟩ | ⟨t, t', hr, hr', he⟩
  · rw [hr, hr']
  · rw [hr, hr']
    simp [Except.toOption, ← mayRun_emptied t', he, mayRun_emptied t]

theorem runs_noted (h : Noted w w') (dir name : Native) : runs w' dir name = runs w dir name := by
  have hlookup := FileSystem.lookupEntry_emptied (fun l => h.alters.kinds l id) w.cwd dir name
  unfold runs
  rw [h.alters.cwd, mayRun_found hlookup]

/-- What goes to the log makes no difference to what is offered. -/
theorem offers_noted (h : Noted w w') (dir name : Native) : offers w' dir name = offers w dir name := by
  unfold offers
  rw [runs_noted h, h.alters.cwd, World.exhausted, h.alters.spare, ← World.exhausted, Bool.eq_iff_iff]
  simp only [Bool.and_eq_true, List.contains_iff_mem]
  rw [FileSystem.mem_listed_emptied fun l => h.alters.kinds l id]

theorem judge_fst (path : Native) (found : Except Fault Target) (w : World) :
    (judge path found w).1 = found.toOption.any mayRun := by
  unfold judge
  split <;> rfl

theorem isExecutableEntry_fst (dir name : Native) (w : World) :
    (isExecutableEntry dir name w).1 = runs w dir name := judge_fst ..

/-! ## Looking for one program -/

/-- A search ends at the first directory that offers the name. -/
theorem findIn_eq (name : String) (dirs : List Native) : ∀ w, (findIn name dirs w).1 =
    (dirs.find? fun dir => offers w dir (.text name)).map fun dir => Path.join dir name := by
  induction dirs with
  | nil => intro w; rfl
  | cons dir rest ih =>
    intro w
    -- the rest of the search takes place in a world in which only the log has changed
    have hrest : ∀ w', Noted w w' → (findIn name rest w').1 =
        (rest.find? fun dir => offers w dir (.text name)).map fun dir => Path.join dir name := by
      intro w' hw
      rw [ih w']
      simp only [offers_noted hw]
    unfold findIn
    split
    · next fault hlist =>
      have hno : offers w dir (.text name) = false := by simp [offers, FileSystem.listed, hlist, Except.toOption]
      rw [List.find?_cons_of_neg (by simp [hno])]
      exact hrest _ (noted_ite ..)
    · next names hlist =>
      have hoffers : offers w dir (.text name) = (names.contains (.text name) && runs w dir (.text name)) := by
        simp [offers, FileSystem.listed, hlist, Except.toOption]
      split
      · next hmem =>
        have hfst := isExecutableEntry_fst dir (.text name) w
        have hnoted : Noted w (isExecutableEntry dir (.text name) w).2 := noted_judge ..
        split
        · next heq =>
          rw [heq] at hfst
          rw [List.find?_cons_of_pos (by simpa [hoffers, ← hfst] using hmem)]
          rfl
        · next heq =>
          rw [heq] at hfst hnoted
          rw [List.find?_cons_of_neg (by simp [hoffers, ← hfst])]
          exact hrest _ hnoted
      · next hmem =>
        rw [List.find?_cons_of_neg (by simpa [hoffers] using fun h => absurd h (by simpa using hmem))]
        exact hrest w .refl

/-- A name without a slash is looked for in the directories of the search path. -/
theorem find_eq (hne : name ≠ "") (hslash : '/' ∉ name.toList) (w : World) : (find name w).1 =
    ((searchPath w).1.find? fun dir => offers w dir (.text name)).map fun dir => Path.join dir name := by
  have hempty : name.isEmpty = false := by simpa using hne
  have hcontains : name.toList.contains '/' = false := by simpa using hslash
  simp only [find, hempty, hcontains, Bool.false_eq_true, if_false, findIn_eq, offers_noted (noted_searchPath w)]

theorem searchPath_noted (h : Noted w w') : (searchPath w').1 = (searchPath w).1 := by
  have henv : w'.env = w.env := (congrArg World.env h.alters.rest :)
  unfold searchPath
  rw [henv]
  split <;> rfl

/-- A name with a slash is the path itself. -/
theorem find_slash (hslash : '/' ∈ name.toList) (w : World) : (find name w).1 =
    if (w.files.lookup w.cwd name).toOption.any mayRun then some (.text name) else none := by
  have hempty : name.isEmpty = false := by
    have hne : name ≠ "" := by
      rintro rfl
      cases hslash
    simpa using hne
  have hcontains : name.toList.contains '/' = true := by simpa using hslash
  have hfst : (isExecutable name w).1 = (w.files.lookup w.cwd name).toOption.any mayRun := judge_fst ..
  simp only [find, hempty, hcontains, Bool.false_eq_true, if_false, if_true, ← hfst]
  rcases isExecutable name w with ⟨found, w₁⟩
  cases found <;> rfl

/-- What goes to the log makes no difference to what is found. -/
theorem find_noted (h : Noted w w') (name : String) : (find name w').1 = (find name w).1 := by
  by_cases hempty : name = ""
  · subst hempty
    rfl
  by_cases hslash : '/' ∈ name.toList
  · have hlookup := FileSystem.lookup_emptied (fun l => h.alters.kinds l id) w.cwd name
    rw [find_slash hslash, find_slash hslash, h.alters.cwd, mayRun_found hlookup]
  · rw [find_eq hempty hslash, find_eq hempty hslash, searchPath_noted h]
    simp only [offers_noted h]

theorem isEmpty_of_mem_searchPath (h : dir ∈ (searchPath w).1) : dir.isEmpty = false := by
  unfold searchPath at h
  split at h
  · obtain ⟨item, -, rfl⟩ := List.mem_map.mp h
    split
    · rfl
    · next hitem => simpa using hitem
  · cases h

theorem slash_mem_of_isAbsolute {path : Native} (h : Path.isAbsolute path = true) : '/'.toUInt8 ∈ path.bytes := by
  cases path with
  | text s => exact (Bytes.mem_ofString (by decide)).mpr (List.mem_of_head? (by simpa [Path.isAbsolute] using h))
  | raw b => exact List.mem_of_head? (by simpa [Path.isAbsolute, Native.bytes] using h)

theorem slash_mem_of_endsInSlash {path : Native} (h : Path.endsInSlash path = true) : '/'.toUInt8 ∈ path.bytes := by
  cases path with
  | text s => exact (Bytes.mem_ofString (by decide)).mpr (List.mem_of_getLast? (by simpa [Path.endsInSlash] using h))
  | raw b => exact List.mem_of_getLast? (by simpa [Path.endsInSlash, Native.bytes] using h)

theorem slash_mem_join {base : Native} (h : base.isEmpty = false) (part : Native) :
    '/'.toUInt8 ∈ (Path.join base part).bytes := by
  unfold Path.join
  split
  · next habsolute => exact slash_mem_of_isAbsolute habsolute
  · split
    · next hbase =>
      have hends : Path.endsInSlash base = true := by simpa [h] using hbase
      rw [Native.bytes_append]
      exact List.mem_append_left _ (slash_mem_of_endsInSlash hends)
    · rw [Native.bytes_append, Native.bytes_append]
      have hslash : '/'.toUInt8 ∈ ("/" : Native).bytes := by decide
      exact List.mem_append_left _ (List.mem_append_right _ hslash)

/-- What is found is shown with a slash in it. -/
theorem slash_mem_of_find {path : Native} (h : (find name w).1 = some path) : '/' ∈ path.shown.toList := by
  by_cases hempty : name = ""
  · subst hempty
    cases h
  by_cases hslash : '/' ∈ name.toList
  · rw [find_slash hslash] at h
    split at h
    · cases h
      exact hslash
    · cases h
  · rw [find_eq hempty hslash] at h
    obtain ⟨dir, hdir, rfl⟩ := Option.map_eq_some_iff.mp h
    have hdir' := isEmpty_of_mem_searchPath (List.mem_of_find?_eq_some hdir)
    exact Native.mem_shown (by decide) (slash_mem_join hdir' name)

/-- Only a search path that is no text leads to a path that is none. -/
theorem text_of_find {path : Native} (hpath : ∀ b, w.env.get? "PATH" ≠ some (.raw b))
    (h : (find name w).1 = some path) : ∃ text, path = .text text := by
  by_cases hempty : name = ""
  · subst hempty
    cases h
  by_cases hslash : '/' ∈ name.toList
  · rw [find_slash hslash] at h
    split at h
    · exact ⟨name, (Option.some.inj h).symm⟩
    · cases h
  · rw [find_eq hempty hslash] at h
    obtain ⟨dir, hdir, rfl⟩ := Option.map_eq_some_iff.mp h
    obtain ⟨base, rfl⟩ : ∃ base, dir = .text base := by
      have hmem := List.mem_of_find?_eq_some hdir
      unfold searchPath at hmem
      split at hmem
      · next value hvalue =>
        obtain ⟨item, hitem, rfl⟩ := List.mem_map.mp hmem
        cases value with
        | raw b => exact absurd hvalue (hpath b)
        | text s =>
          obtain ⟨piece, -, rfl⟩ := List.mem_map.mp hitem
          split
          · exact ⟨_, rfl⟩
          · exact ⟨_, rfl⟩
      · cases hmem
    unfold Path.join
    split
    · exact ⟨_, rfl⟩
    · split
      · exact ⟨_, rfl⟩
      · exact ⟨_, rfl⟩

theorem isSome_find (hne : name ≠ "") (hslash : '/' ∉ name.toList) (w : World) :
    (find name w).1.isSome = true ↔ ∃ dir ∈ (searchPath w).1, offers w dir (.text name) = true := by
  rw [find_eq hne hslash, Option.isSome_map, List.find?_isSome]

/-! ## Listing all programs -/

theorem mem_programsIn (dir : Native) (names : List Native) : ∀ w, name ∈ (programsIn dir names w).1 ↔
    .text name ∈ names ∧ runs w dir (.text name) = true := by
  induction names with
  | nil => intro w; simp [programsIn]
  | cons entry rest ih =>
    intro w
    have hnoted : Noted w (isExecutableEntry dir entry w).2 := noted_judge ..
    have hrest := ih (isExecutableEntry dir entry w).2
    rw [runs_noted hnoted] at hrest
    have hfound : name ∈ (programsIn dir (entry :: rest) w).1 ↔
        runs w dir entry = true ∧ entry = .text name ∨ .text name ∈ rest ∧ runs w dir (.text name) = true := by
      rw [← hrest]
      simp only [programsIn, isExecutableEntry_fst]
      cases entry <;> cases runs w dir _ <;> simp [Native.text?, eq_comm]
    rw [hfound, List.mem_cons]
    grind

/-- A list of all programs has the names that some directory offers. -/
theorem mem_programs (dirs : List Native) : ∀ w, name ∈ (programs dirs w).1 ↔
    ∃ dir ∈ dirs, offers w dir (.text name) = true := by
  induction dirs with
  | nil => intro w; simp [programs]
  | cons dir rest ih =>
    intro w
    have hnoted := noted_programsIn dir (w.files.listed w.cwd w.exhausted dir) w
    have hhere : name ∈ (programsIn dir (w.files.listed w.cwd w.exhausted dir) w).1 ↔
        offers w dir (.text name) = true := by
      simp [mem_programsIn, offers]
    rw [programs, List.mem_append, List.exists_mem_cons_iff]
    refine or_congr hhere ((ih _).trans ?_)
    exact exists_congr fun d => and_congr_right fun _ => Bool.eq_iff_iff.mp (offers_noted hnoted d _)

/-! ## In order, and each once -/

section

variable {α : Type} [BEq α]

theorem eraseReps_loop (l : List α) : ∀ (a : α) (acc : List α),
    List.eraseRepsBy.loop (· == ·) a l acc = acc.reverse ++ List.eraseRepsBy.loop (· == ·) a l [] := by
  induction l with
  | nil => intro a acc; simp [List.eraseRepsBy.loop]
  | cons b l ih =>
    intro a acc
    rw [List.eraseRepsBy.loop, List.eraseRepsBy.loop]
    cases a == b
    · simp only [ih b (a :: acc), ih b [a]]
      simp
    · exact ih a acc

theorem eraseReps_cons_cons (a b : α) (l : List α) :
    (a :: b :: l).eraseReps = if a == b then (a :: l).eraseReps else a :: (b :: l).eraseReps := by
  cases h : a == b
  · simp [List.eraseReps, List.eraseRepsBy, List.eraseRepsBy.loop, h, eraseReps_loop l b [a]]
  · simp [List.eraseReps, List.eraseRepsBy, List.eraseRepsBy.loop, h]

variable [LawfulBEq α]

theorem mem_eraseReps_cons {a : α} (l : List α) : ∀ b, a ∈ (b :: l).eraseReps ↔ a ∈ b :: l := by
  induction l with
  | nil => intro b; exact Iff.rfl
  | cons c l ih =>
    intro b
    rw [eraseReps_cons_cons]
    split
    · next h => simp [ih, eq_of_beq h]
    · simp [ih]

theorem mem_eraseReps {a : α} (l : List α) : a ∈ l.eraseReps ↔ a ∈ l := by
  cases l with
  | nil => exact Iff.rfl
  | cons b l => exact mem_eraseReps_cons l b

/-- Without its repetitions a sorted list has each item once. -/
theorem pairwise_eraseReps {r : α → α → Prop} (antisymm : ∀ {a b}, r a b → r b a → a = b) {l : List α}
    (h : l.Pairwise r) : l.eraseReps.Pairwise fun a b => r a b ∧ a ≠ b := by
  cases l with
  | nil => exact List.Pairwise.nil
  | cons b l =>
    induction l generalizing b with
    | nil => exact List.pairwise_singleton ..
    | cons c l ih =>
      obtain ⟨hb, hcl⟩ := List.pairwise_cons.mp h
      rw [eraseReps_cons_cons]
      split
      · next he =>
        exact ih b (eq_of_beq he ▸ hcl)
      · next hne =>
        refine List.pairwise_cons.mpr ⟨fun x hx => ?_, ih c hcl⟩
        have hx' := (mem_eraseReps_cons l c).mp hx
        refine ⟨hb x hx', ?_⟩
        rintro rfl
        -- behind `c` it would be in order on both sides of `c`
        rcases List.mem_cons.mp hx' with rfl | hx'
        · exact hne (beq_self_eq_true _)
        · exact hne (beq_iff_eq.mpr (antisymm (hb c (by simp)) ((List.pairwise_cons.mp hcl).1 _ hx')))

end

theorem mem_all (w : World) : name ∈ (all w).1 ↔ ∃ dir ∈ (searchPath w).1, offers w dir (.text name) = true := by
  simp only [all, mem_eraseReps, List.mem_mergeSort, mem_programs, offers_noted (noted_searchPath w)]

theorem pairwise_all (w : World) : (all w).1.Pairwise (· < ·) := by
  have hsorted := @List.pairwise_mergeSort _ (fun a b : String => decide (a ≤ b))
    (fun a b c hab hbc => by simpa using String.le_trans (by simpa using hab) (by simpa using hbc))
    (fun a b => by simpa using String.le_total a b) (programs (searchPath w).1 (searchPath w).2).1
  have hle : List.Pairwise (· ≤ ·) _ := hsorted.imp fun h => by simpa using h
  refine (pairwise_eraseReps String.le_antisymm hle).imp fun ⟨hab, hne⟩ => String.not_le.mp fun hba => ?_
  exact hne (String.le_antisymm hab hba)

/-! ## The two searches -/

theorem mem_commands (w : World) : name ∈ (Completion.commands w).1.startingWith "" ↔
    (∃ b : Builtin, b.name = name) ∨ name ∈ (all w).1 := by
  have hbuiltin : (∃ b ∈ Builtin.all, b.name = name) ↔ ∃ b : Builtin, b.name = name :=
    ⟨fun ⟨b, _, h⟩ => ⟨b, h⟩, fun ⟨b, h⟩ => ⟨b, by cases b <;> simp [Builtin.all], h⟩⟩
  rw [Completion.commands, PrefixTree.mem_startingWith (PrefixTree.ordered_ofWords _), PrefixTree.mem_tails_ofWords]
  simp [String.toList_inj, ← hbuiltin]

/-- A name without a slash is listed if and only if it can be found, and the list is strictly increasing. So the
    commands that can be completed are the builtins and all the names that can be found. -/
theorem searches_agree (w : World) :
    (∀ word, word ≠ "" → '/' ∉ word.toList → (word ∈ (all w).1 ↔ (find word w).1.isSome = true)) ∧
      (all w).1.Pairwise (· < ·) ∧
      (w.files.WellNamed → ∀ word, word ∈ (Completion.commands w).1.startingWith "" ↔
        (∃ b : Builtin, b.name = word) ∨ word ≠ "" ∧ '/' ∉ word.toList ∧ (find word w).1.isSome = true) := by
  have hagree : ∀ word, word ≠ "" → '/' ∉ word.toList → (word ∈ (all w).1 ↔ (find word w).1.isSome = true) := by
    intro word hne hslash
    rw [mem_all, isSome_find hne hslash]
  refine ⟨hagree, pairwise_all w, fun hnamed word => ?_⟩
  rw [mem_commands]
  refine or_congr_right ⟨fun hall => ?_, fun ⟨hne, hslash, hfound⟩ => (hagree word hne hslash).mpr hfound⟩
  obtain ⟨dir, -, hoffers⟩ := (mem_all w).mp hall
  have hlisted : .text word ∈ w.files.listed w.cwd w.exhausted dir := by
    simpa using (Bool.and_eq_true_iff.mp hoffers).1
  obtain ⟨hne, hslash⟩ : (Native.text word).IsProper := hnamed.of_mem_listed hlisted
  exact ⟨hne, hslash, (hagree word hne hslash).mp hall⟩

/-- A file that may not be run hides no program of the same name behind it. -/
theorem searches_agree_behind_file :
    let files : List (Location × Node) := [([], .directory 0o755), (["one"], .directory 0o755),
      (["two"], .directory 0o755), (["a", "one"], .file 0o644 []), (["a", "two"], .link "b"),
      (["b", "two"], .file 0o755 [])]
    let w : World := { files := ⟨files⟩, cwd := [], env := [("PATH", "/one::/two")], host := default }
    (find "a" w).1 = some "/two/a" ∧ "a" ∈ (all w).1 ∧ "a" ∈ (Completion.commands w).1.startingWith "" := by
  intro files w
  have hfound : (find "a" w).1 = some "/two/a" := by decide +kernel
  have hnamed : w.files.WellNamed := by decide +kernel
  obtain ⟨hagree, -, hcommands⟩ := searches_agree w
  exact ⟨hfound, (hagree "a" (by decide) (by decide)).mpr (by rw [hfound]; rfl),
    (hcommands hnamed "a").mpr (.inr ⟨by decide, by decide, by rw [hfound]; rfl⟩)⟩

end Search

end CommandShell
