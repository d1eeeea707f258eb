/-
  CommandShell.Proofs.Search.Joining — search paths side by side.

  A search path made of two with a colon between them has the directories of the first and then those of the second,
  empty items included (`directories_join`). What a directory offers is no matter of the search path, so a search goes
  through the first part as if it were alone, and comes to the second only if nothing was found:
  - `find_joined`: what is found is what the first part finds, or else what the second one does;
  - `mem_all_joined`: what is listed is what either part lists;
  - `searches_join`: both, and that a name with a slash means the same under every search path and without one.
-/

import CommandShell.Proofs.Search.Agreement

namespace CommandShell

namespace Search

/-- The world with another search path. -/
def withPath (path : Native) (w : World) : World := { w with env := w.env.set "PATH" path }

variable {name : String} {p₁ p₂ : Native} {w : World}

theorem directories_join (p₁ p₂ : Native) :
    directories (p₁ ++ (":" : Native) ++ p₂) = directories p₁ ++ directories p₂ := by
  rw [directories, show (":" : Native) = String.ofList [':'] from rfl, Path.items_join (by decide), List.map_append,
    directories, directories]

@[simp] theorem searchPath_withPath (path : Native) (w : World) : (searchPath (withPath path w)).1 = directories path := by
  simp [searchPath, withPath, Environment.get?, Environment.set]

/-- What a directory offers is no matter of the search path. -/
@[simp] theorem offers_withPath (path : Native) (w : World) (dir name : Native) :
    offers (withPath path w) dir name = offers w dir name := rfl

/-! ## Finding and listing -/

theorem find_joined (hne : name ≠ "") (hslash : '/' ∉ name.toList) (w : World) (p₁ p₂ : Native) :
    (find name (withPath (p₁ ++ (":" : Native) ++ p₂) w)).1 =
      (find name (withPath p₁ w)).1.or (find name (withPath p₂ w)).1 := by
  simp only [find_eq hne hslash, searchPath_withPath, offers_withPath, directories_join, List.find?_append, Option.map_or]

theorem mem_all_joined : name ∈ (all (withPath (p₁ ++ (":" : Native) ++ p₂) w)).1 ↔
    name ∈ (all (withPath p₁ w)).1 ∨ name ∈ (all (withPath p₂ w)).1 := by
  simp only [mem_all, searchPath_withPath, offers_withPath, directories_join, List.mem_append, or_and_right, exists_or]

/-- A name with a slash is looked up as it is, whatever the environment. -/
theorem find_slash_env (hslash : '/' ∈ name.toList) (w : World) :
    ∃ found, (found = some (.text name) ∨ found = none) ∧ ∀ env, (find name { w with env }).1 = found := by
  refine ⟨if (w.files.lookup w.cwd name).toOption.any mayRun then some (.text name) else none, ?_, fun env => find_slash hslash _⟩
  split
  · exact .inl rfl
  · exact .inr rfl

/-- Under two search paths with a colon between them, a name is found as under the first if that finds anything, and
    otherwise as under the second, and the programs listed are those of both, in order and each once. A name with a
    slash means itself or nothing, whatever the search path is and also if there is none. -/
theorem searches_join (w : World) (p₁ p₂ : Native) :
    (∀ name, name ≠ "" → '/' ∉ name.toList → (find name (withPath (p₁ ++ (":" : Native) ++ p₂) w)).1 =
        (find name (withPath p₁ w)).1.or (find name (withPath p₂ w)).1) ∧
      (all (withPath (p₁ ++ (":" : Native) ++ p₂) w)).1.Pairwise (· < ·) ∧
      (∀ name, name ∈ (all (withPath (p₁ ++ (":" : Native) ++ p₂) w)).1 ↔
        name ∈ (all (withPath p₁ w)).1 ∨ name ∈ (all (withPath p₂ w)).1) ∧
      ∀ name, '/' ∈ name.toList →
        ∃ found, (found = some (.text name) ∨ found = none) ∧ ∀ env, (find name { w with env }).1 = found :=
  ⟨fun _ hne hslash => find_joined hne hslash w p₁ p₂, pairwise_all _, fun _ => mem_all_joined,
    fun _ hslash => find_slash_env hslash w⟩

/-- Behind a file that may not be run, a file in the place of a directory, a directory that may not be listed and a
    missing one, the empty path still means the working directory, and finds what is there. -/
theorem searches_join_with_nothing :
    let files : List (Location × Node) := [([], .directory 0o755), (["one"], .directory 0o755),
      (["home"], .directory 0o755), (["dark"], .directory 0o311), (["a", "one"], .file 0o644 []), (["f"], .file 0o755 []),
      (["b", "one"], .file 0o755 []), (["a", "dark"], .file 0o755 []), (["a", "home"], .file 0o755 [])]
    let w : World := { files := ⟨files⟩, cwd := ["home"], env := [("PATH", "/one")], host := default }
    (find "a" (withPath "/one:/f:/dark:/none" w)).1 = none ∧ (find "a" (withPath "" w)).1 = some "./a" ∧
      (find "a" (withPath (("/one:/f:/dark:/none" : Native) ++ (":" : Native) ++ ("" : Native)) w)).1 = some "./a" ∧
      "b" ∈ (all (withPath (("/one:/f:/dark:/none" : Native) ++ (":" : Native) ++ ("" : Native)) w)).1 ∧
      (find "/f" w).1 = some "/f" ∧ (find "/f" { w with env := [] }).1 = some "/f" := by
  intro files w
  have hfirst : (find "a" (withPath "/one:/f:/dark:/none" w)).1 = none := by decide +kernel
  have hsecond : (find "a" (withPath "" w)).1 = some "./a" := by decide +kernel
  have hfile : (find "/f" w).1 = some "/f" := by decide +kernel
  obtain ⟨hfind, -, hmem, hslash⟩ := searches_join w "/one:/f:/dark:/none" ""
  obtain ⟨found, -, hfound⟩ := hslash "/f" (by decide)
  refine ⟨hfirst, hsecond, ?_, (hmem "b").mpr (.inl (by decide +kernel)), hfile, ?_⟩
  · rw [hfind "a" (by decide) (by decide), hfirst, hsecond]
    rfl
  · rw [hfound, ← hfound w.env]
    exact hfile

end Search

end CommandShell
