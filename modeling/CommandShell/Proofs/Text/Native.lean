/-
  CommandShell.Proofs.Text.Native — texts of the system and their bytes.

  A text and its bytes say the same, and an ASCII character is a byte that stands for nothing else. So it makes no
  difference whether a text of the system is looked at as characters or as bytes:
  - `Bytes.toString?_ofString`, `Bytes.eq_ofString_of_toString?`, `Native.bytes_ofBytes`: from a text to its bytes and
    back;
  - `Bytes.mem_ofString`, `Bytes.mem_shown`: an ASCII character is there if its byte is, also where bytes are shown that
    are no text;
  - `Path.items_eq`, `Path.items_join`: a path is cut at an ASCII character in the same places either way, and the items
    of two around a separator are those of the first and those of the second.
-/

import CommandShell.Path
import Mathlib.Data.List.TakeWhile

namespace CommandShell

namespace Bytes

/-! ## Texts as bytes -/

@[simp] theorem ofString_append (s t : String) : ofString (s ++ t) = ofString s ++ ofString t := by
  simp [ofString]

theorem toByteArray_ofString (s : String) : (⟨(ofString s).toArray⟩ : ByteArray) = s.toByteArray := by
  rw [← String.utf8Encode_toList]
  refine ByteArray.ext ?_
  simp [ofString, List.utf8Encode]

/-- A text can be read back from its bytes. -/
theorem toString?_ofString (s : String) : (ofString s).toString? = some s := by
  simp only [toString?, String.fromUTF8?, toByteArray_ofString]
  rw [dif_pos s.isValidUTF8]
  rfl

/-- Bytes that can be read are those of the text. -/
theorem eq_ofString_of_toString? {b : Bytes} {s : String} (h : b.toString? = some s) : b = ofString s := by
  unfold toString? String.fromUTF8? at h
  split at h
  · cases h
    have := toByteArray_ofString (String.fromUTF8 ⟨b.toArray⟩ ‹_›)
    simpa [String.fromUTF8] using (congrArg (fun a : ByteArray => a.data.toList) this).symm
  · cases h

/-! ## ASCII characters -/

/-- A byte below 128 stands for the character of its number alone. -/
theorem toNat_eq_of_mem_encodeChar {b : UInt8} {c : Char} (hb : b.toNat < 128) (h : b ∈ String.utf8EncodeChar c) :
    c.toNat = b.toNat := by
  have hc : c.val.toNat = c.toNat := rfl
  simp only [String.utf8EncodeChar] at h
  split at h
  · simp only [List.mem_singleton] at h
    subst h
    simp only [UInt8.toNat_ofNat']
    omega
  -- all bytes of the longer encodings have their highest bit set
  · exfalso
    split at h
    · simp only [List.mem_cons, List.not_mem_nil, or_false] at h
      rcases h with rfl | rfl <;> simp only [UInt8.toNat_ofNat'] at hb <;> omega
    · split at h
      · simp only [List.mem_cons, List.not_mem_nil, or_false] at h
        rcases h with rfl | rfl | rfl <;> simp only [UInt8.toNat_ofNat'] at hb <;> omega
      · simp only [List.mem_cons, List.not_mem_nil, or_false] at h
        rcases h with rfl | rfl | rfl | rfl <;> simp only [UInt8.toNat_ofNat'] at hb <;> omega

variable {c : Char}

theorem toNat_toUInt8 (hc : c.toNat < 128) : c.toUInt8.toNat = c.toNat := by
  show c.val.toNat % 2 ^ 8 = c.val.toNat
  have hval : c.val.toNat < 128 := hc
  omega

theorem encodeChar_ascii (hc : c.toNat < 128) : String.utf8EncodeChar c = [c.toUInt8] := by
  have hval : c.val.toNat ≤ 127 := Nat.le_of_lt_succ hc
  simp only [String.utf8EncodeChar, if_pos hval]
  rfl

theorem eq_of_mem_encodeChar {d : Char} (hc : c.toNat < 128) (h : c.toUInt8 ∈ String.utf8EncodeChar d) : d = c := by
  have hlt : c.toUInt8.toNat < 128 := toNat_toUInt8 hc ▸ hc
  exact Char.toNat_inj.mp ((toNat_eq_of_mem_encodeChar hlt h).trans (toNat_toUInt8 hc))

theorem mem_ofString (hc : c.toNat < 128) {s : String} : c.toUInt8 ∈ ofString s ↔ c ∈ s.toList := by
  constructor
  · intro h
    obtain ⟨d, hd, hmem⟩ := List.mem_flatMap.mp h
    exact eq_of_mem_encodeChar hc hmem ▸ hd
  · intro h
    exact List.mem_flatMap.mpr ⟨c, h, by simp [encodeChar_ascii hc]⟩

theorem ofString_singleton (hc : c.toNat < 128) : ofString (String.ofList [c]) = [c.toUInt8] := by
  simp [ofString, encodeChar_ascii hc]

/-- The bytes that follow the first one of a character are no ASCII characters. -/
theorem take_following (hc : c.toNat < 128) (b : UInt8) (rest : Bytes) : c.toUInt8 ∉ rest.take (following b rest) := by
  have hsmall : ∀ low high : UInt8, 0x80 ≤ low → ¬(low ≤ c.toUInt8 ∧ c.toUInt8 ≤ high) := by
    rintro low high hlow ⟨hle, -⟩
    have hnat : 128 ≤ c.toUInt8.toNat := UInt8.le_iff_toNat_le.mp (UInt8.le_trans hlow hle)
    rw [toNat_toUInt8 hc] at hnat
    omega
  have hshape : ∀ {size low high}, shape? b = some (size, low, high) → 0x80 ≤ low := by
    intro size low high h
    unfold shape? at h
    repeat' split at h
    all_goals simp only [Option.some.injEq, Prod.mk.injEq, reduceCtorEq] at h
    all_goals obtain ⟨-, rfl, -⟩ := h; decide
  unfold following
  split
  · next size low high d rest hb =>
    split
    · next hd =>
      simp only [Bool.and_eq_true, decide_eq_true_eq] at hd
      rw [Nat.add_comm, List.take_succ_cons, List.mem_cons, not_or]
      refine ⟨fun he => hsmall low high (hshape hb) ⟨he ▸ hd.1.2, he ▸ hd.2⟩, fun hmem => ?_⟩
      have hpre := List.takeWhile_prefix (fun d : UInt8 => decide (0x80 ≤ d) && decide (d ≤ 0xbf)) (l := rest.take (size - 2))
      have htake := List.prefix_iff_eq_take.mp (hpre.trans (List.take_prefix ..))
      rw [← htake] at hmem
      have hcont := List.mem_takeWhile_imp hmem
      simp only [Bool.and_eq_true, decide_eq_true_eq] at hcont
      exact hsmall 0x80 0xbf (by decide) hcont
    · simp
  · simp

theorem mem_shownFrom (hc : c.toNat < 128) (b : Bytes) : ∀ skip, c.toUInt8 ∉ b.take skip → c.toUInt8 ∈ b →
    c ∈ shownFrom skip b := by
  induction b with
  | nil => intro skip _ h; cases h
  | cons first rest ih =>
    intro skip hskip hmem
    cases skip with
    | succ skip =>
      rw [List.take_succ_cons, List.mem_cons, not_or] at hskip
      exact ih skip hskip.2 ((List.mem_cons.mp hmem).resolve_left hskip.1)
    | zero =>
      rw [shownFrom, List.mem_append]
      rcases List.mem_cons.mp hmem with rfl | hrest
      · -- the character itself takes no other bytes along
        have hfollowing : following c.toUInt8 rest = 0 := by
          have hlt : c.toUInt8 < 0x80 := UInt8.lt_iff_toNat_lt.mpr (by rw [toNat_toUInt8 hc]; exact hc)
          unfold following shape?
          rw [if_pos hlt]
          cases rest <;> rfl
        have hread : toString? [c.toUInt8] = some (String.ofList [c]) := by
          rw [← ofString_singleton hc, toString?_ofString]
        simp [hfollowing, hread]
      · exact .inr (ih _ (take_following hc first rest) hrest)

/-- An ASCII character is shown as what it is. -/
theorem mem_shown (hc : c.toNat < 128) {b : Bytes} (h : c.toUInt8 ∈ b) : c ∈ b.shown.toList := by
  simpa [shown] using mem_shownFrom hc b 0 (by simp) h

end Bytes

/-! ## Texts of the system -/

namespace Native

variable {c : Char}

theorem ofBytes_ofString (s : String) : ofBytes (Bytes.ofString s) = .text s := by
  simp [ofBytes, Bytes.toString?_ofString]

@[simp] theorem bytes_ofBytes (b : Bytes) : (ofBytes b).bytes = b := by
  unfold ofBytes
  split
  · next s hs => exact (Bytes.eq_ofString_of_toString? hs).symm
  · rfl

@[simp] theorem bytes_append (a b : Native) : (a ++ b).bytes = a.bytes ++ b.bytes := by
  show (append a b).bytes = a.bytes ++ b.bytes
  unfold append
  split
  · exact Bytes.ofString_append ..
  · exact bytes_ofBytes _

theorem mem_shown (hc : c.toNat < 128) {p : Native} (h : c.toUInt8 ∈ p.bytes) : c ∈ p.shown.toList := by
  cases p with
  | text s => exact (Bytes.mem_ofString hc).mp h
  | raw b => exact Bytes.mem_shown hc h

end Native

/-! ## Cutting -/

namespace Path

section

variable {α : Type} [DecidableEq α] {sep : α}

theorem splitAux_of_notMem {a : List α} (h : sep ∉ a) (b : List α) : ∀ item,
    splitAux item sep (a ++ b) = splitAux (a.reverse ++ item) sep b := by
  induction a with
  | nil => intro item; rfl
  | cons c a ih =>
    intro item
    have hc : c ≠ sep := fun he => h (by simp [he])
    rw [List.cons_append, splitAux, if_neg hc, ih fun hm => h (by simp [hm])]
    simp

theorem splitAux_append (sep : α) (b a item : List α) :
    splitAux item sep (a ++ sep :: b) = splitAux item sep a ++ splitAux [] sep b := by
  induction a generalizing item with
  | nil => simp [splitAux]
  | cons c a ih =>
    rw [List.cons_append, splitAux, splitAux]
    by_cases hc : c = sep
    · rw [if_pos hc, if_pos hc, ih, List.cons_append]
    · rw [if_neg hc, if_neg hc, ih]

end

variable {sep : Char}

/-- The bytes of a text are cut where its characters are. -/
theorem splitAux_encode (hsep : sep.toNat < 128) (cs : List Char) : ∀ item : List Char,
    splitAux (item.reverse.flatMap String.utf8EncodeChar).reverse sep.toUInt8 (cs.flatMap String.utf8EncodeChar) =
      (splitAux item sep cs).map fun piece => piece.flatMap String.utf8EncodeChar := by
  induction cs with
  | nil => intro item; simp [splitAux]
  | cons c cs ih =>
    intro item
    rw [List.flatMap_cons]
    by_cases hc : c = sep
    · subst hc
      have hrest := ih []
      simp only [List.reverse_nil, List.flatMap_nil] at hrest
      rw [Bytes.encodeChar_ascii hsep, List.singleton_append, splitAux, splitAux, if_pos rfl, if_pos rfl, hrest]
      simp
    · have hnot : sep.toUInt8 ∉ String.utf8EncodeChar c := fun hm => hc (Bytes.eq_of_mem_encodeChar hsep hm)
      rw [splitAux_of_notMem hnot, splitAux, if_neg hc, ← ih (c :: item)]
      simp

/-- Items may as well be cut from the bytes. -/
theorem items_eq (hsep : sep.toNat < 128) (p : Native) :
    items sep p = (splitAux [] sep.toUInt8 p.bytes).map Native.ofBytes := by
  cases p with
  | raw b => rfl
  | text s =>
    have hcut := splitAux_encode hsep s.toList []
    simp only [List.reverse_nil, List.flatMap_nil] at hcut
    have hpiece : ∀ piece : List Char, Native.ofBytes (piece.flatMap String.utf8EncodeChar) =
        .text (String.ofList piece) := by
      intro piece
      rw [← Native.ofBytes_ofString]
      simp [Bytes.ofString]
    rw [Native.bytes, Bytes.ofString, hcut]
    simp [items, split, Function.comp_def, hpiece]

theorem items_join (hsep : sep.toNat < 128) (a b : Native) :
    items sep (a ++ (String.ofList [sep] : Native) ++ b) = items sep a ++ items sep b := by
  have hbytes : (a ++ (String.ofList [sep] : Native) ++ b).bytes = a.bytes ++ sep.toUInt8 :: b.bytes := by
    rw [Native.bytes_append, Native.bytes_append]
    show a.bytes ++ Bytes.ofString (String.ofList [sep]) ++ b.bytes = _
    rw [Bytes.ofString_singleton hsep, List.append_assoc, List.singleton_append]
  rw [items_eq hsep, items_eq hsep, items_eq hsep, hbytes, splitAux_append, List.map_append]

end Path

end CommandShell
