/-
  CommandShell.Proofs.Text.Numerals — which arguments are numbers.

  A numeral is one or more ASCII digits, and its value is the decimal one, whatever the number of zeros in front. The
  two kinds of numeric argument are numerals behind a sign, within the range of a machine word:
  - `digits?_eq_some`: the digits of a numeral are read as its value, and nothing else is read;
  - `count?_eq_some`: counts have no sign or a plus sign, and 64 bits;
  - `exitCode?_eq_some`: exit codes have any sign, and 32 bits of which one is for the sign.
-/

import CommandShell.Text.Decimal
import Mathlib.Data.Nat.Digits.Defs

namespace CommandShell.Text

/-- What a digit is worth. -/
def digitValue (c : Char) : Nat := c.toNat - '0'.toNat

/-- One or more digits with this value. -/
structure Numeral (cs : List Char) (n : Nat) : Prop where
  nonempty : cs ≠ []
  digits : ∀ c ∈ cs, '0' ≤ c ∧ c ≤ '9'
  value : n = Nat.ofDigits 10 (cs.map digitValue).reverse

/-- A numeral, perhaps behind a plus sign. -/
inductive Unsigned : List Char → Nat → Prop
  | plain {cs : List Char} {n : Nat} (h : Numeral cs n) : Unsigned cs n
  | plus {cs : List Char} {n : Nat} (h : Numeral cs n) : Unsigned ('+' :: cs) n

/-- A numeral, perhaps behind a sign. -/
inductive Signed : List Char → Int → Prop
  | unsigned {cs : List Char} {n : Nat} (h : Unsigned cs n) : Signed cs n
  | minus {cs : List Char} {n : Nat} (h : Numeral cs n) : Signed ('-' :: cs) (-n)

/-- A number of 64 bits. -/
def IsCount (s : String) (n : Nat) : Prop := Unsigned s.toList n ∧ n ≤ 2 ^ 64 - 1

/-- A signed number of 32 bits. -/
def IsExitCode (s : String) (v : Int) : Prop := Signed s.toList v ∧ -2 ^ 31 ≤ v ∧ v ≤ 2 ^ 31 - 1

variable {cs : List Char} {s : String} {n : Nat} {v : Int}

/-! ## Digits -/

theorem isDigit_iff (c : Char) : c.isDigit = true ↔ '0' ≤ c ∧ c ≤ '9' := by
  simp [Char.isDigit, Char.le_def]

theorem foldl_digits (cs : List Char) :
    cs.foldl (fun n c => 10 * n + (c.toNat - '0'.toNat)) 0 = Nat.ofDigits 10 (cs.map digitValue).reverse := by
  rw [Nat.ofDigits_eq_foldr, ← List.map_reverse, List.foldr_map, List.foldl_eq_foldr_reverse]
  simp only [digitValue, Nat.cast_id, Nat.add_comm]

theorem digits?_eq_some : digits? cs = some n ↔ Numeral cs n := by
  have hdigits : cs.all Char.isDigit = true ↔ ∀ c ∈ cs, '0' ≤ c ∧ c ≤ '9' := by
    simp only [List.all_eq_true, isDigit_iff]
  unfold digits?
  by_cases hempty : cs = []
  · subst hempty
    exact iff_of_false (by simp) fun h => h.nonempty rfl
  by_cases hall : cs.all Char.isDigit = true
  · rw [if_neg (by simpa using hempty), if_pos hall, foldl_digits]
    constructor
    · intro h
      cases h
      exact ⟨hempty, hdigits.mp hall, rfl⟩
    · intro h
      rw [h.value]
  · rw [if_neg (by simpa using hempty), if_neg hall]
    exact iff_of_false (by simp) fun h => hall (hdigits.mpr h.digits)

/-- A sign is no digit. -/
theorem not_numeral_sign {sign : Char} (hsign : sign < '0') : ¬Numeral (sign :: cs) n := by
  intro h
  exact absurd hsign (Char.not_lt.mpr (h.digits sign (by simp)).1)

/-! ## Signs -/

theorem unsigned_plus : Unsigned ('+' :: cs) n ↔ Numeral cs n := by
  constructor
  · intro h
    cases h with
    | plain h => exact absurd h (not_numeral_sign (by decide))
    | plus h => exact h
  · exact .plus

theorem unsigned_plain (hplain : ∀ cs', cs ≠ '+' :: cs') : Unsigned cs n ↔ Numeral cs n := by
  constructor
  · intro h
    cases h with
    | plain h => exact h
    | plus h => exact absurd rfl (hplain _)
  · exact .plain

theorem signed_minus : Signed ('-' :: cs) v ↔ ∃ n : Nat, Numeral cs n ∧ -(n : Int) = v := by
  constructor
  · intro h
    cases h with
    | unsigned h => exact absurd ((unsigned_plain (by simp)).mp h) (not_numeral_sign (by decide))
    | minus h => exact ⟨_, h, rfl⟩
  · intro ⟨n, h, hv⟩
    rw [← hv]
    exact .minus h

theorem signed_unsigned (hminus : ∀ cs', cs ≠ '-' :: cs') : Signed cs v ↔ ∃ n : Nat, Unsigned cs n ∧ (n : Int) = v := by
  constructor
  · intro h
    cases h with
    | unsigned h => exact ⟨_, h, rfl⟩
    | minus h => exact absurd rfl (hminus _)
  · intro ⟨n, h, hv⟩
    rw [← hv]
    exact .unsigned h

/-! ## Counts and codes -/

theorem count?_eq_some : count? s = some n ↔ IsCount s n := by
  have hmax : maxCount = 2 ^ 64 - 1 := by decide
  unfold count? IsCount
  rw [Option.filter_eq_some_iff, decide_eq_true_iff, hmax]
  apply and_congr_left'
  split
  · next cs hs => rw [hs, digits?_eq_some, unsigned_plus]
  · next hplus => rw [digits?_eq_some, unsigned_plain hplus]

theorem count?_eq_none : count? s = none ↔ ∀ n, ¬IsCount s n := by
  simp only [Option.eq_none_iff_forall_ne_some, ne_eq, count?_eq_some]

theorem integer?_eq_some : integer? s = some v ↔ Signed s.toList v := by
  unfold integer?
  split
  · next cs hs =>
    rw [hs, signed_unsigned (by simp), Option.map_eq_some_iff]
    simp only [digits?_eq_some, unsigned_plus, Int.ofNat_eq_natCast]
  · next cs hs =>
    rw [hs, signed_minus, Option.map_eq_some_iff]
    simp only [digits?_eq_some, Int.ofNat_eq_natCast]
  · next hplus hminus =>
    rw [signed_unsigned hminus, Option.map_eq_some_iff]
    simp only [digits?_eq_some, unsigned_plain hplus, Int.ofNat_eq_natCast]

theorem exitCode?_eq_some : exitCode? s = some v ↔ IsExitCode s v := by
  have hrange : (decide (-2147483648 ≤ v) && decide (v ≤ 2147483647)) = true ↔ -2 ^ 31 ≤ v ∧ v ≤ 2 ^ 31 - 1 := by
    rw [Bool.and_eq_true, decide_eq_true_iff, decide_eq_true_iff]
    norm_num
  unfold exitCode? IsExitCode
  rw [Option.filter_eq_some_iff, integer?_eq_some, hrange]

theorem exitCode?_eq_none : exitCode? s = none ↔ ∀ v, ¬IsExitCode s v := by
  simp only [Option.eq_none_iff_forall_ne_some, ne_eq, exitCode?_eq_some]

end CommandShell.Text
