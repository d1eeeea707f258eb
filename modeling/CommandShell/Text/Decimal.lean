/-
  CommandShell.Text.Decimal — numbers as arguments of commands.

  A numeric argument is a sign, if one is allowed, and one or more ASCII digits; leading zeros do not matter,
  and a value out of range is no number.
-/

namespace CommandShell.Text

/-- The value of a non-empty run of ASCII digits. -/
def digits? (cs : List Char) : Option Nat :=
  if cs.isEmpty then none
  else if cs.all Char.isDigit then some (cs.foldl (fun n c => 10 * n + (c.toNat - '0'.toNat)) 0)
  else none

def maxCount : Nat := 0xffffffffffffffff

/-- A count: digits, perhaps after a plus sign. -/
def count? (s : String) : Option Nat :=
  let value := match s.toList with
    | '+' :: cs => digits? cs
    | cs => digits? cs
  value.filter (· ≤ maxCount)

/-- An integer: digits, perhaps after a sign. -/
def integer? (s : String) : Option Int :=
  match s.toList with
  | '+' :: cs => (digits? cs).map Int.ofNat
  | '-' :: cs => (digits? cs).map fun n => -(Int.ofNat n)
  | cs => (digits? cs).map Int.ofNat

/-- An exit code: an integer in the range of 32 bits. -/
def exitCode? (s : String) : Option Int := (integer? s).filter fun v => -2147483648 ≤ v && v ≤ 2147483647

def longInteger? (s : String) : Option Int :=
  (integer? s).filter fun v => -9223372036854775808 ≤ v && v ≤ 9223372036854775807

/-- The value of a run of octal digits; anything else counts as nothing. -/
def octal (s : String) : Nat :=
  s.toList.foldl (fun n c => 8 * n + (c.toNat - '0'.toNat)) 0

end CommandShell.Text
