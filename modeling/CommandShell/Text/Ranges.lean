/-
  CommandShell.Text.Ranges — sets of code points as lists of ranges.
-/

namespace CommandShell.Text

/-- Closed ranges of code points, in increasing order. -/
abbrev Ranges := List (Nat × Nat)

def Ranges.has (ranges : Ranges) (c : Char) : Bool :=
  ranges.any fun r => r.1 ≤ c.toNat && c.toNat ≤ r.2

end CommandShell.Text
