/-
# Sets of characters given by ranges

The properties of characters that a program consults (blank, printable, digit, cased) are sets
of code points. Each is written as a list of closed ranges, and this module says when a
character belongs to such a list.
-/
namespace SymbolJump.Text

/-- Whether the code point of a character lies in one of the closed ranges. -/
def inRanges (ranges : List (Nat × Nat)) (c : Char) : Bool :=
  ranges.any fun range => range.1 ≤ c.toNat && c.toNat ≤ range.2

@[simp]
theorem inRanges_nil (c : Char) : inRanges [] c = false := rfl

theorem inRanges_eq_true_iff (ranges : List (Nat × Nat)) (c : Char) :
    inRanges ranges c = true ↔
      ∃ range ∈ ranges, range.1 ≤ c.toNat ∧ c.toNat ≤ range.2 := by
  simp [inRanges]

end SymbolJump.Text
