/-!
# Tables of code points

The two shapes in which character properties are written down: a list of ranges for a set of
characters, and a list of shifts for a mapping that sends a character to another one.
-/

namespace SourceNavigator.Text

/-- Membership in a list of closed ranges. -/
def inRanges (ranges : List (Nat × Nat)) (n : Nat) : Bool :=
  ranges.any fun r => decide (r.1 ≤ n ∧ n ≤ r.2)

/-- The image of a character under a table of shifts. An entry `(first, last, step, offset)` moves
each character `first, first + step, …, last` by `offset`; all others stay. -/
def shiftChar (shifts : List (Nat × Nat × Nat × Int)) (c : Char) : Char :=
  match shifts.find? fun (first, last, step, _) =>
      decide (first ≤ c.toNat ∧ c.toNat ≤ last) && (c.toNat - first) % step == 0 with
  | some (_, _, _, offset) => Char.ofNat (c.toNat + offset).toNat
  | none => c

end SourceNavigator.Text
