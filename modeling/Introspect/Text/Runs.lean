/-!
Sets of code points written as the increasing list of the points where membership changes,
starting outside. A code point is a member when an odd number of these bounds lie at or below it.
-/
namespace Introspect.Text

/-- Walks the bounds up to the first that lies above `n`, flipping `inside` at each. -/
def insideRuns (n : Nat) (inside : Bool) : List Nat → Bool
  | [] => inside
  | bound :: bounds => if n < bound then inside else insideRuns n (!inside) bounds

/-- Whether the code point of `c` lies in the runs that `bounds` describes. -/
def inRuns (bounds : List Nat) (c : Char) : Bool :=
  insideRuns c.toNat false bounds

end Introspect.Text
