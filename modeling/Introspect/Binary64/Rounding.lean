import Introspect.Binary64.Basic

/-! Rounding of exact quotients: to integers, and to the nearest binary64 number. -/
namespace Introspect

/-- Where a value half-way between two neighbours goes. -/
inductive Tie where
  | up
  | even
deriving DecidableEq

/-- Whether a quotient with integer part `q` and remainder `r` over `d` goes to `q + 1`. -/
def Tie.roundsUp (tie : Tie) (q r d : Nat) : Bool :=
  d < 2 * r || (2 * r == d && (tie == .up || q % 2 == 1))

/-- The integer nearest to `n / d`. -/
def roundDiv (tie : Tie) (n d : Nat) : Nat :=
  if tie.roundsUp (n / d) (n % d) d then n / d + 1 else n / d

namespace Binary64

/-- The rank of the value nearest to `num / den`, as if ranks went on past the finite ones. The
significand is rounded at the power of two that leaves it 53 bits, or in units if it has fewer. -/
def nearestRank (num den : Nat) : Nat :=
  let inUnits := num * unitsPerOne
  let scale := Nat.log2 (inUnits / den) - 52
  scale * 0x10000000000000 + roundDiv .even inUnits (den * Nat.pow 2 scale)

/-- The value nearest to `num / den`, infinite where that lies past the finite ranks. -/
def ofRatio (negative : Bool) (num den : Nat) : Binary64 :=
  if h : nearestRank num den < finiteCount then .finite negative ⟨_, h⟩ else .infinite negative

def ofInt (n : Int) : Binary64 :=
  ofRatio (n < 0) n.natAbs 1

end Binary64
end Introspect
