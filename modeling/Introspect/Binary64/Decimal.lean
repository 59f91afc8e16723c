import Introspect.Binary64.Rounding

/-!
Decimals as the written form of binary64 numbers. A decimal reads as the nearest number; a number is
written with the fewest digits that read back, and among those with the nearest ones.
-/
namespace Introspect

/-- The decimal `digits · 10 ^ exponent`. -/
structure Decimal where
  digits : Nat
  exponent : Int
deriving DecidableEq

namespace Decimal

def numerator (d : Decimal) : Nat :=
  d.digits * Nat.pow 10 d.exponent.toNat

def denominator (d : Decimal) : Nat :=
  Nat.pow 10 (-d.exponent).toNat

def digitCount (n : Nat) : Nat :=
  (Nat.toDigits 10 n).length

/-- The number nearest to a decimal. -/
def toBinary64 (negative : Bool) (d : Decimal) : Binary64 :=
  Binary64.ofRatio negative d.numerator d.denominator

/-- The same decimal with no zero at the end of its digits. -/
def trim (digits : Nat) (exponent : Int) : Decimal :=
  if digits ≠ 0 ∧ digits % 10 = 0 then trim (digits / 10) (exponent + 1) else ⟨digits, exponent⟩
termination_by digits
decreasing_by omega

end Decimal

namespace Binary64

def readsAs (rank : Nat) (d : Decimal) : Bool :=
  nearestRank d.numerator d.denominator == rank

/-- How many digits a value, given in units, has before the point; if it is below one tenth, how
many zeros follow the point, as a negative number. A unit has 1074 decimal places. -/
def wholeDigits (inUnits : Nat) : Int :=
  (Decimal.digitCount (inUnits * Nat.pow 5 1074) : Int) - 1074

/-- Of two decimals, the one that reads back; of two such, the upper one if `up` says so. -/
def readable? (reads : Decimal → Bool) (up : Bool) (below above : Decimal) : Option Decimal :=
  match reads below, reads above with
  | true, true => some (if up then above else below)
  | true, false => some below
  | false, true => some above
  | false, false => none

/-- Of the two decimals around a value on the grid of an exponent, the one that reads back; of two,
the nearer. -/
def decimalAt? (tie : Tie) (rank : Nat) (exponent : Int) : Option Decimal :=
  let num := units rank * Nat.pow 10 (-exponent).toNat
  let den := unitsPerOne * Nat.pow 10 exponent.toNat
  readable? (readsAs rank) (tie.roundsUp (num / den) (num % den) den)
    ⟨num / den, exponent⟩ ⟨num / den + 1, exponent⟩

/-- The fewest digits that read back; seventeen always do. -/
def shortest (tie : Tie) (rank : Nat) : Decimal :=
  if rank = 0 then ⟨0, 0⟩
  else
    let places := wholeDigits (units rank)
    let found := (List.range 17).findSome? fun i => decimalAt? tie rank (places - (i + 1 : Nat))
    let d := found.getD ⟨units rank * Nat.pow 5 1074, -1074⟩
    Decimal.trim d.digits d.exponent

end Binary64
end Introspect
