/-!
Binary64 numbers, with one NaN. The finite values of a sign are numbered from zero in increasing
order; a value is kept as that number, its rank, so that order, neighbours and bits are all read
off directly. The distance between zero and rank one is the unit in which every finite value is
whole.
-/
namespace Introspect

inductive Binary64 where
  | finite (negative : Bool) (rank : Fin (2047 * 0x10000000000000))
  | infinite (negative : Bool)
  | nan
deriving DecidableEq

namespace Binary64

/-- How many finite values each sign has. -/
abbrev finiteCount : Nat := 2047 * 0x10000000000000

/-- How many units make one. -/
def unitsPerOne : Nat := Nat.pow 2 1074

/-- The integer significand of the value with a given rank. -/
def significand (rank : Nat) : Nat :=
  if rank < 0x10000000000000 then rank else 0x10000000000000 + rank % 0x10000000000000

/-- The size of the value with a given rank, in units. -/
def units (rank : Nat) : Nat :=
  significand rank * Nat.pow 2 (rank / 0x10000000000000 - 1)

def zero (negative : Bool) : Binary64 :=
  .finite negative ⟨0, by decide⟩

def isFinite : Binary64 → Bool
  | .finite .. => true
  | _ => false

/-- The interchange bits: the sign, then the rank, with infinity next after the finite ranks. -/
def toBits : Binary64 → Nat
  | .finite negative rank => (if negative then 0x8000000000000000 else 0) + rank
  | .infinite negative => (if negative then 0x8000000000000000 else 0) + finiteCount
  | .nan => 0x7ff8000000000000

/-- Reads interchange bits; whatever lies past an infinity is NaN. -/
def ofBits (bits : Nat) : Binary64 :=
  let negative := bits / 0x8000000000000000 % 2 == 1
  let rank := bits % 0x8000000000000000
  if h : rank < finiteCount then .finite negative ⟨rank, h⟩
  else if rank = finiteCount then .infinite negative
  else .nan

/-- Place in the order of the numbers. The two zeros share a place and NaN has none. -/
def place? : Binary64 → Option Int
  | .finite negative rank => some (if negative then -(rank : Int) else rank)
  | .infinite negative => some (if negative then -(finiteCount : Int) else finiteCount)
  | .nan => none

/-- Numeric order; NaN is neither below nor above anything. -/
def lt (x y : Binary64) : Bool :=
  match x.place?, y.place? with
  | some a, some b => a < b
  | _, _ => false

/-- Numeric equality: the zeros are equal and NaN differs from itself. -/
def sameNumber (x y : Binary64) : Bool :=
  match x.place?, y.place? with
  | some a, some b => a = b
  | _, _ => false

end Binary64
end Introspect
