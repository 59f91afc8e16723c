import Introspect.Binary64.Rounding

/-! Sums, products and quotients: the exact result, rounded once. -/
namespace Introspect.Binary64

def isNegative : Binary64 → Bool
  | .finite negative _ | .infinite negative => negative
  | .nan => false

def neg : Binary64 → Binary64
  | .finite negative rank => .finite (!negative) rank
  | .infinite negative => .infinite (!negative)
  | .nan => .nan

/-- The value in units, signed. -/
def signedUnits (negative : Bool) (rank : Nat) : Int :=
  if negative then -(units rank : Int) else units rank

/-- A sum that cancels is `+0`, unless both terms are negative zeros. -/
def add : Binary64 → Binary64 → Binary64
  | .finite s a, .finite t b =>
    let sum := signedUnits s a + signedUnits t b
    ofRatio (if sum = 0 then s && t else sum < 0) sum.natAbs unitsPerOne
  | .infinite s, .infinite t => if s = t then .infinite s else .nan
  | .infinite s, .finite .. => .infinite s
  | .finite .., .infinite t => .infinite t
  | _, _ => .nan

def mul : Binary64 → Binary64 → Binary64
  | .finite s a, .finite t b => ofRatio (s ^^ t) (units a * units b) (unitsPerOne * unitsPerOne)
  | .infinite s, .infinite t => .infinite (s ^^ t)
  | .infinite s, .finite t b | .finite t b, .infinite s =>
    if b.val = 0 then .nan else .infinite (s ^^ t)
  | _, _ => .nan

def div : Binary64 → Binary64 → Binary64
  | .finite s a, .finite t b =>
    if units b ≠ 0 then ofRatio (s ^^ t) (units a) (units b)
    else if units a ≠ 0 then .infinite (s ^^ t)
    else .nan
  | .infinite s, .finite t _ => .infinite (s ^^ t)
  | .finite s _, .infinite t => zero (s ^^ t)
  | _, _ => .nan

/-- The integer part of a number, brought into the range of 64-bit integers. NaN counts as zero. -/
def truncate : Binary64 → Int64
  | .finite negative rank =>
    let whole : Int := (units rank / unitsPerOne : Nat)
    Int64.ofIntClamp (if negative then -whole else whole)
  | .infinite negative => if negative then Int64.minValue else Int64.maxValue
  | .nan => 0

end Introspect.Binary64
