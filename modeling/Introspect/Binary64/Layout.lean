import Introspect.Binary64.Decimal

/-! The text of numbers: positional, with an exponent, and with a fixed count of places. -/
namespace Introspect

namespace Decimal

def digitText (d : Decimal) : List Char :=
  Nat.toDigits 10 d.digits

/-- All digits before the point, or a point among them, or zeros between the point and them. -/
def positional (d : Decimal) : List Char :=
  let places := (-d.exponent).toNat
  let whole := d.digitText.length - places
  if places = 0 then d.digitText ++ List.replicate d.exponent.toNat '0'
  else if 0 < whole then d.digitText.take whole ++ '.' :: d.digitText.drop whole
  else '0' :: '.' :: List.replicate (places - d.digitText.length) '0' ++ d.digitText

/-- The power of ten of the first digit. -/
def leadingExponent (d : Decimal) : Int :=
  d.exponent + d.digitText.length - 1

/-- One digit before the point and a signed exponent after the rest. -/
def scientific (d : Decimal) : List Char :=
  let mantissa := match d.digitText with
    | first :: second :: rest => first :: '.' :: second :: rest
    | ds => ds
  let sign := if d.leadingExponent < 0 then '-' else '+'
  mantissa ++ 'e' :: sign :: Nat.toDigits 10 d.leadingExponent.natAbs

end Decimal

namespace Binary64

def signed (negative : Bool) (text : List Char) : List Char :=
  if negative then '-' :: text else text

/-- Positional notation, however many digits that takes; a whole value has no point. -/
def plainText : Binary64 → List Char
  | .finite negative rank => signed negative (shortest .up rank).positional
  | .infinite negative => signed negative ['i', 'n', 'f']
  | .nan => ['N', 'a', 'N']

/-- A text with `.0` at its end unless it has a point. -/
def withPoint (text : List Char) : List Char :=
  if text.contains '.' then text else text ++ ['.', '0']

/-- Rounded to `places` decimal places from the exact value, a half going to the even neighbour. -/
def fixedText (places : Nat) : Binary64 → List Char
  | .finite negative rank =>
    let scaled := roundDiv .even (units rank * Nat.pow 10 places) unitsPerOne
    signed negative (Decimal.positional ⟨scaled, -places⟩)
  | x => x.plainText

end Binary64
end Introspect
