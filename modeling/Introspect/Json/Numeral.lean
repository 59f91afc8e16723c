import Introspect.Json.Basic
import Introspect.Binary64.Arithmetic

/-!
JSON numbers as they are written, and what they are read as. Integers of 64 bits, with or without
sign, are kept. Any other number is read from its leading digits, as many as fit in 64 bits, and
scaled by powers of ten; each of these steps rounds.
-/
namespace Introspect.Json

/-- A number as written. -/
structure Numeral where
  negative : Bool
  whole : List Char
  fraction : Option (List Char)
  /-- Whether the exponent is negative, and its digits. -/
  exponent : Option (Bool × List Char)
deriving DecidableEq

namespace Numeral

/-- Leading digits that fit in 64 bits, after those in `value`, and the digits left over. -/
def leading (value : Nat) : List Char → Nat × List Char
  | [] => (value, [])
  | c :: rest =>
    let value' := 10 * value + (c.toNat - '0'.toNat)
    if value' < 0x10000000000000000 then leading value' rest else (value, c :: rest)

def power (k : Nat) : Binary64 :=
  Binary64.ofRatio false (Nat.pow 10 k) 1

/-- Division by `10 ^ k`, by at most `10 ^ 308` at a time. -/
def scaleDown (x : Binary64) (k : Nat) : Binary64 :=
  if k ≤ 308 then x.div (power k)
  else if x.sameNumber (Binary64.zero false) then x
  else scaleDown (x.div (power 308)) (k - 308)
termination_by k

/-- Scales by a power of ten, unless that leaves the finite numbers. -/
def scale? (x : Binary64) (exponent : Int) : Option Binary64 :=
  if exponent < 0 then some (scaleDown x exponent.natAbs)
  else if exponent ≤ 308 then
    let y := x.mul (power exponent.natAbs)
    if y.isFinite then some y else none
  else if x.sameNumber (Binary64.zero false) then some x
  else none

/-- Exponents are limited to 32 bits. Beyond that only zero may be scaled up, and scaling down gives
zero. -/
def exponentLimit : Nat := 0x80000000

def clampExponent (e : Int) : Int :=
  if e < -(exponentLimit : Int) then -(exponentLimit : Int)
  else if (exponentLimit : Int) ≤ e then (exponentLimit : Int) - 1
  else e

/-- The number as a float, or nothing if it is too large for one. -/
def float? (n : Numeral) : Option Binary64 :=
  let (head, dropped) := leading 0 n.whole
  let (significand, ignored) := leading head (n.fraction.getD [])
  let places : Int := dropped.length - ((n.fraction.getD []).length - ignored.length : Nat)
  let x := Binary64.ofRatio false significand 1
  let magnitude :=
    match n.exponent with
    | none => scale? x places
    | some (down, digits) =>
      let e := Nat.ofDigitChars 10 digits 0
      if exponentLimit ≤ e then
        if significand ≠ 0 ∧ !down then none else some (Binary64.zero false)
      else scale? x (clampExponent (if down then places - e else places + e))
  magnitude.map fun x => if n.negative then x.neg else x

/-- What a number is read as. Minus zero is a float. -/
def value? (n : Numeral) : Option Json :=
  let magnitude := Nat.ofDigitChars 10 n.whole 0
  if n.fraction.isSome ∨ n.exponent.isSome then n.float?.map .float
  else if !n.negative ∧ magnitude < 0x10000000000000000 then some (.integer magnitude)
  else if n.negative ∧ magnitude ≠ 0 ∧ magnitude ≤ 0x8000000000000000 then
    some (.integer (-magnitude))
  else n.float?.map .float

end Numeral
end Introspect.Json
