import Introspect.Json.Numeral

/-!
Tokens of a JSON text. Numbers and strings are kept as written: what they stand for is decided only
when a value is asked for.
-/
namespace Introspect.Json

/-- A piece of a string: a character, or a 16-bit code written as an escape. -/
inductive Piece where
  | char (c : Char)
  | code (n : Nat)
deriving DecidableEq

abbrev RawString := List Piece

namespace RawString

/-- The text of a string. Codes of surrogates have to come in pairs, the high one first. -/
def chars? : RawString → Option (List Char)
  | [] => some []
  | .char c :: rest => (chars? rest).map (c :: ·)
  | .code high :: .code low :: rest =>
    if 0xd800 ≤ high ∧ high < 0xdc00 then
      if 0xdc00 ≤ low ∧ low < 0xe000 then
        let code := 0x10000 + (high - 0xd800) * 0x400 + (low - 0xdc00)
        (chars? rest).map (Char.ofNat code :: ·)
      else none
    else if 0xdc00 ≤ high ∧ high < 0xe000 then none
    else (chars? (.code low :: rest)).map (Char.ofNat high :: ·)
  | .code n :: rest =>
    if 0xd800 ≤ n ∧ n < 0xe000 then none else (chars? rest).map (Char.ofNat n :: ·)

def text? (s : RawString) : Option String :=
  (chars? s).map String.ofList

end RawString

inductive Punctuation where
  | beginArray
  | endArray
  | beginObject
  | endObject
  | nameSeparator
  | valueSeparator
deriving DecidableEq

inductive Token where
  | punctuation (p : Punctuation)
  | null
  | bool (b : Bool)
  | number (n : Numeral)
  | string (s : RawString)
deriving DecidableEq

namespace Token

def isBlank (c : Char) : Bool :=
  c == ' ' || c == '\t' || c == '\n' || c == '\r'

def hexValue? (c : Char) : Option Nat :=
  if c.isDigit then some (c.toNat - '0'.toNat)
  else if 'a' ≤ c ∧ c ≤ 'f' then some (c.toNat - 'a'.toNat + 10)
  else if 'A' ≤ c ∧ c ≤ 'F' then some (c.toNat - 'A'.toNat + 10)
  else none

def hexCode? (cs : List Char) : Option Nat :=
  cs.foldlM (fun n c => (hexValue? c).map (16 * n + ·)) 0

/-- The character that a short escape stands for. -/
def unescape? : Char → Option Char
  | '"' => some '"'
  | '\\' => some '\\'
  | '/' => some '/'
  | 'b' => some '\x08'
  | 'f' => some '\x0c'
  | 'n' => some '\n'
  | 'r' => some '\r'
  | 't' => some '\t'
  | _ => none

/-- The rest of a string after its opening quote, and the text behind it. `done` holds the pieces
read so far, last first. -/
def scanString (done : List Piece) : List Char → Option (RawString × List Char)
  | [] => none
  | '"' :: rest => some (done.reverse, rest)
  | '\\' :: 'u' :: a :: b :: c :: d :: rest =>
    match hexCode? [a, b, c, d] with
    | some n => scanString (.code n :: done) rest
    | none => none
  | '\\' :: e :: rest =>
    match unescape? e with
    | some c => scanString (.char c :: done) rest
    | none => none
  | c :: rest => if c.toNat < 0x20 then none else scanString (.char c :: done) rest

def digits (cs : List Char) : List Char × List Char :=
  (cs.takeWhile Char.isDigit, cs.dropWhile Char.isDigit)

/-- A point with the digits after it. -/
def scanFraction (cs : List Char) : Option (Option (List Char) × List Char) :=
  match cs with
  | '.' :: rest =>
    let (ds, rest) := digits rest
    if ds.isEmpty then none else some (some ds, rest)
  | _ => some (none, cs)

def scanSign (cs : List Char) : Bool × List Char :=
  match cs with
  | '-' :: rest => (true, rest)
  | '+' :: rest => (false, rest)
  | _ => (false, cs)

/-- An exponent mark with a sign and digits after it. -/
def scanExponent (cs : List Char) : Option (Option (Bool × List Char) × List Char) :=
  match cs with
  | 'e' :: rest | 'E' :: rest =>
    let (down, rest) := scanSign rest
    let (ds, rest) := digits rest
    if ds.isEmpty then none else some (some (down, ds), rest)
  | _ => some (none, cs)

/-- The digits before the point: a zero, or digits that start with another one. -/
def scanWhole (cs : List Char) : Option (List Char × List Char) :=
  match cs with
  | '0' :: rest => some (['0'], rest)
  | _ =>
    let (ds, rest) := digits cs
    if ds.isEmpty then none else some (ds, rest)

def scanNumber (negative : Bool) (cs : List Char) : Option (Numeral × List Char) := do
  let (whole, rest) ← scanWhole cs
  let (fraction, rest) ← scanFraction rest
  let (exponent, rest) ← scanExponent rest
  return (⟨negative, whole, fraction, exponent⟩, rest)

/-- The token at the front of a text that starts with `c`, which is no blank. -/
def scan? (c : Char) (rest : List Char) : Option (Token × List Char) :=
  match c, rest with
  | '[', _ => some (punctuation .beginArray, rest)
  | ']', _ => some (punctuation .endArray, rest)
  | '\x7b', _ => some (punctuation .beginObject, rest)
  | '\x7d', _ => some (punctuation .endObject, rest)
  | ':', _ => some (punctuation .nameSeparator, rest)
  | ',', _ => some (punctuation .valueSeparator, rest)
  | '"', _ => (scanString [] rest).map fun (s, rest) => (string s, rest)
  | 'n', 'u' :: 'l' :: 'l' :: rest => some (null, rest)
  | 't', 'r' :: 'u' :: 'e' :: rest => some (bool true, rest)
  | 'f', 'a' :: 'l' :: 's' :: 'e' :: rest => some (bool false, rest)
  | '-', _ => (scanNumber true rest).map fun (n, rest) => (number n, rest)
  | _, _ => (scanNumber false (c :: rest)).map fun (n, rest) => (number n, rest)

/-- The tokens of a text. The measure bounds how often a token can be taken off. -/
def scanAll (done : List Token) (measure : Nat) (cs : List Char) : Option (List Token) :=
  match cs.dropWhile isBlank with
  | [] => some done.reverse
  | c :: rest =>
    match measure with
    | 0 => none
    | measure + 1 =>
      match scan? c rest with
      | some (token, rest) => scanAll (token :: done) measure rest
      | none => none

/-- A text has no more tokens than characters. -/
def ofText? (text : String) : Option (List Token) :=
  scanAll [] text.toList.length text.toList

end Token
end Introspect.Json
