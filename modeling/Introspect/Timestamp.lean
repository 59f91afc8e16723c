import Introspect.Text.Blank

/-!
Points in time by the civil calendar, in UTC, and their text by RFC 3339. Reading is more liberal
than writing: parts need not be padded, blanks may stand between them, and an offset is carried
over to UTC.
-/
namespace Introspect

/-- The parts of a point in time, or of what only looks like one. A second of 60 is a leap
second. -/
structure Civil where
  year : Int
  month : Nat
  day : Nat
  hour : Nat
  minute : Nat
  second : Nat
  nanos : Nat
deriving DecidableEq

namespace Civil

def isLeapYear (year : Int) : Bool :=
  year % 4 == 0 && (year % 100 != 0 || year % 400 == 0)

def daysIn (year : Int) (month : Nat) : Nat :=
  if month = 2 then if isLeapYear year then 29 else 28
  else if month = 4 ∨ month = 6 ∨ month = 9 ∨ month = 11 then 30
  else 31

/-- Whether the parts name a point in time. -/
def isValid (t : Civil) : Bool :=
  -262143 ≤ t.year && t.year ≤ 262142 && 1 ≤ t.month && t.month ≤ 12
    && 1 ≤ t.day && t.day ≤ daysIn t.year t.month
    && t.hour ≤ 23 && t.minute ≤ 59 && t.second ≤ 60 && t.nanos < 1000000000

def nextDay (t : Civil) : Civil :=
  if t.day < daysIn t.year t.month then { t with day := t.day + 1 }
  else if t.month < 12 then { t with month := t.month + 1, day := 1 }
  else { t with year := t.year + 1, month := 1, day := 1 }

def previousDay (t : Civil) : Civil :=
  if 1 < t.day then { t with day := t.day - 1 }
  else if 1 < t.month then { t with month := t.month - 1, day := daysIn t.year (t.month - 1) }
  else { t with year := t.year - 1, month := 12, day := 31 }

/-- The same point in UTC, for a local time that is `offset` minutes ahead of it. -/
def toUtc (t : Civil) (offset : Int) : Civil :=
  let minutes : Int := 60 * t.hour + t.minute - offset
  let day := if minutes < 0 then t.previousDay else if minutes < 1440 then t else t.nextDay
  let rest := (minutes % 1440).toNat
  { day with hour := rest / 60, minute := rest % 60 }

/-! ### Writing -/

/-- Digits with zeros in front up to a width. -/
def padded (width n : Nat) : List Char :=
  let ds := Nat.toDigits 10 n
  List.replicate (width - ds.length) '0' ++ ds

/-- Years of more or less than four digits carry a sign. -/
def yearText (year : Int) : List Char :=
  if 0 ≤ year ∧ year ≤ 9999 then padded 4 year.toNat
  else (if year < 0 then '-' else '+') :: padded 4 year.natAbs

/-- No fraction, or one of three, six or nine digits. -/
def fractionText (nanos : Nat) : List Char :=
  if nanos = 0 then []
  else if nanos % 1000000 = 0 then '.' :: padded 3 (nanos / 1000000)
  else if nanos % 1000 = 0 then '.' :: padded 6 (nanos / 1000)
  else '.' :: padded 9 nanos

/-- The text without its offset. -/
def localText (t : Civil) : List Char :=
  yearText t.year ++ '-' :: padded 2 t.month ++ '-' :: padded 2 t.day
    ++ 'T' :: padded 2 t.hour ++ ':' :: padded 2 t.minute ++ ':' :: padded 2 t.second
    ++ fractionText t.nanos

/-! ### Reading -/

/-- A number of at least one and at most `most` digits. -/
def number? (most : Nat) (cs : List Char) : Option (Nat × List Char) :=
  let ds := (cs.take most).takeWhile Char.isDigit
  if ds.isEmpty then none else some (Nat.ofDigitChars 10 ds 0, cs.drop ds.length)

/-- A year has at most four digits unless it has a sign. -/
def year? (cs : List Char) : Option (Int × List Char) :=
  match Text.dropBlanks cs with
  | '-' :: rest => (number? rest.length rest).map fun (n, rest) => (-n, rest)
  | '+' :: rest => (number? rest.length rest).map fun (n, rest) => (n, rest)
  | rest => (number? 4 rest).map fun (n, rest) => (n, rest)

/-- One of the shorter parts. -/
def part? (cs : List Char) : Option (Nat × List Char) :=
  number? 2 (Text.dropBlanks cs)

/-- A separator, with blanks before it. -/
def separator? (c : Char) (cs : List Char) : Option (List Char) :=
  match Text.dropBlanks cs with
  | d :: rest => if d = c then some rest else none
  | [] => none

/-- Between date and time stands a `T` or a space. -/
def timeMark? : List Char → Option (List Char)
  | 'T' :: rest | 't' :: rest | ' ' :: rest => some rest
  | _ => none

/-- Nanoseconds after a point; digits past the ninth are dropped. -/
def fraction? (cs : List Char) : Option (Nat × List Char) :=
  match cs with
  | '.' :: rest =>
    let ds := (rest.take 9).takeWhile Char.isDigit
    if ds.isEmpty then none
    else
      some (Nat.ofDigitChars 10 ds 0 * Nat.pow 10 (9 - ds.length), rest.dropWhile Char.isDigit)
  | _ => some (0, cs)

def twoDigits? : List Char → Option (Nat × List Char)
  | a :: b :: rest =>
    if a.isDigit ∧ b.isDigit then some (Nat.ofDigitChars 10 [a, b] 0, rest) else none
  | _ => none

/-- Hours and minutes of an offset after its sign, with any colons and blanks between them. -/
def offsetMinutes? (cs : List Char) : Option (Nat × List Char) := do
  let (hours, rest) ← twoDigits? cs
  let (minutes, rest) ← twoDigits? (rest.dropWhile fun c => c == ':' || Text.isBlank c)
  if hours ≤ 23 ∧ minutes ≤ 59 then some (60 * hours + minutes, rest) else none

/-- An offset in minutes: `UTC` or `Z` in either case, or a sign with hours and minutes. -/
def offset? : List Char → Option (Int × List Char)
  | 'Z' :: rest | 'z' :: rest => some (0, rest)
  | '+' :: rest => (offsetMinutes? rest).map fun (n, rest) => (n, rest)
  | '-' :: rest | '−' :: rest => (offsetMinutes? rest).map fun (n, rest) => (-n, rest)
  | u :: t :: c :: rest =>
    if u.toUpper = 'U' ∧ t.toUpper = 'T' ∧ c.toUpper = 'C' then some (0, rest) else none
  | _ => none

/-- The parts of a text, carried over to UTC. Both the local time and that in UTC have to exist. -/
def ofChars? (cs : List Char) : Option Civil := do
  let (year, rest) ← year? cs
  let (month, rest) ← part? (← separator? '-' rest)
  let (day, rest) ← part? (← separator? '-' rest)
  let (hour, rest) ← part? (← timeMark? rest)
  let (minute, rest) ← part? (← separator? ':' rest)
  let (second, rest) ← part? (← separator? ':' rest)
  let (nanos, rest) ← fraction? rest
  let (offset, rest) ← offset? (Text.dropBlanks rest)
  let written : Civil := ⟨year, month, day, hour, minute, second, nanos⟩
  if (Text.dropBlanks rest).isEmpty ∧ written.isValid then some (written.toUtc offset) else none

end Civil

/-- A point in time. -/
structure Timestamp where
  civil : Civil
  valid : civil.isValid
deriving DecidableEq

namespace Timestamp

def ofCivil? (t : Civil) : Option Timestamp :=
  if h : t.isValid then some ⟨t, h⟩ else none

def ofText? (text : String) : Option Timestamp :=
  (Civil.ofChars? text.toList).bind ofCivil?

def render (t : Timestamp) : String :=
  String.ofList (t.civil.localText ++ ['Z'])

/-- The text with a numeric offset. -/
def renderOffset (t : Timestamp) : String :=
  String.ofList (t.civil.localText ++ ['+', '0', '0', ':', '0', '0'])

/-- The point from which computers count. -/
def epoch : Timestamp :=
  ⟨⟨1970, 1, 1, 0, 0, 0, 0⟩, by decide⟩

end Timestamp
end Introspect
