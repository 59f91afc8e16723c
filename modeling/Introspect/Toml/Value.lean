import Introspect.Binary64.Arithmetic
import Introspect.Binary64.Decimal

/-! TOML values, and how they are written: strings, numbers, dates and times, and containers. -/
namespace Introspect.Toml

inductive Value where
  | string (s : String)
  | integer (n : Int64)
  | float (x : Binary64)
  | boolean (b : Bool)
  /-- A date, a time or both, as written. -/
  | moment (text : String)
  | array (elements : List Value)
  | table (entries : List (String × Value))

/-- A reader takes what it reads off the front of a text. -/
abbrev Reader (α : Type) := List Char → Option (α × List Char)

/-! ### Characters -/

def isBlank (c : Char) : Bool :=
  c == ' ' || c == '\t'

def dropBlanks (cs : List Char) : List Char :=
  cs.dropWhile isBlank

/-- Characters that may stand in comments and, but for their delimiters, in strings. -/
def isText (c : Char) : Bool :=
  c == '\t' || (0x20 ≤ c.toNat && c.toNat != 0x7f)

def isHexDigit (c : Char) : Bool :=
  c.isDigit || ('a' ≤ c && c ≤ 'f') || ('A' ≤ c && c ≤ 'F')

def digitValue (c : Char) : Nat :=
  if c.isDigit then c.toNat - '0'.toNat else c.toLower.toNat - 'a'.toNat + 10

def ofDigits (base : Nat) (ds : List Char) : Nat :=
  ds.foldl (fun n d => base * n + digitValue d) 0

/-- The rest behind the end of a line. -/
def newline? : List Char → Option (List Char)
  | '\n' :: rest => some rest
  | '\r' :: '\n' :: rest => some rest
  | _ => none

/-! ### Strings -/

def unescape? : Char → Option Char
  | 'b' => some '\x08'
  | 't' => some '\t'
  | 'n' => some '\n'
  | 'f' => some '\x0c'
  | 'r' => some '\r'
  | '"' => some '"'
  | '\\' => some '\\'
  | _ => none

/-- The character with a code of hexadecimal digits. -/
def codeChar? (ds : List Char) : Option Char :=
  if ds.all isHexDigit ∧ (ofDigits 16 ds).isValidChar then some (Char.ofNat (ofDigits 16 ds))
  else none

/-- Up to two quotes may come right before the three that close a string of several lines. -/
def closeLines (quote : Char) (done : List Char) (rest : List Char) : String × List Char :=
  let more := (rest.take 2).takeWhile (· == quote)
  (String.ofList (done.reverse ++ more), rest.drop more.length)

/-- The rest of a string in double quotes, of one line or of several. `done` holds what was read so
far, last character first. After a backslash at the end of a line, `skipping` leaves out blanks and
ends of lines. -/
def scanBasic (lines skipping : Bool) (done : List Char) : Reader String
  | [] => none
  | c :: rest =>
    if c = '"' then
      match lines, rest with
      | false, rest => some (String.ofList done.reverse, rest)
      | true, '"' :: '"' :: rest => some (closeLines '"' done rest)
      | true, rest => scanBasic lines false ('"' :: done) rest
    else if c = '\\' then
      match rest with
      | 'u' :: a :: b :: c :: d :: rest =>
        match codeChar? [a, b, c, d] with
        | some x => scanBasic lines false (x :: done) rest
        | none => none
      | 'U' :: a :: b :: c :: d :: e :: f :: g :: h :: rest =>
        match codeChar? [a, b, c, d, e, f, g, h] with
        | some x => scanBasic lines false (x :: done) rest
        | none => none
      | e :: rest' =>
        match unescape? e with
        | some x => scanBasic lines false (x :: done) rest'
        | none =>
          if lines && (newline? (dropBlanks (e :: rest'))).isSome then
            scanBasic lines true done (e :: rest')
          else none
      | [] => none
    else if c = '\n' then
      if lines then scanBasic lines skipping (if skipping then done else '\n' :: done) rest
      else none
    else if c = '\r' then
      match rest with
      | '\n' :: rest =>
        if lines then scanBasic lines skipping (if skipping then done else '\n' :: done) rest
        else none
      | _ => none
    else if skipping && isBlank c then scanBasic lines skipping done rest
    else if isText c then scanBasic lines false (c :: done) rest
    else none

/-- The rest of a string in single quotes, in which nothing is escaped. -/
def scanLiteral (lines : Bool) (done : List Char) : Reader String
  | [] => none
  | c :: rest =>
    if c = '\'' then
      match lines, rest with
      | false, rest => some (String.ofList done.reverse, rest)
      | true, '\'' :: '\'' :: rest => some (closeLines '\'' done rest)
      | true, rest => scanLiteral lines ('\'' :: done) rest
    else if c = '\n' then if lines then scanLiteral lines ('\n' :: done) rest else none
    else if c = '\r' then
      match rest with
      | '\n' :: rest => if lines then scanLiteral lines ('\n' :: done) rest else none
      | _ => none
    else if isText c then scanLiteral lines (c :: done) rest
    else none

/-- A string of several lines does not count an end of line right after its opening quotes. -/
def dropFirstNewline (cs : List Char) : List Char :=
  (newline? cs).getD cs

def string? : Reader String
  | '"' :: '"' :: '"' :: rest => scanBasic true false [] (dropFirstNewline rest)
  | '"' :: rest => scanBasic false false [] rest
  | '\'' :: '\'' :: '\'' :: rest => scanLiteral true [] (dropFirstNewline rest)
  | '\'' :: rest => scanLiteral false [] rest
  | _ => none

/-! ### Numbers -/

/-- Digits after the first; an underscore may stand between two of them. -/
def moreDigits (p : Char → Bool) : List Char → List Char × List Char
  | [] => ([], [])
  | '_' :: d :: rest =>
    if p d then
      let (ds, rest) := moreDigits p rest
      (d :: ds, rest)
    else ([], '_' :: d :: rest)
  | d :: rest =>
    if p d then
      let (ds, rest) := moreDigits p rest
      (d :: ds, rest)
    else ([], d :: rest)

def digits? (p : Char → Bool) : Reader (List Char)
  | d :: rest =>
    if p d then
      let (ds, rest) := moreDigits p rest
      some (d :: ds, rest)
    else none
  | [] => none

/-- Decimal digits that start with a zero only if it is alone. -/
def whole? : Reader (List Char)
  | '0' :: rest => some (['0'], rest)
  | cs => digits? Char.isDigit cs

def sign (cs : List Char) : Bool × List Char :=
  match cs with
  | '-' :: rest => (true, rest)
  | '+' :: rest => (false, rest)
  | _ => (false, cs)

/-- An optional fraction, as its digits. -/
def fraction? (cs : List Char) : Option (Option (List Char) × List Char) :=
  match cs with
  | '.' :: rest => (digits? Char.isDigit rest).map fun (ds, rest) => (some ds, rest)
  | _ => some (none, cs)

/-- An optional exponent. -/
def exponent? (cs : List Char) : Option (Option Int × List Char) :=
  match cs with
  | 'e' :: rest | 'E' :: rest => do
    let (negative, rest) := sign rest
    let (ds, rest) ← digits? Char.isDigit rest
    let n : Int := ofDigits 10 ds
    return (some (if negative then -n else n), rest)
  | _ => some (none, cs)

def integerOf? (n : Int) : Option Value :=
  if Int64.minValue.toInt ≤ n ∧ n ≤ Int64.maxValue.toInt then some (.integer (Int64.ofInt n))
  else none

/-- The float nearest to a decimal. An exponent far outside the range of the finite numbers settles
it without the power of ten. -/
def floatOf (negative : Bool) (d : Decimal) : Binary64 :=
  let places := d.exponent + Decimal.digitCount d.digits
  if d.digits = 0 ∨ places < -400 then Binary64.zero negative
  else if 400 < places then .infinite negative
  else d.toBinary64 negative

/-- A decimal number. A float may not be too large. -/
def decimal? (cs : List Char) : Option (Value × List Char) := do
  let (negative, rest) := sign cs
  let (whole, rest) ← whole? rest
  let (fraction, rest) ← fraction? rest
  let (exponent, rest) ← exponent? rest
  if fraction.isNone ∧ exponent.isNone then
    let n : Int := ofDigits 10 whole
    return (← integerOf? (if negative then -n else n), rest)
  else
    let places := fraction.getD []
    let d : Decimal := ⟨ofDigits 10 (whole ++ places), exponent.getD 0 - places.length⟩
    let x := floatOf negative d
    if x = .infinite false then none else return (.float x, rest)

/-- An integer of another base after its mark. -/
def based? (base : Nat) (p : Char → Bool) (cs : List Char) : Option (Value × List Char) := do
  let (ds, rest) ← digits? p cs
  return (← integerOf? (ofDigits base ds), rest)

def special? (cs : List Char) : Option (Value × List Char) :=
  let (negative, rest) := sign cs
  match rest with
  | 'i' :: 'n' :: 'f' :: rest => some (.float (.infinite negative), rest)
  | 'n' :: 'a' :: 'n' :: rest => some (.float .nan, rest)
  | _ => none

def number? : Reader Value
  | '0' :: 'x' :: rest => based? 16 isHexDigit rest
  | '0' :: 'o' :: rest => based? 8 (fun c => '0' ≤ c && c ≤ '7') rest
  | '0' :: 'b' :: rest => based? 2 (fun c => c == '0' || c == '1') rest
  | cs => (special? cs).or (decimal? cs)

/-! ### Dates and times -/

/-- Exactly `width` digits of a number between two bounds. -/
def field? (width low high : Nat) (cs : List Char) : Option (Nat × List Char) :=
  let ds := (cs.take width).takeWhile Char.isDigit
  let n := ofDigits 10 ds
  if ds.length = width ∧ low ≤ n ∧ n ≤ high then some (n, cs.drop width) else none

def mark? (c : Char) : List Char → Option (List Char)
  | d :: rest => if d = c then some rest else none
  | [] => none

def daysIn (year month : Nat) : Nat :=
  if month = 2 then if year % 4 = 0 ∧ (year % 100 ≠ 0 ∨ year % 400 = 0) then 29 else 28
  else if month = 4 ∨ month = 6 ∨ month = 9 ∨ month = 11 then 30
  else 31

def date? (cs : List Char) : Option (List Char) := do
  let (year, rest) ← field? 4 0 9999 cs
  let (month, rest) ← field? 2 1 12 (← mark? '-' rest)
  let (_, rest) ← field? 2 1 (daysIn year month) (← mark? '-' rest)
  return rest

def time? (cs : List Char) : Option (List Char) := do
  let (_, rest) ← field? 2 0 23 cs
  let (_, rest) ← field? 2 0 59 (← mark? ':' rest)
  let (_, rest) ← field? 2 0 60 (← mark? ':' rest)
  match rest with
  | '.' :: d :: more => if d.isDigit then return more.dropWhile Char.isDigit else none
  | '.' :: [] => none
  | _ => return rest

def offset? : List Char → Option (List Char)
  | 'Z' :: rest | 'z' :: rest => some rest
  | '+' :: rest | '-' :: rest => do
    let (_, rest) ← field? 2 0 23 rest
    let (_, rest) ← field? 2 0 59 (← mark? ':' rest)
    return rest
  | rest => some rest

/-- A time after a date, with its offset. -/
def timeAfterDate? : List Char → Option (List Char)
  | 'T' :: rest | 't' :: rest | ' ' :: rest => (time? rest).bind offset?
  | _ => none

def moment? (cs : List Char) : Option (Value × List Char) := do
  let rest ← match date? cs with
    | some rest => some ((timeAfterDate? rest).getD rest)
    | none => time? cs
  return (.moment (String.ofList (cs.take (cs.length - rest.length))), rest)

/-! ### Keys -/

def isBareKeyChar (c : Char) : Bool :=
  c.isAlphanum || c == '-' || c == '_'

def simpleKey? (cs : List Char) : Option (String × List Char) :=
  match cs with
  | '"' :: rest => scanBasic false false [] rest
  | '\'' :: rest => scanLiteral false [] rest
  | _ =>
    let name := cs.takeWhile isBareKeyChar
    if name.isEmpty then none else some (String.ofList name, cs.dropWhile isBareKeyChar)

/-- A key of at most `parts` parts with dots between them, and blanks around each part. -/
def key? : Nat → Reader (List String)
  | 0, _ => none
  | parts + 1, cs => do
    let (name, rest) ← simpleKey? (dropBlanks cs)
    match dropBlanks rest with
    | '.' :: rest =>
      let (names, rest) ← key? parts rest
      return (name :: names, rest)
    | rest => return ([name], rest)

/-- How many parts a key may have, and how deeply values may nest. -/
def limit : Nat := 79

/-! ### Containers -/

/-- The rest behind a comment, up to the end of its line. -/
def dropComment (cs : List Char) : List Char :=
  match cs with
  | '#' :: rest => rest.dropWhile isText
  | _ => cs

/-- Past blanks, ends of lines, and comments with the end of their line. -/
def skipLines : Nat → List Char → List Char
  | 0, cs => cs
  | steps + 1, cs =>
    let rest := dropBlanks cs
    match newline? (dropComment rest) with
    | some rest => skipLines steps rest
    | none => rest

/-- Elements of an array up to its end. A comma may follow the last one. -/
def elements? (value : Reader Value) (done : List Value) : Nat → Reader (List Value)
  | 0, _ => none
  | steps + 1, cs =>
    match skipLines cs.length cs with
    | ']' :: rest => some (done.reverse, rest)
    | rest => do
      let (v, rest) ← value rest
      match skipLines rest.length rest with
      | ',' :: rest => elements? value (v :: done) steps rest
      | ']' :: rest => some ((v :: done).reverse, rest)
      | _ => none

/-- An assignment inside a container. -/
def assignment? (value : Reader Value) (cs : List Char) :
    Option ((List String × Value) × List Char) := do
  let (path, rest) ← key? limit cs
  let (v, rest) ← value (dropBlanks (← mark? '=' rest))
  return ((path, v), rest)

/-- Assignments up to the end of an inline table, which has no comma after the last one. -/
def assignments? (value : Reader Value) (done : List (List String × Value)) :
    Nat → Reader (List (List String × Value))
  | 0, _ => none
  | steps + 1, cs => do
    let (a, rest) ← assignment? value cs
    match dropBlanks rest with
    | ',' :: rest => assignments? value (a :: done) steps rest
    | '\x7d' :: rest => some ((a :: done).reverse, rest)
    | _ => none

/-- An inline table being filled. Only a table that a dotted key opened can be added to. -/
inductive Inline where
  | closed (v : Value)
  | opened (entries : List (String × Inline))

namespace Inline

/-- Gives another value to a name that has one. -/
def replace (name : String) (i : Inline) (entries : List (String × Inline)) :
    List (String × Inline) :=
  entries.map fun p => if p.1 = name then (name, i) else p

/-- Sets the value at a path that has none yet. -/
def assign? (v : Value) : List String → List (String × Inline) → Option (List (String × Inline))
  | [], _ => none
  | [name], entries =>
    if (entries.lookup name).isSome then none else some (entries ++ [(name, .closed v)])
  | name :: path, entries =>
    match entries.lookup name with
    | none => (assign? v path []).map fun inner => entries ++ [(name, .opened inner)]
    | some (.opened inner) =>
      (assign? v path inner).map fun inner => replace name (.opened inner) entries
    | some (.closed _) => none

mutual

def toValue : Inline → Value
  | closed v => v
  | opened entries => .table (toEntries entries)

def toEntries : List (String × Inline) → List (String × Value)
  | [] => []
  | (name, i) :: rest => (name, toValue i) :: toEntries rest

end

/-- The table that assignments make up, unless two of them collide. -/
def table? (as : List (List String × Value)) : Option Value :=
  (as.foldlM (fun entries (path, v) => assign? v path entries) []).map (.table <| toEntries ·)

end Inline

/-- A value with at most `levels` containers around each other. -/
def value? : Nat → Reader Value
  | levels, cs =>
    match cs with
    | '"' :: _ | '\'' :: _ => (string? cs).map fun (s, rest) => (.string s, rest)
    | 't' :: 'r' :: 'u' :: 'e' :: rest => some (.boolean true, rest)
    | 'f' :: 'a' :: 'l' :: 's' :: 'e' :: rest => some (.boolean false, rest)
    | '[' :: rest =>
      match levels with
      | 0 => none
      | levels + 1 =>
        (elements? (value? levels) [] (rest.length + 1) rest).map fun (vs, rest) =>
          (.array vs, rest)
    | '\x7b' :: rest =>
      match levels with
      | 0 => none
      | levels + 1 =>
        match dropBlanks rest with
        | '\x7d' :: rest => some (.table [], rest)
        | rest => do
          let (as, rest) ← assignments? (value? levels) [] (rest.length + 1) rest
          return (← Inline.table? as, rest)
    | _ => (moment? cs).or (number? cs)

end Introspect.Toml
