import Introspect.Json.Basic

/-! The text of JSON values, on one line or indented by two spaces a level. -/
namespace Introspect.Json

/-- Digits of a control character's code, four of them, in lower case. -/
def controlCode (c : Char) : List Char :=
  let digits := Nat.toDigits 16 c.toNat
  List.replicate (4 - digits.length) '0' ++ digits

/-- Only quotes, backslashes and control characters are escaped. -/
def escapeChar (c : Char) : List Char :=
  match c with
  | '"' => ['\\', '"']
  | '\\' => ['\\', '\\']
  | '\x08' => ['\\', 'b']
  | '\t' => ['\\', 't']
  | '\n' => ['\\', 'n']
  | '\x0c' => ['\\', 'f']
  | '\r' => ['\\', 'r']
  | c => if c.toNat < 0x20 then '\\' :: 'u' :: controlCode c else [c]

def stringText (s : String) : String :=
  String.ofList ('"' :: s.toList.flatMap escapeChar ++ ['"'])

/-- Positional from `0.00001` up to below `10 ^ 16`, with an exponent beyond. There is no text for
NaN and the infinities. -/
def floatText : Binary64 → String
  | .finite negative rank =>
    let d := Binary64.shortest .even rank
    let positional := -5 ≤ d.leadingExponent ∧ d.leadingExponent < 16
    String.ofList (Binary64.signed negative
      (if positional then Binary64.withPoint d.positional else d.scientific))
  | _ => "null"

/-- Opens and closes a container around its items. -/
def enclose (left right : String) (items : List String) : String :=
  left ++ ",".intercalate items ++ right

mutual

def compact : Json → String
  | null => "null"
  | bool b => if b then "true" else "false"
  | integer n => n.repr
  | float x => floatText x
  | string s => stringText s
  | array elements => enclose "[" "]" (compactElements elements)
  | object members => enclose "\x7b" "\x7d" (compactMembers members)

def compactElements : List Json → List String
  | [] => []
  | j :: rest => compact j :: compactElements rest

def compactMembers : List (String × Json) → List String
  | [] => []
  | (name, j) :: rest => (stringText name ++ ":" ++ compact j) :: compactMembers rest

end

/-- A new line at a level of indentation. -/
def newLine (level : Nat) : String :=
  "\n" ++ String.ofList (List.replicate (2 * level) ' ')

/-- Puts each item on a line of its own; an empty container stays on one line. -/
def encloseLines (level : Nat) (left right : String) (items : List String) : String :=
  if items.isEmpty then left ++ right
  else
    left ++ newLine (level + 1) ++ ("," ++ newLine (level + 1)).intercalate items
      ++ newLine level ++ right

mutual

def prettyAt (level : Nat) : Json → String
  | array elements => encloseLines level "[" "]" (prettyElements (level + 1) elements)
  | object members => encloseLines level "\x7b" "\x7d" (prettyMembers (level + 1) members)
  | j => compact j

def prettyElements (level : Nat) : List Json → List String
  | [] => []
  | j :: rest => prettyAt level j :: prettyElements level rest

def prettyMembers (level : Nat) : List (String × Json) → List String
  | [] => []
  | (name, j) :: rest => (stringText name ++ ": " ++ prettyAt level j) :: prettyMembers level rest

end

def pretty (j : Json) : String :=
  prettyAt 0 j

end Introspect.Json
