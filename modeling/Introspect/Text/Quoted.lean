import Introspect.Text.Plain

/-!
Quoted texts, for showing a name to a reader: the quotes, the backslash and whatever does not print
are escaped, all else stands for itself.
-/
namespace Introspect.Text

/-- Lower-case hexadecimal digits without leading zeros. -/
def hexDigits (n : Nat) : String :=
  String.ofList (Nat.toDigits 16 n)

def quoteChar (c : Char) : String :=
  match c with
  | '"' => "\\\""
  | '\\' => "\\\\"
  | '\n' => "\\n"
  | '\r' => "\\r"
  | '\t' => "\\t"
  | '\x00' => "\\0"
  | c => if isPlain c then c.toString else "\\u\x7b" ++ hexDigits c.toNat ++ "\x7d"

def quoted (s : String) : String :=
  "\"" ++ String.join (s.toList.map quoteChar) ++ "\""

end Introspect.Text
