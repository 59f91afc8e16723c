import Introspect.Text.Blank
import Introspect.Text.Letter
import Introspect.Text.Numeral
import Introspect.Text.Casing
import Introspect.Binary64.Decimal
import Introspect.Token

/-!
Lexemes: the stretches of text that tokens are read from. Cutting the next lexeme off a text takes
the longest stretch of its sort, and does not depend on how strictly the text is then read.
-/
namespace Introspect

/-- A word starts with a letter or an underscore. -/
def startsWord (c : Char) : Bool :=
  Text.isLetter c || c == '_'

/-- A word goes on with letters, numerals and underscores. -/
def inWord (c : Char) : Bool :=
  Text.isLetter c || Text.isNumeral c || c == '_'

/-- A stretch of text that stands for one token, or one character that stands for none. -/
inductive Lexeme where
  | mark (m : Mark)
  | word (chars : List Char)
  | numeral (whole : List Char) (fraction : Option (List Char))
  | quoted (quote : Char) (body : List Char) (closed : Bool)
  | foreign (c : Char)
deriving DecidableEq

namespace Lexeme

/-- The text that a lexeme was cut from. -/
def chars : Lexeme → List Char
  | mark m => [m.char]
  | word cs => cs
  | numeral whole none => whole
  | numeral whole (some fraction) => whole ++ '.' :: fraction
  | quoted quote body closed => quote :: body ++ if closed then [quote] else []
  | foreign c => [c]

/-- A quoted text ends at the next such quote, and without one at the end of the text. -/
def cutQuoted (quote : Char) (rest : List Char) : Lexeme × List Char :=
  let body := rest.takeWhile (· != quote)
  match rest.dropWhile (· != quote) with
  | [] => (quoted quote body false, [])
  | _ :: after => (quoted quote body true, after)

/-- Digits with at most one point; the point may end the number. -/
def cutNumeral (first : Char) (rest : List Char) : Lexeme × List Char :=
  let whole := first :: rest.takeWhile Char.isDigit
  match rest.dropWhile Char.isDigit with
  | '.' :: after =>
    (numeral whole (some (after.takeWhile Char.isDigit)), after.dropWhile Char.isDigit)
  | after => (numeral whole none, after)

/-- Cuts the lexeme off a text that starts with `c`, which is no blank. -/
def cut (c : Char) (rest : List Char) : Lexeme × List Char :=
  match Mark.ofChar? c with
  | some m => (mark m, rest)
  | none =>
    if c = '"' ∨ c = '\'' then cutQuoted c rest
    else if c.isDigit then cutNumeral c rest
    else if startsWord c then (word (c :: rest.takeWhile inWord), rest.dropWhile inWord)
    else (foreign c, rest)

/-- A lexeme takes at least one character. -/
theorem length_cut_le (c : Char) (rest : List Char) : (cut c rest).2.length ≤ rest.length := by
  have drop_le (p : Char → Bool) (l : List Char) : (l.dropWhile p).length ≤ l.length :=
    (List.dropWhile_sublist p).length_le
  unfold cut
  split
  · exact Nat.le_refl _
  · split
    · unfold cutQuoted
      split <;> rename_i h
      · simp
      · have := drop_le (· != c) rest
        simp only [h, List.length_cons] at this ⊢
        omega
    · split
      · unfold cutNumeral
        split <;> rename_i h
        · have h₁ := drop_le Char.isDigit rest
          rename_i after
          have h₂ := drop_le Char.isDigit after
          simp only [h, List.length_cons] at h₁ ⊢
          omega
        · exact drop_le Char.isDigit rest
      · split
        · exact drop_le inWord rest
        · exact Nat.le_refl _

/-- The kind of a word: a keyword whatever its case, else an identifier. -/
def wordKind (chars : List Char) : TokenKind :=
  match (Text.upperAscii? chars).bind fun upper => Keyword.ofSpelling? (String.ofList upper) with
  | some k => .keyword k
  | none => .identifier

/-- The decimal that a number is written as. -/
def decimal (whole fraction : List Char) : Decimal :=
  ⟨Nat.ofDigitChars 10 (whole ++ fraction) 0, -fraction.length⟩

end Lexeme
end Introspect
