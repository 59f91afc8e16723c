import Introspect.Lexeme

/-!
The lexer reads a text from left to right, one token at a call. It either insists on the language
or mends what it can and keeps a note of it. Positions count characters.
-/
namespace Introspect

/-- How a lexer treats what is not in the language. -/
inductive Mode where
  | lenient
  | strict
deriving DecidableEq

/-- What a lenient lexer mended. -/
inductive LexWarning where
  /-- A character outside the language was dropped. -/
  | dropped (c : Char) (position : Nat)
  /-- A quoted text without its closing quote was ended with the input. -/
  | unclosed (start : Nat)
  /-- An integer too large for 64 bits was read as a float. -/
  | overflow (digits : String) (position : Nat)
deriving DecidableEq

inductive LexError where
  | unexpected (c : Char) (position : Nat)
  | unclosed (start : Nat)
  | invalidNumber (digits : String) (position : Nat)
deriving DecidableEq

namespace LexWarning

def position : LexWarning → Nat
  | dropped _ position => position
  | unclosed start => start
  | overflow _ position => position

def message : LexWarning → String
  | dropped c position => s!"Dropped unexpected character '{c}' at position {position}"
  | unclosed start => s!"String literal starting at position {start} closed at end of input"
  | overflow digits position => s!"Integer '{digits}' at position {position} read as float"

end LexWarning

def LexError.message : LexError → String
  | unexpected c position => s!"Unexpected character '{c}' at position {position}"
  | unclosed start => s!"Unterminated string literal starting at position {start}"
  | invalidNumber digits position => s!"Invalid number '{digits}' at position {position}"

namespace Lexeme

/-- What a lexeme amounts to. -/
inductive Reading where
  | token (t : Token)
  | mended (t : Token) (w : LexWarning)
  | dropped (w : LexWarning)
  | refused (e : LexError)
deriving DecidableEq

/-- Numbers without a point are integers of at most 63 bits. All others are floats, which have to
be finite, as an infinity has no query text. -/
def readNumeral (mode : Mode) (position : Nat) (whole : List Char) (fraction : Option (List Char)) :
    Reading :=
  let digits := String.ofList (numeral whole fraction).chars
  let token (value : Literal) : Token := ⟨.number, .literal value, position⟩
  let value := (decimal whole (fraction.getD [])).toBinary64 false
  let integer := Nat.ofDigitChars 10 whole 0
  if fraction.isNone ∧ integer < 0x8000000000000000 then
    .token (token (.integer (Int64.ofNat integer)))
  else if fraction.isNone ∧ mode = .strict ∨ !value.isFinite then
    .refused (.invalidNumber digits position)
  else if fraction.isNone then .mended (token (.float value)) (.overflow digits position)
  else .token (token (.float value))

/-- Reads a lexeme that starts at `position`. -/
def read (mode : Mode) (position : Nat) : Lexeme → Reading
  | mark m => .token ⟨.mark m, .symbol (String.singleton m.char), position⟩
  | word chars => .token ⟨wordKind chars, .symbol (String.ofList chars), position⟩
  | numeral whole fraction => readNumeral mode position whole fraction
  | quoted _ body closed =>
    let token : Token := ⟨.string, .literal (.text (String.ofList body)), position⟩
    if closed then .token token
    else match mode with
      | .strict => .refused (.unclosed position)
      | .lenient => .mended token (.unclosed position)
  | foreign c =>
    match mode with
    | .strict => .refused (.unexpected c position)
    | .lenient => .dropped (.dropped c position)

end Lexeme

/-- A lexer part way through a text. -/
structure Lexer where
  rest : List Char
  position : Nat
  mode : Mode
  warnings : Array LexWarning
deriving DecidableEq

namespace Lexer

def ofText (text : String) (mode : Mode) : Lexer :=
  ⟨text.toList, 0, mode, #[]⟩

def withMode (lexer : Lexer) (mode : Mode) : Lexer :=
  { lexer with mode }

def skipBlanks (lexer : Lexer) : Lexer :=
  { lexer with
    rest := Text.dropBlanks lexer.rest
    position := lexer.position + (lexer.rest.takeWhile Text.isBlank).length }

def warn (lexer : Lexer) (w : LexWarning) : Lexer :=
  { lexer with warnings := lexer.warnings.push w }

/-- Past a lexeme, with `rest` still to come. -/
def pass (lexer : Lexer) (lexeme : Lexeme) (rest : List Char) : Lexer :=
  { lexer with rest, position := lexer.position + lexeme.chars.length }

theorem length_skipBlanks_le (lexer : Lexer) : lexer.skipBlanks.rest.length ≤ lexer.rest.length :=
  (List.dropWhile_sublist _).length_le

/-- A lexeme leaves less of the text. -/
theorem length_pass_lt {lexer : Lexer} {c : Char} {rest : List Char}
    (h : lexer.skipBlanks.rest = c :: rest) : (Lexeme.cut c rest).2.length < lexer.rest.length := by
  have h₁ := lexer.length_skipBlanks_le
  have h₂ := Lexeme.length_cut_le c rest
  simp only [h, List.length_cons] at h₁
  omega

/-- The next token. A refused character stays where it is; a refused number or quoted text is
passed. -/
def next (lexer : Lexer) : Except LexError Token × Lexer :=
  let here := lexer.skipBlanks
  match _cut : here.rest with
  | [] => (.ok (Token.eof here.position), here)
  | c :: rest =>
    let found := Lexeme.cut c rest
    let after := here.pass found.1 found.2
    match found.1.read here.mode here.position with
    | .token t => (.ok t, after)
    | .mended t w => (.ok t, after.warn w)
    | .dropped w => next (after.warn w)
    | .refused e => (.error e, if found.1 = .foreign c then here else after)
termination_by lexer.rest.length
decreasing_by exact length_pass_lt _cut

/-- Every token but the end of input takes some of the text. -/
theorem next_shorter {lexer after : Lexer} {t : Token} (h : lexer.next = (.ok t, after)) :
    t.kind = .eof ∨ after.rest.length < lexer.rest.length := by
  fun_induction next lexer with
  | case1 lexer here hrest =>
    obtain ⟨ht, -⟩ := Prod.mk.inj h
    injection ht with ht
    exact .inl (ht ▸ rfl)
  | case2 lexer here c rest hrest found _ t' hread =>
    obtain ⟨-, rfl⟩ := Prod.mk.inj h
    exact .inr (length_pass_lt hrest)
  | case3 lexer here c rest hrest found _ t' w hread =>
    obtain ⟨-, rfl⟩ := Prod.mk.inj h
    exact .inr (length_pass_lt hrest)
  | case4 lexer here c rest hrest found _ w hread ih =>
    exact (ih h).imp_right fun hlt => Nat.lt_trans hlt (length_pass_lt hrest)
  | case5 => simp at h

/-- All tokens from here on, the end of input last. -/
def tokens (lexer : Lexer) : Except LexError (List Token) × Lexer :=
  match _read : lexer.next with
  | (.error e, after) => (.error e, after)
  | (.ok t, after) =>
    if _more : t.kind = .eof then (.ok [t], after)
    else
      match tokens after with
      | (.error e, last) => (.error e, last)
      | (.ok ts, last) => (.ok (t :: ts), last)
termination_by lexer.rest.length
decreasing_by exact (next_shorter _read).resolve_left _more

end Lexer

/-- The tokens of a text and what was mended on the way. -/
def tokenize (text : String) (mode : Mode) : Except LexError (List Token × List LexWarning) :=
  match (Lexer.ofText text mode).tokens with
  | (.error e, _) => .error e
  | (.ok ts, last) => .ok (ts, last.warnings.toList)

end Introspect
