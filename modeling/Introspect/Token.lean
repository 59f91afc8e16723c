import Introspect.Literal

/-! Tokens: what a query text consists of. -/
namespace Introspect

/-- The reserved words. -/
inductive Keyword where
  | introspect
  | select
  | source
  | filter
  | depth
  | options
  | constraint
deriving DecidableEq

/-- Single characters with a meaning of their own. -/
inductive Mark where
  | equals
  | comma
  | openBrace
  | closeBrace
deriving DecidableEq

inductive TokenKind where
  | keyword (k : Keyword)
  | identifier
  | string
  | number
  | mark (m : Mark)
  | eof
deriving DecidableEq

namespace Keyword

/-- The keywords in the order of a full query. -/
def all : List Keyword :=
  [introspect, select, source, filter, depth, options, constraint]

def spelling : Keyword → String
  | introspect => "INTROSPECT"
  | select => "SELECT"
  | source => "FROM"
  | filter => "WHERE"
  | depth => "DEPTH"
  | options => "WITH"
  | constraint => "CONSTRAINT"

/-- The keyword with a given spelling, which is upper-case throughout. -/
def ofSpelling? (word : String) : Option Keyword :=
  all.find? fun k => k.spelling == word

end Keyword

namespace Mark

def all : List Mark :=
  [equals, comma, openBrace, closeBrace]

def char : Mark → Char
  | equals => '='
  | comma => ','
  | openBrace => '\x7b'
  | closeBrace => '\x7d'

def ofChar? (c : Char) : Option Mark :=
  all.find? fun m => m.char == c

def name : Mark → String
  | equals => "EQUALS"
  | comma => "COMMA"
  | openBrace => "LBRACE"
  | closeBrace => "RBRACE"

end Mark

namespace TokenKind

/-- All kinds: keywords, names and literals, marks, end of input. -/
def all : List TokenKind :=
  Keyword.all.map .keyword ++ [identifier, string, number] ++ Mark.all.map .mark ++ [eof]

/-- The name of a kind in messages. -/
def name : TokenKind → String
  | keyword k => k.spelling
  | identifier => "IDENTIFIER"
  | string => "STRING"
  | number => "NUMBER"
  | mark m => m.name
  | eof => "EOF"

def isKeyword : TokenKind → Bool
  | keyword _ => true
  | _ => false

end TokenKind

/-- What a token carries: its spelling, a decoded value, or nothing. -/
inductive Payload where
  | symbol (lexeme : String)
  | literal (value : Literal)
  | absent
deriving DecidableEq

/-- A token with the character offset at which it starts. -/
structure Token where
  kind : TokenKind
  payload : Payload
  position : Nat
deriving DecidableEq

namespace Token

def eof (position : Nat) : Token :=
  ⟨.eof, .absent, position⟩

def lexeme? (t : Token) : Option String :=
  match t.payload with
  | .symbol s => some s
  | _ => none

def literal? (t : Token) : Option Literal :=
  match t.payload with
  | .literal l => some l
  | _ => none

end Token
end Introspect
