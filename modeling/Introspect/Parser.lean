import Introspect.Lexer
import Introspect.Query

/-!
The parser reads a query from tokens. At each point the grammar calls for one of a few tokens; the
point reached is a stage, and a token of the right kind leads on to the next.

    query   INTROSPECT LBRACE SELECT names FROM IDENTIFIER
            (WHERE pairs)? (DEPTH NUMBER)? (WITH pairs)? (CONSTRAINT pairs)? RBRACE EOF
    names   IDENTIFIER (COMMA IDENTIFIER)*
    pairs   (IDENTIFIER EQUALS (STRING | NUMBER))+
-/
namespace Introspect

/-- The first token that no query could go on with. -/
inductive ParseError where
  | unexpected (expected found : TokenKind) (position : Nat)
  | expectedLiteral (found : TokenKind) (position : Nat)
deriving DecidableEq

namespace ParseError

def found : ParseError → TokenKind
  | unexpected _ found _ => found
  | expectedLiteral found _ => found

def position : ParseError → Nat
  | unexpected _ _ position => position
  | expectedLiteral _ position => position

def message : ParseError → String
  | unexpected expected found position =>
    s!"Syntax error: expected {expected.name}, found {found.name} at position {position}"
  | expectedLiteral found position =>
    s!"Syntax error: expected STRING or NUMBER, found {found.name} at position {position}"

end ParseError

/-- The optional clauses, in the order in which they may occur. -/
inductive Clause where
  | filter
  | depth
  | options
  | constraint
deriving DecidableEq

namespace Clause

def keyword : Clause → Keyword
  | filter => .filter
  | depth => .depth
  | options => .options
  | constraint => .constraint

/-- The clauses that may follow this one. -/
def later : Clause → List Clause
  | filter => [depth, options, constraint]
  | depth => [options, constraint]
  | options => [constraint]
  | constraint => []

/-- Adds a pair of a clause to a query. -/
def bind (clause : Clause) (name : String) (value : Literal) (q : Query) : Query :=
  match clause with
  | filter => { q with filter := q.filter.insert name value }
  | options => { q with options := q.options.insert name value }
  | constraint => { q with constraints := q.constraints.insert name value }
  | depth => q

end Clause

/-- How far a query has been read. -/
inductive Stage where
  | start
  | opening
  | select
  | field
  | fieldEnd
  | source
  /-- Where a clause among `allowed` may come. -/
  | clauses (allowed : List Clause)
  | key (clause : Clause)
  | equals (clause : Clause) (name : String)
  | value (clause : Clause) (name : String)
  /-- After a pair: another one or a later clause. -/
  | pairEnd (clause : Clause)
  | depth
  | finish
deriving DecidableEq

/-- The depth that a number asks for. Negative numbers ask for none, and so do tokens without a
number; those past 32 bits ask for the most there is. -/
def Token.depth (t : Token) : UInt32 :=
  UInt32.ofNatClamp (((t.literal?.bind Literal.toInt?).getD 0).toInt).toNat

/-- The name that an identifier carries. -/
def Token.name? (t : Token) : Option String :=
  if t.kind = .identifier then t.lexeme? else none

/-- The value that a string or number carries. -/
def Token.value? (t : Token) : Option Literal :=
  if t.kind = .string ∨ t.kind = .number then t.literal? else none

namespace Stage

/-- The stage after the keyword of a clause. -/
def inside : Clause → Stage
  | .depth => .depth
  | clause => .key clause

/-- The stage after a token where clauses may come, if it fits. -/
def enter? (allowed : List Clause) (kind : TokenKind) : Option Stage :=
  match allowed.find? fun clause => kind = .keyword clause.keyword with
  | some clause => some (inside clause)
  | none => if kind = .mark .closeBrace then some .finish else none

/-- The stage after a token, and the query read so far, if the token fits. -/
def next? (stage : Stage) (q : Query) (t : Token) : Option (Stage × Query) :=
  match stage with
  | start => if t.kind = .keyword .introspect then some (opening, q) else none
  | opening => if t.kind = .mark .openBrace then some (select, q) else none
  | select => if t.kind = .keyword .select then some (field, q) else none
  | field => t.name?.map fun name => (fieldEnd, { q with fields := q.fields ++ [name] })
  | fieldEnd =>
    if t.kind = .mark .comma then some (field, q)
    else if t.kind = .keyword .source then some (source, q)
    else none
  | source =>
    t.name?.map fun name =>
      (clauses [.filter, .depth, .options, .constraint], { q with source := name })
  | clauses allowed => (enter? allowed t.kind).map (·, q)
  | key clause => t.name?.map fun name => (equals clause name, q)
  | equals clause name => if t.kind = .mark .equals then some (value clause name, q) else none
  | value clause name => t.value?.map fun v => (pairEnd clause, clause.bind name v q)
  | pairEnd clause =>
    if t.kind = .identifier then t.name?.map fun name => (equals clause name, q)
    else (enter? clause.later t.kind).map (·, q)
  | depth =>
    if t.kind = .number then
      some (clauses Clause.depth.later, { q with depth := t.depth })
    else none
  | finish => none

/-- The complaint about a token that does not fit. -/
def complaint (stage : Stage) (t : Token) : ParseError :=
  let unexpected (expected : TokenKind) := ParseError.unexpected expected t.kind t.position
  match stage with
  | start => unexpected (.keyword .introspect)
  | opening => unexpected (.mark .openBrace)
  | select => unexpected (.keyword .select)
  | field | source | key _ => unexpected .identifier
  | fieldEnd => unexpected (.keyword .source)
  | clauses _ => unexpected (.mark .closeBrace)
  | equals .. => unexpected (.mark .equals)
  | value .. => .expectedLiteral t.kind t.position
  | pairEnd _ =>
    unexpected (if t.kind = .identifier then .identifier else .mark .closeBrace)
  | depth => unexpected .number
  | finish => unexpected .eof

end Stage

/-- Tokens still to be read, and the position at which they end. -/
structure Parser where
  rest : List Token
  stop : Nat
deriving DecidableEq

namespace Parser

/-- Where tokens end: at an end of input, or after the symbol of the last token. -/
def endOf (tokens : List Token) : Nat :=
  match tokens.getLast? with
  | none => 0
  | some t =>
    if t.kind = .eof then t.position
    else t.position + (t.lexeme?.map String.length).getD 1

def ofTokens (tokens : List Token) : Parser :=
  ⟨tokens, endOf tokens⟩

/-- Follows the stages as far as the tokens fit. The tokens left after a query start behind its end
of input, those left after an error start with the token that did not fit. Past the last token
there is an end of input at `stop`. -/
def follow (stop : Nat) : Stage → Query → List Token → Except ParseError Query × List Token
  | .finish, q, [] => (.ok q, [])
  | stage, _, [] => (.error (stage.complaint (Token.eof stop)), [])
  | stage, q, t :: rest =>
    if stage = .finish ∧ t.kind = .eof then (.ok q, rest)
    else
      match stage.next? q t with
      | some (stage, q) => follow stop stage q rest
      | none => (.error (stage.complaint t), t :: rest)

/-- Reads one query. -/
def query (parser : Parser) : Except ParseError Query × Parser :=
  let (outcome, rest) := follow parser.stop .start (Query.plain [] "") parser.rest
  (outcome, { parser with rest })

end Parser

/-- What can be wrong with the text of a query. -/
inductive SyntaxError where
  | lex (e : LexError)
  | parse (e : ParseError)
deriving DecidableEq

def SyntaxError.message : SyntaxError → String
  | lex e => e.message
  | parse e => e.message

/-- The query that a text stands for, and what was mended in the text. -/
def Query.check (text : String) (mode : Mode) : Except SyntaxError (Query × List LexWarning) :=
  match tokenize text mode with
  | .error e => .error (.lex e)
  | .ok (tokens, warnings) =>
    match (Parser.ofTokens tokens).query with
    | (.error e, _) => .error (.parse e)
    | (.ok q, _) => .ok (q, warnings)

def Query.parse (text : String) (mode : Mode) : Except SyntaxError Query :=
  (Query.check text mode).map (·.1)

end Introspect
