import Introspect.Parser

/-!
The grammar of queries on tokens, by its parse trees. A tree consists of the tokens that it derives,
so that a list of tokens is a sentence when it is the tokens of a tree.

    sentence    INTROSPECT LBRACE SELECT name (COMMA name)* FROM name
                (WHERE pair+)? (DEPTH NUMBER)? (WITH pair+)? (CONSTRAINT pair+)? RBRACE
    pair        name EQUALS value
    name        an IDENTIFIER that carries a symbol
    value       a STRING or NUMBER that carries a literal
-/
namespace Introspect.Grammar

/-- A token of a given kind, whatever it carries. -/
@[ext] structure Terminal (kind : TokenKind) where
  token : Token
  isKind : token.kind = kind

@[ext] structure Name where
  token : Token
  isIdentifier : token.kind = .identifier
  carries : token.lexeme?.isSome = true

@[ext] structure Value where
  token : Token
  isValue : token.kind = .string ∨ token.kind = .number
  carries : token.literal?.isSome = true

@[ext] structure Pair where
  name : Name
  equals : Terminal (.mark .equals)
  value : Value

/-- A keyword and its pairs, of which there is at least one. -/
@[ext] structure Pairs (k : Keyword) where
  keyword : Terminal (.keyword k)
  first : Pair
  others : List Pair

@[ext] structure Depth where
  keyword : Terminal (.keyword .depth)
  number : Terminal .number

/-- A field behind the first one. -/
@[ext] structure Field where
  comma : Terminal (.mark .comma)
  name : Name

@[ext] structure Sentence where
  introspect : Terminal (.keyword .introspect)
  openBrace : Terminal (.mark .openBrace)
  select : Terminal (.keyword .select)
  first : Name
  others : List Field
  from_ : Terminal (.keyword .source)
  source : Name
  filter : Option (Pairs .filter)
  depth : Option Depth
  options : Option (Pairs .options)
  constraints : Option (Pairs .constraint)
  closeBrace : Terminal (.mark .closeBrace)

/-! The tokens of a tree. -/

def Field.tokens (f : Field) : List Token :=
  [f.comma.token, f.name.token]

def Pair.tokens (p : Pair) : List Token :=
  [p.name.token, p.equals.token, p.value.token]

def Pairs.tokens (p : Pairs k) : List Token :=
  p.keyword.token :: (p.first.tokens ++ p.others.flatMap Pair.tokens)

def Depth.tokens (d : Depth) : List Token :=
  [d.keyword.token, d.number.token]

/-- The tokens of a part that may be left out. -/
def optional (tokens : α → List Token) : Option α → List Token
  | none => []
  | some a => tokens a

def Sentence.tokens (s : Sentence) : List Token :=
  s.introspect.token :: s.openBrace.token :: s.select.token :: s.first.token ::
    (s.others.flatMap Field.tokens ++ s.from_.token :: s.source.token ::
      (optional Pairs.tokens s.filter ++ (optional Depth.tokens s.depth ++
        (optional Pairs.tokens s.options ++ (optional Pairs.tokens s.constraints ++
          [s.closeBrace.token])))))

/-! What a tree stands for. -/

def Name.text (n : Name) : String :=
  n.token.lexeme?.get n.carries

def Value.literal (v : Value) : Literal :=
  v.token.literal?.get v.carries

/-- The names and values of pairs, in their order. -/
def Pairs.bindings (p : Pairs k) : List (String × Literal) :=
  (p.first :: p.others).map fun p => (p.name.text, p.value.literal)

/-- The pairs of a clause, none if it is left out. -/
def bindingsOf (clause : Option (Pairs k)) : List (String × Literal) :=
  clause.elim [] Pairs.bindings

/-- The bindings give each name of some pairs its last value there, and know no other name. -/
def BindsLast (b : Bindings Literal) (pairs : List (String × Literal)) : Prop :=
  ∀ name, b.get? name = pairs.reverse.lookup name

/-- The query that a tree stands for. -/
structure Sentence.Denotes (s : Sentence) (q : Query) : Prop where
  fields : q.fields = s.first.text :: s.others.map (·.name.text)
  source : q.source = s.source.text
  filter : BindsLast q.filter (bindingsOf s.filter)
  depth : q.depth = s.depth.elim 1 (·.number.token.depth)
  options : BindsLast q.options (bindingsOf s.options)
  constraints : BindsLast q.constraints (bindingsOf s.constraints)

end Introspect.Grammar
