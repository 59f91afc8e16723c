import Introspect.Proofs.Recasing
import Introspect.Proofs.Renaming

/-!
The case of letters in a query. In keywords it makes no difference; in names it makes one to these
names alone.
-/
namespace Introspect

open Lexeme

/-! ### Queries -/

/-- Names in letters of another case. -/
def SameName (s s' : String) : Prop :=
  SameLetters s.toList s'.toList

theorem SameName.refl (s : String) : SameName s s := rfl

def TokenKind.isWord : TokenKind → Bool
  | .keyword _ | .identifier => true
  | _ => false

/-- Whether the token is a word of one of the kinds, and the position lies in it. -/
def Token.covers (kinds : TokenKind → Bool) (t : Token) (i : Nat) : Bool :=
  t.kind.isWord && kinds t.kind &&
    t.lexeme?.any fun s => decide (t.position ≤ i ∧ i < t.position + s.length)

section
variable {kinds : TokenKind → Bool} {mode : Mode} {entry : Nat × Lexeme} {t : Token} {i : Nat}
  {text text' : String} {ts : List Token} {ws : List LexWarning}

end

end Introspect
