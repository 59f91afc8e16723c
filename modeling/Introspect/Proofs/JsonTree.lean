import Introspect.Json.Tree

/-!
Trees are built from their tokens. With a stack around it, a tree is delivered to the container on
top, and reading goes on from there.
-/
namespace Introspect.Json

namespace Tree

/-- A comma between any two items. -/
def separated (items : List (List Token)) : List Token :=
  [Token.punctuation .valueSeparator].intercalate items

mutual

/-- The tokens that a tree consists of. -/
def tokens : Tree → List Token
  | null => [.null]
  | bool b => [.bool b]
  | number n => [.number n]
  | string s => [.string s]
  | array elements =>
    .punctuation .beginArray :: (separated (elementTokens elements) ++ [.punctuation .endArray])
  | object members =>
    .punctuation .beginObject :: (separated (memberTokens members) ++ [.punctuation .endObject])

def elementTokens : List Tree → List (List Token)
  | [] => []
  | t :: rest => tokens t :: elementTokens rest

def memberTokens : List (RawString × Tree) → List (List Token)
  | [] => []
  | (name, t) :: rest =>
    (.string name :: .punctuation .nameSeparator :: tokens t) :: memberTokens rest

end

theorem separated_cons_cons (item next : List Token) (items : List (List Token)) :
    separated (item :: next :: items) =
      item ++ .punctuation .valueSeparator :: separated (next :: items) := by
  simp [separated, List.intercalate_cons_cons]

theorem separated_singleton (item : List Token) : separated [item] = item :=
  List.intercalate_singleton

/-- What comes of the tokens of a tree wherever a value may stand. -/
def Delivers (t : Tree) : Prop :=
  ∀ (stack : List Frame) (rest : List Token),
    (t.tokens ++ rest).foldlM step (.value stack) = rest.foldlM step (deliver t stack)

theorem foldlM_elements {t : Tree} {elements : List Tree} (h : ∀ u ∈ t :: elements, u.Delivers)
    (done : List Tree) (stack : List Frame) (rest : List Token) :
    (separated (elementTokens (t :: elements)) ++ rest).foldlM step
        (.value (.array done :: stack)) =
      rest.foldlM step (.elementEnd ((t :: elements).reverse ++ done) stack) := by
  induction elements generalizing t done with
  | nil =>
    rw [elementTokens, elementTokens, separated_singleton, h t List.mem_cons_self]
    rfl
  | cons next elements ih =>
    obtain ⟨ht, hmore⟩ := List.forall_mem_cons.1 h
    rw [elementTokens, elementTokens, separated_cons_cons, List.append_assoc, ht,
      List.cons_append, List.foldlM_cons, ← elementTokens]
    simp only [deliver, step, Option.bind_eq_bind, Option.bind_some]
    rw [ih hmore]
    simp

theorem foldlM_members {p : RawString × Tree} {members : List (RawString × Tree)}
    (h : ∀ q ∈ p :: members, q.2.Delivers) (done : List (RawString × Tree))
    (stack : List Frame) (rest : List Token) :
    (separated (memberTokens (p :: members)) ++ rest).foldlM step (.name done stack) =
      rest.foldlM step (.memberEnd ((p :: members).reverse ++ done) stack) := by
  induction members generalizing p done with
  | nil =>
    rw [memberTokens, memberTokens, separated_singleton]
    simp only [List.cons_append, List.foldlM_cons, step, Option.bind_eq_bind, Option.bind_some]
    rw [h p List.mem_cons_self]
    rfl
  | cons next members ih =>
    obtain ⟨hp, hmore⟩ := List.forall_mem_cons.1 h
    rw [memberTokens, memberTokens, separated_cons_cons, List.append_assoc, ← memberTokens]
    simp only [List.cons_append, List.foldlM_cons, step, Option.bind_eq_bind, Option.bind_some]
    rw [hp, List.foldlM_cons]
    simp only [deliver, step, Option.bind_eq_bind, Option.bind_some]
    rw [ih hmore]
    simp

/-- A first element is read like any other. -/
theorem foldlM_firstElement (t : Tree) (stack : List Frame) (rest : List Token) :
    (t.tokens ++ rest).foldlM step (.firstElement stack) =
      (t.tokens ++ rest).foldlM step (.value (.array [] :: stack)) := by
  cases t <;> simp only [tokens, List.cons_append, List.foldlM_cons, step]

theorem foldlM_firstElements (t : Tree) (elements : List Tree) (stack : List Frame)
    (rest : List Token) :
    (separated (elementTokens (t :: elements)) ++ rest).foldlM step (.firstElement stack) =
      (separated (elementTokens (t :: elements)) ++ rest).foldlM step
        (.value (.array [] :: stack)) := by
  cases elements with
  | nil =>
    rw [elementTokens, elementTokens, separated_singleton]
    exact foldlM_firstElement t stack rest
  | cons next elements =>
    rw [elementTokens, elementTokens, separated_cons_cons, List.append_assoc]
    exact foldlM_firstElement t stack _

/-- A first member is read like any other. -/
theorem foldlM_firstName (p : RawString × Tree) (members : List (RawString × Tree))
    (stack : List Frame) (rest : List Token) :
    (separated (memberTokens (p :: members)) ++ rest).foldlM step (.firstName stack) =
      (separated (memberTokens (p :: members)) ++ rest).foldlM step (.name [] stack) := by
  cases members with
  | nil => simp [separated, memberTokens, step]
  | cons next members => simp [memberTokens, separated_cons_cons, step]

theorem delivers_array {elements : List Tree} (h : ∀ t ∈ elements, t.Delivers) :
    (array elements).Delivers := by
  intro stack rest
  rw [tokens, List.cons_append, List.foldlM_cons]
  simp only [step, beginValue, Option.bind_eq_bind, Option.bind_some, List.append_assoc]
  cases elements with
  | nil => simp [elementTokens, separated, step]
  | cons t elements =>
    rw [foldlM_firstElements, foldlM_elements h]
    simp [step]

theorem delivers_object {members : List (RawString × Tree)} (h : ∀ p ∈ members, p.2.Delivers) :
    (object members).Delivers := by
  intro stack rest
  rw [tokens, List.cons_append, List.foldlM_cons]
  simp only [step, beginValue, Option.bind_eq_bind, Option.bind_some, List.append_assoc]
  cases members with
  | nil => simp [memberTokens, separated, step]
  | cons p members =>
    rw [foldlM_firstName, foldlM_members h]
    simp [step]

mutual

/-- Every tree is delivered. -/
theorem delivers : ∀ t : Tree, t.Delivers
  | null | bool _ | number _ | string _ => by
    intro stack rest
    simp [tokens, step, beginValue]
  | array elements => delivers_array (delivers_elements elements)
  | object members => delivers_object (delivers_members members)

theorem delivers_elements : ∀ elements : List Tree, ∀ t ∈ elements, t.Delivers
  | [] => by simp
  | t :: rest => List.forall_mem_cons.2 ⟨delivers t, delivers_elements rest⟩

theorem delivers_members : ∀ members : List (RawString × Tree), ∀ p ∈ members, p.2.Delivers
  | [] => by simp
  | (_, t) :: rest => List.forall_mem_cons.2 ⟨delivers t, delivers_members rest⟩

end

/-- A tree is built from its own tokens. -/
theorem ofTokens?_tokens (t : Tree) : ofTokens? t.tokens = some t := by
  have hrun := t.delivers [] []
  rw [List.append_nil, List.foldlM_nil] at hrun
  rw [ofTokens?, hrun]
  rfl

end Tree
end Introspect.Json
