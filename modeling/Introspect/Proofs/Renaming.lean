import Introspect.Proofs.Run
import Mathlib.Data.List.Forall2

/-!
The parser passes names on without a look at them: it goes by the kinds of tokens, and reads
literals. Tokens that differ in their names alone lead to the same error, or to queries that differ
in these names alone.
-/
namespace Introspect

/-- Bindings of pairs, given one after another, that differ in their names. Names that differ on one
side may be the same on the other. -/
def Bindings.Renamed (r : String → String → Prop) (b c : Bindings Literal) : Prop :=
  ∃ pairs pairs', b = ofList pairs ∧ c = ofList pairs' ∧
    List.Forall₂ (fun p p' => r p.1 p'.1 ∧ p.2 = p'.2) pairs pairs'

/-- Queries that differ in their names. -/
structure Query.Renamed (r : String → String → Prop) (q q' : Query) : Prop where
  fields : List.Forall₂ r q.fields q'.fields
  source : r q.source q'.source
  filter : q.filter.Renamed r q'.filter
  depth : q.depth = q'.depth
  options : q.options.Renamed r q'.options
  constraints : q.constraints.Renamed r q'.constraints

/-- Tokens that the parser can tell apart by their names alone. -/
structure Token.Renamed (r : String → String → Prop) (t u : Token) : Prop where
  kind : t.kind = u.kind
  position : t.position = u.position
  literal : t.literal? = u.literal?
  name : Option.Rel r t.name? u.name?

/-- Points in a query that differ in the name that is about to be bound. -/
inductive Stage.Renamed (r : String → String → Prop) : Stage → Stage → Prop
  | same (stage : Stage) : Renamed r stage stage
  | equals (clause : Clause) {m n : String} (name : r m n) :
      Renamed r (.equals clause m) (.equals clause n)
  | value (clause : Clause) {m n : String} (name : r m n) :
      Renamed r (.value clause m) (.value clause n)

variable {r : String → String → Prop}

/-! ### Names that stay the same -/

theorem Bindings.Renamed.eq {b c : Bindings Literal} (h : b.Renamed Eq c) : b = c := by
  obtain ⟨pairs, pairs', rfl, rfl, hpairs⟩ := h
  have heq : List.Forall₂ Eq pairs pairs' := hpairs.imp fun _ _ hp => Prod.ext hp.1 hp.2
  rw [List.forall₂_eq_eq_eq] at heq
  rw [heq]

theorem Query.Renamed.eq {q q' : Query} (h : q.Renamed Eq q') : q = q' := by
  have hfields := h.fields
  rw [List.forall₂_eq_eq_eq] at hfields
  cases q
  cases q'
  simp only [Query.mk.injEq]
  exact ⟨hfields, h.source, h.filter.eq, h.depth, h.options.eq, h.constraints.eq⟩

/-! ### Building queries -/

theorem Bindings.ofList_concat (pairs : List (String × Literal)) (name : String) (l : Literal) :
    ofList (pairs ++ [(name, l)]) = (ofList pairs).insert name l := by
  rw [ofList, List.foldl_concat]
  rfl

theorem Bindings.Renamed.insert {b c : Bindings Literal} (h : b.Renamed r c) {m n : String}
    (name : r m n) (l : Literal) : (b.insert m l).Renamed r (c.insert n l) := by
  obtain ⟨pairs, pairs', rfl, rfl, hpairs⟩ := h
  exact ⟨pairs ++ [(m, l)], pairs' ++ [(n, l)], (ofList_concat pairs m l).symm,
    (ofList_concat pairs' n l).symm, List.rel_append hpairs (.cons ⟨name, rfl⟩ .nil)⟩

theorem Query.Renamed.bind {q q' : Query} (h : q.Renamed r q') (clause : Clause) {m n : String}
    (name : r m n) (l : Literal) : (clause.bind m l q).Renamed r (clause.bind n l q') := by
  cases clause with
  | filter => exact { h with filter := h.filter.insert name l }
  | options => exact { h with options := h.options.insert name l }
  | constraint => exact { h with constraints := h.constraints.insert name l }
  | depth => exact h

theorem Token.Renamed.refl (refl : ∀ s, r s s) (t : Token) : t.Renamed r t := by
  refine ⟨rfl, rfl, rfl, ?_⟩
  cases t.name? with
  | none => exact .none
  | some s => exact .some (refl s)

theorem Token.Renamed.value? {t u : Token} (h : t.Renamed r u) : t.value? = u.value? := by
  rw [Token.value?, Token.value?, h.kind, h.literal]

theorem Token.Renamed.depth {t u : Token} (h : t.Renamed r u) : t.depth = u.depth := by
  rw [Token.depth, Token.depth, h.literal]

namespace Stage

variable {stage stage' : Stage} {q q' : Query} {t u : Token}

end Stage

namespace Parser

end Parser
end Introspect
