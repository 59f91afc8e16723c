import Introspect.Proofs.Bindings
import Introspect.Proofs.Grammar
import Introspect.Proofs.Run

/-!
The parser reads the sentences of the grammar: a run from the start to the end passes the tokens of
one tree, and reads the query that the tree stands for.
-/
namespace Introspect

/-- Adds the pairs of a clause to a query. -/
def Clause.bindAll (clause : Clause) (pairs : List (String × Literal)) (q : Query) : Query :=
  pairs.foldl (fun q p => clause.bind p.1 p.2 q) q

namespace Grammar

open Stage

variable {q r : Query} {ts rest : List Token} {c : Clause} {allowed : List Clause}

/-- Tokens with which a query can go on behind a clause: one of the allowed clauses, or the end. -/
inductive Opens (allowed : List Clause) : List Token → Prop
  | close {t : Token} {rest : List Token} (h : t.kind = .mark .closeBrace) :
    Opens allowed (t :: rest)
  | clause {t : Token} {rest : List Token} (c : Clause) (hc : c ∈ allowed)
    (h : t.kind = .keyword c.keyword) : Opens allowed (t :: rest)

theorem Opens.mono {more : List Clause} (h : Opens allowed ts) (hsub : allowed ⊆ more) :
    Opens more ts := by
  cases h with
  | close h => exact .close h
  | clause c hc h => exact .clause c (hsub hc) h

theorem Opens.not_identifier (h : Opens allowed ts) :
    ∀ t ∈ ts.head?, t.kind ≠ .identifier := by
  cases h with
  | close h => simp [h]
  | clause c hc h => simp [h]

theorem keyword_inj {a b : Clause} (h : a.keyword = b.keyword) : a = b := by
  cases a <;> cases b <;> simp [Clause.keyword] at h ⊢

theorem Opens.not_keyword (h : Opens allowed ts) (hc : c ∉ allowed) :
    ∀ t ∈ ts.head?, t.kind ≠ .keyword c.keyword := by
  cases h with
  | close h => simp [h]
  | clause d hd h =>
    have hne : d ≠ c := fun heq => hc (heq ▸ hd)
    simpa [h] using fun hkey => hne (keyword_inj hkey)

theorem opens_pairs (p : Option (Pairs c.keyword)) (h : Opens allowed rest) :
    Opens (c :: allowed) (optional Pairs.tokens p ++ rest) := by
  cases p with
  | none => exact h.mono (List.subset_cons_self _ _)
  | some p => exact .clause c List.mem_cons_self p.keyword.isKind

theorem opens_depth (d : Option Depth) (h : Opens allowed rest) :
    Opens (.depth :: allowed) (optional Depth.tokens d ++ rest) := by
  cases d with
  | none => exact h.mono (List.subset_cons_self _ _)
  | some d => exact .clause .depth List.mem_cons_self d.keyword.isKind

/-! Runs over the parts of a tree. -/

theorem Name.name?_token (n : Name) : n.token.name? = some n.text := by
  rw [Token.name?, if_pos n.isIdentifier, Name.text, Option.some_get]

theorem Value.value?_token (v : Value) : v.token.value? = some v.literal := by
  rw [Token.value?, if_pos v.isValue, Value.literal, Option.some_get]

theorem run_fields (fs : List Field) :
    fieldEnd.run q (fs.flatMap Field.tokens ++ rest) =
      fieldEnd.run { q with fields := q.fields ++ fs.map (·.name.text) } rest := by
  induction fs generalizing q with
  | nil => simp
  | cons f fs ih =>
    have hcomma : fieldEnd.next? q f.comma.token = some (field, q) := by
      simp [next?, f.comma.isKind]
    have hname : field.next? q f.name.token =
        some (fieldEnd, { q with fields := q.fields ++ [f.name.text] }) := by
      simp [next?, f.name.name?_token]
    rw [List.flatMap_cons, List.append_assoc, Field.tokens, List.cons_append, List.cons_append,
      List.nil_append, run_step hcomma, run_step hname, ih]
    simp

theorem run_pair (p : Pair) :
    (key c).run q (p.tokens ++ rest) =
      (pairEnd c).run (c.bind p.name.text p.value.literal q) rest := by
  simp [Pair.tokens, run_cons, next?, p.name.name?_token, p.equals.isKind, p.value.value?_token]

/-- Behind a pair another one is read like the first one. -/
theorem run_pairEnd_pair (p : Pair) :
    (pairEnd c).run q (p.tokens ++ rest) = (key c).run q (p.tokens ++ rest) := by
  simp [Pair.tokens, run_cons, next?, p.name.isIdentifier]

theorem run_pairs (ps : List Pair) :
    (pairEnd c).run q (ps.flatMap Pair.tokens ++ rest) =
      (pairEnd c).run (c.bindAll (ps.map fun p => (p.name.text, p.value.literal)) q) rest := by
  induction ps generalizing q with
  | nil => rfl
  | cons p ps ih =>
    rw [List.flatMap_cons, List.append_assoc, run_pairEnd_pair, run_pair, ih]
    rfl

/-- Behind pairs a token that is no name is read like one behind the clause. -/
theorem run_pairEnd (h : Opens allowed rest) :
    (pairEnd c).run q rest = (clauses c.later).run q rest := by
  have hhead := h.not_identifier
  cases rest with
  | nil => cases h
  | cons t rest =>
    have hnext : (pairEnd c).next? q t = (clauses c.later).next? q t := by
      simp only [next?, if_neg (hhead t rfl)]
    rw [run_cons, run_cons, hnext]

theorem enter?_cons (c : Clause) (allowed : List Clause) (kind : TokenKind) :
    enter? (c :: allowed) kind =
      if kind = .keyword c.keyword then some (inside c) else enter? allowed kind := by
  by_cases h : kind = .keyword c.keyword <;> simp [enter?, h]

/-- A clause is left out by going on behind it. -/
theorem run_skip (h : Opens allowed rest) (hc : c ∉ allowed) :
    (clauses (c :: allowed)).run q rest = (clauses allowed).run q rest := by
  have hhead := h.not_keyword hc
  cases rest with
  | nil => cases h
  | cons t rest =>
    rw [run_cons, run_cons, next?, next?, enter?_cons, if_neg (hhead t rfl)]

theorem later_not_mem (c : Clause) : c ∉ c.later := by
  cases c <;> decide

theorem inside_of_ne_depth (hc : c ≠ .depth) : inside c = key c := by
  cases c with
  | depth => exact absurd rfl hc
  | _ => rfl

theorem run_clause_pairs (hc : c ≠ .depth) (p : Option (Pairs c.keyword))
    (h : Opens c.later rest) :
    (clauses (c :: c.later)).run q (optional Pairs.tokens p ++ rest) =
      (clauses c.later).run (c.bindAll (bindingsOf p) q) rest := by
  cases p with
  | none => exact run_skip h (later_not_mem c)
  | some p =>
    have hkeyword : (clauses (c :: c.later)).next? q p.keyword.token = some (key c, q) := by
      rw [next?, p.keyword.isKind, enter?_cons, if_pos rfl, inside_of_ne_depth hc, Option.map_some]
    rw [optional, Pairs.tokens, List.cons_append, run_step hkeyword, List.append_assoc, run_pair,
      run_pairs, run_pairEnd h]
    rfl

theorem run_clause_depth (d : Option Depth) (h : Opens Clause.depth.later rest) :
    (clauses (.depth :: Clause.depth.later)).run q (optional Depth.tokens d ++ rest) =
      (clauses Clause.depth.later).run
        { q with depth := d.elim q.depth (·.number.token.depth) } rest := by
  cases d with
  | none => exact run_skip h (later_not_mem .depth)
  | some d =>
    have hkeyword : (clauses (.depth :: Clause.depth.later)).next? q d.keyword.token =
        some (depth, q) := by
      rw [next?, d.keyword.isKind, enter?_cons]
      rfl
    have hnumber : depth.next? q d.number.token =
        some (clauses Clause.depth.later, { q with depth := d.number.token.depth }) := by
      rw [next?, if_pos d.number.isKind]
    rw [optional, Depth.tokens, List.cons_append, List.cons_append, List.nil_append,
      run_step hkeyword, run_step hnumber]
    rfl

theorem enter?_closeBrace (allowed : List Clause) :
    enter? allowed (.mark .closeBrace) = some .finish := by
  rw [enter?, List.find?_eq_none.2 (by simp)]
  rfl

theorem run_close (t : Terminal (.mark .closeBrace)) :
    (clauses allowed).run q [t.token] = some (.finish, q) := by
  rw [run_cons, next?, t.isKind, enter?_closeBrace]
  rfl

/-! The query of a tree. -/

/-- The query that a tree stands for, by way of its pairs in their order. -/
def Sentence.query (s : Sentence) : Query where
  fields := s.first.text :: s.others.map (·.name.text)
  source := s.source.text
  filter := Bindings.ofList (bindingsOf s.filter)
  depth := s.depth.elim 1 (·.number.token.depth)
  options := Bindings.ofList (bindingsOf s.options)
  constraints := Bindings.ofList (bindingsOf s.constraints)

theorem bindsLast_iff {b : Bindings Literal} {pairs : List (String × Literal)} :
    BindsLast b pairs ↔ b = Bindings.ofList pairs := by
  constructor
  · intro h
    apply Bindings.ext_get?
    intro key
    rw [h, Bindings.get?_ofList]
  · rintro rfl key
    exact Bindings.get?_ofList pairs key

theorem Sentence.denotes_iff {s : Sentence} : s.Denotes q ↔ q = s.query := by
  constructor
  · intro h
    cases q
    simp only [Query.mk.injEq, Sentence.query]
    exact ⟨h.fields, h.source, bindsLast_iff.1 h.filter, h.depth, bindsLast_iff.1 h.options,
      bindsLast_iff.1 h.constraints⟩
  · rintro rfl
    exact ⟨rfl, rfl, bindsLast_iff.2 rfl, rfl, bindsLast_iff.2 rfl, bindsLast_iff.2 rfl⟩

theorem bindAll_eq (c : Clause) (pairs : List (String × Literal)) (q : Query) :
    c.bindAll pairs q = { q with
      filter := (if c = .filter then pairs else []).foldl (fun b p => b.insert p.1 p.2) q.filter
      options := (if c = .options then pairs else []).foldl (fun b p => b.insert p.1 p.2) q.options
      constraints := (if c = .constraint then pairs else []).foldl (fun b p => b.insert p.1 p.2)
        q.constraints } := by
  induction pairs generalizing q with
  | nil => simp [Clause.bindAll]
  | cons p pairs ih =>
    have hcons : c.bindAll (p :: pairs) q = c.bindAll pairs (c.bind p.1 p.2 q) := rfl
    rw [hcons, ih]
    cases c <;> rfl

/-- Every sentence is read, and as the query that its tree stands for. -/
theorem run_sentence (s : Sentence) :
    Stage.start.run Parser.blank s.tokens = some (.finish, s.query) := by
  have hclose : Opens [] [s.closeBrace.token] := .close s.closeBrace.isKind
  have hconstraints := opens_pairs (c := .constraint) s.constraints hclose
  have hoptions := opens_pairs (c := .options) s.options hconstraints
  have hdepth := opens_depth s.depth hoptions
  have hintrospect (q : Query) :
      start.next? q s.introspect.token = some (opening, q) := by simp [next?, s.introspect.isKind]
  have hopen (q : Query) :
      opening.next? q s.openBrace.token = some (select, q) := by simp [next?, s.openBrace.isKind]
  have hselect (q : Query) :
      select.next? q s.select.token = some (field, q) := by simp [next?, s.select.isKind]
  have hfirst (q : Query) : field.next? q s.first.token =
      some (fieldEnd, { q with fields := q.fields ++ [s.first.text] }) := by
    simp [next?, s.first.name?_token]
  have hfrom (q : Query) : fieldEnd.next? q s.from_.token = some (source, q) := by
    simp [next?, s.from_.isKind]
  have hsource (q : Query) : source.next? q s.source.token =
      some (clauses (.filter :: Clause.filter.later), { q with source := s.source.text }) := by
    simp [next?, s.source.name?_token, Clause.later]
  rw [Sentence.tokens, run_step (hintrospect _), run_step (hopen _), run_step (hselect _),
    run_step (hfirst _), run_fields, run_step (hfrom _), run_step (hsource _)]
  refine (run_clause_pairs (c := .filter) (by decide) s.filter hdepth).trans ?_
  refine (run_clause_depth s.depth hoptions).trans ?_
  refine (run_clause_pairs (c := .options) (by decide) s.options hconstraints).trans ?_
  refine (run_clause_pairs (c := .constraint) (by decide) s.constraints hclose).trans ?_
  refine (run_close s.closeBrace).trans ?_
  simp only [bindAll_eq]
  rfl

end Grammar
end Introspect
