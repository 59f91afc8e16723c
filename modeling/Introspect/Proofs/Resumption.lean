import Introspect.Proofs.Viable
import Mathlib.Logic.Function.Iterate

/-!
A parser that is asked for one query after another. Each query is read from where the last one
ended or went wrong, as if the tokens started there; a token that was refused stays, and is refused
for good unless a query can start with it. So texts that each end with their own end of input can
be read one after another from one list of tokens.
-/
namespace Introspect

namespace Parser
open Grammar

/-- The parser after some queries, whether they were read or went wrong. -/
def after (parser : Parser) (n : Nat) : Parser :=
  (fun p : Parser => p.query.2)^[n] parser

/-- How many of the tokens were passed. -/
def cursor (ts : List Token) (parser : Parser) : Nat :=
  ts.length - parser.rest.length

/-- The token that comes next: past the last one there is an end of input. -/
def current (parser : Parser) : Token :=
  parser.rest.headD (Token.eof parser.stop)

theorem after_succ (parser : Parser) (n : Nat) :
    parser.after (n + 1) = (parser.after n).query.2 :=
  Function.iterate_succ_apply' _ n parser

theorem after_add (parser : Parser) (m n : Nat) :
    parser.after (m + n) = (parser.after n).after m :=
  Function.iterate_add_apply _ m n parser

theorem query_rest (parser : Parser) : parser.query.2.rest <:+ parser.rest := by
  obtain ⟨front, back, stage, q, hrest, -, -, ⟨-, -, hquery⟩ | ⟨-, hquery⟩⟩ := parser.query_cases
  · rw [hquery, hrest]
    exact (List.tail_suffix back).trans (List.suffix_append front back)
  · rw [hquery, hrest]
    exact List.suffix_append front back

theorem query_stop (parser : Parser) : parser.query.2.stop = parser.stop := rfl

/-- A query that goes wrong leaves the parser in front of the token that its error tells of. -/
theorem query_refused {parser : Parser} {e : ParseError} (h : parser.query.1 = .error e) :
    e.found = parser.query.2.current.kind ∧ e.position = parser.query.2.current.position := by
  obtain ⟨front, back, stage, q, -, -, -, ⟨-, -, hquery⟩ | ⟨-, hquery⟩⟩ := parser.query_cases
  · rw [hquery] at h
    cases h
  · rw [hquery] at h ⊢
    cases h
    exact ⟨stage.complaint_found _, stage.complaint_position _⟩

/-- Where no query can start, a query fails at once. -/
theorem query_of_current {parser : Parser}
    (h : parser.current.kind ≠ .keyword .introspect) :
    parser.query = (.error (.unexpected (.keyword .introspect) parser.current.kind
      parser.current.position), parser) := by
  obtain ⟨rest, stop⟩ := parser
  cases rest with
  | nil => rfl
  | cons t rest =>
    have hkind : t.kind ≠ .keyword .introspect := h
    have hnext : Stage.start.next? blank t = none := if_neg hkind
    have hend : ¬ (Stage.start = .finish ∧ Ends (t :: rest)) := by simp
    rw [query_eq, follow_of_refused (by simpa using hnext) hend]
    rfl

theorem after_of_current {parser : Parser} (h : parser.current.kind ≠ .keyword .introspect)
    (n : Nat) : parser.after n = parser := by
  have hfixed : parser.query.2 = parser := congrArg Prod.snd (query_of_current h)
  exact Function.iterate_fixed hfixed n

section Tokens
variable (ts : List Token)

/-- A parser part way through some tokens. -/
def Within (parser : Parser) : Prop :=
  parser.rest <:+ ts ∧ parser.stop = endOf ts

theorem within_after (n : Nat) : ((ofTokens ts).after n).Within ts := by
  induction n with
  | zero => exact ⟨List.suffix_rfl, rfl⟩
  | succ n ih =>
    rw [after_succ]
    exact ⟨(query_rest _).trans ih.1, (query_stop _).trans ih.2⟩

variable {ts} {parser : Parser}

theorem Within.eq (h : parser.Within ts) : parser = ⟨ts.drop (cursor ts parser), endOf ts⟩ := by
  obtain ⟨rest, stop⟩ := parser
  obtain ⟨hrest, rfl⟩ := h
  have hdrop : rest = ts.drop (ts.length - rest.length) := List.suffix_iff_eq_drop.1 hrest
  rw [cursor, ← hdrop]

/-- What comes next is the token at the cursor. -/
theorem Within.current_eq (h : parser.Within ts) :
    parser.current = tokenAt ts (cursor ts parser) := by
  rw [tokenAt, List.getD_eq_getElem?_getD, ← List.head?_drop, ← List.headD_eq_head?_getD]
  conv_lhs => rw [h.eq]
  rfl

theorem cursor_le (ts : List Token) (parser : Parser) : cursor ts parser ≤ ts.length :=
  Nat.sub_le _ _

theorem cursor_query (ts : List Token) (parser : Parser) :
    cursor ts parser ≤ cursor ts parser.query.2 :=
  Nat.sub_le_sub_left parser.query_rest.length_le _

theorem endOf_drop {k : Nat} (h : k < ts.length) : endOf (ts.drop k) = endOf ts := by
  rw [endOf, List.getLast?_drop, if_neg (by omega)]
  rfl

/-- Each query is read as by a new parser over the tokens from the cursor on, which ends where the
old one does. -/
theorem query_after (ts : List Token) (n : Nat) :
    let parser := (ofTokens ts).after n
    let k := cursor ts parser
    k ≤ ts.length ∧ k ≤ cursor ts ((ofTokens ts).after (n + 1)) ∧ parser.rest = ts.drop k ∧
      parser.query.1 = (Parser.query { ofTokens (ts.drop k) with stop := endOf ts }).1 ∧
      (k < ts.length → parser.query.1 = (ofTokens (ts.drop k)).query.1) := by
  intro parser k
  have heq : parser = ⟨ts.drop k, endOf ts⟩ := (within_after ts n).eq
  refine ⟨cursor_le ts parser, ?_, congrArg rest heq, congrArg (·.query.1) heq, fun hk => ?_⟩
  · rw [after_succ]
    exact cursor_query ts parser
  · rw [heq, ofTokens, endOf_drop hk]

/-- A token that a query was refused for stays; unless a query can start with it, all further
queries are refused for it. -/
theorem refused_after {n : Nat} {e : ParseError} (h : ((ofTokens ts).after n).query.1 = .error e) :
    let k := cursor ts ((ofTokens ts).after (n + 1))
    e.found = (tokenAt ts k).kind ∧ e.position = (tokenAt ts k).position ∧
      ((tokenAt ts k).kind ≠ .keyword .introspect → ∀ m, n < m →
        ((ofTokens ts).after m).query.1 =
          .error (.unexpected (.keyword .introspect) (tokenAt ts k).kind (tokenAt ts k).position) ∧
        cursor ts ((ofTokens ts).after (m + 1)) = k) := by
  intro k
  have hcurrent : ((ofTokens ts).after (n + 1)).current = tokenAt ts k :=
    (within_after ts (n + 1)).current_eq
  obtain ⟨hfound, hposition⟩ := query_refused h
  rw [← after_succ, hcurrent] at hfound hposition
  refine ⟨hfound, hposition, fun hkind m hm => ?_⟩
  rw [← hcurrent] at hkind
  have hstays : (ofTokens ts).after m = (ofTokens ts).after (n + 1) := by
    rw [← Nat.sub_add_cancel (Nat.succ_le_of_lt hm), after_add, after_of_current hkind]
  rw [after_succ, hstays, query_of_current hkind, hcurrent]
  exact ⟨rfl, rfl⟩

end Tokens

/-! ### Several queries in one list of tokens -/

/-- Tokens that end with an end of input, and hold no other one. -/
def EndsOnce (ts : List Token) : Prop :=
  ∃ body e, ts = body ++ [e] ∧ e.kind = .eof ∧ ∀ t ∈ body, t.kind ≠ .eof

/-- Tokens that are a query on their own, with its end of input. -/
def IsQuery (ts : List Token) (q : Query) : Prop :=
  (ofTokens ts).query.1 = .ok q ∧ EndsOnce ts

/-- Such tokens are read alike in front of others. -/
theorem IsQuery.query_append {part : List Token} {q : Query} (h : IsQuery part q)
    (rest : List Token) (stop : Nat) :
    (⟨part ++ rest, stop⟩ : Parser).query = (.ok q, ⟨rest, stop⟩) := by
  obtain ⟨hquery, body, e, rfl, he, hbody⟩ := h
  obtain ⟨s, behind, hpart, hends, hdenotes⟩ := query_eq_ok_iff_sentence.1 hquery
  obtain rfl := Sentence.rest_eq hbody he hpart hends
  have hrun := run_eq_finish_iff.2 ⟨s, rfl, hdenotes⟩
  rw [hpart, List.append_assoc]
  exact query_of_run hrun (by simp [Ends, he])

section Parts
variable {parts : List (List Token)} {qs : List Query}

theorem query_parts (h : List.Forall₂ IsQuery parts qs) (stop : Nat) :
    (⟨parts.flatten, stop⟩ : Parser).after qs.length = ⟨[], stop⟩ ∧
      ∀ (i : Nat) (hi : i < qs.length),
        ((⟨parts.flatten, stop⟩ : Parser).after i).query.1 = .ok qs[i] := by
  induction h with
  | nil => exact ⟨rfl, by simp⟩
  | @cons part q parts qs hpart _ ih =>
    have hquery := hpart.query_append parts.flatten stop
    -- The first query leaves the parser where it would start on the other parts alone.
    have hnext (n : Nat) : (⟨(part :: parts).flatten, stop⟩ : Parser).after (n + 1) =
        (⟨parts.flatten, stop⟩ : Parser).after n := by
      rw [after_add]
      exact congrArg (after · n) (congrArg Prod.snd hquery)
    refine ⟨(hnext qs.length).trans ih.1, fun i hi => ?_⟩
    cases i with
    | zero => exact congrArg Prod.fst hquery
    | succ i =>
      rw [hnext]
      exact ih.2 i (Nat.lt_of_succ_lt_succ hi)

theorem getLast?_parts (h : List.Forall₂ IsQuery parts qs) :
    ∀ last ∈ parts.flatten.getLast?, last.kind = .eof := by
  induction h with
  | nil => simp
  | @cons part q parts qs hpart _ ih =>
    obtain ⟨-, body, e, rfl, he, -⟩ := hpart
    intro last hlast
    rw [List.flatten_cons, List.getLast?_append, List.getLast?_concat] at hlast
    cases hmore : parts.flatten.getLast? with
    | none =>
      rw [hmore] at hlast
      cases hlast
      exact he
    | some other =>
      rw [hmore] at hlast
      cases hlast
      exact ih last hmore

/-- Queries that stand one behind another, each with its end of input, are read in their order;
behind them there is the end of input of the last one. -/
theorem query_flatten (h : List.Forall₂ IsQuery parts qs) :
    (∀ (i : Nat) (hi : i < qs.length),
      ((ofTokens parts.flatten).after i).query.1 = .ok qs[i]) ∧
    ∀ n, qs.length ≤ n → ∀ last ∈ parts.flatten.getLast?,
      ((ofTokens parts.flatten).after n).query.1 =
        .error (.unexpected (.keyword .introspect) .eof last.position) := by
  obtain ⟨hend, hqueries⟩ := query_parts h (endOf parts.flatten)
  refine ⟨hqueries, fun n hn last hlast => ?_⟩
  have hposition : endOf parts.flatten = last.position := by
    rw [endOf, hlast]
    exact if_pos (getLast?_parts h last hlast)
  have hnothing : (⟨[], endOf parts.flatten⟩ : Parser).current.kind ≠ .keyword .introspect := by
    simp [current, Token.eof]
  have hafter : (ofTokens parts.flatten).after n = ⟨[], endOf parts.flatten⟩ := by
    rw [← Nat.sub_add_cancel hn, after_add, ofTokens, hend, after_of_current hnothing]
  rw [hafter, query_of_current hnothing, ← hposition]
  rfl

end Parts

/-- A parser can be asked for one query after another. It moves on through the tokens, and reads
each query as a new parser would from there. An error leaves it in front of the token that it tells
of, for good if no query starts with that token. Queries that stand one behind another, each with
its end of input, are read in their order, and behind them there is the end of input. -/
theorem parser_resumes :
    (∀ ts n, let parser := (ofTokens ts).after n
      let k := cursor ts parser
      k ≤ ts.length ∧ k ≤ cursor ts ((ofTokens ts).after (n + 1)) ∧ parser.rest = ts.drop k ∧
        parser.query.1 = (Parser.query { ofTokens (ts.drop k) with stop := endOf ts }).1 ∧
        (k < ts.length → parser.query.1 = (ofTokens (ts.drop k)).query.1)) ∧
    (∀ ts n e, ((ofTokens ts).after n).query.1 = .error e →
      let k := cursor ts ((ofTokens ts).after (n + 1))
      e.found = (tokenAt ts k).kind ∧ e.position = (tokenAt ts k).position ∧
        ((tokenAt ts k).kind ≠ .keyword .introspect → ∀ m, n < m →
          ((ofTokens ts).after m).query.1 = .error
            (.unexpected (.keyword .introspect) (tokenAt ts k).kind (tokenAt ts k).position) ∧
          cursor ts ((ofTokens ts).after (m + 1)) = k)) ∧
    ∀ parts qs, List.Forall₂ IsQuery parts qs →
      (∀ (i : Nat) (hi : i < qs.length),
        ((ofTokens parts.flatten).after i).query.1 = .ok qs[i]) ∧
      ∀ n, qs.length ≤ n → ∀ last ∈ parts.flatten.getLast?,
        ((ofTokens parts.flatten).after n).query.1 =
          .error (.unexpected (.keyword .introspect) .eof last.position) :=
  ⟨query_after, fun _ _ _ => refused_after, fun _ _ => query_flatten⟩

/-- A query given twice, and a keyword that no query starts with. -/
theorem parser_resumes_twice :
    let part : List Token :=
      [⟨.keyword .introspect, .absent, 0⟩, ⟨.mark .openBrace, .absent, 1⟩,
        ⟨.keyword .select, .absent, 2⟩, ⟨.identifier, .symbol "a", 3⟩,
        ⟨.keyword .source, .absent, 4⟩, ⟨.identifier, .symbol "s", 5⟩,
        ⟨.mark .closeBrace, .absent, 6⟩, Token.eof 7]
    ((ofTokens [part, part].flatten).after 1).query.1 = .ok (Query.plain ["a"] "s") ∧
    ((ofTokens [part, part].flatten).after 5).query.1 =
      .error (.unexpected (.keyword .introspect) .eof 7) ∧
    ((ofTokens [⟨.keyword .select, .absent, 4⟩]).after 3).query.1 =
      .error (.unexpected (.keyword .introspect) (.keyword .select) 4) := by
  intro part
  obtain ⟨-, hrefused, hparts⟩ := parser_resumes
  have hpart : IsQuery part (Query.plain ["a"] "s") :=
    ⟨rfl, part.dropLast, Token.eof 7, rfl, rfl, by decide⟩
  obtain ⟨hread, hend⟩ := hparts [part, part] _ (.cons hpart (.cons hpart .nil))
  have hselect : ((ofTokens [⟨.keyword .select, .absent, 4⟩]).after 0).query.1 =
      .error (.unexpected (.keyword .introspect) (.keyword .select) 4) := rfl
  obtain ⟨-, -, hstays⟩ := hrefused _ 0 _ hselect
  exact ⟨hread 1 (by decide), hend 5 (by decide) (Token.eof 7) rfl,
    (hstays (by decide) 3 (by decide)).1⟩

end Parser

end Introspect
