import Introspect.Engine
import Introspect.Proofs.Derivation
import Introspect.Proofs.Lenient
import Introspect.Proofs.Modes
import Introspect.Proofs.Separated
import Introspect.Proofs.Tiling

/-!
A quoted text that is not closed ends with the input, so its string is the last token in front of
the end of input. A query ends with a brace. Mending the one therefore never leads to the other.
-/
namespace Introspect

namespace Lexeme

/-- Nothing comes behind a quoted text that is not closed. -/
theorem Splits.unclosed_last {position : Nat} {cs : List Char} {found : List (Nat × Lexeme)}
    (h : Splits position cs found) {entry : Nat × Lexeme} (hmem : entry ∈ found)
    (hunclosed : entry.2.IsUnclosed) : ∃ front, found = front ++ [entry] := by
  induction h with
  | blanks => simp at hmem
  | @lexeme position gap rest lexeme found blank munch solid more ih =>
    rcases List.mem_cons.1 hmem with rfl | hmem
    · obtain ⟨quote, body, rfl⟩ := hunclosed
      cases munch with
      | unclosed opening inside =>
        have hfound : found = [] := more.unique (.blanks (by simp))
        exact ⟨[], by rw [hfound, List.nil_append]⟩
    · obtain ⟨front, rfl⟩ := ih hmem
      exact ⟨_ :: front, rfl⟩

theorem isUnclosed_of_note? {mode : Mode} {entry : Nat × Lexeme} {start : Nat}
    (h : note? mode entry = some (.unclosed start)) : entry.1 = start ∧ entry.2.IsUnclosed := by
  obtain ⟨position, lexeme⟩ := entry
  have hreads := read_reads mode position lexeme
  rcases note?_eq_some_iff.1 h with ⟨t, hread⟩ | hread
  · rw [hread] at hreads
    cases hreads with
    | unclosed quote body => exact ⟨rfl, quote, body, rfl⟩
  · rw [hread] at hreads
    cases hreads

/-- What is closed with the input is a string. -/
theorem Gives.kind_of_isUnclosed {mode : Mode} {entry : Nat × Lexeme} {t : Token}
    (h : Gives mode entry t) (hunclosed : entry.2.IsUnclosed) : t.kind = .string := by
  obtain ⟨position, lexeme⟩ := entry
  obtain ⟨quote, body, rfl⟩ := hunclosed
  rcases h.reads with hreads | ⟨w, hreads⟩
  · cases hreads
  · cases hreads
    rfl

end Lexeme

/-- A sentence ends with its closing brace. -/
theorem Grammar.Sentence.exists_tokens_concat (s : Grammar.Sentence) :
    ∃ init, s.tokens = init ++ [s.closeBrace.token] := by
  refine ⟨s.tokens.dropLast, ?_⟩
  simp [tokens, List.dropLast_cons_of_ne_nil, List.dropLast_append_of_ne_nil]

open Lexeme

/-- At `start` a quote opens that nothing closes. -/
def UnclosedAt (text : String) (start : Nat) : Prop :=
  ∃ found lexeme, Splits 0 text.toList found ∧ (start, lexeme) ∈ found ∧ lexeme.IsUnclosed

theorem UnclosedAt.unique {text : String} {start start' : Nat} (h : UnclosedAt text start)
    (h' : UnclosedAt text start') : start = start' := by
  obtain ⟨found, lexeme, hsplits, hmem, hunclosed⟩ := h
  obtain ⟨found', lexeme', hsplits', hmem', hunclosed'⟩ := h'
  obtain rfl := hsplits.unique hsplits'
  obtain ⟨front, hfront⟩ := hsplits.unclosed_last hmem hunclosed
  obtain ⟨front', hfront'⟩ := hsplits.unclosed_last hmem' hunclosed'
  have hlast := (List.append_inj' (hfront.symm.trans hfront') rfl).2
  exact congrArg Prod.fst (List.cons.inj hlast).1

section Tokens
variable {text : String} {mode : Mode} {ts : List Token} {ws : List LexWarning} {start : Nat}

/-- Of a text that has been read, the warnings tell which quote was not closed. -/
theorem unclosed_mem_iff (h : tokenize text mode = .ok (ts, ws)) :
    .unclosed start ∈ ws ↔ UnclosedAt text start := by
  obtain ⟨found, hsplits⟩ := exists_splits 0 text.toList
  have hread := readAll_of_tokenize hsplits h
  have hnoted {start : Nat} (hmem : .unclosed start ∈ ws) : UnclosedAt text start := by
    rw [(warnings_of_readAll hread).1] at hmem
    obtain ⟨entry, hentry, hnote⟩ := List.mem_filterMap.1 hmem
    obtain ⟨rfl, hunclosed⟩ := isUnclosed_of_note? hnote
    exact ⟨found, entry.2, hsplits, hentry, hunclosed⟩
  refine ⟨hnoted, fun hunclosed => ?_⟩
  -- Some quote was warned of, and there is only one that is not closed.
  obtain ⟨found', lexeme, hsplits', hmem, hlexeme⟩ := id hunclosed
  obtain rfl := hsplits.unique hsplits'
  by_contra hnone
  refine not_isUnclosed_of_readAll hread ?_ _ hmem hlexeme
  intro start' hstart'
  exact hnone ((hunclosed.unique (hnoted hstart')) ▸ hstart')

theorem not_parse_of_unclosedAt (hunclosed : UnclosedAt text start) (q : Query) :
    Query.parse text mode ≠ .ok q := by
  intro hparse
  obtain ⟨found, lexeme, hsplits, hmem, hlexeme⟩ := hunclosed
  obtain ⟨ts, ws, htokens, s, e, rfl, -, -⟩ := Grammar.parse_eq_ok_iff_sentence.1 hparse
  obtain ⟨body, hbody, hgives⟩ := tokens_of_readAll (readAll_of_tokenize hsplits htokens)
  obtain ⟨rfl, -⟩ := List.append_inj' hbody rfl
  obtain ⟨front, rfl⟩ := hsplits.unclosed_last hmem hlexeme
  obtain ⟨init, hinit⟩ := s.exists_tokens_concat
  have hsolid : [(start, lexeme)].filter (·.2.isSolid) = [(start, lexeme)] := by
    obtain ⟨quote, body, rfl⟩ := hlexeme
    rfl
  -- The last lexeme gives the last token.
  rw [hinit, List.filter_append, hsolid, ← List.forall₂_reverse_iff, List.reverse_append,
    List.reverse_append] at hgives
  cases hgives with
  | cons hlast _ =>
    have hkind := hlast.kind_of_isUnclosed hlexeme
    rw [s.closeBrace.isKind] at hkind
    cases hkind

end Tokens

/-- What a lenient lexer refuses stands in front of a quote that is not closed. -/
theorem position_lt_of_refused {text : String} {start : Nat} {e : LexError}
    (hunclosed : UnclosedAt text start) (h : tokenize text .lenient = .error e) :
    ∃ digits position, e = .invalidNumber digits position ∧ position < start := by
  obtain ⟨found, lexeme, hsplits, hmem, hlexeme⟩ := hunclosed
  have hrefused : RefusedAt found e := by
    rw [tokenize_of_splits hsplits] at h
    rw [← readAll_lenient_error_iff]
    cases hread : (readAll .lenient text.length found).1 with
    | ok ts => simp [hread, Except.map] at h
    | error e' => simpa [hread, Except.map] using h
  obtain ⟨before, entry, after, hfound, -, hoverflows, rfl⟩ := hrefused
  refine ⟨_, _, rfl, ?_⟩
  have hentry : entry ∈ found := by simp [hfound]
  obtain ⟨front, rfl⟩ := hsplits.unclosed_last hmem hlexeme
  have hfront : entry ∈ front := by
    rcases List.mem_append.1 hentry with hentry | hentry
    · exact hentry
    · -- A quoted text is no number.
      obtain ⟨quote, body, rfl⟩ := hlexeme
      rw [List.mem_singleton.1 hentry] at hoverflows
      exact hoverflows.elim
  have hbefore := (List.pairwise_append.1 hsplits.ordered).2.2 entry hfront _ List.mem_cons_self
  exact Nat.lt_of_lt_of_le (hsplits.lt_stop hentry) hbefore

/-- Of an accepted query no quote was closed with the input. A text with such a quote is refused in
both modes: strictly by the lexer, and leniently by the parser, or by the lexer over a number in
front of the quote. -/
theorem unclosed_never_accepted {σ : Type} (engine : Engine σ) (text : String) :
    (∀ q ws, engine.check text = .ok (q, ws) → ∀ start, .unclosed start ∉ ws) ∧
    (∀ ts ws, tokenize text engine.config.mode = .ok (ts, ws) →
      ∀ start, .unclosed start ∈ ws ↔ UnclosedAt text start) ∧
    ∀ start, UnclosedAt text start →
      (engine.config.mode = .strict → ∃ e, engine.check text = .error (.lex e)) ∧
      (engine.config.mode = .lenient → (∃ e, engine.check text = .error (.parse e)) ∨
        ∃ digits position, engine.check text = .error (.lex (.invalidNumber digits position)) ∧
          position < start) := by
  refine ⟨?_, fun ts ws h start => unclosed_mem_iff h, ?_⟩
  · intro q ws hcheck start hmem
    obtain ⟨ts, htokens, -⟩ := Query.check_eq_ok_iff.1 hcheck
    exact not_parse_of_unclosedAt ((unclosed_mem_iff htokens).1 hmem) q
      (Query.parse_eq_ok_iff_check.2 ⟨ws, hcheck⟩)
  · intro start hunclosed
    unfold Engine.check
    constructor
    · intro hstrict
      rw [hstrict]
      cases htokens : tokenize text .strict with
      | error e => exact ⟨e, Query.check_eq_error_iff.2 (.inl ⟨e, htokens, rfl⟩)⟩
      | ok read =>
        -- A strict lexer warns of nothing.
        obtain ⟨ts, ws⟩ := read
        obtain ⟨rfl, -⟩ := tokenize_strict_eq_ok_iff.1 htokens
        have hmem := (unclosed_mem_iff htokens).2 hunclosed
        cases hmem
    · intro hlenient
      rw [hlenient]
      cases hcheck : Query.check text .lenient with
      | ok p =>
        exact absurd (Query.parse_eq_ok_iff_check.2 ⟨p.2, hcheck⟩)
          (not_parse_of_unclosedAt hunclosed p.1)
      | error e =>
        rcases Query.check_eq_error_iff.1 hcheck with ⟨f, hrefused, rfl⟩ | ⟨_, _, f, -, -, rfl⟩
        · obtain ⟨digits, position, rfl, hlt⟩ := position_lt_of_refused hunclosed hrefused
          exact .inr ⟨digits, position, rfl, hlt⟩
        · exact .inl ⟨f, rfl⟩

/-- A value that is not closed takes the closing brace with it. Where something else is mended, the
query is accepted. -/
theorem unclosed_value_refused :
    let text := "introspect \x7b select mood from self where unit = 'px \x7d"
    let mended := "introspect \x7b select mood from $ self \x7d"
    let engine (mode : Mode) : Engine Unit := ⟨∅, { Config.default with mode }⟩
    UnclosedAt text 48 ∧ (∃ e, (engine .lenient).check text = .error (.parse e)) ∧
      (∃ e, (engine .strict).check text = .error (.lex e)) ∧
      (engine .lenient).check mended =
        .ok (Query.plain ["mood"] "self", [.dropped '$' 30]) ∧
      ∀ start, .unclosed start ∉ [LexWarning.dropped '$' 30] := by
  intro text mended engine
  obtain ⟨-, hread, hrefused⟩ := unclosed_never_accepted (engine .lenient) text
  have htokens : (tokenize text .lenient).map Prod.snd = .ok [.unclosed 48] := by decide +kernel
  have hmended : (engine .lenient).check mended =
      .ok (Query.plain ["mood"] "self", [.dropped '$' 30]) := by
    decide +kernel
  cases hts : tokenize text .lenient with
  | error e => rw [hts] at htokens; cases htokens
  | ok read =>
    obtain ⟨ts, ws⟩ := read
    rw [hts] at htokens
    obtain rfl : ws = [.unclosed 48] := Except.ok.inj htokens
    have hunclosed : UnclosedAt text 48 := (hread _ _ hts 48).1 List.mem_cons_self
    refine ⟨hunclosed, ?_, ?_, hmended, ?_⟩
    · refine ((hrefused 48 hunclosed).2 rfl).resolve_right ?_
      rintro ⟨digits, position, hcheck, -⟩
      rcases Query.check_eq_error_iff.1 hcheck with ⟨e, he, -⟩ | ⟨_, _, _, _, _, he⟩
      · exact nomatch hts.symm.trans he
      · cases he
    · exact ((unclosed_never_accepted (engine .strict) text).2.2 48 hunclosed).1 rfl
    · exact (unclosed_never_accepted (engine .lenient) mended).1 _ _ hmended

end Introspect
