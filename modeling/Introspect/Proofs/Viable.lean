import Introspect.Proofs.Derivation

/-!
Where a query goes wrong. Tokens are viable as long as some sentence starts with them; an error
tells of the first token that they are not viable with, and of a kind that would have done.
-/
namespace Introspect

/-- A token that is what an error says was expected, with what the grammar wants it to carry. -/
def ParseError.Meets (e : ParseError) (t : Token) : Prop :=
  match e with
  | unexpected expected _ _ =>
    t.kind = expected ∧ (expected = .identifier → t.lexeme?.isSome = true)
  | expectedLiteral _ _ => (t.kind = .string ∨ t.kind = .number) ∧ t.literal?.isSome = true

/-- There is always such a token. -/
theorem ParseError.exists_meets (e : ParseError) : ∃ t, e.Meets t := by
  cases e with
  | unexpected expected found position =>
    exact ⟨⟨expected, .symbol "", position⟩, rfl, fun _ => rfl⟩
  | expectedLiteral found position =>
    exact ⟨⟨.string, .literal (.text ""), position⟩, .inl rfl, rfl⟩

namespace Stage

/-- A stage from which tokens lead to the end, whatever was read so far. -/
def Closes (stage : Stage) : Prop :=
  ∀ q, ∃ cs r, stage.run q cs = some (.finish, r)

theorem Closes.of_next? {stage after : Stage} (t : Token) (f : Query → Query)
    (hnext : ∀ q, stage.next? q t = some (after, f q)) (h : Closes after) : Closes stage := by
  intro q
  obtain ⟨cs, r, hrun⟩ := h (f q)
  exact ⟨t :: cs, r, by rw [run_step (hnext q), hrun]⟩

/-- There is no dead end: every stage leads on to the end of a query. -/
theorem closes (stage : Stage) : Closes stage := by
  have hfinish : Closes finish := fun q => ⟨[], q, rfl⟩
  have hclauses (allowed : List Clause) : Closes (clauses allowed) :=
    .of_next? ⟨.mark .closeBrace, .absent, 0⟩ (fun q => q)
      (fun q => by simp [next?, Grammar.enter?_closeBrace]) hfinish
  have hpairEnd (c : Clause) : Closes (pairEnd c) :=
    .of_next? ⟨.mark .closeBrace, .absent, 0⟩ (fun q => q)
      (fun q => by simp [next?, Grammar.enter?_closeBrace]) hfinish
  have hvalue (c : Clause) (name : String) : Closes (value c name) :=
    .of_next? ⟨.string, .literal (.text ""), 0⟩ (c.bind name (.text "")) (fun _ => rfl) (hpairEnd c)
  have hequals (c : Clause) (name : String) : Closes (equals c name) :=
    .of_next? ⟨.mark .equals, .absent, 0⟩ (fun q => q) (fun _ => rfl) (hvalue c name)
  have hkey (c : Clause) : Closes (key c) :=
    .of_next? ⟨.identifier, .symbol "", 0⟩ (fun q => q) (fun _ => rfl) (hequals c "")
  have hdepth : Closes depth :=
    .of_next? ⟨.number, .absent, 0⟩ _ (fun _ => rfl) (hclauses _)
  have hsource : Closes source :=
    .of_next? ⟨.identifier, .symbol "", 0⟩ _ (fun _ => rfl) (hclauses _)
  have hfieldEnd : Closes fieldEnd :=
    .of_next? ⟨.keyword .source, .absent, 0⟩ (fun q => q) (fun _ => rfl) hsource
  have hfield : Closes field :=
    .of_next? ⟨.identifier, .symbol "", 0⟩ _ (fun _ => rfl) hfieldEnd
  have hselect : Closes select :=
    .of_next? ⟨.keyword .select, .absent, 0⟩ (fun q => q) (fun _ => rfl) hfield
  have hopening : Closes opening :=
    .of_next? ⟨.mark .openBrace, .absent, 0⟩ (fun q => q) (fun _ => rfl) hselect
  have hstart : Closes start :=
    .of_next? ⟨.keyword .introspect, .absent, 0⟩ (fun q => q) (fun _ => rfl) hopening
  cases stage with
  | start => exact hstart
  | opening => exact hopening
  | select => exact hselect
  | field => exact hfield
  | fieldEnd => exact hfieldEnd
  | source => exact hsource
  | clauses allowed => exact hclauses allowed
  | key c => exact hkey c
  | equals c name => exact hequals c name
  | value c name => exact hvalue c name
  | pairEnd c => exact hpairEnd c
  | depth => exact hdepth
  | finish => exact hfinish

/-- What a complaint asks for is what the stage takes. -/
theorem next?_of_meets {stage : Stage} {q : Query} {t t' : Token} (hstage : stage ≠ .finish)
    (h : (stage.complaint t).Meets t') : ∃ m, stage.next? q t' = some m := by
  rw [← Option.isSome_iff_exists]
  have hname (hname : t'.kind = .identifier ∧ (TokenKind.identifier = .identifier →
      t'.lexeme?.isSome = true)) : t'.name?.isSome = true := by
    rw [Token.name?, if_pos hname.1]
    exact hname.2 rfl
  cases stage with
  | field | source | key =>
    rw [next?, Option.isSome_map]
    exact hname h
  | value c name =>
    rw [next?, Option.isSome_map, Token.value?, if_pos h.1]
    exact h.2
  | pairEnd c =>
    rw [next?]
    by_cases hkind : t.kind = .identifier
    · simp only [complaint, if_pos hkind] at h
      rw [if_pos h.1, Option.isSome_map]
      exact hname h
    · simp only [complaint, if_neg hkind] at h
      rw [if_neg (by simp [h.1]), h.1, Option.isSome_map, Grammar.enter?_closeBrace]
      rfl
  | clauses allowed =>
    rw [next?, h.1, Option.isSome_map, Grammar.enter?_closeBrace]
    rfl
  | finish => exact absurd rfl hstage
  | _ => simp [next?, h.1]

end Stage

namespace Grammar

/-- Tokens that a sentence and an end of input start with. -/
def Viable (ts : List Token) : Prop :=
  ∃ (s : Sentence) (e : Token), e.kind = .eof ∧ ts <+: s.tokens ++ [e]

theorem Viable.of_prefix {front ts : List Token} (h : Viable ts) (hfront : front <+: ts) :
    Viable front := by
  obtain ⟨s, e, he, hts⟩ := h
  exact ⟨s, e, he, hfront.trans hts⟩

/-- Viable tokens are those of a run, or those of a run to the end and an end of input. -/
theorem viable_iff {ts : List Token} :
    Viable ts ↔ (∃ m, Stage.start.run Parser.blank ts = some m) ∨
      ∃ front e q, ts = front ++ [e] ∧ e.kind = .eof ∧
        Stage.start.run Parser.blank front = some (.finish, q) := by
  constructor
  · rintro ⟨s, e, he, hts⟩
    rcases List.prefix_concat_iff.1 hts with rfl | ⟨back, hback⟩
    · exact .inr ⟨s.tokens, e, s.query, rfl, he, run_sentence s⟩
    · have hrun := run_sentence s
      rw [← hback] at hrun
      obtain ⟨m, hm, -⟩ := Stage.run_front hrun
      exact .inl ⟨m, hm⟩
  · rintro (⟨m, hrun⟩ | ⟨front, e, q, rfl, he, hrun⟩)
    · obtain ⟨cs, r, hcs⟩ := m.1.closes m.2
      have hwhole : Stage.start.run Parser.blank (ts ++ cs) = some (.finish, r) := by
        rw [Stage.run_append, hrun, Option.bind_some, hcs]
      obtain ⟨s, hs, -⟩ := run_eq_finish_iff.1 hwhole
      refine ⟨s, Token.eof 0, rfl, ?_⟩
      rw [← hs, List.append_assoc]
      exact List.prefix_append ts _
    · obtain ⟨s, rfl, -⟩ := run_eq_finish_iff.1 hrun
      exact ⟨s, e, he, List.prefix_rfl⟩

/-- The token at an index: past the last one, the end of input that the parser puts there. -/
def tokenAt (ts : List Token) (k : Nat) : Token :=
  ts.getD k (Token.eof (Parser.endOf ts))

/-- The index at which tokens stop being viable. -/
structure DeadAt (ts : List Token) (k : Nat) : Prop where
  le_length : k ≤ ts.length
  viable : Viable (ts.take k)
  dead : ¬ Viable (ts.take k ++ [tokenAt ts k])

theorem DeadAt.le {ts : List Token} {j k : Nat} (hj : DeadAt ts j) (hk : DeadAt ts k) : k ≤ j := by
  by_contra hlt
  rw [Nat.not_le] at hlt
  have hlength : j < ts.length := Nat.lt_of_lt_of_le hlt hk.le_length
  have htoken : tokenAt ts j = ts[j] := by
    rw [tokenAt, List.getD_eq_getElem?_getD, List.getElem?_eq_getElem hlength, Option.getD_some]
  apply hj.dead
  apply hk.viable.of_prefix
  rw [htoken, List.take_append_getElem hlength]
  exact List.take_prefix_take_left hlt

/-- There is one such index at most. -/
theorem DeadAt.unique {ts : List Token} {j k : Nat} (hj : DeadAt ts j) (hk : DeadAt ts k) :
    j = k :=
  Nat.le_antisymm (hk.le hj) (hj.le hk)

theorem tokenAt_append (front back : List Token) :
    tokenAt (front ++ back) front.length =
      back.headD (Token.eof (Parser.endOf (front ++ back))) := by
  rw [tokenAt, List.getD_eq_getElem?_getD, List.getElem?_append_right (Nat.le_refl _),
    Nat.sub_self, ← List.head?_eq_getElem?, List.headD_eq_head?_getD]

/-- An error tells of the token at which tokens stop being viable, and a token that meets it would
have done in its place. -/
theorem dead_of_error {ts : List Token} {e : ParseError}
    (h : (Parser.ofTokens ts).query.1 = .error e) :
    ∃ k, DeadAt ts k ∧ e.found = (tokenAt ts k).kind ∧ e.position = (tokenAt ts k).position ∧
      ∀ t, e.Meets t → Viable (ts.take k ++ [t]) := by
  obtain ⟨front, back, stage, q, rfl, hrun, hback, hend, rfl⟩ := Parser.query_error h
  rw [← tokenAt_append]
  have hrefused : stage.next? q (tokenAt (front ++ back) front.length) = none := by
    rw [tokenAt_append]
    cases back with
    | nil => exact Stage.next?_eof rfl
    | cons t back => exact hback t rfl
  have htake : (front ++ back).take front.length = front := List.take_left
  refine ⟨front.length, ⟨by simp, ?_, ?_⟩, Stage.complaint_found _ _,
    Stage.complaint_position _ _, ?_⟩
  · rw [htake]
    exact viable_iff.2 (.inl ⟨_, hrun⟩)
  · rw [htake, viable_iff]
    rintro (⟨m, hm⟩ | ⟨front', t, r, heq, ht, hm⟩)
    -- A run over the token would have been a longer one.
    · obtain ⟨m', hm', hnext⟩ := Stage.run_front hm
      cases hrun.symm.trans hm'
      rw [Stage.run_cons, hrefused] at hnext
      cases hnext
    -- Were it the end of input behind a sentence, there would be no error.
    · obtain ⟨rfl, htoken⟩ := List.append_inj' heq rfl
      cases hrun.symm.trans hm
      apply hend
      refine ⟨rfl, ?_⟩
      intro u hu
      rw [tokenAt_append, List.headD_eq_head?_getD, hu] at htoken
      rw [← ht, ← (List.cons.inj htoken).1, Option.getD_some]
  · intro t hmeets
    rw [htake, viable_iff]
    by_cases hfinish : stage = .finish
    · subst hfinish
      exact .inr ⟨front, t, q, rfl, hmeets.1, hrun⟩
    · obtain ⟨m, hm⟩ := Stage.next?_of_meets hfinish hmeets (q := q)
      refine .inl ⟨m, ?_⟩
      rw [Stage.run_append, hrun, Option.bind_some, Stage.run_step hm, Stage.run_nil]

/-- Where tokens end with an end of input, there is no other one behind it. -/
theorem tokenAt_mem (body : List Token) (stop k : Nat) :
    tokenAt (body ++ [Token.eof stop]) k ∈ body ++ [Token.eof stop] := by
  by_cases hk : k < (body ++ [Token.eof stop]).length
  · rw [tokenAt, List.getD_eq_getElem?_getD, List.getElem?_eq_getElem hk, Option.getD_some]
    exact List.getElem_mem hk
  · rw [tokenAt, List.getD_eq_getElem?_getD, List.getElem?_eq_none (Nat.le_of_not_lt hk),
      Parser.endOf_concat_eof]
    exact List.mem_append_right body List.mem_cons_self

/-- Parsing fails at the one index where tokens stop being viable: the error tells of the token
there, and a token that meets the error would have kept them viable. In a text it stands where the
error says, at the end of the text just if it is the end of input. -/
theorem error_at_first_dead_token :
    (∀ ts e, (Parser.ofTokens ts).query.1 = .error e →
      ∃ k, DeadAt ts k ∧ (∀ j, DeadAt ts j → j = k) ∧
        e.found = (tokenAt ts k).kind ∧ e.position = (tokenAt ts k).position ∧
        (∃ t, e.Meets t) ∧ ∀ t, e.Meets t → Viable (ts.take k ++ [t])) ∧
    ∀ text mode e, Query.parse text mode = .error (.parse e) →
      ∃ ts ws t, tokenize text mode = .ok (ts, ws) ∧ t ∈ ts ∧ t.kind = e.found ∧
        t.position = e.position ∧ (e.position = text.length ↔ e.found = .eof) := by
  constructor
  · intro ts e h
    obtain ⟨k, hdead, hfound, hposition, hviable⟩ := dead_of_error h
    exact ⟨k, hdead, fun j hj => hj.unique hdead, hfound, hposition, e.exists_meets, hviable⟩
  · intro text mode e h
    obtain ⟨ts, ws, htokens, hquery⟩ := Query.parse_eq_parse_error_iff.1 h
    obtain ⟨k, hdead, hfound, hposition, -⟩ := dead_of_error hquery
    obtain ⟨body, rfl, hbody⟩ := readOff_of_tokenize htokens
    have hmem := tokenAt_mem body text.length k
    refine ⟨_, ws, _, htokens, hmem, hfound.symm, hposition.symm, ?_⟩
    rw [hfound, hposition]
    rcases List.mem_append.1 hmem with hmem | hmem
    · have hread := hbody _ hmem
      have hlt := hread.position_lt
      rw [String.length_toList] at hlt
      exact iff_of_false (Nat.ne_of_lt hlt) hread.ne_eof
    · rw [List.mem_singleton.1 hmem]
      exact iff_of_true rfl rfl

/-- A source in quotes, where its name is expected; then tokens that start with a clause. -/
theorem error_at_quoted_source :
    (∃ ts ws t, tokenize "introspect \x7b select a from 's' \x7d" .strict = .ok (ts, ws) ∧
      t ∈ ts ∧ t.kind = .string ∧ t.position = 27) ∧
    ∃ k, DeadAt [⟨.keyword .select, .symbol "SELECT", 4⟩] k ∧
      (tokenAt [⟨.keyword .select, .symbol "SELECT", 4⟩] k).position = 4 := by
  have htext : Query.parse "introspect \x7b select a from 's' \x7d" .strict =
      .error (.parse (.unexpected .identifier .string 27)) := by
    decide +kernel
  have htokens : (Parser.ofTokens [⟨.keyword .select, .symbol "SELECT", 4⟩]).query.1 =
      .error (.unexpected (.keyword .introspect) (.keyword .select) 4) := rfl
  obtain ⟨ts, ws, t, hts, hmem, hkind, hposition, -⟩ := error_at_first_dead_token.2 _ _ _ htext
  obtain ⟨k, hdead, -, -, hstart, -⟩ := error_at_first_dead_token.1 _ _ htokens
  exact ⟨⟨ts, ws, t, hts, hmem, hkind, hposition⟩, k, hdead, hstart.symm⟩

end Grammar
end Introspect
