import Introspect.Parser

/-!
Runs of the parser. A run follows the stages over tokens that all fit; the parser makes the longest
run from the start and then looks at one more token.
-/
namespace Introspect

namespace Stage

variable {stage : Stage} {q : Query}

/-- Where tokens lead, if all of them fit. -/
def run (stage : Stage) (q : Query) : List Token → Option (Stage × Query)
  | [] => some (stage, q)
  | t :: ts => (stage.next? q t).bind fun p => p.1.run p.2 ts

@[simp] theorem run_nil (stage : Stage) (q : Query) : stage.run q [] = some (stage, q) := rfl

theorem run_cons (stage : Stage) (q : Query) (t : Token) (ts : List Token) :
    stage.run q (t :: ts) = (stage.next? q t).bind fun p => p.1.run p.2 ts := rfl

theorem run_step {t : Token} {ts : List Token} {m : Stage × Query}
    (h : stage.next? q t = some m) : stage.run q (t :: ts) = m.1.run m.2 ts := by
  rw [run_cons, h, Option.bind_some]

theorem run_append (stage : Stage) (q : Query) (front back : List Token) :
    stage.run q (front ++ back) = (stage.run q front).bind fun p => p.1.run p.2 back := by
  induction front generalizing stage q with
  | nil => rfl
  | cons t front ih =>
    rw [List.cons_append, run_cons, run_cons, Option.bind_assoc]
    congr
    funext p
    exact ih p.1 p.2

/-- What a run passes, it can stop at. -/
theorem run_front {front back : List Token} {p : Stage × Query}
    (h : stage.run q (front ++ back) = some p) :
    ∃ m, stage.run q front = some m ∧ m.1.run m.2 back = some p := by
  rw [run_append] at h
  exact Option.bind_eq_some_iff.1 h

theorem ne_finish_of_next? {t : Token} {p : Stage × Query} (h : stage.next? q t = some p) :
    stage ≠ .finish := by
  rintro rfl
  cases h

theorem next?_eof {t : Token} (h : t.kind = .eof) : stage.next? q t = none := by
  have henter (allowed : List Clause) : enter? allowed .eof = none := by
    simp [enter?, List.find?_eq_none.2]
  cases stage <;> simp [next?, Token.name?, Token.value?, henter, h]

/-- A run takes no end of input. -/
theorem run_not_eof {ts : List Token} {p : Stage × Query} (h : stage.run q ts = some p) :
    ∀ t ∈ ts, t.kind ≠ .eof := by
  induction ts generalizing stage q with
  | nil => simp
  | cons t ts ih =>
    obtain ⟨m, hnext, hrun⟩ := Option.bind_eq_some_iff.1 h
    refine List.forall_mem_cons.2 ⟨?_, ih hrun⟩
    intro hkind
    rw [next?_eof hkind] at hnext
    cases hnext

/-- The longest run. -/
theorem exists_run (stage : Stage) (q : Query) (ts : List Token) :
    ∃ front back p, ts = front ++ back ∧ stage.run q front = some p ∧
      ∀ t ∈ back.head?, p.1.next? p.2 t = none := by
  induction ts generalizing stage q with
  | nil => exact ⟨[], [], (stage, q), rfl, rfl, by simp⟩
  | cons t ts ih =>
    cases hnext : stage.next? q t with
    | none => exact ⟨[], t :: ts, (stage, q), rfl, rfl, by simpa using hnext⟩
    | some p =>
      obtain ⟨front, back, m, rfl, hrun, hback⟩ := ih p.1 p.2
      refine ⟨t :: front, back, m, rfl, ?_, hback⟩
      rw [run_cons, hnext]
      exact hrun

theorem complaint_found (stage : Stage) (t : Token) : (stage.complaint t).found = t.kind := by
  cases stage <;> rfl

theorem complaint_position (stage : Stage) (t : Token) :
    (stage.complaint t).position = t.position := by
  cases stage <;> rfl

end Stage

namespace Parser

variable {stage : Stage} {q : Query} {stop : Nat}

theorem follow_cons_of_next? {t : Token} {rest : List Token} {p : Stage × Query}
    (h : stage.next? q t = some p) :
    follow stop stage q (t :: rest) = follow stop p.1 p.2 rest := by
  have hstage := Stage.ne_finish_of_next? h
  rw [follow, if_neg (fun hend => hstage hend.1), h]

theorem follow_append {front back : List Token} {p : Stage × Query}
    (h : stage.run q front = some p) :
    follow stop stage q (front ++ back) = follow stop p.1 p.2 back := by
  induction front generalizing stage q with
  | nil =>
    cases h
    rfl
  | cons t front ih =>
    obtain ⟨m, hnext, hrun⟩ := Option.bind_eq_some_iff.1 h
    rw [List.cons_append, follow_cons_of_next? hnext]
    exact ih hrun

/-- Tokens that a query may end in front of. -/
def Ends (ts : List Token) : Prop :=
  ∀ t ∈ ts.head?, t.kind = .eof

theorem follow_of_ends {ts : List Token} (h : Ends ts) :
    follow stop .finish q ts = (.ok q, ts.tail) := by
  cases ts with
  | nil => rfl
  | cons t ts =>
    have hkind : t.kind = .eof := h t rfl
    rw [follow, if_pos ⟨rfl, hkind⟩, List.tail_cons]

theorem follow_of_refused {ts : List Token} (hrefused : ∀ t ∈ ts.head?, stage.next? q t = none)
    (hend : ¬ (stage = .finish ∧ Ends ts)) :
    follow stop stage q ts = (.error (stage.complaint (ts.headD (Token.eof stop))), ts) := by
  cases ts with
  | nil =>
    have hstage : stage ≠ .finish := fun h => hend ⟨h, by simp [Ends]⟩
    cases stage with
    | finish => exact absurd rfl hstage
    | _ => rfl
  | cons t ts =>
    have hstage : ¬ (stage = .finish ∧ t.kind = .eof) := fun h => hend ⟨h.1, by simp [Ends, h.2]⟩
    rw [follow, if_neg hstage, hrefused t rfl]
    rfl

theorem endOf_concat_eof (body : List Token) (stop : Nat) :
    endOf (body ++ [Token.eof stop]) = stop := by
  rw [endOf, List.getLast?_concat]
  rfl

/-- The query read so far at the start. -/
def blank : Query :=
  Query.plain [] ""

theorem query_eq (rest : List Token) (stop : Nat) :
    (⟨rest, stop⟩ : Parser).query =
      ((follow stop .start blank rest).1, ⟨(follow stop .start blank rest).2, stop⟩) := rfl

/-- A query makes the longest run from the start. Behind a run to the end tokens may end, and the
end of input is passed; else the token that the run does not take is refused, and stays. -/
theorem query_cases (parser : Parser) :
    ∃ front back stage q, parser.rest = front ++ back ∧
      Stage.start.run blank front = some (stage, q) ∧
      (∀ t ∈ back.head?, stage.next? q t = none) ∧
      (stage = .finish ∧ Ends back ∧ parser.query = (.ok q, ⟨back.tail, parser.stop⟩) ∨
        ¬ (stage = .finish ∧ Ends back) ∧ parser.query =
          (.error (stage.complaint (back.headD (Token.eof parser.stop))),
            ⟨back, parser.stop⟩)) := by
  obtain ⟨front, back, ⟨stage, q⟩, hrest, hrun, hback⟩ := Stage.exists_run .start blank parser.rest
  have hquery : parser.query = ((follow parser.stop stage q back).1,
      ⟨(follow parser.stop stage q back).2, parser.stop⟩) := by
    rw [← follow_append hrun, ← hrest, ← query_eq]
  refine ⟨front, back, stage, q, hrest, hrun, hback, ?_⟩
  by_cases hend : stage = .finish ∧ Ends back
  · obtain ⟨rfl, hends⟩ := hend
    rw [follow_of_ends hends] at hquery
    exact .inl ⟨rfl, hends, hquery⟩
  · rw [follow_of_refused hback hend] at hquery
    exact .inr ⟨hend, hquery⟩

theorem query_of_run {front back : List Token} (h : Stage.start.run blank front = some (.finish, q))
    (hends : Ends back) :
    (⟨front ++ back, stop⟩ : Parser).query = (.ok q, ⟨back.tail, stop⟩) := by
  rw [query_eq, follow_append h, follow_of_ends hends]

/-- A query is read off a run to the end, behind which tokens may end. -/
theorem query_eq_ok_iff {ts : List Token} {r : Query} :
    (ofTokens ts).query.1 = .ok r ↔
      ∃ front back, ts = front ++ back ∧ Stage.start.run blank front = some (.finish, r) ∧
        Ends back := by
  constructor
  · intro h
    obtain ⟨front, back, stage, q, hts, hrun, -, ⟨rfl, hends, hquery⟩ | ⟨-, hquery⟩⟩ :=
      (ofTokens ts).query_cases
    · rw [hquery] at h
      cases h
      exact ⟨front, back, hts, hrun, hends⟩
    · rw [hquery] at h
      cases h
  · rintro ⟨front, back, rfl, hrun, hends⟩
    rw [ofTokens, query_of_run hrun hends]

/-- An error comes from the first token that the longest run does not take. -/
theorem query_error {ts : List Token} {e : ParseError} (h : (ofTokens ts).query.1 = .error e) :
    ∃ front back stage q, ts = front ++ back ∧ Stage.start.run blank front = some (stage, q) ∧
      (∀ t ∈ back.head?, stage.next? q t = none) ∧ ¬ (stage = .finish ∧ Ends back) ∧
      e = stage.complaint (back.headD (Token.eof (endOf ts))) := by
  obtain ⟨front, back, stage, q, hts, hrun, hback, ⟨-, -, hquery⟩ | ⟨hend, hquery⟩⟩ :=
    (ofTokens ts).query_cases
  · rw [hquery] at h
    cases h
  · rw [hquery] at h
    cases h
    exact ⟨front, back, stage, q, hts, hrun, hback, hend, rfl⟩

end Parser

namespace Query

variable {text : String} {mode : Mode}

theorem check_eq_ok_iff {q : Query} {ws : List LexWarning} :
    check text mode = .ok (q, ws) ↔
      ∃ ts, tokenize text mode = .ok (ts, ws) ∧ (Parser.ofTokens ts).query.1 = .ok q := by
  rw [check]
  cases tokenize text mode with
  | error e => simp
  | ok p =>
    obtain ⟨ts, vs⟩ := p
    cases hquery : (Parser.ofTokens ts).query with
    | mk outcome rest => cases outcome <;> simp [hquery, and_comm, and_assoc]

theorem check_eq_error_iff {e : SyntaxError} :
    check text mode = .error e ↔ (∃ f, tokenize text mode = .error f ∧ e = .lex f) ∨
      ∃ ts ws f, tokenize text mode = .ok (ts, ws) ∧
        (Parser.ofTokens ts).query.1 = .error f ∧ e = .parse f := by
  rw [check]
  cases tokenize text mode with
  | error f => simp [eq_comm]
  | ok p =>
    obtain ⟨ts, vs⟩ := p
    cases hquery : (Parser.ofTokens ts).query with
    | mk outcome rest => cases outcome <;> simp [hquery, eq_comm]

theorem check_of_tokenize {ts : List Token} {ws : List LexWarning}
    (h : tokenize text mode = .ok (ts, ws)) :
    check text mode = ((Parser.ofTokens ts).query.1.mapError .parse).map (·, ws) := by
  rw [check, h]
  cases hquery : (Parser.ofTokens ts).query with
  | mk outcome rest =>
    simp only [hquery]
    cases outcome <;> rfl

/-- What a text is parsed as rests with its tokens. -/
theorem parse_of_tokenize {ts : List Token} {ws : List LexWarning}
    (h : tokenize text mode = .ok (ts, ws)) :
    parse text mode = (Parser.ofTokens ts).query.1.mapError .parse := by
  rw [parse, check_of_tokenize h]
  cases (Parser.ofTokens ts).query.1 <;> rfl

theorem parse_eq_ok_iff_check {q : Query} :
    parse text mode = .ok q ↔ ∃ ws, check text mode = .ok (q, ws) := by
  rw [parse]
  cases check text mode with
  | error e => simp [Except.map]
  | ok p =>
    obtain ⟨r, ws⟩ := p
    simp [Except.map]

theorem parse_eq_error_iff {e : SyntaxError} :
    parse text mode = .error e ↔ check text mode = .error e := by
  rw [parse]
  cases check text mode <;> simp [Except.map]

theorem parse_eq_ok_iff {q : Query} :
    parse text mode = .ok q ↔
      ∃ ts ws, tokenize text mode = .ok (ts, ws) ∧ (Parser.ofTokens ts).query.1 = .ok q := by
  rw [parse_eq_ok_iff_check]
  simp only [check_eq_ok_iff]
  exact exists_comm

theorem parse_eq_parse_error_iff {e : ParseError} :
    parse text mode = .error (.parse e) ↔
      ∃ ts ws, tokenize text mode = .ok (ts, ws) ∧ (Parser.ofTokens ts).query.1 = .error e := by
  rw [parse_eq_error_iff, check_eq_error_iff]
  simp

end Query
end Introspect
