import Introspect.Proofs.Reading
import Introspect.Proofs.Scan

/-!
The derivation behind a run: a run from the start to the end passes a sentence, and no other tree
derives its tokens. So the parser accepts the grammar and nothing else.
-/
namespace Introspect

namespace Grammar

open Stage

variable {stage : Stage} {q r : Query} {ts rest rest' : List Token} {c : Clause} {t : Token}

/-- Tokens that lead from a stage to the end of a query. -/
def Finishes (stage : Stage) (ts : List Token) : Prop :=
  ∃ q r, stage.run q ts = some (.finish, r)

theorem Finishes.step (h : Finishes stage ts) (hstage : stage ≠ .finish) :
    ∃ t rest q m, ts = t :: rest ∧ stage.next? q t = some m ∧ Finishes m.1 rest := by
  obtain ⟨q, r, hrun⟩ := h
  cases ts with
  | nil =>
    cases hrun
    exact absurd rfl hstage
  | cons t rest =>
    obtain ⟨m, hnext, hrest⟩ := Option.bind_eq_some_iff.1 hrun
    exact ⟨t, rest, q, m, rfl, hnext, m.2, r, hrest⟩

theorem Finishes.eq_nil (h : Finishes .finish ts) : ts = [] := by
  obtain ⟨q, r, hrun⟩ := h
  cases ts with
  | nil => rfl
  | cons t rest => cases hrun

theorem Finishes.terminal {kind : TokenKind} {after : Stage} {f : Query → Token → Query}
    (hnext : ∀ q t, stage.next? q t = if t.kind = kind then some (after, f q t) else none)
    (hstage : stage ≠ .finish) (h : Finishes stage ts) :
    ∃ (k : Terminal kind) (rest : List Token), ts = k.token :: rest ∧ Finishes after rest := by
  obtain ⟨t, rest, q, m, rfl, hm, hrest⟩ := h.step hstage
  rw [hnext, Option.ite_none_right_eq_some] at hm
  obtain ⟨hkind, hm⟩ := hm
  cases hm
  exact ⟨⟨t, hkind⟩, rest, rfl, hrest⟩

theorem exists_name {name : String} (h : t.name? = some name) : ∃ n : Name, n.token = t := by
  rw [Token.name?] at h
  split at h
  · rename_i hkind
    exact ⟨⟨t, hkind, by rw [h]; rfl⟩, rfl⟩
  · cases h

theorem exists_value {l : Literal} (h : t.value? = some l) : ∃ v : Value, v.token = t := by
  rw [Token.value?] at h
  split at h
  · rename_i hkind
    exact ⟨⟨t, hkind, by rw [h]; rfl⟩, rfl⟩
  · cases h

theorem Finishes.name {after : Stage} {f : Query → String → Query}
    (hnext : ∀ q t, stage.next? q t = t.name?.map fun name => (after, f q name))
    (hstage : stage ≠ .finish) (h : Finishes stage ts) :
    ∃ (n : Name) (rest : List Token), ts = n.token :: rest ∧ Finishes after rest := by
  obtain ⟨t, rest, q, m, rfl, hm, hrest⟩ := h.step hstage
  rw [hnext] at hm
  obtain ⟨name, hname, rfl⟩ := Option.map_eq_some_iff.1 hm
  obtain ⟨n, rfl⟩ := exists_name hname
  exact ⟨n, rest, rfl, hrest⟩

theorem finishes_field (h : Finishes field ts) :
    ∃ (n : Name) (rest : List Token), ts = n.token :: rest ∧ Finishes fieldEnd rest :=
  h.name (fun _ _ => rfl) (by decide)

theorem finishes_fields (h : Finishes fieldEnd ts) :
    ∃ (fs : List Field) (k : Terminal (.keyword .source)) (rest : List Token),
      ts = fs.flatMap Field.tokens ++ k.token :: rest ∧ Finishes source rest := by
  -- Each field takes two tokens, so the induction is on how many are left.
  induction hlength : ts.length using Nat.strong_induction_on generalizing ts with
  | _ n' ih =>
    obtain ⟨t, rest, q, m, rfl, hm, hrest⟩ := h.step (by decide)
    rw [next?] at hm
    split at hm
    · rename_i hcomma
      cases hm
      obtain ⟨n, rest, rfl, hend⟩ := finishes_field hrest
      have hshorter : rest.length < n' := by
        simp only [← hlength, List.length_cons]
        omega
      obtain ⟨fs, k, rest, rfl, hsource⟩ := ih _ hshorter hend rfl
      exact ⟨⟨⟨t, hcomma⟩, n⟩ :: fs, k, rest, rfl, hsource⟩
    · split at hm
      · rename_i hfrom
        cases hm
        exact ⟨[], ⟨t, hfrom⟩, rest, rfl, hrest⟩
      · cases hm

theorem finishes_key (h : Finishes (key c) ts) :
    ∃ (p : Pair) (rest : List Token), ts = p.tokens ++ rest ∧ Finishes (pairEnd c) rest := by
  obtain ⟨t, rest, q, m, rfl, hm, hequals⟩ := h.step (by simp)
  obtain ⟨name, hname, rfl⟩ := Option.map_eq_some_iff.1 hm
  obtain ⟨n, rfl⟩ := exists_name hname
  obtain ⟨e, rest, rfl, hvalue⟩ := hequals.terminal (fun _ _ => rfl) (by simp)
  obtain ⟨t, rest, q, m, rfl, hm, hend⟩ := hvalue.step (by simp)
  obtain ⟨l, hl, rfl⟩ := Option.map_eq_some_iff.1 hm
  obtain ⟨v, rfl⟩ := exists_value hl
  exact ⟨⟨n, e, v⟩, rest, rfl, hend⟩

/-- Behind a pair the name of another one is read as behind the keyword. -/
theorem finishes_pairEnd (h : Finishes (pairEnd c) ts) :
    Finishes (key c) ts ∨ Finishes (clauses c.later) ts := by
  obtain ⟨q, r, hrun⟩ := h
  cases ts with
  | nil => cases hrun
  | cons t rest =>
    rw [run_cons, next?] at hrun
    split at hrun
    · exact .inl ⟨q, r, hrun⟩
    · exact .inr ⟨q, r, hrun⟩

theorem finishes_pairs (h : Finishes (pairEnd c) ts) :
    ∃ (ps : List Pair) (rest : List Token), ts = ps.flatMap Pair.tokens ++ rest ∧
      Finishes (clauses c.later) rest := by
  induction hlength : ts.length using Nat.strong_induction_on generalizing ts with
  | _ n ih =>
    rcases finishes_pairEnd h with hkey | hlater
    · obtain ⟨p, rest, rfl, hend⟩ := finishes_key hkey
      have hshorter : rest.length < n := by
        rw [← hlength, List.length_append]
        simp [Pair.tokens]
      obtain ⟨ps, rest, rfl, hlater⟩ := ih _ hshorter hend rfl
      exact ⟨p :: ps, rest, by simp, hlater⟩
    · exact ⟨[], ts, rfl, hlater⟩

theorem finishes_clauses {allowed : List Clause} (h : Finishes (clauses (c :: allowed)) ts) :
    (∃ (k : Terminal (.keyword c.keyword)) (rest : List Token),
      ts = k.token :: rest ∧ Finishes (inside c) rest) ∨ Finishes (clauses allowed) ts := by
  obtain ⟨q, r, hrun⟩ := h
  cases ts with
  | nil => cases hrun
  | cons t rest =>
    rw [run_cons, next?, enter?_cons] at hrun
    split at hrun
    · rename_i hkind
      exact .inl ⟨⟨t, hkind⟩, rest, rfl, q, r, hrun⟩
    · exact .inr ⟨q, r, hrun⟩

theorem finishes_clause_pairs (hc : c ≠ .depth) (h : Finishes (clauses (c :: c.later)) ts) :
    ∃ (p : Option (Pairs c.keyword)) (rest : List Token),
      ts = optional Pairs.tokens p ++ rest ∧ Finishes (clauses c.later) rest := by
  rcases finishes_clauses h with ⟨k, rest, rfl, hinside⟩ | hlater
  · rw [inside_of_ne_depth hc] at hinside
    obtain ⟨p, rest, rfl, hend⟩ := finishes_key hinside
    obtain ⟨ps, rest, rfl, hlater⟩ := finishes_pairs hend
    exact ⟨some ⟨k, p, ps⟩, rest, by simp [optional, Pairs.tokens], hlater⟩
  · exact ⟨none, ts, rfl, hlater⟩

theorem finishes_clause_depth (h : Finishes (clauses (.depth :: Clause.depth.later)) ts) :
    ∃ (d : Option Depth) (rest : List Token),
      ts = optional Depth.tokens d ++ rest ∧ Finishes (clauses Clause.depth.later) rest := by
  rcases finishes_clauses h with ⟨k, rest, rfl, hinside⟩ | hlater
  · obtain ⟨n, rest, rfl, hlater⟩ := hinside.terminal (fun _ _ => rfl) (by decide)
    exact ⟨some ⟨k, n⟩, rest, rfl, hlater⟩
  · exact ⟨none, ts, rfl, hlater⟩

theorem finishes_close (h : Finishes (clauses []) ts) :
    ∃ k : Terminal (.mark .closeBrace), ts = [k.token] := by
  have hnext (q : Query) (t : Token) : (clauses []).next? q t =
      if t.kind = .mark .closeBrace then some (.finish, q) else none := by
    by_cases hkind : t.kind = .mark .closeBrace <;> simp [next?, enter?, hkind]
  obtain ⟨k, rest, rfl, hfinish⟩ := h.terminal hnext (by simp)
  rw [hfinish.eq_nil]
  exact ⟨k, rfl⟩

/-- A run from the start to the end passes a sentence. -/
theorem finishes_start (h : Finishes .start ts) : ∃ s : Sentence, ts = s.tokens := by
  obtain ⟨introspect, ts, rfl, hopening⟩ := h.terminal (fun _ _ => rfl) (by decide)
  obtain ⟨openBrace, ts, rfl, hselect⟩ := hopening.terminal (fun _ _ => rfl) (by decide)
  obtain ⟨select, ts, rfl, hfield⟩ := hselect.terminal (fun _ _ => rfl) (by decide)
  obtain ⟨first, ts, rfl, hend⟩ := finishes_field hfield
  obtain ⟨others, from_, ts, rfl, hsource⟩ := finishes_fields hend
  obtain ⟨source, ts, rfl, hfilter⟩ := hsource.name (fun _ _ => rfl) (by decide)
  obtain ⟨filter, ts, rfl, hdepth⟩ := finishes_clause_pairs (c := .filter) (by decide) hfilter
  obtain ⟨depth, ts, rfl, hoptions⟩ := finishes_clause_depth hdepth
  obtain ⟨options, ts, rfl, hconstraint⟩ :=
    finishes_clause_pairs (c := .options) (by decide) hoptions
  obtain ⟨constraints, ts, rfl, hclose⟩ :=
    finishes_clause_pairs (c := .constraint) (by decide) hconstraint
  obtain ⟨closeBrace, rfl⟩ := finishes_close hclose
  exact ⟨⟨introspect, openBrace, select, first, others, from_, source, filter, depth, options,
    constraints, closeBrace⟩, rfl⟩

/-- The runs from the start to the end are those over sentences. -/
theorem run_eq_finish_iff {q : Query} :
    Stage.start.run Parser.blank ts = some (.finish, q) ↔
      ∃ s : Sentence, ts = s.tokens ∧ s.Denotes q := by
  constructor
  · intro hrun
    obtain ⟨s, rfl⟩ := finishes_start ⟨_, _, hrun⟩
    rw [run_sentence] at hrun
    cases hrun
    exact ⟨s, rfl, Sentence.denotes_iff.2 rfl⟩
  · rintro ⟨s, rfl, hdenotes⟩
    rw [run_sentence, Sentence.denotes_iff.1 hdenotes]

theorem query_eq_ok_iff_sentence {q : Query} :
    (Parser.ofTokens ts).query.1 = .ok q ↔
      ∃ (s : Sentence) (rest : List Token), ts = s.tokens ++ rest ∧ Parser.Ends rest ∧
        s.Denotes q := by
  rw [Parser.query_eq_ok_iff]
  constructor
  · rintro ⟨front, back, rfl, hrun, hends⟩
    obtain ⟨s, rfl, hdenotes⟩ := run_eq_finish_iff.1 hrun
    exact ⟨s, back, rfl, hends, hdenotes⟩
  · rintro ⟨s, rest, rfl, hends, hdenotes⟩
    exact ⟨s.tokens, rest, rfl, run_eq_finish_iff.2 ⟨s, rfl, hdenotes⟩, hends⟩

/-- Where only the last token is an end of input, a sentence in front of one, or in front of
nothing, is all that there is. -/
theorem Sentence.rest_eq {s : Sentence} {body : List Token} {e : Token}
    (hbody : ∀ t ∈ body, t.kind ≠ .eof) (he : e.kind = .eof)
    (h : body ++ [e] = s.tokens ++ rest) (hends : Parser.Ends rest) : rest = [e] := by
  have htokens := run_not_eof (run_sentence s)
  cases rest with
  | nil =>
    rw [List.append_nil] at h
    exact absurd he (htokens e (h ▸ List.mem_append_right body List.mem_cons_self))
  | cons u rest =>
    rcases List.eq_nil_or_concat rest with rfl | ⟨front, last, rfl⟩
    · exact (List.append_inj' h rfl).2.symm
    · have hfront : body ++ [e] = (s.tokens ++ u :: front) ++ [last] := by simp [h]
      have hu : u ∈ body := by simp [(List.append_inj' hfront rfl).1]
      exact absurd (hends u rfl) (hbody u hu)

/-! No two trees derive the same tokens, whatever stands behind them. -/

theorem Terminal.unique {kind : TokenKind} {k k' : Terminal kind}
    (h : k.token :: rest = k'.token :: rest') : k = k' ∧ rest = rest' := by
  obtain ⟨htoken, hrest⟩ := List.cons.inj h
  exact ⟨Terminal.ext htoken, hrest⟩

theorem Name.unique {n n' : Name} (h : n.token :: rest = n'.token :: rest') :
    n = n' ∧ rest = rest' := by
  obtain ⟨htoken, hrest⟩ := List.cons.inj h
  exact ⟨Name.ext htoken, hrest⟩

theorem Field.unique {f f' : Field} (h : f.tokens ++ rest = f'.tokens ++ rest') :
    f = f' ∧ rest = rest' := by
  obtain ⟨hcomma, h⟩ := Terminal.unique h
  obtain ⟨hname, h⟩ := Name.unique h
  exact ⟨Field.ext hcomma hname, h⟩

theorem Pair.unique {p p' : Pair} (h : p.tokens ++ rest = p'.tokens ++ rest') :
    p = p' ∧ rest = rest' := by
  obtain ⟨hname, h⟩ := Name.unique h
  obtain ⟨hequals, h⟩ := Terminal.unique h
  obtain ⟨hvalue, h⟩ := List.cons.inj h
  exact ⟨Pair.ext hname hequals (Value.ext hvalue), h⟩

theorem Depth.unique {d d' : Depth} (h : d.tokens ++ rest = d'.tokens ++ rest') :
    d = d' ∧ rest = rest' := by
  obtain ⟨hkeyword, h⟩ := Terminal.unique h
  obtain ⟨hnumber, h⟩ := Terminal.unique h
  exact ⟨Depth.ext hkeyword hnumber, h⟩

section Repetition
variable {α : Type u} {tokens : α → List Token} {kind : TokenKind}
  (first : ∀ a, ∃ t ts, tokens a = t :: ts ∧ t.kind = kind)
  (edge : ∀ t ∈ rest.head?, t.kind ≠ kind) (edge' : ∀ t ∈ rest'.head?, t.kind ≠ kind)
include first

theorem first_ne_edge (edge : ∀ t ∈ rest.head?, t.kind ≠ kind) (a : α) (ts : List Token) :
    tokens a ++ ts ≠ rest := by
  obtain ⟨t, more, ha, hkind⟩ := first a
  rintro rfl
  exact edge t (by simp [ha]) hkind

include edge edge'

/-- Where a part may be left out, its first token tells whether it is. -/
theorem optional_unique {o o' : Option α}
    (unique : ∀ a b, tokens a ++ rest = tokens b ++ rest' → a = b ∧ rest = rest')
    (h : optional tokens o ++ rest = optional tokens o' ++ rest') : o = o' ∧ rest = rest' := by
  cases o with
  | none =>
    cases o' with
    | none => exact ⟨rfl, h⟩
    | some b => exact absurd h.symm (first_ne_edge first edge b rest')
  | some a =>
    cases o' with
    | none => exact absurd h (first_ne_edge first edge' a rest)
    | some b =>
      obtain ⟨rfl, hrest⟩ := unique a b h
      exact ⟨rfl, hrest⟩

/-- Where parts may be repeated, the first token of each tells whether there is one more. -/
theorem flatMap_unique {as bs : List α}
    (unique : ∀ a b r r', tokens a ++ r = tokens b ++ r' → a = b ∧ r = r')
    (h : as.flatMap tokens ++ rest = bs.flatMap tokens ++ rest') : as = bs ∧ rest = rest' := by
  induction as generalizing bs with
  | nil =>
    cases bs with
    | nil => exact ⟨rfl, h⟩
    | cons b bs =>
      rw [List.flatMap_cons, List.append_assoc] at h
      exact absurd h.symm (first_ne_edge first edge b _)
  | cons a as ih =>
    rw [List.flatMap_cons, List.append_assoc] at h
    cases bs with
    | nil => exact absurd h (first_ne_edge first edge' a _)
    | cons b bs =>
      rw [List.flatMap_cons, List.append_assoc] at h
      obtain ⟨rfl, hmore⟩ := unique a b _ _ h
      obtain ⟨rfl, hrest⟩ := ih hmore
      exact ⟨rfl, hrest⟩

end Repetition

theorem Pairs.unique {k : Keyword} {p p' : Pairs k} {allowed allowed' : List Clause}
    (hrest : Opens allowed rest) (hrest' : Opens allowed' rest')
    (h : p.tokens ++ rest = p'.tokens ++ rest') : p = p' ∧ rest = rest' := by
  simp only [Pairs.tokens, List.cons_append, List.append_assoc] at h
  obtain ⟨hkeyword, h⟩ := Terminal.unique h
  obtain ⟨hfirst, h⟩ := Pair.unique h
  obtain ⟨hothers, h⟩ := flatMap_unique (fun p => ⟨_, _, rfl, p.name.isIdentifier⟩)
    hrest.not_identifier hrest'.not_identifier (fun _ _ _ _ => Pair.unique) h
  exact ⟨Pairs.ext hkeyword hfirst hothers, h⟩

theorem clause_pairs_unique {p p' : Option (Pairs c.keyword)} (hrest : Opens c.later rest)
    (hrest' : Opens c.later rest')
    (h : optional Pairs.tokens p ++ rest = optional Pairs.tokens p' ++ rest') :
    p = p' ∧ rest = rest' :=
  optional_unique (fun p => ⟨_, _, rfl, p.keyword.isKind⟩) (hrest.not_keyword (later_not_mem c))
    (hrest'.not_keyword (later_not_mem c)) (fun _ _ => Pairs.unique hrest hrest') h

theorem clause_depth_unique {d d' : Option Depth} (hrest : Opens Clause.depth.later rest)
    (hrest' : Opens Clause.depth.later rest')
    (h : optional Depth.tokens d ++ rest = optional Depth.tokens d' ++ rest') :
    d = d' ∧ rest = rest' :=
  optional_unique (fun d => ⟨_, _, rfl, d.keyword.isKind⟩)
    (hrest.not_keyword (later_not_mem .depth)) (hrest'.not_keyword (later_not_mem .depth))
    (fun _ _ => Depth.unique) h

theorem Sentence.unique {s s' : Sentence} (h : s.tokens ++ rest = s'.tokens ++ rest') :
    s = s' ∧ rest = rest' := by
  have hclose (s : Sentence) (rest : List Token) : Opens [] (s.closeBrace.token :: rest) :=
    .close s.closeBrace.isKind
  have hconstraints (s : Sentence) (rest : List Token) :=
    opens_pairs (c := .constraint) s.constraints (hclose s rest)
  have hoptions (s : Sentence) (rest : List Token) :=
    opens_pairs (c := .options) s.options (hconstraints s rest)
  have hdepth (s : Sentence) (rest : List Token) := opens_depth s.depth (hoptions s rest)
  simp only [Sentence.tokens, List.cons_append, List.append_assoc, List.nil_append] at h
  obtain ⟨hintrospect, h⟩ := Terminal.unique h
  obtain ⟨hopen, h⟩ := Terminal.unique h
  obtain ⟨hselect, h⟩ := Terminal.unique h
  obtain ⟨hfirst, h⟩ := Name.unique h
  obtain ⟨hothers, h⟩ := flatMap_unique (fun f : Field => ⟨_, _, rfl, f.comma.isKind⟩)
    (by simp [s.from_.isKind]) (by simp [s'.from_.isKind]) (fun _ _ _ _ => Field.unique) h
  obtain ⟨hfrom, h⟩ := Terminal.unique h
  obtain ⟨hsource, h⟩ := Name.unique h
  obtain ⟨hf, h⟩ := clause_pairs_unique (c := .filter) (hdepth s rest) (hdepth s' rest') h
  obtain ⟨hd, h⟩ := clause_depth_unique (hoptions s rest) (hoptions s' rest') h
  obtain ⟨ho, h⟩ :=
    clause_pairs_unique (c := .options) (hconstraints s rest) (hconstraints s' rest') h
  obtain ⟨hc, h⟩ := clause_pairs_unique (c := .constraint) (hclose s rest) (hclose s' rest') h
  obtain ⟨hbrace, h⟩ := Terminal.unique h
  exact ⟨Sentence.ext hintrospect hopen hselect hfirst hothers hfrom hsource hf hd ho hc hbrace, h⟩

/-- A text is a query if all its tokens are a sentence. -/
theorem parse_eq_ok_iff_sentence {text : String} {mode : Mode} {q : Query} :
    Query.parse text mode = .ok q ↔
      ∃ ts ws, tokenize text mode = .ok (ts, ws) ∧
        ∃ (s : Sentence) (e : Token), ts = s.tokens ++ [e] ∧ e.kind = .eof ∧ s.Denotes q := by
  rw [Query.parse_eq_ok_iff]
  constructor
  · rintro ⟨ts, ws, htokens, hquery⟩
    obtain ⟨s, rest, hts, hends, hdenotes⟩ := query_eq_ok_iff_sentence.1 hquery
    obtain ⟨body, hbody, hread⟩ := readOff_of_tokenize htokens
    have hrest := Sentence.rest_eq (fun t ht => (hread t ht).ne_eof) rfl (hbody ▸ hts) hends
    exact ⟨ts, ws, htokens, s, _, hrest ▸ hts, rfl, hdenotes⟩
  · rintro ⟨ts, ws, htokens, s, e, rfl, he, hdenotes⟩
    refine ⟨_, ws, htokens, query_eq_ok_iff_sentence.2 ⟨s, [e], rfl, ?_, hdenotes⟩⟩
    simp [Parser.Ends, he]

/-- The parser accepts the sentences, in front of an end of input or of nothing, and builds what
their trees stand for. There is one tree at most, and a text is a query if all its tokens are a
sentence. -/
theorem parser_accepts_sentences :
    (∀ ts q, (Parser.ofTokens ts).query.1 = .ok q ↔
      ∃ (s : Sentence) (rest : List Token), ts = s.tokens ++ rest ∧ Parser.Ends rest ∧
        s.Denotes q) ∧
    (∀ (s s' : Sentence) (rest rest' : List Token), s.tokens ++ rest = s'.tokens ++ rest' →
      s = s' ∧ rest = rest') ∧
    (∀ s : Sentence, ∃! q, s.Denotes q) ∧
    ∀ text mode q, Query.parse text mode = .ok q ↔
      ∃ ts ws, tokenize text mode = .ok (ts, ws) ∧
        ∃ (s : Sentence) (e : Token), ts = s.tokens ++ [e] ∧ e.kind = .eof ∧ s.Denotes q := by
  refine ⟨?_, ?_, ?_, ?_⟩
  · intro ts q
    exact query_eq_ok_iff_sentence
  · intro s s' rest rest'
    exact Sentence.unique
  · intro s
    exact ⟨s.query, Sentence.denotes_iff.2 rfl, fun q => Sentence.denotes_iff.1⟩
  · intro text mode q
    exact parse_eq_ok_iff_sentence

/-- Fields and keys given twice. -/
theorem parser_accepts_repetitions :
    ∃ ts ws,
      tokenize "introspect \x7b select a, b, a from s where k = 1 k = 'x' depth 3 \x7d" .strict =
        .ok (ts, ws) ∧
      ∃ (s : Sentence) (e : Token), ts = s.tokens ++ [e] ∧ e.kind = .eof ∧
        s.Denotes ⟨["a", "b", "a"], "s", .ofList [("k", .text "x")], 3, ∅, ∅⟩ :=
  (parser_accepts_sentences.2.2.2 _ _ _).1 (by decide +kernel)

end Grammar
end Introspect
