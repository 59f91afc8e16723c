import Introspect.Proofs.Derivation

/-!
Well-formed queries: those that a text can stand for. Whatever a text is parsed as is one of them.
-/
namespace Introspect

/-- A word that is no keyword, whatever its case. -/
structure IsName (s : String) : Prop where
  start : ∃ c ∈ s.toList.head?, startsWord c = true
  run : ∀ c ∈ s.toList, inWord c = true
  free : ∀ k : Keyword, Text.upperAscii? s.toList ≠ some k.spelling.toList

/-- A literal that can be written: there is no sign, no infinity and no way to write both quotes. -/
def Literal.Writable : Literal → Prop
  | integer n => 0 ≤ n.toInt
  | float x => ∃ rank, x = .finite false rank
  | text s => '"' ∉ s.toList ∨ '\'' ∉ s.toList

/-- Pairs that can be written. -/
def Bindings.Writable (b : Bindings Literal) : Prop :=
  ∀ p ∈ b.pairs, IsName p.1 ∧ p.2.Writable

structure Query.WellFormed (q : Query) : Prop where
  fields_ne_nil : q.fields ≠ []
  fields : ∀ f ∈ q.fields, IsName f
  source : IsName q.source
  filter : q.filter.Writable
  options : q.options.Writable
  constraints : q.constraints.Writable

theorem floatOf_writable {whole : List Char} {fraction : Option (List Char)}
    (h : (Lexeme.floatOf whole fraction).isFinite = true) :
    (Literal.float (Lexeme.floatOf whole fraction)).Writable := by
  rw [Lexeme.floatOf, Decimal.toBinary64, Binary64.ofRatio] at h ⊢
  split at h
  · rename_i hlt
    rw [dif_pos hlt]
    exact ⟨_, rfl⟩
  · cases h

namespace Lexeme

variable {mode : Mode} {cs : List Char} {t : Token}

theorem isName_of_munches {word rest : List Char} (h : (Lexeme.word word).Munches rest)
    (hkind : wordKind word = .identifier) : IsName (String.ofList word) := by
  cases h with
  | @word c cs _ start inside edge =>
    refine ⟨?_, ?_, ?_⟩
    · rw [String.toList_ofList]
      exact ⟨c, rfl, start⟩
    · rw [String.toList_ofList]
      exact List.forall_mem_cons.2 ⟨inWord_of_startsWord start, inside⟩
    · rw [String.toList_ofList]
      exact wordKind_eq_identifier_iff.1 hkind

/-- Names in a text are names. -/
theorem ReadOff.isName (h : ReadOff mode cs t) (hkind : t.kind = .identifier) {name : String}
    (hname : t.lexeme? = some name) : IsName name := by
  obtain ⟨before, lexeme, rest, -, hmunch, hgives⟩ := h
  rcases hgives.reads with hreads | ⟨w, hreads⟩
  · cases hreads with
    | word chars =>
      cases hname
      exact isName_of_munches hmunch hkind
    | _ => cases hkind
  · cases hreads <;> cases hkind

theorem text_writable {quote : Char} {body : List Char} (hquote : IsQuote quote)
    (hbody : quote ∉ body) : (Literal.text (String.ofList body)).Writable := by
  rw [Literal.Writable, String.toList_ofList]
  rcases hquote with rfl | rfl
  · exact .inl hbody
  · exact .inr hbody

/-- Literals in a text can be written. -/
theorem ReadOff.writable (h : ReadOff mode cs t) {l : Literal} (hl : t.literal? = some l) :
    l.Writable := by
  obtain ⟨before, lexeme, rest, -, hmunch, hgives⟩ := h
  rcases hgives.reads with hreads | ⟨w, hreads⟩
  · cases hreads with
    | integer small =>
      cases hl
      rw [Literal.Writable, Int64.toInt_ofNat_of_lt small]
      exact Int.natCast_nonneg _
    | float finite =>
      cases hl
      exact floatOf_writable finite
    | closed quote body =>
      cases hl
      cases hmunch with
      | closed opening inside => exact text_writable opening inside
    | _ => cases hl
  · cases hreads with
    | overflow large finite =>
      cases hl
      exact floatOf_writable finite
    | unclosed quote body =>
      cases hl
      cases hmunch with
      | unclosed opening inside => exact text_writable opening inside

end Lexeme
namespace Grammar

variable {mode : Mode} {cs : List Char}

theorem Name.isName {n : Name} (h : Lexeme.ReadOff mode cs n.token) : IsName n.text :=
  h.isName n.isIdentifier (Option.some_get n.carries).symm

theorem Value.writable {v : Value} (h : Lexeme.ReadOff mode cs v.token) : v.literal.Writable :=
  h.writable (Option.some_get v.carries).symm

theorem mem_of_lookup {pairs : List (String × Literal)} {name : String} {l : Literal}
    (h : pairs.lookup name = some l) : (name, l) ∈ pairs := by
  induction pairs with
  | nil => cases h
  | cons p pairs ih =>
    rw [Bindings.lookup_pair] at h
    split at h
    · rename_i hname
      cases h
      rw [hname]
      exact List.mem_cons_self
    · exact List.mem_cons_of_mem p (ih h)

theorem Pairs.mem_tokens {k : Keyword} {ps : Pairs k} {p : Pair} (h : p ∈ ps.first :: ps.others) :
    p.name.token ∈ ps.tokens ∧ p.value.token ∈ ps.tokens := by
  have hsub : p.tokens ⊆ ps.tokens := by
    intro t ht
    rw [Pairs.tokens]
    apply List.mem_cons_of_mem
    rw [← List.flatMap_cons]
    exact List.mem_flatMap.2 ⟨p, h, ht⟩
  exact ⟨hsub (by simp [Pair.tokens]), hsub (by simp [Pair.tokens])⟩

theorem writable_of_bindsLast {k : Keyword} {b : Bindings Literal} {clause : Option (Pairs k)}
    (h : BindsLast b (bindingsOf clause))
    (hread : ∀ t ∈ optional Pairs.tokens clause, Lexeme.ReadOff mode cs t) : b.Writable := by
  intro p hp
  rw [Bindings.mem_pairs_iff, h] at hp
  have hmem := List.mem_reverse.1 (mem_of_lookup hp)
  cases clause with
  | none => cases hmem
  | some ps =>
    obtain ⟨pair, hpair, heq⟩ := List.mem_map.1 hmem
    obtain ⟨hname, hvalue⟩ := Pairs.mem_tokens hpair
    rw [← congrArg Prod.fst heq, ← congrArg Prod.snd heq]
    exact ⟨Name.isName (hread _ hname), Value.writable (hread _ hvalue)⟩

theorem Sentence.mem_tokens {s : Sentence} {t : Token}
    (h : t = s.first.token ∨ t = s.source.token ∨ t ∈ s.others.flatMap Field.tokens ∨
      t ∈ optional Pairs.tokens s.filter ∨ t ∈ optional Pairs.tokens s.options ∨
      t ∈ optional Pairs.tokens s.constraints) : t ∈ s.tokens := by
  simp only [Sentence.tokens, List.mem_cons, List.mem_append]
  tauto

/-- A sentence whose tokens are read off a text stands for a well-formed query. -/
theorem Sentence.wellFormed {s : Sentence} {q : Query} (h : s.Denotes q)
    (hread : ∀ t ∈ s.tokens, Lexeme.ReadOff mode cs t) : q.WellFormed := by
  refine ⟨?_, ?_, ?_, ?_, ?_, ?_⟩
  · rw [h.fields]
    exact List.cons_ne_nil _ _
  · rw [h.fields, List.forall_mem_cons]
    constructor
    · exact Name.isName (hread _ (mem_tokens (.inl rfl)))
    · intro name hname
      obtain ⟨f, hf, rfl⟩ := List.mem_map.1 hname
      have hmem : f.name.token ∈ s.others.flatMap Field.tokens :=
        List.mem_flatMap.2 ⟨f, hf, by simp [Field.tokens]⟩
      exact Name.isName (hread _ (mem_tokens (.inr (.inr (.inl hmem)))))
  · rw [h.source]
    exact Name.isName (hread _ (mem_tokens (.inr (.inl rfl))))
  · apply writable_of_bindsLast h.filter
    intro t ht
    exact hread t (mem_tokens (.inr (.inr (.inr (.inl ht)))))
  · apply writable_of_bindsLast h.options
    intro t ht
    exact hread t (mem_tokens (.inr (.inr (.inr (.inr (.inl ht))))))
  · apply writable_of_bindsLast h.constraints
    intro t ht
    exact hread t (mem_tokens (.inr (.inr (.inr (.inr (.inr ht))))))

/-- Whatever a text is parsed as is well formed. -/
theorem wellFormed_of_parse {text : String} {mode : Mode} {q : Query}
    (h : Query.parse text mode = .ok q) : q.WellFormed := by
  obtain ⟨ts, ws, htokens, s, e, hts, he, hdenotes⟩ := parse_eq_ok_iff_sentence.1 h
  obtain ⟨body, rfl, hbody⟩ := readOff_of_tokenize htokens
  obtain ⟨rfl, -⟩ := List.append_inj' hts rfl
  exact Sentence.wellFormed hdenotes hbody

end Grammar
end Introspect
