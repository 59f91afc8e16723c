import Introspect.Proofs.Numerals
import Introspect.Proofs.WellFormed

/-!
The text of a query is read back. It is written lexeme by lexeme, each in front of a space, a comma
or the end, so that none runs on into the next; the tokens that the lexemes are read as are those
of a sentence that stands for the query.
-/
namespace Introspect

/-- Tokens that differ in their positions at most. -/
def Token.Alike (t u : Token) : Prop :=
  t.kind = u.kind ∧ t.payload = u.payload

namespace Stage

variable {stage : Stage} {q : Query}

/-- The parser does not look at positions. -/
theorem next?_alike {t u : Token} (h : t.Alike u) : stage.next? q t = stage.next? q u := by
  obtain ⟨hkind, hpayload⟩ := h
  have hlexeme : t.lexeme? = u.lexeme? := by rw [Token.lexeme?, Token.lexeme?, hpayload]
  have hliteral : t.literal? = u.literal? := by rw [Token.literal?, Token.literal?, hpayload]
  have hname : t.name? = u.name? := by rw [Token.name?, Token.name?, hkind, hlexeme]
  have hvalue : t.value? = u.value? := by rw [Token.value?, Token.value?, hkind, hliteral]
  have hdepth : t.depth = u.depth := by rw [Token.depth, Token.depth, hliteral]
  cases stage <;> simp only [next?, hkind, hname, hvalue, hdepth]

theorem run_alike {ts us : List Token} (h : List.Forall₂ Token.Alike ts us) :
    stage.run q ts = stage.run q us := by
  induction h generalizing stage q with
  | nil => rfl
  | cons hfirst _ ih =>
    rw [run_cons, run_cons, next?_alike hfirst]
    congr
    funext m
    exact ih

end Stage

namespace Lexeme

/-- A lexeme that does not run on into a space, a comma or the end. -/
def Standalone (lexeme : Lexeme) : Prop :=
  ∀ rest : List Char, (∀ c ∈ rest.head?, c = ' ' ∨ c = ',') → lexeme.Munches rest

theorem standalone_word {cs : List Char} (start : ∃ c ∈ cs.head?, startsWord c = true)
    (run : ∀ c ∈ cs, inWord c = true) : (word cs).Standalone := by
  intro rest hrest
  obtain ⟨c, hc, hstart⟩ := start
  cases cs with
  | nil => cases hc
  | cons d cs =>
    cases hc
    refine .word hstart (List.forall_mem_cons.1 run).2 fun d hd => ?_
    rcases hrest d hd with rfl | rfl <;> decide

theorem standalone_whole {whole : List Char} (hne : whole ≠ [])
    (digits : ∀ c ∈ whole, c.isDigit = true) : (numeral whole none).Standalone := by
  intro rest hrest
  cases whole with
  | nil => exact absurd rfl hne
  | cons c cs =>
    refine .whole digits fun d hd => ?_
    rcases hrest d hd with rfl | rfl <;> decide

theorem standalone_point {whole fraction : List Char} (hne : whole ≠ [])
    (digits : ∀ c ∈ whole, c.isDigit = true) (places : ∀ c ∈ fraction, c.isDigit = true) :
    (numeral whole (some fraction)).Standalone := by
  intro rest hrest
  cases whole with
  | nil => exact absurd rfl hne
  | cons c cs =>
    refine .point digits places fun d hd => ?_
    rcases hrest d hd with rfl | rfl <;> decide

/-- Text that is read as given tokens, up to their positions, wherever it stands. -/
inductive Writes : List Char → List Token → Prop
  | nil : Writes [] []
  | spaced {lexeme : Lexeme} {t : Token} {cs : List Char} {ts : List Token}
      (alone : lexeme.Standalone)
      (reads : ∀ position, lexeme.read .strict position = .token { t with position })
      (more : Writes cs ts) : Writes (' ' :: (lexeme.chars ++ cs)) (t :: ts)
  | comma {position : Nat} {cs : List Char} {ts : List Token} (more : Writes cs ts) :
      Writes (',' :: cs) (⟨.mark .comma, .symbol ",", position⟩ :: ts)

theorem Writes.append {cs cs' : List Char} {ts ts' : List Token} (h : Writes cs ts)
    (h' : Writes cs' ts') : Writes (cs ++ cs') (ts ++ ts') := by
  induction h with
  | nil => exact h'
  | spaced alone reads more ih =>
    rw [List.cons_append, List.append_assoc]
    exact .spaced alone reads ih
  | comma more ih => exact .comma ih

theorem Writes.head {cs : List Char} {ts : List Token} (h : Writes cs ts) :
    ∀ c ∈ cs.head?, c = ' ' ∨ c = ',' := by
  cases h <;> simp

theorem Munches.solid {lexeme : Lexeme} {rest : List Char} {position : Nat} {t : Token}
    (h : lexeme.Munches rest) (reads : lexeme.read .strict position = .token t) :
    ∀ c ∈ lexeme.chars.head?, Text.isBlank c = false := by
  obtain ⟨c, cs, hchars, hforeign | hblank⟩ := h.exists_cons
  · subst hforeign
    cases reads
  · rw [hchars]
    simpa using hblank

/-- What is written is cut into its lexemes, and they are read as the tokens. -/
theorem Writes.readAll {cs : List Char} {ts : List Token} (h : Writes cs ts) (position stop : Nat) :
    ∃ found us, Splits position cs found ∧
      readAll .strict stop found = (.ok (us ++ [Token.eof stop]), []) ∧
      List.Forall₂ Token.Alike us ts := by
  induction h generalizing position with
  | nil => exact ⟨[], [], .blanks (by simp), rfl, .nil⟩
  | @spaced lexeme t cs ts alone reads more ih =>
    have hmunch := alone cs more.head
    obtain ⟨found, us, hsplits, hread, halike⟩ := ih (position + 1 + lexeme.chars.length)
    have hspaced : Splits position ([' '] ++ (lexeme.chars ++ cs))
        ((position + 1, lexeme) :: found) :=
      .lexeme (List.forall_mem_singleton.2 rfl) hmunch (hmunch.solid (reads 0)) hsplits
    refine ⟨_, { t with position := position + 1 } :: us, hspaced, ?_, .cons ⟨rfl, rfl⟩ halike⟩
    simp [Lexeme.readAll, reads, hread, Except.map]
  | @comma place cs ts more ih =>
    have hmunch : (Lexeme.mark .comma).Munches cs := .mark .comma cs
    have hcomma (position : Nat) : (Lexeme.mark .comma).read .strict position =
        .token ⟨.mark .comma, .symbol ",", position⟩ := rfl
    obtain ⟨found, us, hsplits, hread, halike⟩ := ih (position + 1)
    have hjoined : Splits position ([] ++ ([','] ++ cs)) ((position, .mark .comma) :: found) :=
      .lexeme (by simp) hmunch (hmunch.solid (hcomma 0)) hsplits
    refine ⟨_, ⟨.mark .comma, .symbol ",", position⟩ :: us, hjoined, ?_, .cons ⟨rfl, rfl⟩ halike⟩
    simp [Lexeme.readAll, hcomma, hread, Except.map]

theorem Writes.single {lexeme : Lexeme} {t : Token} (alone : lexeme.Standalone)
    (reads : ∀ position, lexeme.read .strict position = .token { t with position }) :
    Writes (' ' :: lexeme.chars) [t] := by
  have h := Writes.spaced alone reads .nil
  rwa [List.append_nil] at h

theorem writes_mark (m : Mark) :
    Writes [' ', m.char] [⟨.mark m, .symbol (String.singleton m.char), 0⟩] :=
  @Writes.single (.mark m) _ (fun rest _ => .mark m rest) fun _ => rfl

theorem writes_word {s : String} (start : ∃ c ∈ s.toList.head?, startsWord c = true)
    (run : ∀ c ∈ s.toList, inWord c = true) :
    Writes (' ' :: s.toList) [⟨wordKind s.toList, .symbol s, 0⟩] := by
  refine @Writes.single (.word s.toList) _ (standalone_word start run) fun position => ?_
  rw [read, String.ofList_toList]

theorem keyword_start (k : Keyword) : ∃ c ∈ k.spelling.toList.head?, startsWord c = true := by
  cases k <;> exact ⟨_, rfl, rfl⟩

theorem keyword_run (k : Keyword) : ∀ c ∈ k.spelling.toList, inWord c = true :=
  List.all_eq_true.1 (by cases k <;> rfl)

theorem wordKind_spelling (k : Keyword) : wordKind k.spelling.toList = .keyword k := by
  cases k <;> decide

theorem writes_keyword (k : Keyword) :
    Writes (' ' :: k.spelling.toList) [⟨.keyword k, .symbol k.spelling, 0⟩] := by
  have h := writes_word (keyword_start k) (keyword_run k)
  rwa [wordKind_spelling] at h

theorem writes_name {s : String} (h : IsName s) :
    Writes (' ' :: s.toList) [⟨.identifier, .symbol s, 0⟩] := by
  have hwrites := writes_word h.start h.run
  rwa [wordKind_eq_identifier_iff.2 h.free] at hwrites

/-- Numbers below 2 ^ 63 are written in their digits. -/
theorem writes_nat {n : Nat} (h : n < 0x8000000000000000) :
    Writes (' ' :: Nat.toDigits 10 n) [⟨.number, .literal (.integer (Int64.ofNat n)), 0⟩] := by
  have halone := standalone_whole (Nat.toDigits_ne_nil (n := n) (b := 10))
    fun c hc => isDigit_of_mem_toDigits hc
  refine @Writes.single (.numeral (Nat.toDigits 10 n) none) _ halone fun position => ?_
  rw [read, readNumeral, Nat.ofDigitChars_ten_toDigits, if_pos ⟨rfl, h⟩]

theorem writes_integer {n : Int64} (h : 0 ≤ n.toInt) :
    Writes (' ' :: n.toInt.repr.toList) [⟨.number, .literal (.integer n), 0⟩] := by
  obtain ⟨m, hm⟩ := Int.eq_ofNat_of_zero_le h
  have hlt : m < 0x8000000000000000 := by
    have := n.toInt_lt
    omega
  have hsame : Int64.ofNat m = n := by
    rw [← Int64.toInt_inj, Int64.toInt_ofNat_of_lt hlt, hm]
  have hwrites := writes_nat hlt
  rw [hsame, ← Nat.toList_repr] at hwrites
  rw [hm]
  exact hwrites

theorem writes_float (rank : Fin Binary64.finiteCount) :
    Writes (' ' :: (Literal.float (.finite false rank)).render.toList)
      [⟨.number, .literal (.float (.finite false rank)), 0⟩] := by
  obtain ⟨whole, fraction, htext, hne, hwhole, hfraction, hfloat⟩ := Binary64.exists_numeral rank
  rw [Literal.render, String.toList_ofList, htext]
  refine @Writes.single (.numeral whole (some fraction)) _ (standalone_point hne hwhole hfraction)
    fun position => ?_
  have hreads := readNumeral_reads .strict position whole (some fraction)
  rw [read]
  generalize readNumeral .strict position whole (some fraction) = reading at hreads ⊢
  cases hreads with
  | float finite => rw [hfloat]
  | infiniteFloat infinite =>
    rw [hfloat] at infinite
    cases infinite

/-- Of the two quotes, a text is written in one that does not occur in it. -/
theorem quoteFor_not_mem {s : String} (h : '"' ∉ s.toList ∨ '\'' ∉ s.toList) :
    IsQuote (Literal.quoteFor s) ∧ Literal.quoteFor s ∉ s.toList := by
  unfold Literal.quoteFor
  split
  · rename_i hmem
    exact ⟨.inr rfl, h.resolve_left fun hno => hno (by simpa using hmem)⟩
  · rename_i hno
    exact ⟨.inl rfl, by simpa using hno⟩

theorem writes_text {s : String} (h : '"' ∉ s.toList ∨ '\'' ∉ s.toList) :
    Writes (' ' :: (Literal.text s).render.toList) [⟨.string, .literal (.text s), 0⟩] := by
  obtain ⟨hquote, hno⟩ := quoteFor_not_mem h
  have hchars : (Literal.text s).render.toList =
      (quoted (Literal.quoteFor s) s.toList true).chars := by
    simp [Literal.render, chars]
  rw [hchars]
  refine Writes.single (fun rest _ => .closed hquote hno) fun position => ?_
  rw [read, String.ofList_toList]
  rfl

end Lexeme

namespace Grammar

open Lexeme

theorem exists_value_writes {l : Literal} (h : l.Writable) :
    ∃ v : Value, v.literal = l ∧ Writes (' ' :: l.render.toList) [v.token] := by
  cases l with
  | integer n => exact ⟨⟨⟨.number, .literal (.integer n), 0⟩, .inr rfl, rfl⟩, rfl, writes_integer h⟩
  | float x =>
    obtain ⟨rank, rfl⟩ := h
    exact ⟨⟨⟨.number, .literal (.float (.finite false rank)), 0⟩, .inr rfl, rfl⟩, rfl,
      writes_float rank⟩
  | text s => exact ⟨⟨⟨.string, .literal (.text s), 0⟩, .inl rfl, rfl⟩, rfl, writes_text h⟩

theorem exists_name_writes {s : String} (h : IsName s) :
    ∃ n : Name, n.text = s ∧ Writes (' ' :: s.toList) [n.token] :=
  ⟨⟨⟨.identifier, .symbol s, 0⟩, rfl, rfl⟩, rfl, writes_name h⟩

theorem exists_mark_writes (m : Mark) :
    ∃ k : Terminal (.mark m), Writes [' ', m.char] [k.token] :=
  ⟨⟨⟨.mark m, .symbol (String.singleton m.char), 0⟩, rfl⟩, writes_mark m⟩

theorem exists_keyword_writes (k : Keyword) :
    ∃ t : Terminal (.keyword k), Writes (' ' :: k.spelling.toList) [t.token] :=
  ⟨⟨⟨.keyword k, .symbol k.spelling, 0⟩, rfl⟩, writes_keyword k⟩

theorem exists_fields_writes {names : List String} (h : ∀ name ∈ names, IsName name) :
    ∃ fs : List Field, fs.map (·.name.text) = names ∧
      Writes (names.flatMap fun name => ',' :: ' ' :: name.toList) (fs.flatMap Field.tokens) := by
  induction names with
  | nil => exact ⟨[], rfl, .nil⟩
  | cons name names ih =>
    obtain ⟨hname, hnames⟩ := List.forall_mem_cons.1 h
    obtain ⟨n, htext, hwrites⟩ := exists_name_writes hname
    obtain ⟨fs, htexts, hmore⟩ := ih hnames
    refine ⟨⟨⟨⟨.mark .comma, .symbol ",", 0⟩, rfl⟩, n⟩ :: fs, ?_, ?_⟩
    · rw [List.map_cons, htext, htexts]
    · exact .comma (hwrites.append hmore)

/-- The text of a pair. -/
def pairText (p : String × Literal) : String :=
  " " ++ p.1 ++ " = " ++ p.2.render

theorem exists_pair_writes {p : String × Literal} (h : IsName p.1 ∧ p.2.Writable) :
    ∃ pair : Pair, (pair.name.text, pair.value.literal) = p ∧
      Writes (pairText p).toList pair.tokens := by
  obtain ⟨n, hname, hn⟩ := exists_name_writes h.1
  obtain ⟨e, he⟩ := exists_mark_writes .equals
  obtain ⟨v, hvalue, hv⟩ := exists_value_writes h.2
  refine ⟨⟨n, e, v⟩, Prod.ext hname hvalue, ?_⟩
  have hwrites := hn.append (he.append hv)
  have htext : (pairText p).toList =
      (' ' :: p.1.toList) ++ ([' ', Mark.equals.char] ++ ' ' :: p.2.render.toList) := by
    simp [pairText, Mark.char]
  rw [htext]
  exact hwrites

theorem exists_pairs_writes {pairs : List (String × Literal)}
    (h : ∀ p ∈ pairs, IsName p.1 ∧ p.2.Writable) :
    ∃ ps : List Pair, ps.map (fun p => (p.name.text, p.value.literal)) = pairs ∧
      Writes (pairs.flatMap fun p => (pairText p).toList) (ps.flatMap Pair.tokens) := by
  induction pairs with
  | nil => exact ⟨[], rfl, .nil⟩
  | cons p pairs ih =>
    obtain ⟨hp, hpairs⟩ := List.forall_mem_cons.1 h
    obtain ⟨pair, hpair, hwrites⟩ := exists_pair_writes hp
    obtain ⟨ps, hps, hmore⟩ := ih hpairs
    refine ⟨pair :: ps, ?_, ?_⟩
    · rw [List.map_cons, hpair, hps]
    · exact hwrites.append hmore

/-- A clause of pairs is written unless it is empty. -/
theorem exists_clause_writes (k : Keyword) {b : Bindings Literal} (h : b.Writable) :
    ∃ clause : Option (Pairs k), BindsLast b (bindingsOf clause) ∧
      Writes (Query.renderPairs k.spelling b).toList (optional Pairs.tokens clause) := by
  obtain ⟨t, ht⟩ := exists_keyword_writes k
  obtain ⟨ps, hps, hwrites⟩ := exists_pairs_writes h
  cases ps with
  | nil =>
    have hempty : b.pairs = [] := hps.symm
    refine ⟨none, ?_, ?_⟩
    · rw [bindsLast_iff, ← Bindings.ofList_pairs b, hempty]
      rfl
    · rw [Query.renderPairs, if_pos (by rw [Bindings.isEmpty, hempty]; rfl)]
      exact .nil
  | cons first others =>
    have hne : ¬ b.isEmpty = true := by
      rw [Bindings.isEmpty, ← hps]
      simp
    refine ⟨some ⟨t, first, others⟩, ?_, ?_⟩
    · rw [bindsLast_iff, ← Bindings.ofList_pairs b, ← hps]
      rfl
    · have htext : (Query.renderPairs k.spelling b).toList =
          (' ' :: k.spelling.toList) ++ b.pairs.flatMap fun p => (pairText p).toList := by
        rw [Query.renderPairs, if_neg hne]
        simp [String.toList_join, List.flatMap_map, pairText]
      rw [htext]
      exact ht.append hwrites

theorem toNat_lt_integers (n : UInt32) : n.toNat < 0x8000000000000000 := by
  have := n.toNat_lt
  omega

theorem depth_of_nat (n : UInt32) :
    (⟨.number, .literal (.integer (Int64.ofNat n.toNat)), 0⟩ : Token).depth = n := by
  have hdepth : (⟨.number, .literal (.integer (Int64.ofNat n.toNat)), 0⟩ : Token).depth =
      UInt32.ofNatClamp (Int64.ofNat n.toNat).toInt.toNat := rfl
  rw [hdepth, Int64.toInt_ofNat_of_lt (toNat_lt_integers n), Int.toNat_natCast, UInt32.ofNatClamp,
    dif_pos n.toNat_lt]
  exact UInt32.toNat_inj.1 rfl

/-- A depth is written unless it is the default. -/
theorem exists_depth_writes (n : UInt32) :
    ∃ d : Option Depth, n = d.elim 1 (·.number.token.depth) ∧
      Writes (if n = Query.defaultDepth then "" else " DEPTH " ++ n.toNat.repr).toList
        (optional Depth.tokens d) := by
  by_cases hdefault : n = Query.defaultDepth
  · refine ⟨none, hdefault, ?_⟩
    rw [if_pos hdefault]
    exact .nil
  · obtain ⟨t, ht⟩ := exists_keyword_writes .depth
    refine ⟨some ⟨t, ⟨⟨.number, .literal (.integer (Int64.ofNat n.toNat)), 0⟩, rfl⟩⟩,
      (depth_of_nat n).symm, ?_⟩
    have htext : (" DEPTH " ++ n.toNat.repr).toList =
        (' ' :: Keyword.depth.spelling.toList) ++ ' ' :: Nat.toDigits 10 n.toNat := by
      rw [String.toList_append, Nat.toList_repr]
      rfl
    rw [if_neg hdefault, htext]
    exact ht.append (writes_nat (toNat_lt_integers n))

theorem toList_names (name : String) (names : List String) :
    (", ".intercalate (name :: names)).toList =
      name.toList ++ names.flatMap fun name => ',' :: ' ' :: name.toList := by
  rw [String.toList_intercalate]
  induction names generalizing name with
  | nil => simp
  | cons next names ih =>
    rw [List.map_cons, List.map_cons, List.intercalate_cons_cons, ← List.map_cons, ih,
      List.flatMap_cons]
    simp

/-- A well-formed query is written as a sentence that stands for it. -/
theorem exists_sentence_writes {q : Query} (h : q.WellFormed) :
    ∃ (s : Sentence) (cs : List Char), s.Denotes q ∧
      s.introspect.token = ⟨.keyword .introspect, .symbol "INTROSPECT", 0⟩ ∧
      q.render.toList = "INTROSPECT".toList ++ cs ∧ Writes cs s.tokens.tail := by
  obtain ⟨openBrace, hopen⟩ := exists_mark_writes .openBrace
  obtain ⟨select, hselect⟩ := exists_keyword_writes .select
  obtain ⟨from_, hfrom⟩ := exists_keyword_writes .source
  obtain ⟨source, hsourceText, hsource⟩ := exists_name_writes h.source
  obtain ⟨filter, hfilterText, hfilter⟩ := exists_clause_writes .filter h.filter
  obtain ⟨depth, hdepthText, hdepth⟩ := exists_depth_writes q.depth
  obtain ⟨options, hoptionsText, hoptions⟩ := exists_clause_writes .options h.options
  obtain ⟨constraints, hconstraintsText, hconstraints⟩ :=
    exists_clause_writes .constraint h.constraints
  obtain ⟨closeBrace, hclose⟩ := exists_mark_writes .closeBrace
  obtain ⟨name, names, hfields⟩ := List.exists_cons_of_ne_nil h.fields_ne_nil
  obtain ⟨hname, hnames⟩ := List.forall_mem_cons.1 (hfields ▸ h.fields)
  obtain ⟨first, hfirstText, hfirst⟩ := exists_name_writes hname
  obtain ⟨others, hothersText, hothers⟩ := exists_fields_writes hnames
  have hwrites := hopen.append (hselect.append (hfirst.append (hothers.append (hfrom.append
    (hsource.append (hfilter.append (hdepth.append (hoptions.append
      (hconstraints.append hclose)))))))))
  refine ⟨⟨⟨⟨.keyword .introspect, .symbol "INTROSPECT", 0⟩, rfl⟩, openBrace, select, first, others,
    from_, source, filter, depth, options, constraints, closeBrace⟩, _, ?_, rfl, ?_, hwrites⟩
  · exact ⟨by rw [hfields, hfirstText, hothersText], hsourceText.symm, hfilterText, hdepthText,
      hoptionsText, hconstraintsText⟩
  · have hselectText : "INTROSPECT \x7b SELECT ".toList =
        "INTROSPECT".toList ++ ' ' :: '\x7b' :: ' ' :: ("SELECT".toList ++ [' ']) := rfl
    have hfromText : " FROM ".toList = ' ' :: ("FROM".toList ++ [' ']) := rfl
    have hcloseText : " \x7d".toList = [' ', '\x7d'] := rfl
    unfold Query.render
    simp only [hfields, String.toList_append, toList_names, hselectText, hfromText, hcloseText,
      Keyword.spelling, Mark.char, List.append_assoc, List.cons_append, List.nil_append]

/-- What is written behind the first keyword decides what the text is read as. -/
theorem tokenize_of_writes {text : String} {cs : List Char} {ts : List Token}
    (htext : text.toList = "INTROSPECT".toList ++ cs) (h : Writes cs ts) :
    ∃ us, tokenize text .strict = .ok (us ++ [Token.eof text.length], []) ∧
      List.Forall₂ Token.Alike us (⟨.keyword .introspect, .symbol "INTROSPECT", 0⟩ :: ts) := by
  -- The first keyword has no space in front of it, so it is none of the written lexemes.
  have hword : (Lexeme.word "INTROSPECT".toList).Standalone :=
    standalone_word (keyword_start .introspect) (keyword_run .introspect)
  have hmunch := hword cs h.head
  have hread : (Lexeme.word "INTROSPECT".toList).read .strict 0 =
      .token ⟨.keyword .introspect, .symbol "INTROSPECT", 0⟩ := by
    rw [Lexeme.read, String.ofList_toList]
    exact congrArg _ (congrArg (Token.mk · _ _) (wordKind_spelling .introspect))
  obtain ⟨found, us, hsplits, hreads, halike⟩ := h.readAll "INTROSPECT".toList.length text.length
  have hwhole : Splits 0 text.toList ((0, .word "INTROSPECT".toList) :: found) := by
    rw [htext]
    have hgap : Splits 0 ([] ++ ((Lexeme.word "INTROSPECT".toList).chars ++ cs))
        ((0, .word "INTROSPECT".toList) :: found) :=
      .lexeme (by simp) hmunch (hmunch.solid hread)
        (by rwa [Nat.zero_add, List.length_nil, Nat.zero_add])
    exact hgap
  refine ⟨⟨.keyword .introspect, .symbol "INTROSPECT", 0⟩ :: us, ?_, .cons ⟨rfl, rfl⟩ halike⟩
  rw [tokenize_of_splits hwhole]
  simp only [Lexeme.readAll, hread, hreads, Except.map, List.cons_append]

/-- A well-formed query is read back from its text. -/
theorem parse_render {q : Query} (h : q.WellFormed) : Query.parse q.render .strict = .ok q := by
  obtain ⟨s, cs, hdenotes, hfirst, htext, hwrites⟩ := exists_sentence_writes h
  obtain ⟨us, htokens, halike⟩ := tokenize_of_writes htext hwrites
  have hsentence : s.tokens = s.introspect.token :: s.tokens.tail := rfl
  rw [← hfirst, ← hsentence] at halike
  have hrun : Stage.start.run Parser.blank us = some (.finish, q) := by
    rw [Stage.run_alike halike]
    exact run_eq_finish_iff.2 ⟨s, rfl, hdenotes⟩
  apply Query.parse_eq_ok_iff.2
  refine ⟨_, [], htokens, Parser.query_eq_ok_iff.2 ⟨us, [Token.eof _], rfl, hrun, ?_⟩⟩
  simp [Parser.Ends, Token.eof]

/-- A text is parsed as a well-formed query if as any, and the queries that are read back from
their own text are just these. -/
theorem parse_render_iff_wellFormed :
    (∀ text mode q, Query.parse text mode = .ok q → q.WellFormed) ∧
      ∀ q : Query, Query.parse q.render .strict = .ok q ↔ q.WellFormed := by
  constructor
  · intro text mode q h
    exact wellFormed_of_parse h
  · intro q
    exact ⟨wellFormed_of_parse, parse_render⟩

/-- Both quotes, a float and a depth. -/
theorem parse_render_mixed :
    let q : Query := ⟨["a", "b", "a"], "s", .ofList [("k", .text "x"), ("n", .text "\"")], 3, ∅,
      .ofList [("r", .float (.ofBits 0x3fe0000000000000))]⟩
    q.WellFormed ∧ Query.parse q.render .strict = .ok q := by
  intro q
  have h : Query.parse
      "introspect \x7bselect a,b,a from s where k='x' n='\"' depth 3 constraint r=0.50\x7d"
        .lenient = .ok q := by
    decide +kernel
  have hwell := parse_render_iff_wellFormed.1 _ _ _ h
  exact ⟨hwell, (parse_render_iff_wellFormed.2 q).2 hwell⟩

end Grammar
end Introspect
