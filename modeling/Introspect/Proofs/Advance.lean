import Introspect.Proofs.Modes

/-!
What a call of a lexer comes to. It takes the lexer on in the text, and what it gives lies between
the two places. A character that stands for no token stops a strict lexer in front of it; the other
errors leave it behind what they tell of.
-/
namespace Introspect.Lexer

open Lexeme

/-- Some of the text lies between two places of a lexer. -/
def Passes (before after : Lexer) : Prop :=
  ∃ passed, before.rest = passed ++ after.rest ∧ after.position = before.position + passed.length

theorem Passes.refl (lexer : Lexer) : lexer.Passes lexer :=
  ⟨[], rfl, rfl⟩

theorem Passes.trans {before mid after : Lexer} (h : before.Passes mid) (h' : mid.Passes after) :
    before.Passes after := by
  obtain ⟨passed, hrest, hposition⟩ := h
  obtain ⟨passed', hrest', hposition'⟩ := h'
  refine ⟨passed ++ passed', ?_, ?_⟩
  · rw [hrest, hrest', List.append_assoc]
  · rw [hposition', hposition, List.length_append, Nat.add_assoc]

theorem Passes.position_le {before after : Lexer} (h : before.Passes after) :
    before.position ≤ after.position := by
  obtain ⟨passed, -, hposition⟩ := h
  omega

/-- What a lexer has passed and what it has still to pass add up. -/
theorem Passes.position_add {before after : Lexer} (h : before.Passes after) :
    after.position + after.rest.length = before.position + before.rest.length := by
  obtain ⟨passed, hrest, hposition⟩ := h
  rw [hrest, hposition, List.length_append, Nat.add_assoc]

theorem Passes.rest_eq_nil {before after : Lexer} (h : before.Passes after)
    (hbefore : before.rest = []) : after.rest = [] := by
  obtain ⟨passed, hrest, -⟩ := h
  rw [hbefore] at hrest
  exact (List.append_eq_nil_iff.1 hrest.symm).2

theorem passes_skipBlanks (lexer : Lexer) : lexer.Passes lexer.skipBlanks :=
  ⟨lexer.rest.takeWhile Text.isBlank, List.takeWhile_append_dropWhile.symm, rfl⟩

theorem passes_pass {lexer : Lexer} {c : Char} {rest : List Char} (h : lexer.rest = c :: rest) :
    lexer.Passes (lexer.pass (cut c rest).1 (cut c rest).2) :=
  ⟨(cut c rest).1.chars, h.trans (cut_munches c rest).1.symm, rfl⟩

theorem position_pass_lt (lexer : Lexer) (c : Char) (rest : List Char) :
    lexer.position < (lexer.pass (cut c rest).1 (cut c rest).2).position := by
  obtain ⟨d, ds, hchars, -⟩ := (cut_munches c rest).2.exists_cons
  simp [pass, hchars]

theorem next_passes (lexer : Lexer) :
    lexer.Passes lexer.next.2 ∧ lexer.next.2.mode = lexer.mode := by
  fun_induction next lexer with
  | case1 lexer here hrest => exact ⟨lexer.passes_skipBlanks, rfl⟩
  | case2 lexer here c rest hrest | case3 lexer here c rest hrest =>
    exact ⟨lexer.passes_skipBlanks.trans (passes_pass hrest), rfl⟩
  | case4 lexer here c rest hrest found after w hread ih =>
    have hpass : here.Passes (after.warn w) := passes_pass hrest
    exact ⟨lexer.passes_skipBlanks.trans (hpass.trans ih.1), ih.2⟩
  | case5 lexer here c rest hrest =>
    split
    · exact ⟨lexer.passes_skipBlanks, rfl⟩
    · exact ⟨lexer.passes_skipBlanks.trans (passes_pass hrest), rfl⟩

theorem tokens_passes (lexer : Lexer) :
    lexer.Passes lexer.tokens.2 ∧ lexer.tokens.2.mode = lexer.mode :=
  tokens_of_next (R := fun before after => before.Passes after ∧ after.mode = before.mode)
    (fun h h' => ⟨h.1.trans h'.1, h'.2.trans h.2⟩) next_passes lexer

/-! ### What a call comes to -/

/-- Tokens that lie between two places of a lexer, one behind the other. -/
structure Between (before after : Lexer) (ts : List Token) : Prop where
  solid : ∀ t ∈ ts, t.kind ≠ .eof
  inside : ∀ t ∈ ts, before.position ≤ t.position ∧ t.position < after.position
  ordered : ts.Pairwise fun t u => t.position < u.position

theorem Between.nil (before after : Lexer) : before.Between after [] :=
  ⟨by simp, by simp, .nil⟩

theorem Between.single {before after : Lexer} {t : Token} (solid : t.kind ≠ .eof)
    (low : before.position ≤ t.position) (high : t.position < after.position) :
    before.Between after [t] :=
  ⟨List.forall_mem_singleton.2 solid, List.forall_mem_singleton.2 ⟨low, high⟩,
    List.pairwise_singleton _ _⟩

theorem Between.append {before mid after : Lexer} {ts us : List Token}
    (h : before.Between mid ts) (h' : mid.Between after us)
    (hmid : before.position ≤ mid.position) (hafter : mid.position ≤ after.position) :
    before.Between after (ts ++ us) := by
  refine ⟨?_, ?_, ?_⟩
  · exact List.forall_mem_append.2 ⟨h.solid, h'.solid⟩
  · refine List.forall_mem_append.2 ⟨fun t ht => ?_, fun u hu => ?_⟩
    · have := h.inside t ht
      omega
    · have := h'.inside u hu
      omega
  · refine List.pairwise_append.2 ⟨h.ordered, h'.ordered, fun t ht u hu => ?_⟩
    have := h.inside t ht
    have := h'.inside u hu
    omega

/-- In front of a character that stands for no token. -/
def StuckAt (lexer : Lexer) (c : Char) : Prop :=
  ∃ rest, lexer.rest = c :: rest ∧ (foreign c).Munches rest ∧ Text.isBlank c = false

theorem skipBlanks_eq_self {lexer : Lexer} (h : ∀ c ∈ lexer.rest.head?, Text.isBlank c = false) :
    lexer.skipBlanks = lexer :=
  skipBlanks_of_gap (List.forall_mem_nil _) h rfl

/-- A strict lexer does not get past such a character. -/
theorem StuckAt.next_eq {lexer : Lexer} {c : Char} (h : lexer.StuckAt c)
    (hmode : lexer.mode = .strict) :
    lexer.next = (.error (.unexpected c lexer.position), lexer) := by
  obtain ⟨rest, hrest, hmunch, hsolid⟩ := h
  have hfront : ∀ d ∈ (foreign c).chars.head?, Text.isBlank d = false := by
    simpa [chars] using hsolid
  have hskip : lexer.skipBlanks = lexer := skipBlanks_eq_self (by simpa [hrest] using hsolid)
  have hnext : lexer.next = _ := next_of_lexeme (List.forall_mem_nil _) hmunch hfront hrest
  simpa [Lexeme.read, hmode, hskip, chars] using hnext

/-- Everything that a call which reads on can come to. -/
inductive ComesTo (before : Lexer) : Except LexError (List Token) → Lexer → Prop
  | tokens {ts : List Token} {after : Lexer} (between : before.Between after ts) :
      ComesTo before (.ok ts) after
  | ended {ts : List Token} {after : Lexer} (between : before.Between after ts)
      (nothing : after.rest = []) : ComesTo before (.ok (ts ++ [Token.eof after.position])) after
  | refused {e : LexError} {after : Lexer} (passed : before.position < after.position)
      (other : ∀ c position, e ≠ .unexpected c position) : ComesTo before (.error e) after
  | stuck {c : Char} {after : Lexer} (strict : before.mode = .strict) (stuck : after.StuckAt c) :
      ComesTo before (.error (.unexpected c after.position)) after

/-- A call that goes on behind some tokens. -/
theorem ComesTo.prepend {before mid after : Lexer} {outcome : Except LexError (List Token)}
    {ts : List Token} (h : mid.ComesTo outcome after) (hts : before.Between mid ts)
    (hmode : mid.mode = before.mode) (hmid : before.position ≤ mid.position)
    (hafter : mid.position ≤ after.position) :
    before.ComesTo (outcome.map (ts ++ ·)) after := by
  cases h with
  | tokens between => exact .tokens (hts.append between hmid hafter)
  | @ended us _ between nothing =>
    rw [Except.map, ← List.append_assoc]
    exact .ended (hts.append between hmid hafter) nothing
  | refused passed other => exact .refused (Nat.lt_of_le_of_lt hmid passed) other
  | stuck strict stuck => exact .stuck (hmode ▸ strict) stuck

theorem ComesTo.behind {before mid after : Lexer} {outcome : Except LexError (List Token)}
    (h : mid.ComesTo outcome after) (hmode : mid.mode = before.mode)
    (hmid : before.position ≤ mid.position) (hafter : mid.position ≤ after.position) :
    before.ComesTo outcome after := by
  have hnil := h.prepend (.nil before mid) hmode hmid hafter
  cases outcome <;> exact hnil

/-- A token that is read behind blanks. -/
theorem between_of_gives {lexer after : Lexer} {c : Char} {rest : List Char} {mode : Mode}
    {t : Token} (hgives : Gives mode (lexer.skipBlanks.position, (cut c rest).1) t)
    (hafter : after.position =
      (lexer.skipBlanks.pass (cut c rest).1 (cut c rest).2).position) :
    lexer.Between after [t] := by
  have hposition : t.position = lexer.skipBlanks.position := hgives.position
  apply Between.single (Reads.ne_eof hgives.reads)
  · rw [hposition]
    exact lexer.passes_skipBlanks.position_le
  · rw [hposition, hafter]
    exact lexer.skipBlanks.position_pass_lt c rest

theorem next_comesTo (lexer : Lexer) :
    lexer.ComesTo (lexer.next.1.map ([·])) lexer.next.2 := by
  fun_induction next lexer with
  | case1 lexer here hrest =>
    change lexer.ComesTo (.ok ([] ++ [Token.eof here.position])) here
    exact .ended (.nil lexer here) hrest
  | case2 lexer here c rest hrest found after t hread =>
    have hgives : Gives here.mode (here.position, found.1) t := .inl hread
    exact .tokens (between_of_gives hgives rfl)
  | case3 lexer here c rest hrest found after t w hread =>
    have hgives : Gives here.mode (here.position, found.1) t := .inr ⟨w, hread⟩
    exact .tokens (between_of_gives hgives rfl)
  | case4 lexer here c rest hrest found after w hread ih =>
    have hpass : here.Passes (after.warn w) := passes_pass hrest
    have hmid := (lexer.passes_skipBlanks.trans hpass).position_le
    have hafter := (after.warn w).next_passes.1.position_le
    exact ih.behind rfl hmid hafter
  | case5 lexer here c rest hrest found after e hread =>
    have hreads := read_reads here.mode here.position found.1
    rw [hread] at hreads
    obtain ⟨hfront, hmunch⟩ : found.1.chars ++ found.2 = c :: rest ∧ found.1.Munches found.2 :=
      cut_munches c rest
    rcases hreads.refused with ⟨d, hforeign, hmode, rfl⟩ | ⟨hsolid, hother⟩
    · rw [hforeign] at hfront hmunch ⊢
      obtain ⟨rfl, hbehind⟩ := List.cons.inj hfront
      rw [if_pos rfl]
      refine .stuck hmode ⟨rest, hrest, hbehind ▸ hmunch, head?_dropWhile_neg (l := lexer.rest) ?_⟩
      exact Option.mem_def.2 (congrArg List.head? hrest)
    · rw [if_neg (by rintro hforeign; simp [hforeign, isSolid] at hsolid)]
      refine .refused ?_ hother
      exact Nat.lt_of_le_of_lt lexer.passes_skipBlanks.position_le (here.position_pass_lt c rest)

theorem between_of_next {lexer after : Lexer} {t : Token} (hnext : lexer.next = (.ok t, after))
    (ht : t.kind ≠ .eof) : lexer.Between after [t] := by
  have hcomes : lexer.ComesTo (.ok [t]) after := by
    have := lexer.next_comesTo
    rwa [hnext] at this
  generalize hts : [t] = ts at hcomes
  cases hcomes with
  | tokens between => exact hts ▸ between
  | @ended us _ between nothing =>
    have hts : [] ++ [t] = us ++ [Token.eof after.position] := hts
    obtain ⟨-, hend⟩ := List.append_inj' hts rfl
    rw [(List.cons.inj hend).1] at ht
    exact absurd rfl ht

theorem tokens_comesTo (lexer : Lexer) : lexer.ComesTo lexer.tokens.1 lexer.tokens.2 := by
  fun_induction tokens lexer with
  | case1 lexer e after hnext | case2 lexer t after hnext =>
    have hcomes := lexer.next_comesTo
    rwa [hnext] at hcomes
  | case3 lexer t after hnext hmore e last hlast ih
  | case4 lexer t after hnext hmore ts last hlast ih =>
    have hfirst := lexer.next_passes
    have hlater := after.tokens_passes
    rw [hnext] at hfirst
    rw [hlast] at hlater ih
    exact ih.prepend (between_of_next hnext hmore) hfirst.2 hfirst.1.position_le
      hlater.1.position_le

/-- A lexer that is stopped by an unknown character stands in front of it. -/
theorem next_of_unexpected {lexer : Lexer} {c : Char} {position : Nat}
    (h : lexer.next.1 = .error (.unexpected c position)) : lexer.next.2 = lexer.skipBlanks := by
  fun_induction next lexer with
  | case1 | case2 | case3 => cases h
  | case4 lexer here d rest hrest found after w hread ih =>
    -- Only a lenient lexer drops characters, and it is not stopped by any.
    have hcomes := (after.warn w).next_comesTo
    rw [h] at hcomes
    obtain ⟨d', hforeign, -⟩ := foreign_of_dropped hread
    cases hcomes with
    | refused _ other => exact absurd rfl (other c position)
    | stuck strict =>
      have hmode : here.mode = .strict := strict
      rw [hforeign, hmode] at hread
      cases hread
  | case5 lexer here d rest hrest found after e hread =>
    have hreads := read_reads here.mode here.position found.1
    rw [hread] at hreads
    cases h
    rcases hreads.refused with ⟨d', hforeign, -⟩ | ⟨-, hother⟩
    · obtain ⟨hfront, -⟩ : found.1.chars ++ found.2 = d :: rest ∧ found.1.Munches found.2 :=
        cut_munches d rest
      rw [hforeign] at hfront ⊢
      rw [if_pos (congrArg foreign (List.cons.inj hfront).1)]
    · exact absurd rfl (hother c position)

end Introspect.Lexer
