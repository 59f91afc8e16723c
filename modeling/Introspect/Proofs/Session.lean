import Introspect.Proofs.Advance

/-!
A lexer that is called again and again, in either mode and also behind errors. Each call takes it
on from where the last one left it. A strict lexer that was stopped can be taken on in lenient
mode, and then comes to what a lenient one would have come to.
-/
namespace Introspect.Lexer

open Lexeme

/-- What can be asked of a lexer. -/
inductive Call where
  | next
  | tokenize
  | switch (mode : Mode)

/-- Whether a call reads on in the text. -/
def Call.reads : Call → Bool
  | switch _ => false
  | _ => true

/-- The tokens that a call gives, or its error, and the lexer behind it. -/
def answer (lexer : Lexer) : Call → Except LexError (List Token) × Lexer
  | .next => (lexer.next.1.map ([·]), lexer.next.2)
  | .tokenize => lexer.tokens
  | .switch mode => (.ok [], lexer.withMode mode)

structure Step where
  before : Lexer
  call : Call
  outcome : Except LexError (List Token)
  after : Lexer

/-- A step that the lexer takes. -/
def Step.Taken (s : Step) : Prop :=
  s.before.answer s.call = (s.outcome, s.after)

/-- The tokens of an answer, without the end of input. -/
def solid : Except LexError (List Token) → List Token
  | .ok ts => ts.filter (·.kind ≠ .eof)
  | .error _ => []

/-- One call after another. -/
def session (lexer : Lexer) : List Call → List Step
  | [] => []
  | call :: calls =>
    ⟨lexer, call, (lexer.answer call).1, (lexer.answer call).2⟩ ::
      session (lexer.answer call).2 calls

theorem answer_passes (lexer : Lexer) (call : Call) : lexer.Passes (lexer.answer call).2 := by
  cases call with
  | next => exact lexer.next_passes.1
  | tokenize => exact lexer.tokens_passes.1
  | switch mode => exact .refl lexer

theorem answer_comesTo (lexer : Lexer) (call : Call) :
    lexer.ComesTo (lexer.answer call).1 (lexer.answer call).2 := by
  cases call with
  | next => exact lexer.next_comesTo
  | tokenize => exact lexer.tokens_comesTo
  | switch mode => exact .tokens (.nil _ _)

theorem Step.Taken.passes {s : Step} (h : s.Taken) : s.before.Passes s.after := by
  have hpasses := s.before.answer_passes s.call
  rwa [h] at hpasses

theorem Step.Taken.comesTo {s : Step} (h : s.Taken) : s.before.ComesTo s.outcome s.after := by
  have hcomes := s.before.answer_comesTo s.call
  rwa [h] at hcomes

/-- Where a session is at a step, and how it goes on from there. -/
theorem session_split {lexer : Lexer} {calls : List Call} {front back : List Step} {s : Step}
    (h : lexer.session calls = front ++ s :: back) :
    lexer.Passes s.before ∧ s.Taken ∧ ∃ more, back = s.after.session more := by
  induction calls generalizing lexer front with
  | nil => simp [session] at h
  | cons call calls ih =>
    cases front with
    | nil =>
      obtain ⟨rfl, rfl⟩ := List.cons.inj h
      exact ⟨.refl lexer, rfl, calls, rfl⟩
    | cons first front =>
      obtain ⟨-, hmore⟩ := List.cons.inj h
      obtain ⟨hpasses, hrest⟩ := ih hmore
      exact ⟨(lexer.answer_passes call).trans hpasses, hrest⟩

theorem mem_session {lexer : Lexer} {calls : List Call} {s : Step} (h : s ∈ lexer.session calls) :
    lexer.Passes s.before ∧ s.Taken := by
  obtain ⟨front, back, hsplit⟩ := List.append_of_mem h
  obtain ⟨hpasses, htaken, -⟩ := session_split hsplit
  exact ⟨hpasses, htaken⟩

theorem Between.filter {before after : Lexer} {ts : List Token} (h : before.Between after ts) :
    ts.filter (·.kind ≠ .eof) = ts := by
  rw [List.filter_eq_self]
  intro t ht
  simpa using h.solid t ht

theorem ComesTo.solid {before after : Lexer} {outcome : Except LexError (List Token)}
    (h : before.ComesTo outcome after) : before.Between after (solid outcome) := by
  cases h with
  | tokens between =>
    rw [Lexer.solid, between.filter]
    exact between
  | ended between =>
    rw [Lexer.solid, List.filter_append, between.filter]
    simpa [Token.eof] using between
  | refused | stuck => exact .nil before after

theorem session_between (lexer : Lexer) (calls : List Call) :
    ∃ last, lexer.Passes last ∧
      lexer.Between last ((lexer.session calls).flatMap fun s => solid s.outcome) := by
  induction calls generalizing lexer with
  | nil => exact ⟨lexer, .refl lexer, .nil lexer lexer⟩
  | cons call calls ih =>
    obtain ⟨last, hlast, hmore⟩ := ih (lexer.answer call).2
    have hfirst := lexer.answer_passes call
    refine ⟨last, hfirst.trans hlast, ?_⟩
    rw [session, List.flatMap_cons]
    exact (lexer.answer_comesTo call).solid.append hmore hfirst.position_le hlast.position_le

theorem next_of_ended {lexer : Lexer} (h : lexer.rest = []) :
    lexer.next = (.ok (Token.eof lexer.position), lexer) := by
  have hskip : lexer.skipBlanks = lexer := skipBlanks_eq_self (by simp [h])
  have hnext : lexer.next = _ := next_of_blanks (by simp [h])
  rwa [h, hskip] at hnext

/-- At the end of a text there is nothing but the end. -/
theorem answer_of_ended {lexer : Lexer} (h : lexer.rest = []) {call : Call}
    (hreads : call.reads = true) :
    lexer.answer call = (.ok [Token.eof lexer.position], lexer) := by
  have hnext := next_of_ended h
  cases call with
  | next =>
    rw [answer, hnext]
    rfl
  | tokenize => exact tokens_of_eof hnext rfl
  | switch mode => cases hreads

/-- A strict lexer does not get past an unknown character, whatever it is asked. -/
theorem StuckAt.answer_eq {lexer : Lexer} {c : Char} (h : lexer.StuckAt c)
    (hmode : lexer.mode = .strict) {call : Call} (hreads : call.reads = true) :
    lexer.answer call = (.error (.unexpected c lexer.position), lexer) := by
  have hnext := h.next_eq hmode
  cases call with
  | next =>
    rw [answer, hnext]
    rfl
  | tokenize => exact tokens_of_error hnext
  | switch mode => cases hreads

/-- As long as it is strict, a lexer that was stopped stays where it is. -/
theorem StuckAt.session {lexer : Lexer} {c : Char} (h : lexer.StuckAt c) {calls : List Call}
    {between more : List Step} {later : Step}
    (hsplit : lexer.session calls = between ++ later :: more)
    (hstrict : ∀ s ∈ between, s.call.reads = true → s.before.mode = .strict) :
    later.before.StuckAt c ∧ later.before.position = lexer.position := by
  induction calls generalizing lexer between with
  | nil => simp [Lexer.session] at hsplit
  | cons call calls ih =>
    cases between with
    | nil =>
      obtain ⟨rfl, -⟩ := List.cons.inj hsplit
      exact ⟨h, rfl⟩
    | cons first between =>
      obtain ⟨rfl, hmore⟩ := List.cons.inj hsplit
      obtain ⟨hfirst, hbetween⟩ := List.forall_mem_cons.1 hstrict
      -- A switch changes nothing but the mode, and a reading call nothing at all.
      cases hreads : call.reads with
      | true =>
        have hanswer := h.answer_eq (hfirst hreads) hreads
        rw [hanswer] at hmore
        exact ih h hmore hbetween
      | false =>
        cases call with
        | switch mode =>
          have hswitched : (lexer.withMode mode).StuckAt c := h
          have hlater := ih hswitched hmore hbetween
          exact hlater
        | _ => cases hreads

/-- What holds of all that a lexer is asked over one text. -/
structure Orderly (text : String) (steps : List Step) : Prop where
  position : ∀ s ∈ steps, s.before.position ≤ s.after.position ∧ s.after.position ≤ text.length
  forward : steps.Pairwise fun s later => s.after.position ≤ later.before.position
  increasing : (steps.flatMap fun s => solid s.outcome).Pairwise fun t u => t.position < u.position
  warnings : ∀ s ∈ steps, s.before.warnings.toList <+: s.after.warnings.toList
  lenient : ∀ s ∈ steps, s.after.warnings ≠ s.before.warnings →
    s.call.reads = true ∧ s.before.mode = .lenient
  takes : ∀ s ∈ steps, solid s.outcome ≠ [] → s.before.position < s.after.position
  passes : ∀ s ∈ steps, ∀ e, s.outcome = .error e → (∀ c position, e ≠ .unexpected c position) →
    s.before.position < s.after.position
  /-- An unknown character stays where it is, and stops every further strict call. -/
  stops : ∀ front s back c position, steps = front ++ s :: back →
    s.outcome = .error (.unexpected c position) →
      s.after.position = position ∧ text.toList[position]? = some c ∧
        ∀ between later more, back = between ++ later :: more →
          (∀ other ∈ between, other.call.reads = true → other.before.mode = .strict) →
          later.call.reads = true → later.before.mode = .strict →
            later.outcome = .error (.unexpected c position) ∧ later.after = later.before
  /-- The end of input is that of the text, and nothing comes behind it. -/
  ends : ∀ front s back ts, steps = front ++ s :: back → s.outcome = .ok ts →
    (∃ t ∈ ts, t.kind = .eof) →
      (∀ t ∈ ts, t.kind = .eof → t = Token.eof text.length) ∧
        ∀ later ∈ back, later.call.reads = true →
          later.outcome = .ok [Token.eof text.length] ∧ later.after = later.before

section Laws
variable {text : String} {mode : Mode}

theorem position_le_of_passes {lexer : Lexer} (h : (ofText text mode).Passes lexer) :
    lexer.position ≤ text.length := by
  have hadd := h.position_add
  simp only [ofText, String.length_toList] at hadd
  omega

theorem getElem?_of_passes {lexer : Lexer} (h : (ofText text mode).Passes lexer) :
    text.toList[lexer.position]? = lexer.rest.head? := by
  obtain ⟨passed, hrest, hposition⟩ := h
  have hrest : text.toList = passed ++ lexer.rest := hrest
  have hposition : lexer.position = passed.length := by
    rw [hposition]
    exact Nat.zero_add _
  rw [hrest, hposition, List.getElem?_append_right (Nat.le_refl _), Nat.sub_self,
    List.head?_eq_getElem?]

theorem position_of_ended {lexer : Lexer} (h : (ofText text mode).Passes lexer)
    (hrest : lexer.rest = []) : lexer.position = text.length := by
  have hadd := h.position_add
  simpa only [hrest, ofText, String.length_toList, List.length_nil, Nat.add_zero, Nat.zero_add]
    using hadd

theorem answer_warnings (lexer : Lexer) (call : Call) :
    lexer.warnings.toList <+: (lexer.answer call).2.warnings.toList ∧
      ((lexer.answer call).2.warnings ≠ lexer.warnings →
        call.reads = true ∧ lexer.mode = .lenient) := by
  have hmode (h : lexer.mode ≠ .strict) : lexer.mode = .lenient := by
    cases hlexer : lexer.mode with
    | lenient => rfl
    | strict => exact absurd hlexer h
  cases call with
  | next =>
    refine ⟨lexer.next_warnings, fun hne => ⟨rfl, hmode fun h => ?_⟩⟩
    exact hne (strict_keeps_warnings h).1
  | tokenize =>
    refine ⟨lexer.tokens_warnings, fun hne => ⟨rfl, hmode fun h => ?_⟩⟩
    exact hne (strict_keeps_warnings h).2
  | switch mode => exact ⟨List.prefix_refl _, fun hne => absurd rfl hne⟩

/-- A call that gives an end of input has come to the end. -/
theorem ComesTo.rest_eq_nil {before after : Lexer} {ts : List Token}
    (h : before.ComesTo (.ok ts) after) (hend : ∃ t ∈ ts, t.kind = .eof) :
    after.rest = [] ∧ ∀ t ∈ ts, t.kind = .eof → t = Token.eof after.position := by
  generalize houtcome : Except.ok ts = outcome at h
  cases h with
  | tokens between =>
    cases houtcome
    obtain ⟨t, ht, hkind⟩ := hend
    exact absurd hkind (between.solid t ht)
  | @ended us _ between nothing =>
    cases houtcome
    refine ⟨nothing, fun t ht hkind => ?_⟩
    rcases List.mem_append.1 ht with ht | ht
    · exact absurd hkind (between.solid t ht)
    · exact List.mem_singleton.1 ht
  | refused | stuck => cases houtcome

theorem ComesTo.of_unexpected {before after : Lexer} {c : Char} {position : Nat}
    (h : before.ComesTo (.error (.unexpected c position)) after) :
    after.StuckAt c ∧ after.position = position := by
  generalize houtcome : Except.error (LexError.unexpected c position) = outcome at h
  cases h with
  | tokens | ended => cases houtcome
  | refused passed other =>
    cases houtcome
    exact absurd rfl (other c position)
  | stuck strict stuck =>
    cases houtcome
    exact ⟨stuck, rfl⟩

theorem ComesTo.advances {before after : Lexer} {outcome : Except LexError (List Token)}
    (h : before.ComesTo outcome after) (hsolid : Lexer.solid outcome ≠ []) :
    before.position < after.position := by
  obtain ⟨t, ht⟩ := List.exists_mem_of_ne_nil _ hsolid
  have := h.solid.inside t ht
  omega

theorem Step.Taken.warnings {s : Step} (h : s.Taken) :
    s.before.warnings.toList <+: s.after.warnings.toList ∧
      (s.after.warnings ≠ s.before.warnings → s.call.reads = true ∧ s.before.mode = .lenient) := by
  have hwarnings := s.before.answer_warnings s.call
  rwa [h] at hwarnings

theorem session_forward (lexer : Lexer) (calls : List Call) :
    (lexer.session calls).Pairwise fun s later => s.after.position ≤ later.before.position := by
  induction calls generalizing lexer with
  | nil => exact .nil
  | cons call calls ih =>
    exact List.pairwise_cons.2 ⟨fun later hlater => (mem_session hlater).1.position_le, ih _⟩

theorem session_stops {calls : List Call} {front back : List Step} {s : Step} {c : Char}
    {position : Nat} (h : (ofText text mode).session calls = front ++ s :: back)
    (hs : s.outcome = .error (.unexpected c position)) :
    s.after.position = position ∧ text.toList[position]? = some c ∧
      ∀ between later more, back = between ++ later :: more →
        (∀ other ∈ between, other.call.reads = true → other.before.mode = .strict) →
        later.call.reads = true → later.before.mode = .strict →
          later.outcome = .error (.unexpected c position) ∧ later.after = later.before := by
  obtain ⟨hpasses, htaken, calls', rfl⟩ := session_split h
  obtain ⟨hstuck, rfl⟩ := (hs ▸ htaken.comesTo).of_unexpected
  refine ⟨rfl, ?_, ?_⟩
  · obtain ⟨rest, hrest, -⟩ := hstuck
    rw [getElem?_of_passes (hpasses.trans htaken.passes), hrest]
    rfl
  · intro between later more hsplit hstrict hreads hmode
    obtain ⟨hlater, hposition⟩ := hstuck.session hsplit hstrict
    have hanswer := hlater.answer_eq hmode hreads
    obtain ⟨-, htaken', -⟩ := session_split hsplit
    obtain ⟨houtcome, hafter⟩ := Prod.mk.inj (htaken'.symm.trans hanswer)
    exact ⟨hposition ▸ houtcome, hafter⟩

theorem session_ends {calls : List Call} {front back : List Step} {s : Step} {ts : List Token}
    (h : (ofText text mode).session calls = front ++ s :: back) (hs : s.outcome = .ok ts)
    (hend : ∃ t ∈ ts, t.kind = .eof) :
    (∀ t ∈ ts, t.kind = .eof → t = Token.eof text.length) ∧
      ∀ later ∈ back, later.call.reads = true →
        later.outcome = .ok [Token.eof text.length] ∧ later.after = later.before := by
  obtain ⟨hpasses, htaken, calls', rfl⟩ := session_split h
  have hafter := hpasses.trans htaken.passes
  obtain ⟨hnothing, htokens⟩ := (hs ▸ htaken.comesTo).rest_eq_nil hend
  constructor
  · rwa [position_of_ended hafter hnothing] at htokens
  · intro later hlater hreads
    obtain ⟨hbefore, htaken'⟩ := mem_session hlater
    have hrest := hbefore.rest_eq_nil hnothing
    have hanswer := answer_of_ended hrest hreads
    rw [position_of_ended (hafter.trans hbefore) hrest] at hanswer
    exact Prod.mk.inj (htaken'.symm.trans hanswer)

theorem session_orderly (text : String) (mode : Mode) (calls : List Call) :
    Orderly text ((ofText text mode).session calls) where
  position s hs := by
    obtain ⟨hpasses, htaken⟩ := mem_session hs
    exact ⟨htaken.passes.position_le, position_le_of_passes (hpasses.trans htaken.passes)⟩
  forward := session_forward _ calls
  increasing := by
    obtain ⟨last, -, hbetween⟩ := session_between (ofText text mode) calls
    exact hbetween.ordered
  warnings s hs := (mem_session hs).2.warnings.1
  lenient s hs := (mem_session hs).2.warnings.2
  takes s hs := (mem_session hs).2.comesTo.advances
  passes s hs e he hother := by
    have hcomes := (mem_session hs).2.comesTo
    rw [he] at hcomes
    cases hcomes with
    | refused passed _ => exact passed
    | stuck _ _ => exact absurd rfl (hother _ _)
  stops front s back c position h hs := session_stops h hs
  ends front s back ts h hs hend := session_ends h hs hend

end Laws

/-! ### A strict lexer that is taken on in lenient mode -/

theorem Yields.passes {lexer last : Lexer} {ts : List Token} (h : lexer.Yields ts last) :
    lexer.Passes last := by
  induction h with
  | nil lexer => exact .refl lexer
  | @cons lexer after last t ts call more ih =>
    have hfirst := lexer.next_passes.1
    rw [call] at hfirst
    exact hfirst.trans ih

/-- A lexer that can still fail has not come to the end. -/
theorem Yields.not_eof {lexer last : Lexer} {ts : List Token} (h : lexer.Yields ts last)
    {e : LexError} (herror : last.next.1 = .error e) : ∀ t ∈ ts, t.kind ≠ .eof := by
  induction h with
  | nil => simp
  | @cons lexer after last t ts call more ih =>
    refine List.forall_mem_cons.2 ⟨fun hkind => ?_, ih herror⟩
    have hcomes := lexer.next_comesTo
    rw [call] at hcomes
    obtain ⟨hnothing, -⟩ := ComesTo.rest_eq_nil hcomes ⟨t, List.mem_cons_self, hkind⟩
    rw [next_of_ended (more.passes.rest_eq_nil hnothing)] at herror
    cases herror

theorem Yields.tokens_eq {lexer last : Lexer} {ts : List Token} (h : lexer.Yields ts last)
    (hts : ∀ t ∈ ts, t.kind ≠ .eof) :
    lexer.tokens = (last.tokens.1.map (ts ++ ·), last.tokens.2) := by
  induction h with
  | nil lexer => cases hread : lexer.tokens with
    | mk outcome after => cases outcome <;> rfl
  | @cons lexer after last t ts call more ih =>
    obtain ⟨ht, hts⟩ := List.forall_mem_cons.1 hts
    rw [tokens_of_token call ht, ih hts]
    cases last.tokens.1 <;> rfl

/-- What a strict lexer yields, a lenient one yields as well. -/
theorem Yields.lenient {lexer last : Lexer} {ts : List Token} (h : lexer.Yields ts last)
    (hmode : lexer.mode = .strict) :
    (lexer.withMode .lenient).Yields ts (last.withMode .lenient) := by
  induction h with
  | nil lexer => exact .nil _
  | @cons lexer after last t ts call more ih =>
    have hself : lexer.withMode .strict = lexer := by
      rw [← hmode]
      rfl
    rcases lexer.next_alike with ⟨u, after', hs, hl, -⟩ | ⟨e, event, hfails, -⟩
    · rw [hself, call] at hs
      cases hs
      exact .cons hl (ih rfl)
    · rw [hself, call] at hfails
      cases hfails

theorem tokens_skipBlanks (lexer : Lexer) : lexer.skipBlanks.tokens = lexer.tokens := by
  apply tokens_congr
  have hskip : lexer.skipBlanks.skipBlanks = lexer.skipBlanks :=
    skipBlanks_eq_self fun c hc => head?_dropWhile_neg (l := lexer.rest) hc
  rw [next, next, hskip]

/-- Where strict calls yield tokens and then come to an unknown character, a lenient call for the
rest comes to what a lenient reading of the whole text comes to: the tokens follow those that there
were, and the warnings are the same; or the error is the same. -/
theorem tokenize_of_yields {text : String} {ts : List Token} {last : Lexer} {c : Char}
    {position : Nat} (h : (ofText text .strict).Yields ts last)
    (herror : last.next.1 = .error (.unexpected c position)) :
    let resumed := (last.next.2.withMode .lenient).tokens
    tokenize text .lenient = resumed.1.map fun us => (ts ++ us, resumed.2.warnings.toList) := by
  have hblanks : last.next.2.withMode .lenient = (last.withMode .lenient).skipBlanks := by
    rw [next_of_unexpected herror]
    rfl
  have hlenient := (h.lenient rfl).tokens_eq (h.not_eof herror)
  change (ofText text .lenient).tokens = _ at hlenient
  intro resumed
  have hresumed : resumed = (last.withMode .lenient).tokens := by
    rw [← tokens_skipBlanks, ← hblanks]
  rw [tokenize, hlenient, ← hresumed]
  cases resumed with
  | mk outcome after => cases outcome <;> rfl

/-- A lexer over a text, whatever is asked of it and in whatever mode: it moves on through the
text, its tokens follow one another, and warnings are added by lenient calls alone; of the errors,
an unknown character stops every further strict call, and the others are passed; at the end of the
text it stays there. A strict lexer that is stopped by an unknown character can be taken on in
lenient mode, as if it had been lenient from the start. -/
theorem lexer_resumes (text : String) :
    (∀ mode calls, Orderly text ((ofText text mode).session calls)) ∧
      ∀ ts last c position, (ofText text .strict).Yields ts last →
        last.next.1 = .error (.unexpected c position) →
          let resumed := (last.next.2.withMode .lenient).tokens
          tokenize text .lenient =
            resumed.1.map fun us => (ts ++ us, resumed.2.warnings.toList) :=
  ⟨session_orderly text, fun _ _ _ _ h herror => tokenize_of_yields h herror⟩

/-- A strict lexer that is stopped behind its first token. -/
theorem lexer_resumes_at_dollar :
    (∀ s ∈ (ofText "a $ b" .strict).session [.next, .next, .tokenize, .switch .lenient, .next],
      s.after.position ≤ 5) ∧
    tokenize "a $ b" .lenient = .ok
      ([⟨.identifier, .symbol "a", 0⟩, ⟨.identifier, .symbol "b", 4⟩, Token.eof 5],
        [.dropped '$' 2]) := by
  obtain ⟨horderly, hresumes⟩ := lexer_resumes "a $ b"
  constructor
  · exact fun s hs => ((horderly _ _).position s hs).2
  · have hfirst : (ofText "a $ b" .strict).next =
        (.ok ⟨.identifier, .symbol "a", 0⟩, ⟨" $ b".toList, 1, .strict, #[]⟩) := by
      decide +kernel
    have hstopped : (Lexer.next ⟨" $ b".toList, 1, .strict, #[]⟩).1 =
        .error (.unexpected '$' 2) := by
      decide +kernel
    rw [hresumes _ _ _ _ (.cons hfirst (.nil _)) hstopped]
    decide +kernel

end Introspect.Lexer
