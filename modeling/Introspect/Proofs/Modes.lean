import Introspect.Engine
import Introspect.Proofs.Run
import Introspect.Proofs.Scan
import Mathlib.Data.List.Infix

/-!
Strict and lenient reading of one text. They give the same tokens up to the first thing that is not
in the language. There the strict lexer fails, and the lenient one notes the same thing down, or
fails as well if it cannot be mended.
-/
namespace Introspect

/-- What a lexer tells of apart from its tokens. -/
inductive LexEvent where
  | noted (w : LexWarning)
  | raised (e : LexError)
deriving DecidableEq

/-- The event of a lenient lexer at what makes a strict one fail with an error. -/
inductive LexError.Counterpart : LexError → LexEvent → Prop
  | dropped (c : Char) (position : Nat) :
      Counterpart (.unexpected c position) (.noted (.dropped c position))
  | unclosed (start : Nat) : Counterpart (.unclosed start) (.noted (.unclosed start))
  | overflow (digits : String) (position : Nat) :
      Counterpart (.invalidNumber digits position) (.noted (.overflow digits position))
  | invalidNumber (digits : String) (position : Nat) :
      Counterpart (.invalidNumber digits position) (.raised (.invalidNumber digits position))

namespace Lexeme

def Reading.event? : Reading → Option LexEvent
  | .token _ => none
  | .mended _ w => some (.noted w)
  | .dropped w => some (.noted w)
  | .refused e => some (.raised e)

/-- Both modes read a lexeme as the same token, or the strict one refuses it. -/
def ReadAlike (strict lenient : Reading) : Prop :=
  (∃ t, strict = .token t ∧ lenient = .token t) ∨
    ∃ e event, strict = .refused e ∧ lenient.event? = some event ∧ e.Counterpart event

theorem Reads.alike {position : Nat} {lexeme : Lexeme} {strict lenient : Reading}
    (hs : Reads .strict position lexeme strict) (hl : Reads .lenient position lexeme lenient) :
    ReadAlike strict lenient := by
  cases hs with
  | mark m =>
    cases hl
    exact .inl ⟨_, rfl, rfl⟩
  | word chars =>
    cases hl
    exact .inl ⟨_, rfl, rfl⟩
  | integer small =>
    cases hl with
    | integer _ => exact .inl ⟨_, rfl, rfl⟩
    | overflow large _ => omega
    | infinite large _ => omega
  | large large =>
    cases hl with
    | integer small => omega
    | overflow _ _ => exact .inr ⟨_, _, rfl, rfl, .overflow _ _⟩
    | infinite _ _ => exact .inr ⟨_, _, rfl, rfl, .invalidNumber _ _⟩
  | float finite =>
    cases hl with
    | float _ => exact .inl ⟨_, rfl, rfl⟩
    | infiniteFloat infinite => simp [finite] at infinite
  | infiniteFloat infinite =>
    cases hl with
    | float finite => simp [infinite] at finite
    | infiniteFloat _ => exact .inr ⟨_, _, rfl, rfl, .invalidNumber _ _⟩
  | closed quote body =>
    cases hl
    exact .inl ⟨_, rfl, rfl⟩
  | unclosedStrict quote body =>
    cases hl
    exact .inr ⟨_, _, rfl, rfl, .unclosed position⟩
  | foreignStrict c =>
    cases hl
    exact .inr ⟨_, _, rfl, rfl, .dropped c position⟩

theorem read_alike (position : Nat) (lexeme : Lexeme) :
    ReadAlike (lexeme.read .strict position) (lexeme.read .lenient position) :=
  (read_reads .strict position lexeme).alike (read_reads .lenient position lexeme)

end Lexeme

namespace Lexer
open Lexeme

/-- The events of a call, in their order: what it notes down, and the error that may end it. -/
def events (before : Lexer) (call : Except LexError α × Lexer) : List LexEvent :=
  (call.2.warnings.toList.drop before.warnings.size).map .noted ++
    match call.1 with
    | .ok _ => []
    | .error e => [.raised e]

/-- `lexer.Yields ts after`: one call after another gives the tokens `ts`, and leaves `after`. -/
inductive Yields : Lexer → List Token → Lexer → Prop
  | nil (lexer : Lexer) : Yields lexer [] lexer
  | cons {lexer after last : Lexer} {t : Token} {ts : List Token}
      (call : lexer.next = (.ok t, after)) (more : Yields after ts last) :
      Yields lexer (t :: ts) last

/-- From `lexer` on, both modes yield the tokens `ts` and note nothing. The next call, from `here`,
ends strict reading with the error `e`, and `event` is what lenient reading comes to first in this
call, and first of all. -/
structure Parts (lexer : Lexer) (ts : List Token) (here : Lexer) (e : LexError) (event : LexEvent) :
    Prop where
  strict : (lexer.withMode .strict).Yields ts (here.withMode .strict)
  lenient : (lexer.withMode .lenient).Yields ts (here.withMode .lenient)
  unnoted : here.warnings = lexer.warnings
  fails : (here.withMode .strict).next.1 = .error e
  meets : (events here (here.withMode .lenient).next).head? = some event
  first : (events lexer (lexer.withMode .lenient).tokens).head? = some event
  counterpart : e.Counterpart event

@[simp] theorem mode_withMode (lexer : Lexer) (mode : Mode) : (lexer.withMode mode).mode = mode :=
  rfl

@[simp] theorem position_withMode (lexer : Lexer) (mode : Mode) :
    (lexer.withMode mode).position = lexer.position :=
  rfl

theorem warnings_warn (lexer : Lexer) (w : LexWarning) :
    (lexer.warn w).warnings.toList = lexer.warnings.toList ++ [w] :=
  Array.toList_push

/-- Notes are only ever added. -/
theorem next_warnings (lexer : Lexer) :
    lexer.warnings.toList <+: lexer.next.2.warnings.toList := by
  fun_induction next lexer with
  | case1 => exact List.prefix_refl _
  | case2 => exact List.prefix_refl _
  | case3 _ _ _ _ _ _ _ _ w => exact ⟨[w], (warnings_warn _ w).symm⟩
  | case4 _ _ _ _ _ _ _ w _ ih =>
    rw [warnings_warn] at ih
    exact (List.prefix_append _ [w]).trans ih
  | case5 => split <;> exact List.prefix_refl _

/-- A lexer has blanks before it, or blanks and a lexeme. -/
theorem rest_cases (lexer : Lexer) :
    (∀ c ∈ lexer.rest, Text.isBlank c = true) ∨
      ∃ (gap rest : List Char) (lexeme : Lexeme), lexer.rest = gap ++ (lexeme.chars ++ rest) ∧
        (∀ c ∈ gap, Text.isBlank c = true) ∧ lexeme.Munches rest ∧
        ∀ c ∈ lexeme.chars.head?, Text.isBlank c = false := by
  obtain ⟨found, hsplits⟩ := exists_splits lexer.position lexer.rest
  generalize lexer.rest = cs at hsplits ⊢
  cases hsplits with
  | blanks blank => exact .inl blank
  | @lexeme _ gap rest lexeme found blank munch solid more =>
    exact .inr ⟨gap, rest, lexeme, rfl, blank, munch, solid⟩

theorem events_of_warnings {before : Lexer} {call : Except LexError α × Lexer} {w : LexWarning}
    (h : before.warnings.toList ++ [w] <+: call.2.warnings.toList) :
    (events before call).head? = some (.noted w) := by
  obtain ⟨ws, hws⟩ := h
  unfold events
  rw [← hws, List.append_assoc, ← Array.length_toList, List.drop_left]
  rfl

theorem events_of_error {before : Lexer} {call : Except LexError α × Lexer} {e : LexError}
    (herror : call.1 = .error e) (h : call.2.warnings = before.warnings) :
    events before call = [.raised e] := by
  unfold events
  rw [herror, h, ← Array.length_toList, List.drop_length]
  rfl

section Lexeme
variable {lexer : Lexer} {gap rest : List Char} {lexeme : Lexeme}

theorem next_of_refused (blank : ∀ c ∈ gap, Text.isBlank c = true) (munch : lexeme.Munches rest)
    (solid : ∀ c ∈ lexeme.chars.head?, Text.isBlank c = false)
    (h : lexer.rest = gap ++ (lexeme.chars ++ rest)) {e : LexError}
    (hread : lexeme.read lexer.mode (lexer.position + gap.length) = .refused e) :
    lexer.next.1 = .error e ∧ lexer.next.2.warnings = lexer.warnings := by
  have hnext := next_of_lexeme blank munch solid h
  simp only [hread] at hnext
  rw [hnext]
  refine ⟨rfl, ?_⟩
  dsimp only
  split <;> rfl

/-- What a lexer has to tell of a lexeme comes before all that it tells of what is behind it. -/
theorem events_of_lexeme (blank : ∀ c ∈ gap, Text.isBlank c = true) (munch : lexeme.Munches rest)
    (solid : ∀ c ∈ lexeme.chars.head?, Text.isBlank c = false)
    (h : lexer.rest = gap ++ (lexeme.chars ++ rest)) {event : LexEvent}
    (hevent : (lexeme.read lexer.mode (lexer.position + gap.length)).event? = some event) :
    (events lexer lexer.next).head? = some event := by
  have hnext := next_of_lexeme blank munch solid h
  cases hread : lexeme.read lexer.mode (lexer.position + gap.length) with
  | token t =>
    rw [hread] at hevent
    cases hevent
  | mended t w =>
    simp only [hread] at hnext hevent
    cases hevent
    rw [hnext]
    apply events_of_warnings
    exact warnings_warn (lexer.beyond gap lexeme rest) w ▸ List.prefix_refl _
  | dropped w =>
    simp only [hread] at hnext hevent
    cases hevent
    rw [hnext]
    apply events_of_warnings
    exact warnings_warn (lexer.beyond gap lexeme rest) w ▸ next_warnings _
  | refused e =>
    rw [hread] at hevent
    cases hevent
    obtain ⟨herror, hwarnings⟩ := next_of_refused blank munch solid h hread
    rw [events_of_error herror hwarnings]
    rfl

end Lexeme

/-- A call in both modes: the same token and nothing noted, or an error of the strict lexer, the
counterpart of which is what the lenient one comes to first. -/
theorem next_alike (lexer : Lexer) :
    (∃ (t : Token) (after : Lexer),
      (lexer.withMode .strict).next = (.ok t, after.withMode .strict) ∧
      (lexer.withMode .lenient).next = (.ok t, after.withMode .lenient) ∧
      after.warnings = lexer.warnings) ∨
    ∃ e event, (lexer.withMode .strict).next.1 = .error e ∧
      (lexer.withMode .strict).next.2.warnings = lexer.warnings ∧
      (events lexer (lexer.withMode .lenient).next).head? = some event ∧
      e.Counterpart event := by
  rcases lexer.rest_cases with blank | ⟨gap, rest, lexeme, hrest, blank, munch, solid⟩
  · left
    refine ⟨Token.eof (lexer.position + lexer.rest.length), lexer.skipBlanks, ?_, ?_, rfl⟩
    · exact next_of_blanks (show ∀ c ∈ (lexer.withMode .strict).rest, _ from blank)
    · exact next_of_blanks (show ∀ c ∈ (lexer.withMode .lenient).rest, _ from blank)
  have hs : (lexer.withMode .strict).rest = gap ++ (lexeme.chars ++ rest) := hrest
  have hl : (lexer.withMode .lenient).rest = gap ++ (lexeme.chars ++ rest) := hrest
  rcases read_alike (lexer.position + gap.length) lexeme with
    ⟨t, hts, htl⟩ | ⟨e, event, herror, hevent, hcounterpart⟩
  · left
    have hstrict := next_of_lexeme blank munch solid hs
    have hlenient := next_of_lexeme blank munch solid hl
    simp only [mode_withMode, position_withMode, hts, htl] at hstrict hlenient
    exact ⟨t, lexer.beyond gap lexeme rest, hstrict, hlenient, rfl⟩
  · right
    obtain ⟨hfails, hwarnings⟩ := next_of_refused blank munch solid hs herror
    exact ⟨e, event, hfails, hwarnings, events_of_lexeme blank munch solid hl hevent, hcounterpart⟩

theorem tokens_warnings (lexer : Lexer) :
    lexer.warnings.toList <+: lexer.tokens.2.warnings.toList :=
  tokens_of_next (R := fun before after => before.warnings.toList <+: after.warnings.toList)
    List.IsPrefix.trans next_warnings lexer

theorem events_map (before : Lexer) (call : Except LexError α × Lexer) (f : α → β) :
    events before (call.1.map f, call.2) = events before call := by
  obtain ⟨outcome, last⟩ := call
  cases outcome <;> rfl

theorem events_next (before lexer : Lexer) :
    events before lexer.next <+: events before lexer.tokens := by
  cases hnext : lexer.next with
  | mk outcome after =>
    cases outcome with
    | error e =>
      rw [tokens_of_error hnext]
      exact List.prefix_refl _
    | ok t =>
      by_cases ht : t.kind = .eof
      · rw [tokens_of_eof hnext ht]
        exact List.prefix_refl _
      · rw [tokens_of_token hnext ht, events_map]
        simp only [events, List.append_nil]
        have hlater := List.IsPrefix.drop (tokens_warnings after) before.warnings.size
        exact (hlater.map LexEvent.noted).trans (List.prefix_append _ _)

/-- Reading to the end in both modes. Either the strict lexer comes to the end, and the lenient one
gives the same tokens without a note; or the modes part where the strict lexer fails. In no case
has the strict lexer noted anything. -/
theorem tokens_alike (lexer : Lexer) :
    (∃ (ts : List Token) (last : Lexer),
      (lexer.withMode .strict).tokens = (.ok ts, last.withMode .strict) ∧
      (lexer.withMode .lenient).tokens = (.ok ts, last.withMode .lenient) ∧
      last.warnings = lexer.warnings) ∨
    ∃ e event ts here, (lexer.withMode .strict).tokens.1 = .error e ∧
      (lexer.withMode .strict).tokens.2.warnings = lexer.warnings ∧
      lexer.Parts ts here e event := by
  induction hn : lexer.rest.length using Nat.strongRecOn generalizing lexer with
  | ind n ih =>
    rcases lexer.next_alike with
      ⟨t, after, hs, hl, hwarnings⟩ | ⟨e, event, hfails, hwarnings, hmeets, hcounterpart⟩
    · by_cases ht : t.kind = .eof
      · exact .inl ⟨[t], after, tokens_of_eof hs ht, tokens_of_eof hl ht, hwarnings⟩
      have shorter : after.rest.length < n := hn ▸ (next_shorter hs).resolve_left ht
      rw [tokens_of_token hs ht, tokens_of_token hl ht, ← hwarnings]
      rcases ih _ shorter after rfl with
        ⟨ts, last, hts, htl, hlast⟩ | ⟨e, event, ts, here, herror, hnone, hparts⟩
      · left
        rw [hts, htl]
        exact ⟨t :: ts, last, rfl, rfl, hlast⟩
      · right
        refine ⟨e, event, t :: ts, here, by rw [herror]; rfl, hnone, ?_⟩
        have hsame (call : Except LexError (List Token) × Lexer) :
            events lexer call = events after call := by
          rw [events, events, hwarnings]
        have hfirst := hparts.first
        rw [← hsame, ← events_map _ _ (t :: ·), ← tokens_of_token hl ht] at hfirst
        exact ⟨.cons hs hparts.strict, .cons hl hparts.lenient, hparts.unnoted.trans hwarnings,
          hparts.fails, hparts.meets, hfirst, hparts.counterpart⟩
    · right
      have htokens := tokens_of_error (Prod.ext hfails rfl :
        (lexer.withMode .strict).next = (.error e, (lexer.withMode .strict).next.2))
      refine ⟨e, event, [], lexer, by rw [htokens], by rw [htokens]; exact hwarnings,
        .nil _, .nil _, rfl, hfails, hmeets, ?_, hcounterpart⟩
      obtain ⟨others, hothers⟩ := events_next lexer (lexer.withMode .lenient)
      rw [← hothers, List.head?_append, hmeets]
      rfl

end Lexer

open Lexer

/-- A text in both modes: the same tokens and no note, or an error in strict mode, where the modes
part. -/
theorem tokenize_alike (text : String) :
    (∃ ts, tokenize text .strict = .ok (ts, []) ∧ tokenize text .lenient = .ok (ts, [])) ∨
    ∃ e event ts here, tokenize text .strict = .error e ∧
      (Lexer.ofText text .strict).Parts ts here e event := by
  rcases (Lexer.ofText text .strict).tokens_alike with
    ⟨ts, last, hs, hl, hwarnings⟩ | ⟨e, event, ts, here, herror, -, hparts⟩
  · have hnil : last.warnings.toList = [] := by rw [hwarnings]; rfl
    left
    refine ⟨ts, tokenize_eq_ok_iff.2 ?_, tokenize_eq_ok_iff.2 ?_⟩
    · exact ⟨congrArg Prod.fst hs, (congrArg (·.2.warnings.toList) hs).trans hnil⟩
    · exact ⟨congrArg Prod.fst hl, (congrArg (·.2.warnings.toList) hl).trans hnil⟩
  · exact .inr ⟨e, event, ts, here, tokenize_eq_error_iff.2 herror, hparts⟩

/-- A reading without an error and without a note has no events. -/
theorem events_eq_nil {text : String} {mode : Mode} {ts : List Token} (before : Lexer)
    (h : tokenize text mode = .ok (ts, [])) :
    events before (Lexer.ofText text mode).tokens = [] := by
  obtain ⟨hts, hwarnings⟩ := tokenize_eq_ok_iff.1 h
  unfold events
  rw [hts, hwarnings, List.drop_nil]
  rfl

theorem tokenize_strict_eq_ok_iff {text : String} {ts : List Token} {ws : List LexWarning} :
    tokenize text .strict = .ok (ts, ws) ↔ ws = [] ∧ tokenize text .lenient = .ok (ts, []) := by
  rcases tokenize_alike text with ⟨us, hs, hl⟩ | ⟨e, event, us, here, hs, hparts⟩
  · rw [hs, hl]
    simp [and_comm, eq_comm]
  · rw [hs]
    constructor
    · intro h
      cases h
    · rintro ⟨-, hl⟩
      have hfirst := hparts.first
      rw [show (Lexer.ofText text .strict).withMode .lenient = Lexer.ofText text .lenient from rfl,
        events_eq_nil _ hl] at hfirst
      cases hfirst

theorem check_strict_eq_ok_iff {text : String} {q : Query} {ws : List LexWarning} :
    Query.check text .strict = .ok (q, ws) ↔
      ws = [] ∧ Query.check text .lenient = .ok (q, []) := by
  simp only [Query.check_eq_ok_iff, tokenize_strict_eq_ok_iff]
  tauto

theorem strict_keeps_warnings {lexer : Lexer} (h : lexer.mode = .strict) :
    lexer.next.2.warnings = lexer.warnings ∧ lexer.tokens.2.warnings = lexer.warnings := by
  have hself : lexer.withMode .strict = lexer := by rw [← h]; rfl
  constructor
  · rcases lexer.next_alike with ⟨t, after, hs, -, hwarnings⟩ | ⟨e, event, -, hwarnings, -⟩
    · rw [hself] at hs
      rw [hs]
      exact hwarnings
    · rwa [hself] at hwarnings
  · rcases lexer.tokens_alike with
      ⟨ts, last, hs, -, hwarnings⟩ | ⟨e, event, ts, here, -, hwarnings, -⟩
    · rw [hself] at hs
      rw [hs]
      exact hwarnings
    · rwa [hself] at hwarnings

/-- Strict and lenient reading agree up to the first thing that is not in the language. A text
lexes in strict mode just if it lexes in lenient mode without a note, and then to the same tokens;
a strict lexer notes nothing. Where strict reading fails, both modes yield the same tokens up to
there, and the first event of lenient reading is the counterpart of the error. So a query that is
read in strict mode is read in lenient mode, and the other way round if there was no note. -/
theorem strict_lenient_agree :
    (∀ text ts ws, tokenize text .strict = .ok (ts, ws) ↔
      ws = [] ∧ tokenize text .lenient = .ok (ts, [])) ∧
    (∀ lexer : Lexer, lexer.mode = .strict →
      lexer.next.2.warnings = lexer.warnings ∧ lexer.tokens.2.warnings = lexer.warnings) ∧
    (∀ text e, tokenize text .strict = .error e →
      ∃ ts here event, (Lexer.ofText text .strict).Parts ts here e event) ∧
    (∀ text q, Query.parse text .strict = .ok q → Query.parse text .lenient = .ok q) ∧
    ∀ {σ : Type} (registry : Registry σ) (config : Config) text q,
      Engine.check ⟨registry, { config with mode := .lenient }⟩ text = .ok (q, []) ↔
        Engine.check ⟨registry, { config with mode := .strict }⟩ text = .ok (q, []) := by
  refine ⟨fun _ _ _ => tokenize_strict_eq_ok_iff, fun _ => strict_keeps_warnings, ?_, ?_, ?_⟩
  · intro text e h
    rcases tokenize_alike text with ⟨us, hs, -⟩ | ⟨f, event, ts, here, hs, hparts⟩
    · rw [h] at hs
      cases hs
    · cases h.symm.trans hs
      exact ⟨ts, here, event, hparts⟩
  · intro text q h
    obtain ⟨ws, hcheck⟩ := Query.parse_eq_ok_iff_check.1 h
    exact Query.parse_eq_ok_iff_check.2 ⟨[], (check_strict_eq_ok_iff.1 hcheck).2⟩
  · intro σ registry config text q
    unfold Engine.check
    rw [check_strict_eq_ok_iff, and_iff_right rfl]

/-- A foreign character behind two tokens and in front of an integer past 63 bits; then a query
without anything to mend. -/
theorem modes_part_at_dollar :
    (Lexer.ofText "a 7 $ 99999999999999999999" .strict).next.2.warnings = #[] ∧
    (∃ ts here, (Lexer.ofText "a 7 $ 99999999999999999999" .strict).Parts ts here
      (.unexpected '$' 4) (.noted (.dropped '$' 4))) ∧
    Query.parse "introspect \x7b select a from s \x7d" .lenient = .ok (Query.plain ["a"] "s") := by
  have hfails : tokenize "a 7 $ 99999999999999999999" .strict = .error (.unexpected '$' 4) := by
    decide +kernel
  have hparse : Query.parse "introspect \x7b select a from s \x7d" .strict =
      .ok (Query.plain ["a"] "s") := by
    decide +kernel
  obtain ⟨-, hkeeps, hparts, hquery, -⟩ := strict_lenient_agree
  refine ⟨(hkeeps _ rfl).1, ?_, hquery _ _ hparse⟩
  obtain ⟨ts, here, event, h⟩ := hparts _ _ hfails
  cases h.counterpart
  exact ⟨ts, here, h⟩

end Introspect
