import Introspect.Lexer
import Introspect.Proofs.Munch
import Mathlib.Data.List.Forall2

/-!
A text splits into blanks and lexemes in one way, which does not depend on the mode. What a lexer
gives is what its mode makes of the lexemes, read one after another.
-/
namespace Introspect

namespace Lexeme

/-- `Splits position cs found`: the text `cs`, which starts at `position`, consists of blanks and
of the lexemes `found`, each with the position at which it starts. -/
inductive Splits : Nat → List Char → List (Nat × Lexeme) → Prop
  | blanks {position : Nat} {cs : List Char} (blank : ∀ c ∈ cs, Text.isBlank c = true) :
      Splits position cs []
  | lexeme {position : Nat} {gap rest : List Char} {lexeme : Lexeme} {found : List (Nat × Lexeme)}
      (blank : ∀ c ∈ gap, Text.isBlank c = true) (munch : lexeme.Munches rest)
      (solid : ∀ c ∈ lexeme.chars.head?, Text.isBlank c = false)
      (more : Splits (position + gap.length + lexeme.chars.length) rest found) :
      Splits position (gap ++ (lexeme.chars ++ rest)) ((position + gap.length, lexeme) :: found)

theorem exists_splits (position : Nat) (cs : List Char) : ∃ found, Splits position cs found := by
  induction hn : cs.length using Nat.strongRecOn generalizing position cs with
  | ind n ih =>
    have whole := List.takeWhile_append_dropWhile (p := Text.isBlank) (l := cs)
    have blank : ∀ c ∈ cs.takeWhile Text.isBlank, Text.isBlank c = true :=
      fun c hc => List.mem_takeWhile_imp hc
    cases hd : cs.dropWhile Text.isBlank with
    | nil =>
      rw [hd, List.append_nil] at whole
      exact ⟨[], .blanks (whole ▸ blank)⟩
    | cons c rest =>
      obtain ⟨front, munch⟩ := cut_munches c rest
      obtain ⟨d, ds, hchars, -⟩ := munch.exists_cons
      have solid : ∀ d ∈ (cut c rest).1.chars.head?, Text.isBlank d = false := by
        intro d hd'
        refine head?_dropWhile_neg (l := cs) ?_
        rw [hd, ← front, List.head?_append, hd']
        rfl
      rw [hd, ← front] at whole
      have shorter : (cut c rest).2.length < n := by
        have := congrArg List.length whole
        simp only [List.length_append, hchars, List.length_cons] at this
        omega
      obtain ⟨found, more⟩ := ih _ shorter (position + (cs.takeWhile Text.isBlank).length
        + (cut c rest).1.chars.length) _ rfl
      have splits := Splits.lexeme blank munch solid more
      rw [whole] at splits
      exact ⟨_, splits⟩

/-- Blanks in front of a text only move it. -/
theorem Splits.behind_blanks {position : Nat} {gap cs : List Char} {found : List (Nat × Lexeme)}
    (blank : ∀ c ∈ gap, Text.isBlank c = true) (h : Splits (position + gap.length) cs found) :
    Splits position (gap ++ cs) found := by
  generalize hstart : position + gap.length = start at h
  cases h with
  | blanks more => exact .blanks (List.forall_mem_append.2 ⟨blank, more⟩)
  | @lexeme _ gap' rest lexeme found more munch solid later =>
    have hgap : start + gap'.length = position + (gap ++ gap').length := by
      rw [List.length_append]
      omega
    rw [hgap] at later ⊢
    rw [← List.append_assoc]
    exact .lexeme (List.forall_mem_append.2 ⟨blank, more⟩) munch solid later

/-- Lexemes stand in the text where they say. -/
theorem Splits.stands {position : Nat} {cs : List Char} {found : List (Nat × Lexeme)}
    (h : Splits position cs found) {entry : Nat × Lexeme} (hmem : entry ∈ found) :
    ∃ before rest, cs = before ++ (entry.2.chars ++ rest) ∧
      entry.1 = position + before.length ∧ entry.2.Munches rest := by
  induction h with
  | blanks => simp at hmem
  | @lexeme position gap rest lexeme found blank munch solid more ih =>
    rcases List.mem_cons.1 hmem with rfl | hmem
    · exact ⟨gap, rest, rfl, rfl, munch⟩
    · obtain ⟨before, behind, rfl, hposition, hmunch⟩ := ih hmem
      refine ⟨gap ++ (lexeme.chars ++ before), behind, by simp, ?_, hmunch⟩
      simp [hposition, Nat.add_assoc]

/-- Reads lexemes one after another: the tokens or the first refusal, and the notes made by then. -/
def readAll (mode : Mode) (stop : Nat) :
    List (Nat × Lexeme) → Except LexError (List Token) × List LexWarning
  | [] => (.ok [Token.eof stop], [])
  | (position, lexeme) :: more =>
    let later := readAll mode stop more
    match lexeme.read mode position with
    | .token t => (later.1.map (t :: ·), later.2)
    | .mended t w => (later.1.map (t :: ·), w :: later.2)
    | .dropped w => (later.1, w :: later.2)
    | .refused e => (.error e, [])

/-- Reading succeeds one lexeme at a time. -/
theorem readAll_cons_ok {mode : Mode} {stop : Nat} {entry : Nat × Lexeme}
    {found : List (Nat × Lexeme)} {ts : List Token} {ws : List LexWarning}
    (h : readAll mode stop (entry :: found) = (.ok ts, ws)) :
    ∃ us vs, readAll mode stop found = (.ok us, vs) ∧
      ((∃ t, entry.2.read mode entry.1 = .token t ∧ ts = t :: us ∧ ws = vs) ∨
        (∃ t w, entry.2.read mode entry.1 = .mended t w ∧ ts = t :: us ∧ ws = w :: vs) ∨
        ∃ w, entry.2.read mode entry.1 = .dropped w ∧ ts = us ∧ ws = w :: vs) := by
  obtain ⟨position, lexeme⟩ := entry
  rw [readAll] at h
  cases hlater : readAll mode stop found with
  | mk outcome vs =>
    rw [hlater] at h
    cases outcome with
    | error e => cases hread : lexeme.read mode position <;> simp [hread, Except.map] at h
    | ok us =>
      refine ⟨us, vs, rfl, ?_⟩
      cases hread : lexeme.read mode position with
      | token t =>
        obtain ⟨rfl, rfl⟩ : t :: us = ts ∧ vs = ws := by simpa [hread, Except.map] using h
        exact .inl ⟨t, rfl, rfl, rfl⟩
      | mended t w =>
        obtain ⟨rfl, rfl⟩ : t :: us = ts ∧ w :: vs = ws := by simpa [hread, Except.map] using h
        exact .inr (.inl ⟨t, w, rfl, rfl, rfl⟩)
      | dropped w =>
        obtain ⟨rfl, rfl⟩ : us = ts ∧ w :: vs = ws := by simpa [hread] using h
        exact .inr (.inr ⟨w, rfl, rfl, rfl⟩)
      | refused e => simp [hread] at h

/-- The number that digits are read as, where they are not read as an integer. -/
def floatOf (whole : List Char) (fraction : Option (List Char)) : Binary64 :=
  (decimal whole (fraction.getD [])).toBinary64 false

/-- Everything that a lexeme can be read as. -/
inductive Reads : Mode → Nat → Lexeme → Reading → Prop
  | mark {mode : Mode} {position : Nat} (m : Mark) :
      Reads mode position (.mark m)
        (.token ⟨.mark m, .symbol (String.singleton m.char), position⟩)
  | word {mode : Mode} {position : Nat} (chars : List Char) :
      Reads mode position (.word chars)
        (.token ⟨wordKind chars, .symbol (String.ofList chars), position⟩)
  | integer {mode : Mode} {position : Nat} {whole : List Char}
      (small : Nat.ofDigitChars 10 whole 0 < 0x8000000000000000) :
      Reads mode position (.numeral whole none)
        (.token ⟨.number, .literal (.integer (Int64.ofNat (Nat.ofDigitChars 10 whole 0))),
          position⟩)
  | overflow {position : Nat} {whole : List Char}
      (large : 0x8000000000000000 ≤ Nat.ofDigitChars 10 whole 0)
      (finite : (floatOf whole none).isFinite = true) :
      Reads .lenient position (.numeral whole none)
        (.mended ⟨.number, .literal (.float (floatOf whole none)), position⟩
          (.overflow (String.ofList whole) position))
  | large {position : Nat} {whole : List Char}
      (large : 0x8000000000000000 ≤ Nat.ofDigitChars 10 whole 0) :
      Reads .strict position (.numeral whole none)
        (.refused (.invalidNumber (String.ofList whole) position))
  | infinite {position : Nat} {whole : List Char}
      (large : 0x8000000000000000 ≤ Nat.ofDigitChars 10 whole 0)
      (infinite : (floatOf whole none).isFinite = false) :
      Reads .lenient position (.numeral whole none)
        (.refused (.invalidNumber (String.ofList whole) position))
  | float {mode : Mode} {position : Nat} {whole fraction : List Char}
      (finite : (floatOf whole (some fraction)).isFinite = true) :
      Reads mode position (.numeral whole (some fraction))
        (.token ⟨.number, .literal (.float (floatOf whole (some fraction))), position⟩)
  | infiniteFloat {mode : Mode} {position : Nat} {whole fraction : List Char}
      (infinite : (floatOf whole (some fraction)).isFinite = false) :
      Reads mode position (.numeral whole (some fraction))
        (.refused (.invalidNumber (String.ofList (whole ++ '.' :: fraction)) position))
  | closed {mode : Mode} {position : Nat} (quote : Char) (body : List Char) :
      Reads mode position (.quoted quote body true)
        (.token ⟨.string, .literal (.text (String.ofList body)), position⟩)
  | unclosed {position : Nat} (quote : Char) (body : List Char) :
      Reads .lenient position (.quoted quote body false)
        (.mended ⟨.string, .literal (.text (String.ofList body)), position⟩ (.unclosed position))
  | unclosedStrict {position : Nat} (quote : Char) (body : List Char) :
      Reads .strict position (.quoted quote body false) (.refused (.unclosed position))
  | foreign {position : Nat} (c : Char) :
      Reads .lenient position (.foreign c) (.dropped (.dropped c position))
  | foreignStrict {position : Nat} (c : Char) :
      Reads .strict position (.foreign c) (.refused (.unexpected c position))

theorem readNumeral_reads (mode : Mode) (position : Nat) (whole : List Char)
    (fraction : Option (List Char)) :
    Reads mode position (.numeral whole fraction) (readNumeral mode position whole fraction) := by
  cases fraction with
  | none =>
    by_cases small : Nat.ofDigitChars 10 whole 0 < 0x8000000000000000
    · rw [readNumeral, if_pos ⟨rfl, small⟩]
      exact .integer small
    · have large := Nat.le_of_not_lt small
      rw [readNumeral, if_neg fun h => small h.2]
      cases mode with
      | strict => exact .large large
      | lenient =>
        cases finite : (floatOf whole none).isFinite with
        | true =>
          rw [if_neg (by simpa [floatOf] using finite)]
          exact .overflow large finite
        | false =>
          rw [if_pos (by simpa [floatOf] using finite)]
          exact .infinite large finite
  | some fraction =>
    rw [readNumeral, if_neg (by simp)]
    cases finite : (floatOf whole (some fraction)).isFinite with
    | true =>
      rw [if_neg (by simpa [floatOf] using finite)]
      exact .float finite
    | false =>
      rw [if_pos (by simpa [floatOf] using finite)]
      exact .infiniteFloat finite

theorem read_reads (mode : Mode) (position : Nat) (lexeme : Lexeme) :
    Reads mode position lexeme (lexeme.read mode position) := by
  cases lexeme with
  | mark m => exact .mark m
  | word chars => exact .word chars
  | numeral whole fraction => exact readNumeral_reads mode position whole fraction
  | quoted quote body closed =>
    cases closed with
    | true => exact .closed quote body
    | false =>
      cases mode with
      | lenient => exact .unclosed quote body
      | strict => exact .unclosedStrict quote body
  | foreign c =>
    cases mode with
    | lenient => exact .foreign c
    | strict => exact .foreignStrict c

theorem wordKind_cases (chars : List Char) :
    (∃ k, wordKind chars = .keyword k) ∨ wordKind chars = .identifier := by
  unfold wordKind
  split
  · exact .inl ⟨_, rfl⟩
  · exact .inr rfl

/-- Only the end of the text is an end of input. -/
theorem Reads.ne_eof {mode : Mode} {position : Nat} {lexeme : Lexeme} {t : Token}
    (h : Reads mode position lexeme (.token t) ∨ ∃ w, Reads mode position lexeme (.mended t w)) :
    t.kind ≠ .eof := by
  rcases h with h | ⟨w, h⟩
  · cases h with
    | word chars => rcases wordKind_cases chars with ⟨k, hkind⟩ | hkind <;> simp [hkind]
    | _ => simp
  · cases h <;> simp

/-- Whether a lexeme stands for a token. -/
def isSolid : Lexeme → Bool
  | foreign _ => false
  | _ => true

theorem isSolid_eq_false_iff {lexeme : Lexeme} :
    lexeme.isSolid = false ↔ ∃ c, lexeme = .foreign c := by
  cases lexeme <;> simp [isSolid]

/-- Only a strict lexer refuses a lexeme for what it is, not for what it says. -/
theorem Reads.refused {mode : Mode} {position : Nat} {lexeme : Lexeme} {e : LexError}
    (h : Reads mode position lexeme (.refused e)) :
    (∃ c, lexeme = .foreign c ∧ mode = .strict ∧ e = .unexpected c position) ∨
      lexeme.isSolid = true ∧ ∀ c start, e ≠ .unexpected c start := by
  cases h with
  | foreignStrict c => exact .inl ⟨c, rfl, rfl, rfl⟩
  | _ => exact .inr ⟨rfl, by simp⟩

/-- A reading that gives a token. -/
def Gives (mode : Mode) (entry : Nat × Lexeme) (t : Token) : Prop :=
  entry.2.read mode entry.1 = .token t ∨ ∃ w, entry.2.read mode entry.1 = .mended t w

theorem Gives.reads {mode : Mode} {entry : Nat × Lexeme} {t : Token} (h : Gives mode entry t) :
    Reads mode entry.1 entry.2 (.token t) ∨ ∃ w, Reads mode entry.1 entry.2 (.mended t w) := by
  have hreads := read_reads mode entry.1 entry.2
  rcases h with hread | ⟨w, hread⟩
  · rw [hread] at hreads
    exact .inl hreads
  · rw [hread] at hreads
    exact .inr ⟨w, hreads⟩

theorem Gives.position {mode : Mode} {entry : Nat × Lexeme} {t : Token} (h : Gives mode entry t) :
    t.position = entry.1 := by
  obtain ⟨position, lexeme⟩ := entry
  rcases h.reads with hreads | ⟨w, hreads⟩
  · cases hreads <;> rfl
  · cases hreads <;> rfl

theorem isSolid_of_gives {mode : Mode} {entry : Nat × Lexeme} {t : Token}
    (h : Gives mode entry t) : entry.2.isSolid = true := by
  obtain ⟨position, lexeme⟩ := entry
  cases lexeme with
  | foreign c => cases mode <;> simp [Gives, read] at h
  | _ => rfl

theorem foreign_of_dropped {mode : Mode} {position : Nat} {lexeme : Lexeme} {w : LexWarning}
    (h : lexeme.read mode position = .dropped w) :
    ∃ c, lexeme = .foreign c ∧ w = .dropped c position := by
  have hreads := read_reads mode position lexeme
  rw [h] at hreads
  cases hreads
  exact ⟨_, rfl, rfl⟩

/-- What a lexer notes down about a lexeme that it does not refuse. -/
def note? (mode : Mode) (entry : Nat × Lexeme) : Option LexWarning :=
  match entry.2.read mode entry.1 with
  | .mended _ w | .dropped w => some w
  | .token _ | .refused _ => none

theorem note?_eq_some_iff {mode : Mode} {entry : Nat × Lexeme} {w : LexWarning} :
    note? mode entry = some w ↔ (∃ t, entry.2.read mode entry.1 = .mended t w) ∨
      entry.2.read mode entry.1 = .dropped w := by
  unfold note?
  split <;> simp_all

theorem position_of_note? {mode : Mode} {entry : Nat × Lexeme} {w : LexWarning}
    (h : note? mode entry = some w) : w.position = entry.1 := by
  obtain ⟨position, lexeme⟩ := entry
  have hreads := read_reads mode position lexeme
  rcases note?_eq_some_iff.1 h with ⟨t, hread⟩ | hread
  · rw [hread] at hreads
    cases hreads <;> rfl
  · rw [hread] at hreads
    cases hreads
    rfl

theorem eq_foreign_of_note? {mode : Mode} {entry : Nat × Lexeme} {c : Char} {position : Nat}
    (h : note? mode entry = some (.dropped c position)) : entry = (position, foreign c) := by
  obtain ⟨start, lexeme⟩ := entry
  have hreads := read_reads mode start lexeme
  rcases note?_eq_some_iff.1 h with ⟨t, hread⟩ | hread
  · rw [hread] at hreads
    cases hreads
  · rw [hread] at hreads
    cases hreads
    rfl

/-- Where nothing is refused, each lexeme that stands for a token gives one. -/
theorem tokens_of_readAll {mode : Mode} {stop : Nat} {found : List (Nat × Lexeme)}
    {ts : List Token} {ws : List LexWarning} (h : readAll mode stop found = (.ok ts, ws)) :
    ∃ body, ts = body ++ [Token.eof stop] ∧
      List.Forall₂ (Gives mode) (found.filter (·.2.isSolid)) body := by
  induction found generalizing ts ws with
  | nil =>
    obtain ⟨⟨⟩, -⟩ := Prod.mk.inj h
    exact ⟨[], rfl, .nil⟩
  | cons entry found ih =>
    obtain ⟨us, vs, hmore, hcase⟩ := readAll_cons_ok h
    obtain ⟨body, rfl, hbody⟩ := ih hmore
    rcases hcase with ⟨t, hread, rfl, -⟩ | ⟨t, w, hread, rfl, -⟩ | ⟨w, hread, rfl, -⟩
    · have hgives : Gives mode entry t := .inl hread
      simp only [List.filter_cons, isSolid_of_gives hgives, if_true]
      exact ⟨t :: body, rfl, .cons hgives hbody⟩
    · have hgives : Gives mode entry t := .inr ⟨w, hread⟩
      simp only [List.filter_cons, isSolid_of_gives hgives, if_true]
      exact ⟨t :: body, rfl, .cons hgives hbody⟩
    · obtain ⟨c, hforeign, -⟩ := foreign_of_dropped hread
      rw [List.filter_cons_of_neg (by simp [hforeign, isSolid])]
      exact ⟨body, rfl, hbody⟩

/-- The warnings are the notes, and a foreign character is only ever dropped. -/
theorem warnings_of_readAll {mode : Mode} {stop : Nat} {found : List (Nat × Lexeme)}
    {ts : List Token} {ws : List LexWarning} (h : readAll mode stop found = (.ok ts, ws)) :
    ws = found.filterMap (note? mode) ∧
      ∀ position c, (position, foreign c) ∈ found → .dropped c position ∈ ws := by
  induction found generalizing ts ws with
  | nil =>
    obtain ⟨-, rfl⟩ := Prod.mk.inj h
    simp
  | cons entry found ih =>
    obtain ⟨us, vs, hmore, hcase⟩ := readAll_cons_ok h
    obtain ⟨rfl, hdropped⟩ := ih hmore
    rcases hcase with ⟨t, hread, -, rfl⟩ | ⟨t, w, hread, -, rfl⟩ | ⟨w, hread, -, rfl⟩
    · refine ⟨by simp [note?, hread], fun position c hmem => ?_⟩
      rcases List.mem_cons.1 hmem with rfl | hmem
      · exact absurd (isSolid_of_gives (.inl hread)) (by simp [isSolid])
      · exact hdropped position c hmem
    · refine ⟨by simp [note?, hread], fun position c hmem => ?_⟩
      rcases List.mem_cons.1 hmem with rfl | hmem
      · exact absurd (isSolid_of_gives (.inr ⟨w, hread⟩)) (by simp [isSolid])
      · exact List.mem_cons_of_mem _ (hdropped position c hmem)
    · refine ⟨by simp [note?, hread], fun position c hmem => ?_⟩
      rcases List.mem_cons.1 hmem with rfl | hmem
      · obtain ⟨d, hd, rfl⟩ := foreign_of_dropped hread
        cases hd
        exact List.mem_cons_self
      · exact List.mem_cons_of_mem _ (hdropped position c hmem)

end Lexeme

namespace Lexer
open Lexeme

theorem tokens_congr {lexer lexer' : Lexer} (h : lexer.next = lexer'.next) :
    lexer.tokens = lexer'.tokens := by
  rw [tokens, tokens, h]

theorem tokens_of_error {lexer after : Lexer} {e : LexError} (h : lexer.next = (.error e, after)) :
    lexer.tokens = (.error e, after) := by
  rw [tokens]
  split <;> simp_all

theorem tokens_of_eof {lexer after : Lexer} {t : Token} (h : lexer.next = (.ok t, after))
    (ht : t.kind = .eof) : lexer.tokens = (.ok [t], after) := by
  rw [tokens]
  split
  · simp_all
  · rename_i u last hu
    obtain ⟨⟨⟩, rfl⟩ := Prod.mk.inj (hu.symm.trans h)
    rw [dif_pos ht]

theorem tokens_of_token {lexer after : Lexer} {t : Token} (h : lexer.next = (.ok t, after))
    (ht : t.kind ≠ .eof) :
    lexer.tokens = (after.tokens.1.map (t :: ·), after.tokens.2) := by
  rw [tokens]
  split
  · simp_all
  · rename_i u last hu
    obtain ⟨⟨⟩, rfl⟩ := Prod.mk.inj (hu.symm.trans h)
    rw [dif_neg ht]
    split <;> rename_i hlast <;> simp [hlast, Except.map]

/-- What each call does to a lexer, reading to the end does as well. -/
theorem tokens_of_next {R : Lexer → Lexer → Prop}
    (trans : ∀ {before mid after : Lexer}, R before mid → R mid after → R before after)
    (step : ∀ lexer : Lexer, R lexer lexer.next.2) (lexer : Lexer) : R lexer lexer.tokens.2 := by
  fun_induction tokens lexer with
  | case1 lexer e after hnext | case2 lexer t after hnext =>
    simpa only [hnext] using step lexer
  | case3 lexer t after hnext hmore e last hlast ih
  | case4 lexer t after hnext hmore ts last hlast ih =>
    have hfirst := step lexer
    rw [hnext] at hfirst
    rw [hlast] at ih
    exact trans hfirst ih

/-- The lexer behind the blanks `gap` and a lexeme. -/
def beyond (lexer : Lexer) (gap : List Char) (lexeme : Lexeme) (rest : List Char) : Lexer :=
  { lexer with rest, position := lexer.position + gap.length + lexeme.chars.length }

theorem skipBlanks_of_gap {lexer : Lexer} {gap rest : List Char}
    (blank : ∀ c ∈ gap, Text.isBlank c = true) (solid : ∀ c ∈ rest.head?, Text.isBlank c = false)
    (h : lexer.rest = gap ++ rest) :
    lexer.skipBlanks = { lexer with rest, position := lexer.position + gap.length } := by
  simp [skipBlanks, Text.dropBlanks, h, takeWhile_run blank solid, dropWhile_run blank solid]

/-- A step of the lexer: it skips blanks and reads one lexeme. -/
theorem next_of_lexeme {lexer : Lexer} {gap rest : List Char} {lexeme : Lexeme}
    (blank : ∀ c ∈ gap, Text.isBlank c = true) (munch : lexeme.Munches rest)
    (solid : ∀ c ∈ lexeme.chars.head?, Text.isBlank c = false)
    (h : lexer.rest = gap ++ (lexeme.chars ++ rest)) :
    lexer.next = match lexeme.read lexer.mode (lexer.position + gap.length) with
      | .token t => (.ok t, lexer.beyond gap lexeme rest)
      | .mended t w => (.ok t, (lexer.beyond gap lexeme rest).warn w)
      | .dropped w => ((lexer.beyond gap lexeme rest).warn w).next
      | .refused e => (.error e,
          if lexeme = .foreign (lexeme.chars.headD ' ') then lexer.skipBlanks
          else lexer.beyond gap lexeme rest) := by
  obtain ⟨c, cs, hchars, -⟩ := munch.exists_cons
  have solid' : ∀ c ∈ (lexeme.chars ++ rest).head?, Text.isBlank c = false := by
    intro d hd
    exact solid d (by simpa [hchars] using hd)
  have hskip := skipBlanks_of_gap blank solid' h
  rw [next]
  split
  · rename_i hnil
    simp [hskip, hchars] at hnil
  · rename_i d ds hcons
    have front : lexeme.chars ++ rest = d :: ds := by simpa [hskip] using hcons
    have hd : lexeme.chars.headD ' ' = d := by
      rw [hchars, List.cons_append, List.cons.injEq] at front
      simp [hchars, front.1]
    simp only [cut_of_munches munch front, hd]
    rw [hskip]
    rfl

theorem next_of_blanks {lexer : Lexer} (blank : ∀ c ∈ lexer.rest, Text.isBlank c = true) :
    lexer.next = (.ok (Token.eof (lexer.position + lexer.rest.length)), lexer.skipBlanks) := by
  have hskip := skipBlanks_of_gap blank (by simp) (List.append_nil lexer.rest).symm
  rw [next]
  split
  · simp [hskip]
  · rename_i c rest hcons
    simp [hskip] at hcons

/-- What the lexer gives for the rest of a text is what its lexemes are read as. -/
theorem tokens_of_splits {position : Nat} {cs : List Char} {found : List (Nat × Lexeme)}
    (h : Splits position cs found) (lexer : Lexer) (hrest : lexer.rest = cs)
    (hposition : lexer.position = position) :
    lexer.tokens.1 = (readAll lexer.mode (position + cs.length) found).1 ∧
      lexer.tokens.2.warnings.toList =
        lexer.warnings.toList ++ (readAll lexer.mode (position + cs.length) found).2 := by
  -- The lexer goes on from behind each lexeme, with a warning more if the lexeme had one.
  induction h generalizing lexer with
  | blanks blank =>
    subst hrest hposition
    rw [tokens_of_eof (next_of_blanks blank) rfl]
    simp [readAll, skipBlanks]
  | @lexeme position gap rest lexeme found blank munch solid more ih =>
    subst hposition
    have hnext := next_of_lexeme blank munch solid hrest
    have hstop : lexer.position + (gap ++ (lexeme.chars ++ rest)).length =
        lexer.position + gap.length + lexeme.chars.length + rest.length := by
      simp [Nat.add_assoc]
    have hbeyond := ih (lexer.beyond gap lexeme rest) rfl rfl
    have hwarn := fun w => ih ((lexer.beyond gap lexeme rest).warn w) rfl rfl
    have hreads := read_reads lexer.mode (lexer.position + gap.length) lexeme
    rw [hstop, readAll]
    cases hread : lexeme.read lexer.mode (lexer.position + gap.length) with
    | token t =>
      simp only [hread] at hnext hreads ⊢
      rw [tokens_of_token hnext (Reads.ne_eof (.inl hreads)), hbeyond.1]
      exact ⟨rfl, hbeyond.2⟩
    | mended t w =>
      simp only [hread] at hnext hreads ⊢
      rw [tokens_of_token hnext (Reads.ne_eof (.inr ⟨w, hreads⟩)), (hwarn w).1]
      refine ⟨rfl, (hwarn w).2.trans ?_⟩
      simp [warn, beyond]
    | dropped w =>
      -- No token: the next one is that of the lexer behind the character.
      simp only [hread] at hnext ⊢
      rw [tokens_congr hnext]
      refine ⟨(hwarn w).1, (hwarn w).2.trans ?_⟩
      simp [warn, beyond]
    | refused e =>
      simp only [hread] at hnext ⊢
      rw [tokens_of_error hnext]
      refine ⟨rfl, ?_⟩
      split <;> simp [skipBlanks, beyond]

end Lexer

theorem tokenize_eq_ok_iff {text : String} {mode : Mode} {ts : List Token} {ws : List LexWarning} :
    tokenize text mode = .ok (ts, ws) ↔ (Lexer.ofText text mode).tokens.1 = .ok ts ∧
      (Lexer.ofText text mode).tokens.2.warnings.toList = ws := by
  unfold tokenize
  cases (Lexer.ofText text mode).tokens with
  | mk outcome last => cases outcome <;> simp

theorem tokenize_eq_error_iff {text : String} {mode : Mode} {e : LexError} :
    tokenize text mode = .error e ↔ (Lexer.ofText text mode).tokens.1 = .error e := by
  unfold tokenize
  cases (Lexer.ofText text mode).tokens with
  | mk outcome last => cases outcome <;> simp

open Lexeme in
/-- Tokens and warnings of a text are what its lexemes are read as. -/
theorem tokenize_of_splits {text : String} {found : List (Nat × Lexeme)}
    (h : Splits 0 text.toList found) (mode : Mode) :
    tokenize text mode =
      (readAll mode text.length found).1.map (·, (readAll mode text.length found).2) := by
  obtain ⟨htokens, hwarnings⟩ := Lexer.tokens_of_splits h (Lexer.ofText text mode) rfl rfl
  rw [Nat.zero_add, String.length_toList] at htokens hwarnings
  change _ = (readAll mode text.length found).1 at htokens
  change _ = (readAll mode text.length found).2 at hwarnings
  rw [tokenize, ← htokens, ← hwarnings]
  cases (Lexer.ofText text mode).tokens with
  | mk outcome last => cases outcome <;> rfl

theorem readAll_of_tokenize {text : String} {found : List (Nat × Lexeme)}
    (hsplits : Lexeme.Splits 0 text.toList found) {mode : Mode} {ts : List Token}
    {ws : List LexWarning} (h : tokenize text mode = .ok (ts, ws)) :
    Lexeme.readAll mode text.length found = (.ok ts, ws) := by
  rw [tokenize_of_splits hsplits] at h
  cases hread : Lexeme.readAll mode text.length found with
  | mk outcome vs =>
    rw [hread] at h
    cases outcome with
    | error e => simp [Except.map] at h
    | ok us =>
      obtain ⟨rfl, rfl⟩ : us = ts ∧ vs = ws := by simpa [Except.map] using h
      rfl

namespace Lexeme

/-- A token that is read off a lexeme of the text, from where the lexeme stands. -/
def ReadOff (mode : Mode) (cs : List Char) (t : Token) : Prop :=
  ∃ before lexeme rest, cs = before ++ (lexeme.chars ++ rest) ∧ lexeme.Munches rest ∧
    Gives mode (before.length, lexeme) t

theorem ReadOff.ne_eof {mode : Mode} {cs : List Char} {t : Token} (h : ReadOff mode cs t) :
    t.kind ≠ .eof := by
  obtain ⟨before, lexeme, rest, -, -, hgives⟩ := h
  exact Reads.ne_eof hgives.reads

theorem ReadOff.position_lt {mode : Mode} {cs : List Char} {t : Token} (h : ReadOff mode cs t) :
    t.position < cs.length := by
  obtain ⟨before, lexeme, rest, rfl, hmunch, hgives⟩ := h
  obtain ⟨c, cs, hchars, -⟩ := hmunch.exists_cons
  simp only [hgives.position, hchars, List.length_append, List.length_cons]
  omega

end Lexeme

theorem exists_of_forall₂ {R : α → β → Prop} {l : List α} {l' : List β} (h : List.Forall₂ R l l')
    {b : β} (hb : b ∈ l') : ∃ a ∈ l, R a b := by
  obtain ⟨k, hk, rfl⟩ := List.getElem_of_mem hb
  have hk' : k < l.length := h.length_eq ▸ hk
  exact ⟨l[k], List.getElem_mem hk', h.get hk' hk⟩

/-- The tokens of a text are read off its lexemes, but for the end of input behind them. -/
theorem readOff_of_tokenize {text : String} {mode : Mode} {ts : List Token} {ws : List LexWarning}
    (h : tokenize text mode = .ok (ts, ws)) :
    ∃ body, ts = body ++ [Token.eof text.length] ∧
      ∀ t ∈ body, Lexeme.ReadOff mode text.toList t := by
  obtain ⟨found, hsplits⟩ := Lexeme.exists_splits 0 text.toList
  obtain ⟨body, rfl, hbody⟩ := Lexeme.tokens_of_readAll (readAll_of_tokenize hsplits h)
  refine ⟨body, rfl, ?_⟩
  intro t ht
  obtain ⟨entry, hentry, hgives⟩ := exists_of_forall₂ hbody ht
  obtain ⟨before, rest, hcs, hposition, hmunch⟩ := hsplits.stands (List.mem_filter.1 hentry).1
  rw [Lexeme.Gives, hposition, Nat.zero_add] at hgives
  exact ⟨before, _, rest, hcs, hmunch, hgives⟩

end Introspect
