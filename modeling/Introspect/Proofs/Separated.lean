import Introspect.Proofs.Scan

/-!
Texts with a blank between them are read one by one. No lexeme goes on over the blank but a quoted
text that is not closed, and what is read behind it does not depend on what stands in front of it,
but for the positions.
-/
namespace Introspect

/-! The same thing found further on in a text. -/

def Token.shift (n : Nat) (t : Token) : Token :=
  { t with position := t.position + n }

def LexWarning.shift (n : Nat) : LexWarning → LexWarning
  | dropped c position => dropped c (position + n)
  | unclosed start => unclosed (start + n)
  | overflow digits position => overflow digits (position + n)

def LexError.shift (n : Nat) : LexError → LexError
  | unexpected c position => unexpected c (position + n)
  | unclosed start => unclosed (start + n)
  | invalidNumber digits position => invalidNumber digits (position + n)

namespace Lexeme

def Reading.shift (n : Nat) : Reading → Reading
  | token t => token (t.shift n)
  | mended t w => mended (t.shift n) (w.shift n)
  | dropped w => dropped (w.shift n)
  | refused e => refused (e.shift n)

def shiftAll (n : Nat) (found : List (Nat × Lexeme)) : List (Nat × Lexeme) :=
  found.map fun entry => (entry.1 + n, entry.2)

/-- A lexeme is read alike wherever it stands. -/
theorem read_shift (mode : Mode) (position n : Nat) (lexeme : Lexeme) :
    lexeme.read mode (position + n) = (lexeme.read mode position).shift n := by
  cases lexeme with
  | mark m => rfl
  | word chars => rfl
  | numeral whole fraction =>
    simp only [read, readNumeral]
    split
    · rfl
    · split
      · rfl
      · split <;> rfl
  | quoted quote body closed => cases closed <;> cases mode <;> rfl
  | foreign c => cases mode <;> rfl

/-- A text is cut alike wherever it stands. -/
theorem Splits.shift {position : Nat} {cs : List Char} {found : List (Nat × Lexeme)}
    (h : Splits position cs found) (n : Nat) : Splits (position + n) cs (shiftAll n found) := by
  induction h with
  | blanks blank => exact .blanks blank
  | @lexeme position gap rest lexeme found blank munch solid more ih =>
    have hstart : position + gap.length + n = position + n + gap.length := by omega
    have hbehind : position + gap.length + lexeme.chars.length + n =
        position + n + gap.length + lexeme.chars.length := by
      omega
    rw [hbehind] at ih
    rw [shiftAll, List.map_cons, hstart]
    exact .lexeme blank munch solid ih

theorem readAll_shift (mode : Mode) (stop n : Nat) (found : List (Nat × Lexeme)) :
    readAll mode (stop + n) (shiftAll n found) =
      (((readAll mode stop found).1.map (·.map (Token.shift n))).mapError (LexError.shift n),
        (readAll mode stop found).2.map (LexWarning.shift n)) := by
  induction found with
  | nil => rfl
  | cons entry found ih =>
    obtain ⟨position, lexeme⟩ := entry
    rw [shiftAll, List.map_cons, ← shiftAll, readAll, readAll, read_shift, ih]
    cases lexeme.read mode position with
    | token t => cases (readAll mode stop found).1 <;> rfl
    | mended t w => cases (readAll mode stop found).1 <;> rfl
    | dropped w => rfl
    | refused e => rfl

/-- Whether a lexeme is a quoted text that is not closed. -/
def IsUnclosed (lexeme : Lexeme) : Prop :=
  ∃ quote body, lexeme = quoted quote body false

/-- Of a quoted text that is not closed there is a warning, if it is not refused. -/
theorem not_isUnclosed_of_readAll {mode : Mode} {stop : Nat} {found : List (Nat × Lexeme)}
    {ts : List Token} {ws : List LexWarning} (h : readAll mode stop found = (.ok ts, ws))
    (hclosed : ∀ start, .unclosed start ∉ ws) : ∀ entry ∈ found, ¬ entry.2.IsUnclosed := by
  induction found generalizing ts ws with
  | nil => simp
  | cons entry found ih =>
    obtain ⟨us, vs, hmore, hcase⟩ := readAll_cons_ok h
    have hlater : ∀ start, .unclosed start ∉ vs := by
      intro start hmem
      apply hclosed start
      rcases hcase with ⟨-, -, -, rfl⟩ | ⟨-, w, -, -, rfl⟩ | ⟨w, -, -, rfl⟩
      · exact hmem
      · exact List.mem_cons_of_mem w hmem
      · exact List.mem_cons_of_mem w hmem
    refine List.forall_mem_cons.2 ⟨?_, ih hmore hlater⟩
    obtain ⟨position, lexeme⟩ := entry
    rintro ⟨quote, body, rfl⟩
    cases mode with
    | strict => simp [read] at hcase
    | lenient =>
      obtain ⟨-, rfl⟩ : ts = _ ∧ ws = .unclosed position :: vs := by simpa [read] using hcase
      exact hclosed position List.mem_cons_self

/-- A blank ends every lexeme but a quoted text that is not closed. -/
theorem Splits.append {position : Nat} {cs cs' : List Char} {found found' : List (Nat × Lexeme)}
    {w : Char} (h : Splits position cs found) (hclosed : ∀ entry ∈ found, ¬ entry.2.IsUnclosed)
    (hw : Text.isBlank w = true) (h' : Splits (position + cs.length + 1) cs' found') :
    Splits position (cs ++ w :: cs') (found ++ found') := by
  induction h with
  | @blanks position cs blank =>
    rw [List.append_cons]
    apply Splits.behind_blanks (List.forall_mem_append.2 ⟨blank, List.forall_mem_singleton.2 hw⟩)
    rwa [List.length_append]
  | @lexeme position gap rest lexeme found blank munch solid more ih =>
    obtain ⟨hfirst, hmore⟩ := List.forall_mem_cons.1 hclosed
    have hlength : position + (gap ++ (lexeme.chars ++ rest)).length + 1 =
        position + gap.length + lexeme.chars.length + rest.length + 1 := by
      simp only [List.length_append]
      omega
    rw [hlength] at h'
    have hmunch : lexeme.Munches (rest ++ w :: cs') := by
      apply munch.congr
      · intro quote body heq
        exact absurd ⟨quote, body, heq⟩ hfirst
      · -- What comes behind the lexeme is another character only if the text ends with it.
        cases rest with
        | nil => simp [hw]
        | cons c rest => simp
    rw [List.append_assoc, List.append_assoc]
    exact .lexeme blank hmunch solid (ih hmore h')

/-- The end of a text is no longer an end of input where something follows. -/
theorem readAll_append {mode : Mode} {stop : Nat} {found : List (Nat × Lexeme)}
    {body : List Token} {ws : List LexWarning}
    (h : readAll mode stop found = (.ok (body ++ [Token.eof stop]), ws)) (stop' : Nat)
    (found' : List (Nat × Lexeme)) :
    readAll mode stop' (found ++ found') =
      ((readAll mode stop' found').1.map (body ++ ·), ws ++ (readAll mode stop' found').2) := by
  induction found generalizing body ws with
  | nil =>
    obtain ⟨hbody, rfl⟩ := Prod.mk.inj h
    have hnil : body = [] := by simpa [eq_comm] using hbody
    subst hnil
    cases hread : readAll mode stop' found' with
    | mk outcome vs => cases outcome <;> simp [hread, Except.map]
  | cons entry found ih =>
    obtain ⟨position, lexeme⟩ := entry
    obtain ⟨us, vs, hmore, hcase⟩ := readAll_cons_ok h
    obtain ⟨body', rfl, -⟩ := tokens_of_readAll hmore
    rw [List.cons_append, readAll, ih hmore]
    rcases hcase with ⟨t, hread, hbody, rfl⟩ | ⟨t, w, hread, hbody, rfl⟩ | ⟨w, hread, hbody, rfl⟩
    · obtain rfl : body = t :: body' := List.append_cancel_right hbody
      rw [hread]
      cases (readAll mode stop' found').1 <;> rfl
    · obtain rfl : body = t :: body' := List.append_cancel_right hbody
      rw [hread]
      cases (readAll mode stop' found').1 <;> rfl
    · obtain rfl : body = body' := List.append_cancel_right hbody
      rw [hread]
      rfl

end Lexeme

open Lexeme

/-- Behind a text that is read to its end, with all quotes closed, and a blank, any other text is
read as on its own: its tokens and warnings follow those of the first, or its error comes, all of
them further on by the length of what stands in front. -/
theorem tokenize_separated {mode : Mode} {a b : String} {w : Char} {body : List Token} {e : Token}
    {ws : List LexWarning} (hw : Text.isBlank w = true)
    (h : tokenize a mode = .ok (body ++ [e], ws)) (hclosed : ∀ start, .unclosed start ∉ ws) :
    tokenize (a ++ String.singleton w ++ b) mode =
      match tokenize b mode with
      | .ok (us, vs) =>
        .ok (body ++ us.map (Token.shift (a.length + 1)),
          ws ++ vs.map (LexWarning.shift (a.length + 1)))
      | .error e => .error (e.shift (a.length + 1)) := by
  obtain ⟨found, hsplits⟩ := exists_splits 0 a.toList
  obtain ⟨found', hsplits'⟩ := exists_splits 0 b.toList
  have hread := readAll_of_tokenize hsplits h
  obtain ⟨body', hbody, -⟩ := tokens_of_readAll hread
  obtain ⟨rfl, he⟩ := List.append_inj' hbody rfl
  rw [he] at hread
  have hjoined : Splits 0 (a ++ String.singleton w ++ b).toList
      (found ++ shiftAll (a.length + 1) found') := by
    have hstart : 0 + (a.length + 1) = 0 + a.toList.length + 1 := by
      rw [String.length_toList, Nat.add_assoc]
    have hbehind := hsplits'.shift (a.length + 1)
    rw [hstart] at hbehind
    have := hsplits.append (not_isUnclosed_of_readAll hread hclosed) hw hbehind
    simpa using this
  have hlength : (a ++ String.singleton w ++ b).length = b.length + (a.length + 1) := by
    simp only [String.length_append, String.length_singleton]
    omega
  rw [tokenize_of_splits hjoined, tokenize_of_splits hsplits', hlength, readAll_append hread,
    readAll_shift]
  cases (readAll mode b.length found').1 <;> rfl

/-- Behind a number that ends in a point, and a no-break space: a character to drop and a word. -/
theorem tokenize_separated_mixed :
    tokenize ("a 7." ++ String.singleton '\u00a0' ++ "$x") .lenient = .ok
      ([⟨.identifier, .symbol "a", 0⟩,
        ⟨.number, .literal (.float (.ofBits 0x401c000000000000)), 2⟩,
        ⟨.identifier, .symbol "x", 6⟩, Token.eof 7], [.dropped '$' 5]) := by
  have h : tokenize "a 7." .lenient = .ok
      ([⟨.identifier, .symbol "a", 0⟩,
        ⟨.number, .literal (.float (.ofBits 0x401c000000000000)), 2⟩] ++ [Token.eof 4], []) := by
    decide +kernel
  have hb : tokenize "$x" .lenient = .ok
      ([⟨.identifier, .symbol "x", 1⟩, Token.eof 2], [.dropped '$' 0]) := by
    decide +kernel
  rw [tokenize_separated (by decide) h (by simp), hb]
  rfl

end Introspect
