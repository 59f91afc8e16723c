import Introspect.Lexeme
import Mathlib.Data.List.TakeWhile

/-!
Maximal munch. A lexeme is cut where it cannot go on: the lexeme, the rest and the fact that the
rest does not extend it determine the cut, whichever reader made it.
-/
namespace Introspect

/-- The marks a quoted text may start with. -/
def IsQuote (c : Char) : Prop :=
  c = '"' ∨ c = '\''

instance : DecidablePred IsQuote :=
  fun _ => inferInstanceAs (Decidable (_ ∨ _))

theorem Mark.ofChar?_eq_some_iff {c : Char} {m : Mark} : Mark.ofChar? c = some m ↔ m.char = c := by
  constructor
  · intro h
    simpa using List.find?_some h
  · rintro rfl
    cases m <;> decide

theorem toNat_of_isAlpha {c : Char} (h : c.isAlpha = true) :
    65 ≤ c.toNat ∧ c.toNat ≤ 90 ∨ 97 ≤ c.toNat ∧ c.toNat ≤ 122 := by
  rcases Bool.or_eq_true_iff.1 h with hupper | hlower
  · obtain ⟨hlow, hhigh⟩ := of_decide_eq_true hupper
    exact .inl ⟨UInt32.le_iff_toNat_le.1 hlow, UInt32.le_iff_toNat_le.1 hhigh⟩
  · obtain ⟨hlow, hhigh⟩ := Bool.and_eq_true_iff.1 hlower
    exact .inr ⟨UInt32.le_iff_toNat_le.1 (of_decide_eq_true hlow),
      UInt32.le_iff_toNat_le.1 (of_decide_eq_true hhigh)⟩

theorem toNat_of_isDigit {c : Char} (h : c.isDigit = true) : 48 ≤ c.toNat ∧ c.toNat ≤ 57 := by
  simpa [Char.isDigit, UInt32.le_iff_toNat_le] using h

/-- Among ASCII characters, words start with the Latin letters and the underscore. -/
theorem isAlpha_of_startsWord {c : Char} (h : startsWord c = true) (hlow : c.toNat < 0x80) :
    c.isAlpha = true ∨ c = '_' := by
  simpa [startsWord, Text.isLetter, hlow] using h

theorem inWord_of_startsWord {c : Char} (h : startsWord c = true) : inWord c = true := by
  simp only [startsWord, inWord, Bool.or_eq_true] at h ⊢
  exact h.imp_left .inl

theorem startsWord_not_digit {c : Char} (h : startsWord c = true) : c.isDigit = false := by
  by_contra hd
  have hdigit := toNat_of_isDigit (c := c) (by simpa using hd)
  rcases isAlpha_of_startsWord h (by omega) with halpha | rfl
  · have := toNat_of_isAlpha halpha
    omega
  · exact absurd hdigit (by decide)

/-- The blanks past ASCII. -/
def wideBlanks : List Nat :=
  [0x85, 0xa0, 0x1680, 0x2000, 0x2001, 0x2002, 0x2003, 0x2004, 0x2005, 0x2006, 0x2007, 0x2008,
   0x2009, 0x200a, 0x2028, 0x2029, 0x202f, 0x205f, 0x3000]

theorem toNat_of_isBlank {c : Char} (h : Text.isBlank c = true) :
    9 ≤ c.toNat ∧ c.toNat ≤ 32 ∨ c.toNat ∈ wideBlanks := by
  simp only [Text.isBlank, Text.inRuns, Text.blankBounds, Text.insideRuns, Bool.not_false,
    Bool.not_true, Bool.if_true_left, Bool.if_false_left, Bool.and_eq_true, Bool.or_eq_true,
    Bool.not_eq_true', decide_eq_true_eq, decide_eq_false_iff_not, Bool.false_eq_true,
    or_false] at h
  simp only [wideBlanks, List.mem_cons, List.not_mem_nil, or_false]
  omega

theorem startsWord_not_blank {c : Char} (h : startsWord c = true) : Text.isBlank c = false := by
  by_contra hb
  have hb : Text.isBlank c = true := by simpa using hb
  have wide : ∀ n ∈ wideBlanks, ¬ n < 0x80 ∧ Text.insideRuns n false Text.letterBounds = false := by
    decide +kernel
  rcases toNat_of_isBlank hb with hlow | hwide
  · rcases isAlpha_of_startsWord h (by omega) with halpha | rfl
    · have := toNat_of_isAlpha halpha
      omega
    · exact absurd hb (by decide)
  · obtain ⟨hhigh, hout⟩ := wide _ hwide
    have hne : c ≠ '_' := by rintro rfl; exact hhigh (by decide)
    simp [startsWord, Text.isLetter, Text.inRuns, hhigh, hout, hne] at h

theorem digit_not_blank {c : Char} (h : c.isDigit = true) : Text.isBlank c = false := by
  by_contra hb
  have hdigit := toNat_of_isDigit h
  have wide : ∀ n ∈ wideBlanks, 57 < n := by decide
  rcases toNat_of_isBlank (c := c) (by simpa using hb) with hlow | hwide
  · omega
  · have := wide _ hwide
    omega

theorem numeral_not_blank {c : Char} (h : Text.isNumeral c = true) : Text.isBlank c = false := by
  by_contra hb
  have hb : Text.isBlank c = true := by simpa using hb
  have wide : ∀ n ∈ wideBlanks,
      ¬ n < 0x80 ∧ Text.insideRuns n false Text.numeralBounds = false := by
    decide +kernel
  unfold Text.isNumeral at h
  rcases toNat_of_isBlank hb with hlow | hwide
  · rw [if_pos (by omega)] at h
    simp [digit_not_blank h] at hb
  · obtain ⟨hhigh, hout⟩ := wide _ hwide
    rw [if_neg hhigh, Text.inRuns, hout] at h
    cases h

/-- A blank ends a word. -/
theorem inWord_not_blank {c : Char} (h : inWord c = true) : Text.isBlank c = false := by
  have hsorts : startsWord c = true ∨ Text.isNumeral c = true := by
    simp only [inWord, startsWord, Bool.or_eq_true] at h ⊢
    exact or_right_comm.1 h
  rcases hsorts with hstart | hnumeral
  · exact startsWord_not_blank hstart
  · exact numeral_not_blank hnumeral

theorem startsWord_not_quote {c : Char} (h : startsWord c = true) : ¬ IsQuote c := by
  rintro (rfl | rfl) <;> exact absurd h (by decide)

theorem startsWord_not_mark {c : Char} (h : startsWord c = true) : Mark.ofChar? c = none := by
  refine Option.eq_none_iff_forall_ne_some.2 fun m hm => ?_
  obtain rfl := Mark.ofChar?_eq_some_iff.1 hm
  cases m <;> exact absurd h (by decide)

theorem digit_not_quote {c : Char} (h : c.isDigit = true) : ¬ IsQuote c := by
  rintro (rfl | rfl) <;> exact absurd h (by decide)

theorem digit_not_mark {c : Char} (h : c.isDigit = true) : Mark.ofChar? c = none := by
  refine Option.eq_none_iff_forall_ne_some.2 fun m hm => ?_
  obtain rfl := Mark.ofChar?_eq_some_iff.1 hm
  cases m <;> exact absurd h (by decide)

theorem quote_not_mark {c : Char} (h : IsQuote c) : Mark.ofChar? c = none := by
  rcases h with rfl | rfl <;> decide

theorem Keyword.ofSpelling?_eq_some_iff {word : String} {k : Keyword} :
    ofSpelling? word = some k ↔ k.spelling = word := by
  constructor
  · intro h
    simpa using List.find?_some h
  · rintro rfl
    cases k <;> decide

/-- A word is a keyword if it is one when written in capitals. -/
theorem Lexeme.wordKind_eq_keyword_iff {cs : List Char} {k : Keyword} :
    wordKind cs = .keyword k ↔ Text.upperAscii? cs = some k.spelling.toList := by
  cases hupper : Text.upperAscii? cs with
  | none => simp [wordKind, hupper]
  | some upper =>
    have hspelling : Keyword.ofSpelling? (String.ofList upper) = some k ↔
        upper = k.spelling.toList := by
      rw [Keyword.ofSpelling?_eq_some_iff, eq_comm, ← String.toList_inj, String.toList_ofList]
    rw [Option.some.injEq, ← hspelling]
    cases hfound : Keyword.ofSpelling? (String.ofList upper) <;> simp [wordKind, hupper, hfound]

theorem Lexeme.wordKind_eq_identifier_iff {cs : List Char} :
    wordKind cs = .identifier ↔ ∀ k : Keyword, Text.upperAscii? cs ≠ some k.spelling.toList := by
  simp only [ne_eq, ← wordKind_eq_keyword_iff]
  unfold wordKind
  split <;> simp

/-- A run of characters of one sort is what `takeWhile` takes in front of a character of another. -/
theorem takeWhile_run {p : α → Bool} {run rest : List α} (inside : ∀ a ∈ run, p a = true)
    (edge : ∀ a ∈ rest.head?, p a = false) : (run ++ rest).takeWhile p = run := by
  rw [List.takeWhile_append_of_pos inside]
  cases rest with
  | nil => simp
  | cons a rest => simp [edge a rfl]

theorem dropWhile_run {p : α → Bool} {run rest : List α} (inside : ∀ a ∈ run, p a = true)
    (edge : ∀ a ∈ rest.head?, p a = false) : (run ++ rest).dropWhile p = rest := by
  rw [List.dropWhile_append_of_pos inside]
  cases rest with
  | nil => rfl
  | cons a rest => simp [edge a rfl]

theorem bne_of_not_mem {quote : Char} {body : List Char} (h : quote ∉ body) :
    ∀ d ∈ body, (d != quote) = true := by
  intro d hd
  rw [bne_iff_ne]
  rintro rfl
  exact h hd

theorem head?_dropWhile_neg {p : α → Bool} {l : List α} {a : α} (h : a ∈ (l.dropWhile p).head?) :
    p a = false := by
  have := List.head?_dropWhile_not p l
  rw [Option.mem_def.1 h] at this
  simpa using this

namespace Lexeme

/-- `lexeme.Munches rest`: in front of `rest`, the lexeme goes on as far as its sort allows. -/
inductive Munches : Lexeme → List Char → Prop
  | mark (m : Mark) (rest : List Char) : Munches (.mark m) rest
  | word {c : Char} {cs rest : List Char} (start : startsWord c = true)
      (inside : ∀ d ∈ cs, inWord d = true) (edge : ∀ d ∈ rest.head?, inWord d = false) :
      Munches (.word (c :: cs)) rest
  | whole {c : Char} {cs rest : List Char} (digits : ∀ d ∈ c :: cs, d.isDigit = true)
      (edge : ∀ d ∈ rest.head?, d.isDigit = false ∧ d ≠ '.') :
      Munches (.numeral (c :: cs) none) rest
  | point {c : Char} {cs fraction rest : List Char} (digits : ∀ d ∈ c :: cs, d.isDigit = true)
      (places : ∀ d ∈ fraction, d.isDigit = true) (edge : ∀ d ∈ rest.head?, d.isDigit = false) :
      Munches (.numeral (c :: cs) (some fraction)) rest
  | closed {quote : Char} {body rest : List Char} (opening : IsQuote quote)
      (inside : quote ∉ body) :
      Munches (.quoted quote body true) rest
  | unclosed {quote : Char} {body : List Char} (opening : IsQuote quote) (inside : quote ∉ body) :
      Munches (.quoted quote body false) []
  | foreign {c : Char} {rest : List Char} (mark : Mark.ofChar? c = none) (quote : ¬ IsQuote c)
      (digit : c.isDigit = false) (word : startsWord c = false) : Munches (.foreign c) rest

theorem cutQuoted_munches {quote : Char} (h : IsQuote quote) (cs : List Char) :
    (cutQuoted quote cs).1.chars ++ (cutQuoted quote cs).2 = quote :: cs ∧
      Munches (cutQuoted quote cs).1 (cutQuoted quote cs).2 := by
  have inside : quote ∉ cs.takeWhile (· != quote) := fun hmem => by
    simpa using List.mem_takeWhile_imp hmem
  have whole := List.takeWhile_append_dropWhile (p := (· != quote)) (l := cs)
  unfold cutQuoted
  cases hd : cs.dropWhile (· != quote) with
  | nil =>
    rw [hd, List.append_nil] at whole
    exact ⟨by simp [chars, whole], .unclosed h inside⟩
  | cons d after =>
    have hdq : d = quote := by
      simpa using head?_dropWhile_neg (p := (· != quote)) (l := cs) (a := d) (by simp [hd])
    subst hdq
    rw [hd] at whole
    exact ⟨by simp [chars, whole], .closed h inside⟩

theorem cutNumeral_munches {c : Char} (h : c.isDigit = true) (cs : List Char) :
    (cutNumeral c cs).1.chars ++ (cutNumeral c cs).2 = c :: cs ∧
      Munches (cutNumeral c cs).1 (cutNumeral c cs).2 := by
  have digits : ∀ d ∈ c :: cs.takeWhile Char.isDigit, d.isDigit = true := by
    intro d hd
    rcases List.mem_cons.1 hd with rfl | hd
    · exact h
    · exact List.mem_takeWhile_imp hd
  have whole := List.takeWhile_append_dropWhile (p := Char.isDigit) (l := cs)
  unfold cutNumeral
  split
  · rename_i after hd
    rw [hd] at whole
    have places : ∀ d ∈ after.takeWhile Char.isDigit, d.isDigit = true :=
      fun d hd => List.mem_takeWhile_imp hd
    refine ⟨?_, .point digits places fun d hd => head?_dropWhile_neg hd⟩
    have := List.takeWhile_append_dropWhile (p := Char.isDigit) (l := after)
    simp [chars, this, whole]
  · rename_i after hne
    refine ⟨by simp [chars, whole], .whole digits fun d hd => ⟨head?_dropWhile_neg hd, ?_⟩⟩
    rintro rfl
    obtain ⟨tail, htail⟩ := List.head?_eq_some_iff.1 hd
    exact hne tail htail

/-- What is cut off a text is its front, and goes on as far as it can. -/
theorem cut_munches (c : Char) (cs : List Char) :
    (cut c cs).1.chars ++ (cut c cs).2 = c :: cs ∧ Munches (cut c cs).1 (cut c cs).2 := by
  unfold cut
  split
  · rename_i m hm
    exact ⟨by simp [chars, Mark.ofChar?_eq_some_iff.1 hm], .mark m cs⟩
  · rename_i hmark
    split
    · rename_i hquote
      exact cutQuoted_munches hquote cs
    · rename_i hquote
      split
      · rename_i hdigit
        exact cutNumeral_munches hdigit cs
      · rename_i hdigit
        split
        · rename_i hstart
          exact ⟨by simp [chars], .word hstart (fun d hd => List.mem_takeWhile_imp hd)
            fun d hd => head?_dropWhile_neg hd⟩
        · rename_i hstart
          exact ⟨rfl, .foreign hmark hquote (by simpa using hdigit) (by simpa using hstart)⟩

theorem cut_quote {c : Char} (h : IsQuote c) (cs : List Char) : cut c cs = cutQuoted c cs := by
  have hquote : c = '"' ∨ c = '\'' := h
  simp [cut, quote_not_mark h, hquote]

theorem cut_digit {c : Char} (h : c.isDigit = true) (cs : List Char) :
    cut c cs = cutNumeral c cs := by
  have hquote : ¬ (c = '"' ∨ c = '\'') := digit_not_quote h
  simp [cut, digit_not_mark h, hquote, h]

theorem cut_startsWord {c : Char} (h : startsWord c = true) (cs : List Char) :
    cut c cs = (.word (c :: cs.takeWhile inWord), cs.dropWhile inWord) := by
  have hquote : ¬ (c = '"' ∨ c = '\'') := startsWord_not_quote h
  simp [cut, startsWord_not_mark h, hquote, startsWord_not_digit h, h]

/-- Only one cut leaves a lexeme that goes on as far as it can. -/
theorem cut_of_munches {lexeme : Lexeme} {rest cs : List Char} {c : Char}
    (h : lexeme.Munches rest) (front : lexeme.chars ++ rest = c :: cs) :
    cut c cs = (lexeme, rest) := by
  cases h with
  | mark m =>
    simp only [chars, List.singleton_append, List.cons.injEq] at front
    obtain ⟨rfl, rfl⟩ := front
    simp [cut, Mark.ofChar?_eq_some_iff.2 (rfl : m.char = m.char)]
  | word start inside edge =>
    simp only [chars, List.cons_append, List.cons.injEq] at front
    obtain ⟨rfl, rfl⟩ := front
    rw [cut_startsWord start, takeWhile_run inside edge, dropWhile_run inside edge]
  | whole digits edge =>
    simp only [chars, List.cons_append, List.cons.injEq] at front
    obtain ⟨rfl, rfl⟩ := front
    obtain ⟨first, inside⟩ := List.forall_mem_cons.1 digits
    have outside := fun d hd => (edge d hd).1
    rw [cut_digit first, cutNumeral, takeWhile_run inside outside, dropWhile_run inside outside]
    -- A numeral without a point ends where no point follows.
    split
    · exact absurd rfl (edge '.' rfl).2
    · rfl
  | @point _ _ fraction _ digits places edge =>
    simp only [chars, List.cons_append, List.append_assoc, List.cons.injEq] at front
    obtain ⟨rfl, rfl⟩ := front
    obtain ⟨first, inside⟩ := List.forall_mem_cons.1 digits
    have outside : ∀ d ∈ ('.' :: (fraction ++ rest)).head?, d.isDigit = false := by
      simp
    rw [cut_digit first, cutNumeral, takeWhile_run inside outside, dropWhile_run inside outside]
    simp only [takeWhile_run places edge, dropWhile_run places edge]
  | @closed quote body _ opening inside =>
    simp only [chars, if_true, List.cons_append, List.append_assoc, List.nil_append,
      List.cons.injEq] at front
    obtain ⟨rfl, rfl⟩ := front
    have inside := bne_of_not_mem inside
    have outside : ∀ d ∈ (quote :: rest).head?, (d != quote) = false := by
      simp
    rw [cut_quote opening, cutQuoted, takeWhile_run inside outside, dropWhile_run inside outside]
  | @unclosed quote body opening inside =>
    simp only [chars, Bool.false_eq_true, if_false, List.append_nil, List.cons.injEq] at front
    obtain ⟨rfl, rfl⟩ := front
    have inside := bne_of_not_mem inside
    have taken := List.takeWhile_eq_self_iff.2 inside
    have dropped := List.dropWhile_eq_nil_iff.2 inside
    simp [cut_quote opening, cutQuoted, taken, dropped]
  | foreign mark quote digit word =>
    simp only [chars, List.singleton_append, List.cons.injEq] at front
    obtain ⟨rfl, rfl⟩ := front
    have hquote : ¬ (_ = '"' ∨ _ = '\'') := quote
    simp [cut, mark, hquote, digit, word]

/-- A lexeme has a first character, which is no blank unless it stands for no token. -/
theorem Munches.exists_cons {lexeme : Lexeme} {rest : List Char} (h : lexeme.Munches rest) :
    ∃ c cs, lexeme.chars = c :: cs ∧ (lexeme = .foreign c ∨ Text.isBlank c = false) := by
  cases h with
  | mark m => exact ⟨_, _, rfl, .inr (by cases m <;> decide)⟩
  | word start => exact ⟨_, _, rfl, .inr (startsWord_not_blank start)⟩
  | whole digits => exact ⟨_, _, rfl, .inr (digit_not_blank (digits _ List.mem_cons_self))⟩
  | point digits => exact ⟨_, _, rfl, .inr (digit_not_blank (digits _ List.mem_cons_self))⟩
  | closed opening => exact ⟨_, _, rfl, .inr (by rcases opening with rfl | rfl <;> decide)⟩
  | unclosed opening => exact ⟨_, _, rfl, .inr (by rcases opening with rfl | rfl <;> decide)⟩
  | foreign => exact ⟨_, _, rfl, .inl rfl⟩

/-- Behind a lexeme the text may change, if it starts with the same character or with a blank. Only
a quoted text that is not closed goes on over blanks. -/
theorem Munches.congr {lexeme : Lexeme} {rest rest' : List Char} (h : lexeme.Munches rest)
    (closed : ∀ quote body, lexeme = .quoted quote body false → rest' = [])
    (edge : ∀ d ∈ rest'.head?, d ∈ rest.head? ∨ Text.isBlank d = true) :
    lexeme.Munches rest' := by
  have carry {p : Char → Prop} (hrest : ∀ d ∈ rest.head?, p d)
      (hblank : ∀ d, Text.isBlank d = true → p d) : ∀ d ∈ rest'.head?, p d :=
    fun d hd => (edge d hd).elim (hrest d) (hblank d)
  have outside {p : Char → Bool} (hp : ∀ d, p d = true → Text.isBlank d = false) :
      ∀ d, Text.isBlank d = true → p d = false := by
    intro d hd
    by_contra hin
    simp [hp d (by simpa using hin)] at hd
  cases h with
  | mark m => exact .mark m rest'
  | word start inside edge =>
    exact .word start inside (carry edge (outside fun _ => inWord_not_blank))
  | whole digits edge =>
    refine .whole digits (carry edge fun d hd => ⟨outside (fun _ => digit_not_blank) d hd, ?_⟩)
    rintro rfl
    exact absurd hd (by decide)
  | point digits places edge =>
    exact .point digits places (carry edge (outside fun _ => digit_not_blank))
  | closed opening inside => exact .closed opening inside
  | unclosed opening inside =>
    obtain rfl := closed _ _ rfl
    exact .unclosed opening inside
  | foreign mark quote digit word => exact .foreign mark quote digit word

end Lexeme
end Introspect
