import Introspect.Proofs.Rounding
import Introspect.Proofs.Scan
import Mathlib.Algebra.Order.Field.Rat
import Mathlib.Algebra.Order.Field.Basic
import Mathlib.Tactic.Positivity
import Mathlib.Tactic.NormNum

/-!
Lenient lexing mends everything but a number that is too large for a float. The first such number
of a text is what the text is refused for.
-/
namespace Introspect

namespace Lexeme

/-- Blanks and what follows them can be told apart. -/
theorem gap_unique {gap gap' tail tail' : List Char} (blank : ∀ c ∈ gap, Text.isBlank c = true)
    (solid : ∀ c ∈ tail.head?, Text.isBlank c = false)
    (blank' : ∀ c ∈ gap', Text.isBlank c = true)
    (solid' : ∀ c ∈ tail'.head?, Text.isBlank c = false) (h : gap ++ tail = gap' ++ tail') :
    gap = gap' ∧ tail = tail' := by
  constructor
  · rw [← takeWhile_run blank solid, h, takeWhile_run blank' solid']
  · rw [← dropWhile_run blank solid, h, dropWhile_run blank' solid']

theorem Munches.head?_append {lexeme : Lexeme} {rest : List Char} (h : lexeme.Munches rest)
    (solid : ∀ c ∈ lexeme.chars.head?, Text.isBlank c = false) :
    ∀ c ∈ (lexeme.chars ++ rest).head?, Text.isBlank c = false := by
  obtain ⟨c, cs, hchars, -⟩ := h.exists_cons
  simpa [hchars] using solid

/-- A lexeme and what follows it can be told apart. -/
theorem Munches.unique {lexeme lexeme' : Lexeme} {rest rest' : List Char}
    (h : lexeme.Munches rest) (h' : lexeme'.Munches rest')
    (heq : lexeme.chars ++ rest = lexeme'.chars ++ rest') : lexeme = lexeme' ∧ rest = rest' := by
  obtain ⟨c, cs, hchars, -⟩ := h.exists_cons
  have hfront : lexeme.chars ++ rest = c :: (cs ++ rest) := by rw [hchars, List.cons_append]
  have hcut := (cut_of_munches h hfront).symm.trans (cut_of_munches h' (heq.symm.trans hfront))
  exact Prod.mk.inj hcut

/-- A text splits in one way. -/
theorem Splits.unique {position : Nat} {cs : List Char} {found other : List (Nat × Lexeme)}
    (h : Splits position cs found) (h' : Splits position cs other) : found = other := by
  induction h generalizing other with
  | @blanks position cs blank =>
    cases h' with
    | blanks => rfl
    | @lexeme _ gap rest lexeme _ _ munch solid _ =>
      obtain ⟨c, cs, hchars, -⟩ := munch.exists_cons
      have hsolid : Text.isBlank c = false := solid c (by simp [hchars])
      have hblank : Text.isBlank c = true := blank c (by simp [hchars])
      simp [hsolid] at hblank
  | @lexeme position gap rest lexeme found blank munch solid more ih =>
    generalize hcs : gap ++ (lexeme.chars ++ rest) = cs at h'
    cases h' with
    | blanks blank' =>
      obtain ⟨c, cs, hchars, -⟩ := munch.exists_cons
      have hsolid : Text.isBlank c = false := solid c (by simp [hchars])
      have hblank : Text.isBlank c = true := blank' c (by simp [← hcs, hchars])
      simp [hsolid] at hblank
    | @lexeme _ gap' rest' lexeme' _ blank' munch' solid' more' =>
      obtain ⟨rfl, htail⟩ := gap_unique blank (munch.head?_append solid) blank'
        (munch'.head?_append solid') hcs
      obtain ⟨rfl, rfl⟩ := munch.unique munch' htail
      rw [ih more']

/-! ### Numbers that are too large -/

/-- The exact value of a number as it is written. -/
def value (whole : List Char) (fraction : Option (List Char)) : ℚ :=
  Nat.ofDigitChars 10 whole 0 +
    Nat.ofDigitChars 10 (fraction.getD []) 0 / 10 ^ (fraction.getD []).length

/-- A number from half-way between the largest float and the next power of two on. -/
def Overflows : Lexeme → Prop
  | numeral whole fraction => 2 ^ 1024 - 2 ^ 970 ≤ value whole fraction
  | _ => False

theorem value_eq (whole : List Char) (fraction : Option (List Char)) :
    value whole fraction = (decimal whole (fraction.getD [])).numerator /
      (decimal whole (fraction.getD [])).denominator := by
  generalize hplaces : fraction.getD [] = places
  have hneg : (-(places.length : Int)).toNat = 0 := by omega
  have hpos : (-(-(places.length : Int))).toNat = places.length := by omega
  have hten : (10 : ℚ) ^ places.length ≠ 0 := pow_ne_zero _ (by norm_num)
  have hdigits : Nat.ofDigitChars 10 (whole ++ places) 0 =
      10 ^ places.length * Nat.ofDigitChars 10 whole 0 + Nat.ofDigitChars 10 places 0 := by
    rw [Nat.ofDigitChars_append, Nat.ofDigitChars_eq_ofDigitChars_zero]
  rw [value, hplaces, decimal, Decimal.numerator_eq, Decimal.denominator_eq]
  simp only [hneg, hpos, hdigits, Nat.pow_zero, Nat.mul_one]
  push_cast
  rw [add_div, mul_div_cancel_left₀ _ hten]

theorem overflowBound_cast : (Binary64.overflowBound : ℚ) = 2 ^ 1024 - 2 ^ 970 := by
  have hle : 2 ^ 970 ≤ 2 ^ 1024 := Nat.pow_le_pow_right (by decide) (by decide)
  rw [Binary64.overflowBound, Nat.cast_sub hle, Nat.cast_pow, Nat.cast_pow, Nat.cast_ofNat]

theorem isFinite_floatOf_iff (whole : List Char) (fraction : Option (List Char)) :
    (floatOf whole fraction).isFinite = true ↔ ¬ (numeral whole fraction).Overflows := by
  have hpos := Decimal.denominator_pos (decimal whole (fraction.getD []))
  rw [floatOf, Decimal.toBinary64, Binary64.isFinite_ofRatio_iff hpos, Overflows, not_le, value_eq,
    div_lt_iff₀ (Nat.cast_pos.2 hpos), ← overflowBound_cast, ← Nat.cast_mul, Nat.cast_lt]

theorem not_overflows_of_lt {whole : List Char}
    (h : Nat.ofDigitChars 10 whole 0 < 0x8000000000000000) :
    ¬ (numeral whole none).Overflows := by
  have hbound : 0x8000000000000000 ≤ Binary64.overflowBound := by
    have hpow : 2 ^ 10 ≤ 2 ^ 970 := Nat.pow_le_pow_right (by decide) (by decide)
    rw [Binary64.overflowBound_eq]
    exact Nat.le_trans (by decide) (Nat.mul_le_mul_left (2 ^ 54 - 1) hpow)
  have hvalue : value whole none = Nat.ofDigitChars 10 whole 0 := by
    simp [value]
  rw [Overflows, not_le, hvalue, ← overflowBound_cast, Nat.cast_lt]
  exact Nat.lt_of_lt_of_le h hbound

theorem floatOf_eq_infinite_iff (whole : List Char) (fraction : Option (List Char)) :
    floatOf whole fraction = .infinite false ↔ (numeral whole fraction).Overflows := by
  rw [← not_iff_not, ← isFinite_floatOf_iff, floatOf, Decimal.toBinary64, Binary64.ofRatio]
  split <;> simp [Binary64.isFinite]

/-- Only a number that is too large is refused. -/
theorem read_lenient_eq_refused_iff {position : Nat} {lexeme : Lexeme} {e : LexError} :
    lexeme.read .lenient position = .refused e ↔
      lexeme.Overflows ∧ e = .invalidNumber (String.ofList lexeme.chars) position := by
  have hreads := read_reads .lenient position lexeme
  generalize lexeme.read .lenient position = reading at hreads
  cases hreads with
  | integer small => simp [not_overflows_of_lt small]
  | overflow large finite => simp [(isFinite_floatOf_iff _ _).1 finite]
  | infinite large infinite =>
    have hlarge := (isFinite_floatOf_iff _ _).not_left.1 (by simpa using infinite)
    simp [hlarge, chars, eq_comm]
  | float finite => simp [(isFinite_floatOf_iff _ _).1 finite]
  | infiniteFloat infinite =>
    have hlarge := (isFinite_floatOf_iff _ _).not_left.1 (by simpa using infinite)
    simp [hlarge, chars, eq_comm]
  | _ => simp [Overflows]

/-- The first lexeme that overflows, and what the text is refused with for it. -/
def RefusedAt (found : List (Nat × Lexeme)) (e : LexError) : Prop :=
  ∃ before entry after, found = before ++ entry :: after ∧
    (∀ other ∈ before, ¬ other.2.Overflows) ∧ entry.2.Overflows ∧
    e = .invalidNumber (String.ofList entry.2.chars) entry.1

theorem refusedAt_cons_iff {entry : Nat × Lexeme} {found : List (Nat × Lexeme)} {e : LexError} :
    RefusedAt (entry :: found) e ↔
      entry.2.Overflows ∧ e = .invalidNumber (String.ofList entry.2.chars) entry.1 ∨
        ¬ entry.2.Overflows ∧ RefusedAt found e := by
  constructor
  · rintro ⟨before, first, after, hfound, hbefore, hfirst, he⟩
    cases before with
    | nil =>
      obtain ⟨rfl, rfl⟩ := List.cons.inj hfound
      exact .inl ⟨hfirst, he⟩
    | cons other before =>
      obtain ⟨rfl, rfl⟩ := List.cons.inj hfound
      obtain ⟨hother, hbefore⟩ := List.forall_mem_cons.1 hbefore
      exact .inr ⟨hother, before, first, after, rfl, hbefore, hfirst, he⟩
  · rintro (⟨hentry, he⟩ | ⟨hentry, before, first, after, rfl, hbefore, hfirst, he⟩)
    · exact ⟨[], entry, found, rfl, by simp, hentry, he⟩
    · exact ⟨entry :: before, first, after, rfl, List.forall_mem_cons.2 ⟨hentry, hbefore⟩, hfirst,
        he⟩

theorem readAll_lenient_error_iff {stop : Nat} {found : List (Nat × Lexeme)} {e : LexError} :
    (readAll .lenient stop found).1 = .error e ↔ RefusedAt found e := by
  induction found with
  | nil => simp [readAll, RefusedAt]
  | cons entry found ih =>
    obtain ⟨position, lexeme⟩ := entry
    have hrefused {e : LexError} : lexeme.read .lenient position = .refused e ↔
        lexeme.Overflows ∧ e = .invalidNumber (String.ofList lexeme.chars) position :=
      read_lenient_eq_refused_iff
    rw [refusedAt_cons_iff, ← ih, ← hrefused]
    -- Unless the lexeme is refused it does not overflow, and the rest decides.
    by_cases hlarge : lexeme.Overflows
    · simp [readAll, hlarge, hrefused.2 ⟨hlarge, rfl⟩]
    · simp only [hlarge, false_and, iff_false] at hrefused
      simp only [hrefused, hlarge, not_false_eq_true, true_and, false_or, readAll]
      cases hread : lexeme.read .lenient position with
      | refused e => exact absurd hread hrefused
      | dropped w => rfl
      | token t => cases (readAll .lenient stop found).1 <;> simp [Except.map]
      | mended t w => cases (readAll .lenient stop found).1 <;> simp [Except.map]

theorem exists_refusedAt_iff {found : List (Nat × Lexeme)} :
    (∃ e, RefusedAt found e) ↔ ∃ entry ∈ found, entry.2.Overflows := by
  induction found with
  | nil => simp [RefusedAt]
  | cons entry found ih =>
    simp only [refusedAt_cons_iff, List.mem_cons, exists_eq_or_imp, ← ih]
    by_cases h : entry.2.Overflows <;> simp [h]

end Lexeme

/-- A lenient lexer refuses nothing but numbers. -/
theorem Lexer.next_lenient_error {lexer : Lexer} (hmode : lexer.mode = .lenient) {e : LexError}
    (h : lexer.next.1 = .error e) : ∃ digits position, e = .invalidNumber digits position := by
  fun_induction next lexer with
  | case1 | case2 | case3 => simp at h
  | case4 lexer here c rest hrest found after w hread ih => exact ih hmode h
  | case5 lexer here c rest hrest found after e' hread =>
    have hhere : here.mode = .lenient := hmode
    rw [hhere, Lexeme.read_lenient_eq_refused_iff] at hread
    obtain ⟨-, rfl⟩ := hread
    cases h
    exact ⟨_, _, rfl⟩

open Lexeme in
/-- A text fails leniently just if it holds a number that overflows; it is then refused for the
first of them, and for nothing else. -/
theorem lenient_fails_iff_overflows (text : String) :
    ∃ found, Splits 0 text.toList found ∧ (∀ other, Splits 0 text.toList other → other = found) ∧
      ((∃ e, tokenize text .lenient = .error e) ↔ ∃ entry ∈ found, entry.2.Overflows) ∧
      (∀ e, tokenize text .lenient = .error e ↔
        ∃ before entry after, found = before ++ entry :: after ∧
          (∀ other ∈ before, ¬ other.2.Overflows) ∧ entry.2.Overflows ∧
          e = .invalidNumber (String.ofList entry.2.chars) entry.1) ∧
      (∀ whole fraction, (numeral whole fraction).Overflows ↔
        floatOf whole fraction = .infinite false) ∧
      ∀ lexer : Lexer, lexer.mode = .lenient → ∀ e, lexer.next.1 = .error e →
        ∃ digits position, e = .invalidNumber digits position := by
  obtain ⟨found, hsplits⟩ := exists_splits 0 text.toList
  have herror (e : LexError) : tokenize text .lenient = .error e ↔ RefusedAt found e := by
    rw [tokenize_of_splits hsplits, ← readAll_lenient_error_iff]
    cases (readAll .lenient text.length found).1 <;> simp [Except.map]
  refine ⟨found, hsplits, fun other h => h.unique hsplits, ?_, herror,
    fun whole fraction => (floatOf_eq_infinite_iff whole fraction).symm,
    fun lexer hmode e h => lexer.next_lenient_error hmode h⟩
  simp only [herror, exists_refusedAt_iff]

open Lexeme in
/-- Of two integers of 309 digits, the first one can be mended. -/
theorem lenient_fails_at_second_number :
    let ones := '1' :: List.replicate 308 '0'
    let twos := '2' :: List.replicate 308 '0'
    tokenize (String.ofList (ones ++ ' ' :: twos)) .lenient =
      .error (.invalidNumber (String.ofList twos) 310) := by
  intro ones twos
  obtain ⟨found, -, hunique, -, herror, hinfinite, -⟩ :=
    lenient_fails_iff_overflows (String.ofList (ones ++ ' ' :: twos))
  have hmunch {c : Char} (hc : c.isDigit = true) {rest : List Char}
      (hrest : ∀ d ∈ rest.head?, d.isDigit = false ∧ d ≠ '.') :
      (numeral (c :: List.replicate 308 '0') none).Munches rest := by
    refine .whole ?_ hrest
    simp only [List.forall_mem_cons, List.mem_replicate]
    exact ⟨hc, fun d hd => hd.2 ▸ rfl⟩
  have hsecond : Splits 309 ([' '] ++ (twos ++ [])) [(310, .numeral twos none)] := by
    have hgap : ∀ c ∈ [' '], Text.isBlank c = true := List.forall_mem_singleton.2 (by decide)
    exact .lexeme hgap (hmunch rfl (by simp)) (by rintro _ ⟨⟩; decide) (.blanks (by simp))
  have hsplits : Splits 0 (ones ++ ' ' :: twos)
      [(0, .numeral ones none), (310, .numeral twos none)] := by
    have hgap : ∀ c ∈ ([] : List Char), Text.isBlank c = true := by simp
    refine .lexeme hgap (hmunch rfl (by rintro _ ⟨⟩; decide)) (by rintro _ ⟨⟩; decide) ?_
    have hlength : (numeral ones none).chars.length = 309 := by decide +kernel
    rw [hlength]
    simpa only [List.length_nil, Nat.zero_add, List.append_nil, List.singleton_append] using hsecond
  have hfound := hunique _ (by rwa [String.toList_ofList])
  subst hfound
  refine (herror _).2 ⟨[(0, .numeral ones none)], (310, .numeral twos none), [], rfl, ?_, ?_, rfl⟩
  · simp only [List.mem_singleton, forall_eq, hinfinite]
    decide +kernel
  · rw [hinfinite]
    decide +kernel

end Introspect
