import Introspect.Proofs.Munch
import Introspect.Timestamp
import Mathlib.Algebra.Group.Nat.Defs

/-!
Points in time are read back. Each part of the text is a run of digits that ends where the reader
expects it to, and the offset of UTC leaves the parts as they are.
-/
namespace Introspect

namespace Civil

/-! ### Digits -/

theorem isDigit_of_mem_padded {width n : Nat} {c : Char} (h : c ∈ padded width n) :
    c.isDigit = true := by
  rcases List.mem_append.1 h with hzero | hdigit
  · rw [List.eq_of_mem_replicate hzero]
    rfl
  · exact Nat.isDigit_of_mem_toDigits (by decide) (by decide) hdigit

theorem ofDigitChars_padded (width n : Nat) : Nat.ofDigitChars 10 (padded width n) 0 = n := by
  rw [padded, Nat.ofDigitChars_append, Nat.ofDigitChars_replicate_zero, Nat.mul_zero,
    Nat.ofDigitChars_ten_toDigits]

theorem padded_ne_nil (width n : Nat) : padded width n ≠ [] := by
  simp [padded, Nat.toDigits_ne_nil]

theorem length_padded {width n : Nat} (hwidth : 0 < width) (h : n < 10 ^ width) :
    (padded width n).length = width := by
  have hlength := (Nat.length_toDigits_le_iff (b := 10) (by decide) hwidth).2 h
  simp only [padded, List.length_append, List.length_replicate]
  omega

theorem dropBlanks_cons {c : Char} (h : Text.isBlank c = false) (rest : List Char) :
    Text.dropBlanks (c :: rest) = c :: rest := by
  simp [Text.dropBlanks, h]

/-- What starts with a digit starts with no blank. -/
theorem dropBlanks_digits {ds : List Char} (hne : ds ≠ []) (hdigits : ∀ c ∈ ds, c.isDigit = true)
    (rest : List Char) : Text.dropBlanks (ds ++ rest) = ds ++ rest := by
  obtain ⟨d, ds, rfl⟩ := List.exists_cons_of_ne_nil hne
  exact dropBlanks_cons (digit_not_blank (hdigits d List.mem_cons_self)) _

theorem digits_ne_cons {ds : List Char} (hne : ds ≠ []) (hdigits : ∀ c ∈ ds, c.isDigit = true)
    {c : Char} (hc : c.isDigit = false) (rest tail : List Char) : ds ++ rest ≠ c :: tail := by
  obtain ⟨d, ds, rfl⟩ := List.exists_cons_of_ne_nil hne
  intro h
  have hd := hdigits d List.mem_cons_self
  rw [(List.cons.inj h).1, hc] at hd
  cases hd

/-- A run of digits ends where no more of them are allowed, or where there are none. -/
theorem takeWhile_take {most : Nat} {ds rest : List Char} (hdigits : ∀ c ∈ ds, c.isDigit = true)
    (hmost : ds.length ≤ most)
    (hedge : ds.length = most ∨ ∀ c ∈ rest.head?, c.isDigit = false) :
    ((ds ++ rest).take most).takeWhile Char.isDigit = ds := by
  rw [List.take_append, List.take_of_length_le hmost]
  refine takeWhile_run hdigits fun c hc => ?_
  rw [List.head?_take] at hc
  split at hc
  · cases hc
  · exact (hedge.resolve_left (by omega)) c hc

theorem number?_digits {most : Nat} {ds rest : List Char} (hne : ds ≠ [])
    (hdigits : ∀ c ∈ ds, c.isDigit = true) (hmost : ds.length ≤ most)
    (hedge : ds.length = most ∨ ∀ c ∈ rest.head?, c.isDigit = false) :
    number? most (ds ++ rest) = some (Nat.ofDigitChars 10 ds 0, rest) := by
  have hempty : ds.isEmpty = false := by
    simpa using hne
  simp [number?, takeWhile_take hdigits hmost hedge, hempty]

/-! ### Parts -/

theorem part?_padded {n : Nat} (h : n < 100) (rest : List Char) :
    part? (padded 2 n ++ rest) = some (n, rest) := by
  have hlength : (padded 2 n).length = 2 := length_padded (by decide) h
  have hdigits : ∀ c ∈ padded 2 n, c.isDigit = true := fun c hc => isDigit_of_mem_padded hc
  rw [part?, dropBlanks_digits (padded_ne_nil 2 n) hdigits,
    number?_digits (padded_ne_nil 2 n) hdigits (Nat.le_of_eq hlength) (.inl hlength),
    ofDigitChars_padded]

theorem separator?_cons {c : Char} (h : Text.isBlank c = false) (rest : List Char) :
    separator? c (c :: rest) = some rest := by
  rw [separator?, dropBlanks_cons h]
  exact if_pos rfl

/-- A year is read back in front of its separator. -/
theorem year?_yearText (year : Int) (rest : List Char) :
    year? (yearText year ++ '-' :: rest) = some (year, '-' :: rest) := by
  have hdigits (n : Nat) : ∀ c ∈ padded 4 n, c.isDigit = true :=
    fun c hc => isDigit_of_mem_padded hc
  have hsigned (n : Nat) : number? (padded 4 n ++ '-' :: rest).length (padded 4 n ++ '-' :: rest) =
      some (n, '-' :: rest) := by
    rw [number?_digits (padded_ne_nil 4 n) (hdigits n) (by simp) (.inr (by simp)),
      ofDigitChars_padded]
  unfold yearText
  split
  · rename_i h
    have hlength : (padded 4 year.toNat).length = 4 := length_padded (by decide) (by omega)
    rw [year?, dropBlanks_digits (padded_ne_nil 4 _) (hdigits _)]
    split
    · rename_i heq
      exact absurd heq (digits_ne_cons (padded_ne_nil 4 _) (hdigits _) rfl _ _)
    · rename_i heq
      exact absurd heq (digits_ne_cons (padded_ne_nil 4 _) (hdigits _) rfl _ _)
    · have hyear : (year.toNat : Int) = year := by omega
      rw [number?_digits (padded_ne_nil 4 _) (hdigits _) (Nat.le_of_eq hlength) (.inl hlength),
        ofDigitChars_padded]
      simp only [Option.map_some, hyear]
  · rw [List.cons_append, year?]
    by_cases hneg : year < 0
    · have hyear : -(year.natAbs : Int) = year := by omega
      simp only [hneg, if_true, dropBlanks_cons (c := '-') (by decide), hsigned, Option.map_some,
        hyear]
    · have hyear : (year.natAbs : Int) = year := by omega
      simp only [hneg, if_false, dropBlanks_cons (c := '+') (by decide), hsigned, Option.map_some,
        hyear]

/-- Digits behind a point are the most significant of nine. -/
theorem fraction?_padded {width n : Nat} (hwidth : 0 < width) (hmost : width ≤ 9)
    (h : n < 10 ^ width) {rest : List Char} (hedge : ∀ c ∈ rest.head?, c.isDigit = false) :
    fraction? ('.' :: (padded width n ++ rest)) = some (n * 10 ^ (9 - width), rest) := by
  have hdigits : ∀ c ∈ padded width n, c.isDigit = true := fun c hc => isDigit_of_mem_padded hc
  have hlength := length_padded hwidth h
  have htaken := takeWhile_take hdigits (hlength.trans_le hmost) (.inr hedge)
  have hempty : (padded width n).isEmpty = false := by
    simpa using padded_ne_nil width n
  simp only [fraction?, htaken, hempty, Bool.false_eq_true, if_false, hlength,
    ofDigitChars_padded, dropWhile_run hdigits hedge, Nat.pow_eq]

theorem fraction?_fractionText {nanos : Nat} (h : nanos < 1000000000) (rest : List Char)
    (hedge : ∀ c ∈ rest.head?, c.isDigit = false ∧ c ≠ '.') :
    fraction? (fractionText nanos ++ rest) = some (nanos, rest) := by
  have hdigit : ∀ c ∈ rest.head?, c.isDigit = false := fun c hc => (hedge c hc).1
  unfold fractionText
  split
  · rename_i hzero
    rw [hzero, List.nil_append, fraction?]
    rintro tail rfl
    exact (hedge '.' rfl).2 rfl
  · split
    · have hnanos : nanos / 1000000 * 10 ^ (9 - 3) = nanos := by omega
      rw [List.cons_append, fraction?_padded (by decide) (by decide) (by omega) hdigit, hnanos]
    · split
      · have hnanos : nanos / 1000 * 10 ^ (9 - 6) = nanos := by omega
        rw [List.cons_append, fraction?_padded (by decide) (by decide) (by omega) hdigit, hnanos]
      · have hnanos : nanos * 10 ^ (9 - 9) = nanos := by omega
        rw [List.cons_append, fraction?_padded (by decide) (by decide) (by omega) hdigit, hnanos]

/-! ### The whole text -/

/-- In UTC nothing is carried over. -/
theorem toUtc_zero {t : Civil} (hhour : t.hour ≤ 23) (hminute : t.minute ≤ 59) :
    t.toUtc 0 = t := by
  have hday : ¬ (60 * (t.hour : Int) + t.minute - 0 < 0) := by omega
  have hday' : 60 * (t.hour : Int) + t.minute - 0 < 1440 := by omega
  have hrest : ((60 * (t.hour : Int) + t.minute - 0) % 1440).toNat = 60 * t.hour + t.minute := by
    omega
  have hhours : (60 * t.hour + t.minute) / 60 = t.hour := by omega
  have hminutes : (60 * t.hour + t.minute) % 60 = t.minute := by omega
  simp only [toUtc, hday, hday', if_false, if_true, hrest, hhours, hminutes]

theorem ofChars?_localText {t : Civil} (h : t.isValid = true) :
    ofChars? (t.localText ++ ['Z']) = some t := by
  have hvalid := h
  simp only [isValid, Bool.and_eq_true, decide_eq_true_eq] at h
  obtain ⟨⟨⟨⟨⟨⟨⟨⟨⟨hyear, hyear'⟩, hmonth⟩, hmonth'⟩, hday⟩, hday'⟩, hhour⟩, hminute⟩, hsecond⟩,
    hnanos⟩ := h
  have hday : t.day < 100 := by
    have hmost : daysIn t.year t.month ≤ 31 := by
      unfold daysIn
      split
      · split <;> decide
      · split <;> decide
    omega
  have hdash := separator?_cons (c := '-') (by decide)
  have hcolon := separator?_cons (c := ':') (by decide)
  have hfraction := fraction?_fractionText hnanos ['Z'] (by rintro _ ⟨⟩; decide)
  have hoffset : offset? (Text.dropBlanks ['Z']) = some (0, []) := by decide
  have htext : t.localText ++ ['Z'] = yearText t.year ++ '-' :: (padded 2 t.month ++ '-' ::
      (padded 2 t.day ++ 'T' :: (padded 2 t.hour ++ ':' :: (padded 2 t.minute ++ ':' ::
        (padded 2 t.second ++ (fractionText t.nanos ++ ['Z'])))))) := by
    simp [localText]
  rw [htext]
  refine Option.bind_eq_some_iff.2 ⟨_, year?_yearText t.year _, ?_⟩
  refine Option.bind_eq_some_iff.2 ⟨_, hdash _, ?_⟩
  refine Option.bind_eq_some_iff.2 ⟨_, part?_padded (by omega) _, ?_⟩
  refine Option.bind_eq_some_iff.2 ⟨_, hdash _, ?_⟩
  refine Option.bind_eq_some_iff.2 ⟨_, part?_padded hday _, ?_⟩
  refine Option.bind_eq_some_iff.2 ⟨_, rfl, ?_⟩
  refine Option.bind_eq_some_iff.2 ⟨_, part?_padded (by omega) _, ?_⟩
  refine Option.bind_eq_some_iff.2 ⟨_, hcolon _, ?_⟩
  refine Option.bind_eq_some_iff.2 ⟨_, part?_padded (by omega) _, ?_⟩
  refine Option.bind_eq_some_iff.2 ⟨_, hcolon _, ?_⟩
  refine Option.bind_eq_some_iff.2 ⟨_, part?_padded (by omega) _, ?_⟩
  refine Option.bind_eq_some_iff.2 ⟨_, hfraction, ?_⟩
  refine Option.bind_eq_some_iff.2 ⟨_, hoffset, ?_⟩
  refine (if_pos ⟨rfl, hvalid⟩).trans ?_
  rw [toUtc_zero hhour hminute]

end Civil

/-- A point in time is read back from its text. -/
theorem Timestamp.ofText?_render (t : Timestamp) : ofText? t.render = some t := by
  rw [ofText?, render, String.toList_ofList, Civil.ofChars?_localText t.valid, Option.bind_some,
    ofCivil?, dif_pos t.valid]

end Introspect
