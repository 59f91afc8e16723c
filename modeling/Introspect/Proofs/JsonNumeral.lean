import Introspect.Proofs.JsonToken
import Introspect.Proofs.Numerals

/-!
The numerals that numbers are written as. Integers are read back from theirs. Those of floats keep
to the grammar; what they are read as is another matter, since reading rounds more than once.
-/
namespace Introspect

/-- Digits start with a zero only for zero itself. -/
theorem head?_toDigits_ne {n : Nat} (h : n ≠ 0) : (Nat.toDigits 10 n).head? ≠ some '0' := by
  induction n using Nat.strongRecOn with
  | ind n ih =>
    by_cases hlt : n < 10
    · have hdigit : ∀ n < 10, n ≠ 0 → n.digitChar ≠ '0' := by
        decide
      rw [Nat.toDigits_of_lt_base hlt]
      simpa using hdigit n hlt h
    · rw [Nat.toDigits_of_base_le (by decide) (by omega), List.head?_append_of_ne_nil _
        Nat.toDigits_ne_nil]
      exact ih (n / 10) (by omega) (by omega)

namespace Decimal

/-- What stands before and behind the point. -/
def parts (d : Decimal) : List Char × List Char :=
  let places := (-d.exponent).toNat
  let whole := d.digitText.length - places
  if places = 0 then (d.digitText ++ List.replicate d.exponent.toNat '0', ['0'])
  else if 0 < whole then (d.digitText.take whole, d.digitText.drop whole)
  else (['0'], List.replicate (places - d.digitText.length) '0' ++ d.digitText)

theorem isDigit_of_mem_digitText {d : Decimal} {c : Char} (h : c ∈ d.digitText) :
    c.isDigit = true :=
  isDigit_of_mem_toDigits h

theorem isDigit_of_mem_zeros {n : Nat} {c : Char} (h : c ∈ List.replicate n '0') :
    c.isDigit = true := by
  rw [List.eq_of_mem_replicate h]
  rfl

theorem digitText_ne_nil (d : Decimal) : d.digitText ≠ [] :=
  Nat.toDigits_ne_nil

theorem isDigit_of_mem_parts {d : Decimal} {c : Char} (h : c ∈ d.parts.1 ∨ c ∈ d.parts.2) :
    c.isDigit = true := by
  unfold parts at h
  extract_lets places whole at h
  split at h
  · simp only [List.mem_append, List.mem_singleton] at h
    rcases h with (h | h) | rfl
    · exact isDigit_of_mem_digitText h
    · exact isDigit_of_mem_zeros h
    · rfl
  · split at h
    · rcases h with h | h
      · exact isDigit_of_mem_digitText (List.mem_of_mem_take h)
      · exact isDigit_of_mem_digitText (List.mem_of_mem_drop h)
    · simp only [List.mem_append, List.mem_singleton] at h
      rcases h with rfl | h | h
      · rfl
      · exact isDigit_of_mem_zeros h
      · exact isDigit_of_mem_digitText h

theorem withPoint_positional (d : Decimal) :
    Binary64.withPoint d.positional = d.parts.1 ++ '.' :: d.parts.2 := by
  have hall (c : Char) (hc : c ∈ d.parts.1) : c.isDigit = true := isDigit_of_mem_parts (.inl hc)
  unfold positional
  unfold parts at hall ⊢
  extract_lets places whole at ⊢
  split
  · rename_i hplaces
    simp only [places, hplaces, if_true] at hall
    exact withPoint_of_not_mem fun hmem => absurd (hall '.' hmem) (by decide)
  · split
    · exact withPoint_of_mem (by simp)
    · exact withPoint_of_mem (by simp)

/-- No part is empty, and there is no zero in front that need not be there. -/
theorem parts_grammatical {d : Decimal} (h : d.digits = 0 → d.exponent = 0) :
    d.parts.1 ≠ [] ∧ (d.parts.1 = ['0'] ∨ d.parts.1.head? ≠ some '0') ∧ d.parts.2 ≠ [] := by
  have hne := d.digitText_ne_nil
  have hlength := List.length_pos_of_ne_nil hne
  unfold parts
  extract_lets places whole
  split
  · refine ⟨by simp [hne], ?_, by simp⟩
    by_cases hzero : d.digits = 0
    · left
      simp [h hzero, digitText, hzero]
    · right
      rw [List.head?_append_of_ne_nil _ hne]
      exact head?_toDigits_ne hzero
  · rename_i hplaces
    split
    · rename_i hwhole
      have hzero : d.digits ≠ 0 := fun hzero => hplaces (by simp [places, h hzero])
      refine ⟨?_, .inr ?_, ?_⟩
      · simp [hne, Nat.ne_of_gt hwhole]
      · rw [List.head?_take, if_neg (Nat.ne_of_gt hwhole)]
        exact head?_toDigits_ne hzero
      · rw [ne_eq, List.drop_eq_nil_iff]
        omega
    · exact ⟨by simp, .inl rfl, by simp [hne]⟩

end Decimal

namespace Json.Numeral

def ofInt (n : Int) : Numeral :=
  ⟨decide (n < 0), Nat.toDigits 10 n.natAbs, none, none⟩

theorem grammatical_ofInt (n : Int) : (ofInt n).Grammatical := by
  refine ⟨Nat.toDigits_ne_nil, ?_, fun c hc => isDigit_of_mem_toDigits hc, by simp [ofInt],
    by simp [ofInt]⟩
  by_cases hzero : n = 0
  · left
    simp [ofInt, hzero]
  · right
    exact head?_toDigits_ne (Int.natAbs_ne_zero.2 hzero)

theorem chars_ofInt (n : Int) : (ofInt n).chars = n.repr.toList := by
  cases n with
  | ofNat m => simp [ofInt, chars, magnitudeChars, fractionChars, exponentChars, Binary64.signed,
      Int.repr]
  | negSucc m =>
    simp [ofInt, chars, magnitudeChars, fractionChars, exponentChars, Binary64.signed, Int.repr]

/-- The integers that stay what they are: those of 64 bits, with or without sign. -/
def Fits (n : Int) : Prop :=
  -0x8000000000000000 ≤ n ∧ n < 0x10000000000000000

instance : DecidablePred Fits :=
  fun _ => inferInstanceAs (Decidable (_ ∧ _))

theorem value?_ofInt {n : Int} (h : Fits n) : (ofInt n).value? = some (.integer n) := by
  have hmagnitude : Nat.ofDigitChars 10 (ofInt n).whole 0 = n.natAbs :=
    Nat.ofDigitChars_ten_toDigits
  obtain ⟨hlow, hhigh⟩ := h
  rw [value?, hmagnitude, if_neg (by simp [ofInt])]
  by_cases hneg : n < 0
  · have hzero : n.natAbs ≠ 0 := by omega
    have hsmall : n.natAbs ≤ 0x8000000000000000 := by omega
    have hn : -(n.natAbs : Int) = n := by omega
    have hvalue : (ofInt n).negative = true := decide_eq_true hneg
    rw [hvalue, if_neg (by simp), if_pos ⟨rfl, hzero, hsmall⟩, hn]
  · have hsmall : n.natAbs < 0x10000000000000000 := by omega
    have hn : (n.natAbs : Int) = n := by omega
    have hvalue : (ofInt n).negative = false := decide_eq_false hneg
    rw [hvalue, if_pos ⟨rfl, hsmall⟩, hn]

/-- The numeral of a decimal, with an exponent unless that of its first digit is small. -/
def ofDecimal (negative : Bool) (d : Decimal) : Numeral :=
  if -5 ≤ d.leadingExponent ∧ d.leadingExponent < 16 then
    ⟨negative, d.parts.1, some d.parts.2, none⟩
  else
    ⟨negative, d.digitText.take 1, if d.digitText.tail = [] then none else some d.digitText.tail,
      some (decide (d.leadingExponent < 0), Nat.toDigits 10 d.leadingExponent.natAbs)⟩

theorem grammatical_ofDecimal (negative : Bool) {d : Decimal} (h : d.digits = 0 → d.exponent = 0) :
    (ofDecimal negative d).Grammatical := by
  obtain ⟨hwhole, hleading, hfraction⟩ := d.parts_grammatical h
  obtain ⟨c, cs, hdigits⟩ := List.exists_cons_of_ne_nil d.digitText_ne_nil
  have hdigit (c : Char) (hc : c ∈ d.digitText) : c.isDigit = true :=
    Decimal.isDigit_of_mem_digitText hc
  unfold ofDecimal
  split
  · constructor
    case nonempty => exact hwhole
    case leading => exact hleading
    case digits => exact fun c hc => Decimal.isDigit_of_mem_parts (.inl hc)
    case fraction =>
      rintro ds ⟨⟩
      exact ⟨hfraction, fun c hc => Decimal.isDigit_of_mem_parts (.inr hc)⟩
    case exponent => simp
  · constructor
    case nonempty => simp [hdigits]
    case leading => by_cases hzero : c = '0' <;> simp [hdigits, hzero]
    case digits => exact fun c hc => hdigit c (List.mem_of_mem_take hc)
    case fraction =>
      intro ds hds
      split at hds
      · cases hds
      · rename_i hne
        cases hds
        exact ⟨hne, fun c hc => hdigit c (List.mem_of_mem_tail hc)⟩
    case exponent =>
      rintro e ⟨⟩
      exact ⟨Nat.toDigits_ne_nil, fun c hc => isDigit_of_mem_toDigits hc⟩

theorem chars_ofDecimal (negative : Bool) (d : Decimal) :
    (ofDecimal negative d).chars = Binary64.signed negative
      (if -5 ≤ d.leadingExponent ∧ d.leadingExponent < 16 then Binary64.withPoint d.positional
        else d.scientific) := by
  unfold ofDecimal
  split
  · simp [chars, magnitudeChars, fractionChars, exponentChars, Decimal.withPoint_positional]
  · obtain ⟨c, cs, hdigits⟩ := List.exists_cons_of_ne_nil d.digitText_ne_nil
    unfold Decimal.scientific
    rw [hdigits]
    cases cs <;> simp [chars, magnitudeChars, fractionChars, exponentChars]

end Json.Numeral

namespace Binary64

/-- The only decimal without digits that a number is written as is zero. -/
theorem exponent_shortest {tie : Tie} {rank : Nat} (h : (shortest tie rank).digits = 0) :
    (shortest tie rank).exponent = 0 := by
  have hrank := rank_shortest tie rank
  have hzero : (shortest tie rank).rank = (⟨0, 0⟩ : Decimal).rank := by
    apply nearestRank_congr (Decimal.denominator_pos _) (Decimal.denominator_pos _)
    simp [Decimal.numerator, h]
  rw [rank_zero] at hzero
  rw [← hrank, hzero, shortest, if_pos rfl]

end Binary64

namespace Json.Numeral

def ofFloat (negative : Bool) (rank : Nat) : Numeral :=
  ofDecimal negative (Binary64.shortest .even rank)

theorem grammatical_ofFloat (negative : Bool) (rank : Nat) : (ofFloat negative rank).Grammatical :=
  grammatical_ofDecimal negative Binary64.exponent_shortest

theorem chars_ofFloat (negative : Bool) (rank : Fin Binary64.finiteCount) :
    (ofFloat negative rank).chars = (floatText (.finite negative rank)).toList := by
  rw [ofFloat, chars_ofDecimal, floatText, String.toList_ofList]

end Json.Numeral
end Introspect
