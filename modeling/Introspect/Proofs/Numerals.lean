import Introspect.Proofs.Nearest
import Introspect.Proofs.Scan

/-!
Numbers in writing. Integers and floats are written as numerals, and the numerals are read as the
same numbers again.
-/
namespace Introspect

theorem isDigit_of_mem_toDigits {n : Nat} {c : Char} (h : c ∈ Nat.toDigits 10 n) :
    c.isDigit = true :=
  Nat.isDigit_of_mem_toDigits (by decide) (by decide) h

namespace Decimal

theorem ofDigitChars_digitText (d : Decimal) : Nat.ofDigitChars 10 d.digitText 0 = d.digits :=
  Nat.ofDigitChars_ten_toDigits

/-- Zeros at the end of the digits stand for a power of ten. -/
theorem rank_whole (d : Decimal) (h : (-d.exponent).toNat = 0) :
    rank ⟨10 ^ d.exponent.toNat * d.digits, 0⟩ = d.rank := by
  have hneg : (-(0 : Int)).toNat = 0 := rfl
  simp only [rank, numerator_eq, denominator_eq, h, hneg, Int.toNat_zero, Nat.pow_zero,
    Nat.mul_one]
  rw [Nat.mul_comm]

/-- As many places as the exponent asks for. -/
theorem decimal_eq {whole fraction : List Char} {d : Decimal} (h : (-d.exponent).toNat ≠ 0)
    (hdigits : Nat.ofDigitChars 10 (whole ++ fraction) 0 = d.digits)
    (hplaces : fraction.length = (-d.exponent).toNat) : Lexeme.decimal whole fraction = d := by
  have hexponent : -(fraction.length : Int) = d.exponent := by omega
  rw [Lexeme.decimal, hdigits, hexponent]

theorem withPoint_of_mem {cs : List Char} (h : '.' ∈ cs) : Binary64.withPoint cs = cs := by
  rw [Binary64.withPoint, if_pos (by simpa using h)]

theorem withPoint_of_not_mem {cs : List Char} (h : '.' ∉ cs) :
    Binary64.withPoint cs = cs ++ ['.', '0'] := by
  rw [Binary64.withPoint, if_neg (by simpa using h)]

/-- The text of a decimal, with a point in it, is a numeral that denotes the same. -/
theorem exists_withPoint (d : Decimal) :
    ∃ whole fraction, Binary64.withPoint d.positional = whole ++ '.' :: fraction ∧ whole ≠ [] ∧
      (∀ c ∈ whole, c.isDigit = true) ∧ (∀ c ∈ fraction, c.isDigit = true) ∧
      (Lexeme.decimal whole fraction).rank = d.rank := by
  have hdigits (c : Char) (hc : c ∈ d.digitText) : c.isDigit = true :=
    isDigit_of_mem_toDigits hc
  have hzeros (n : Nat) (c : Char) (hc : c ∈ List.replicate n '0') : c.isDigit = true := by
    rw [List.eq_of_mem_replicate hc]
    rfl
  have hnonempty : d.digitText ≠ [] := Nat.toDigits_ne_nil
  unfold positional
  extract_lets places whole
  split
  · rename_i hplaces
    have hall : ∀ c ∈ d.digitText ++ List.replicate d.exponent.toNat '0', c.isDigit = true := by
      intro c hc
      rcases List.mem_append.1 hc with hc | hc
      · exact hdigits c hc
      · exact hzeros _ c hc
    refine ⟨_, ['0'], ?_, ?_, hall, hzeros 1, ?_⟩
    · exact withPoint_of_not_mem fun hmem => absurd (hall '.' hmem) (by decide)
    · simp [hnonempty]
    · have hvalue : Nat.ofDigitChars 10
          (d.digitText ++ List.replicate d.exponent.toNat '0' ++ ['0']) 0 =
            10 ^ d.exponent.toNat * d.digits * 10 := by
        rw [Nat.ofDigitChars_append, Nat.ofDigitChars_append, ofDigitChars_digitText,
          Nat.ofDigitChars_replicate_zero, Nat.mul_comm _ 10]
        rfl
      rw [← rank_whole d hplaces, Lexeme.decimal, hvalue]
      exact rank_shift _ (-1)
  · rename_i hplaces
    split
    · rename_i hwhole
      refine ⟨d.digitText.take whole, d.digitText.drop whole, ?_, ?_, ?_, ?_, ?_⟩
      · exact withPoint_of_mem (by simp)
      · have hlength := List.length_take_of_le (Nat.sub_le d.digitText.length places)
        intro hnil
        rw [hnil] at hlength
        exact Nat.ne_of_lt hwhole hlength
      · exact fun c hc => hdigits c (List.mem_of_mem_take hc)
      · exact fun c hc => hdigits c (List.mem_of_mem_drop hc)
      · rw [decimal_eq hplaces]
        · rw [List.take_append_drop, ofDigitChars_digitText]
        · rw [List.length_drop]
          omega
    · rename_i hwhole
      refine ⟨['0'], List.replicate (places - d.digitText.length) '0' ++ d.digitText, ?_, ?_,
        hzeros 1, ?_, ?_⟩
      · exact withPoint_of_mem (by simp)
      · simp
      · intro c hc
        rcases List.mem_append.1 hc with hc | hc
        · exact hzeros _ c hc
        · exact hdigits c hc
      · rw [decimal_eq hplaces]
        · rw [Nat.ofDigitChars_append, Nat.ofDigitChars_append, Nat.ofDigitChars_replicate_zero]
          exact ofDigitChars_digitText d
        · rw [List.length_append, List.length_replicate]
          omega

end Decimal
namespace Binary64

theorem toBinary64_of_rank {d : Decimal} {rank : Fin finiteCount} (h : d.rank = rank)
    (negative : Bool) : d.toBinary64 negative = .finite negative rank := by
  rw [Decimal.rank] at h
  have hlt : nearestRank d.numerator d.denominator < finiteCount := h ▸ rank.isLt
  rw [Decimal.toBinary64, ofRatio, dif_pos hlt]
  congr

/-- A float that is no infinity and not below zero is written as a numeral that it is read from. -/
theorem exists_numeral (rank : Fin finiteCount) :
    ∃ whole fraction, withPoint (plainText (.finite false rank)) = whole ++ '.' :: fraction ∧
      whole ≠ [] ∧ (∀ c ∈ whole, c.isDigit = true) ∧ (∀ c ∈ fraction, c.isDigit = true) ∧
      Lexeme.floatOf whole (some fraction) = .finite false rank := by
  obtain ⟨whole, fraction, htext, hne, hwhole, hfraction, hrank⟩ :=
    (shortest .up rank).exists_withPoint
  rw [rank_shortest] at hrank
  exact ⟨whole, fraction, htext, hne, hwhole, hfraction, toBinary64_of_rank hrank false⟩

end Binary64
end Introspect
