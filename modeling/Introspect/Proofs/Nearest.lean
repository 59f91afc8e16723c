import Introspect.Binary64.Layout
import Mathlib.Algebra.Group.Nat.Defs

/-!
Numbers that are read back. The nearest number of a quotient depends on its value alone and is the
number itself where the quotient is one; so the decimal that a number is written as reads back.
-/
namespace Introspect

theorem roundsUp_scale (tie : Tie) (q r d : Nat) {k : Nat} (hk : 0 < k) :
    tie.roundsUp q (r * k) (d * k) = tie.roundsUp q r d := by
  have hlt : d * k < 2 * (r * k) ↔ d < 2 * r := by
    rw [← Nat.mul_assoc]
    exact Nat.mul_lt_mul_right hk
  have heq : 2 * (r * k) = d * k ↔ 2 * r = d := by
    rw [← Nat.mul_assoc]
    exact Nat.mul_left_inj (Nat.ne_of_gt hk)
  simp only [Tie.roundsUp, hlt, Bool.beq_eq_decide_eq, heq]

theorem roundDiv_scale (tie : Tie) (n d : Nat) {k : Nat} (hk : 0 < k) :
    roundDiv tie (n * k) (d * k) = roundDiv tie n d := by
  rw [roundDiv, roundDiv, Nat.mul_div_mul_right n d hk, Nat.mul_mod_mul_right,
    roundsUp_scale tie _ _ _ hk]

/-- A quotient that is whole is not rounded. -/
theorem roundDiv_mul (tie : Tie) (a : Nat) {d : Nat} (hd : 0 < d) :
    roundDiv tie (a * d) d = a := by
  have hzero : ¬ 0 = d := Nat.ne_of_lt hd
  simp [roundDiv, Tie.roundsUp, hzero, Nat.mul_div_cancel a hd]

namespace Binary64

theorem unitsPerOne_pos : 0 < unitsPerOne := by
  unfold unitsPerOne
  apply Nat.two_pow_pos

-- Nothing below computes with this number.
attribute [local irreducible] unitsPerOne

theorem nearestRank_scale (num den : Nat) {k : Nat} (hk : 0 < k) :
    nearestRank (num * k) (den * k) = nearestRank num den := by
  have hnum : num * k * unitsPerOne = num * unitsPerOne * k := by
    rw [Nat.mul_assoc, Nat.mul_comm k, ← Nat.mul_assoc]
  have hden (scale : Nat) : den * k * Nat.pow 2 scale = den * Nat.pow 2 scale * k := by
    rw [Nat.mul_assoc, Nat.mul_comm k, ← Nat.mul_assoc]
  simp only [nearestRank, hnum, hden, Nat.mul_div_mul_right _ _ hk, roundDiv_scale _ _ _ hk]

/-- The nearest rank depends on the value of a quotient alone. -/
theorem nearestRank_congr {num den num' den' : Nat} (hden : 0 < den) (hden' : 0 < den')
    (h : num * den' = num' * den) : nearestRank num den = nearestRank num' den' := by
  calc nearestRank num den
      = nearestRank (num * den') (den * den') := (nearestRank_scale num den hden').symm
    _ = nearestRank (num' * den) (den' * den) := by rw [h, Nat.mul_comm den]
    _ = nearestRank num' den' := nearestRank_scale num' den' hden

/-- A full significand has 53 bits. -/
theorem log2_significand (m e : Nat) (hm : m < 0x10000000000000) :
    Nat.log2 ((0x10000000000000 + m) * 2 ^ e) = 52 + e := by
  have hlow : 2 ^ (52 + e) ≤ (0x10000000000000 + m) * 2 ^ e := by
    rw [Nat.pow_add]
    exact Nat.mul_le_mul_right _ (Nat.le_add_right _ _)
  have hhigh : (0x10000000000000 + m) * 2 ^ e < 2 ^ (52 + e + 1) := by
    have hfactor : 0x10000000000000 + m < 2 ^ 53 := by omega
    calc (0x10000000000000 + m) * 2 ^ e
        < 2 ^ 53 * 2 ^ e := Nat.mul_lt_mul_of_pos_right hfactor (Nat.two_pow_pos e)
      _ = 2 ^ (52 + e + 1) := by rw [← Nat.pow_add, Nat.add_right_comm]
  have hpos := Nat.lt_of_lt_of_le (Nat.two_pow_pos (52 + e)) hlow
  exact (Nat.log2_eq_iff (Nat.ne_of_gt hpos)).2 ⟨hlow, hhigh⟩

theorem units_small {rank : Nat} (h : rank < 0x10000000000000) : units rank = rank := by
  rw [units, significand, if_pos h, Nat.div_eq_of_lt h]
  exact Nat.mul_one rank

theorem units_large {rank : Nat} (h : ¬ rank < 0x10000000000000) :
    units rank = (0x10000000000000 + rank % 0x10000000000000) *
      2 ^ (rank / 0x10000000000000 - 1) := by
  rw [units, significand, if_neg h, Nat.pow_eq]

/-- A number is nearest to itself. -/
theorem nearestRank_units (rank : Nat) : nearestRank (units rank) unitsPerOne = rank := by
  have hden (scale : Nat) : unitsPerOne * 2 ^ scale = 2 ^ scale * unitsPerOne := Nat.mul_comm _ _
  simp only [nearestRank, Nat.pow_eq, Nat.mul_div_cancel _ unitsPerOne_pos, hden,
    roundDiv_scale _ _ _ unitsPerOne_pos]
  by_cases hsmall : rank < 0x10000000000000
  · have hlog : Nat.log2 rank - 52 = 0 := by
      by_cases hzero : rank = 0
      · rw [hzero, Nat.log2_zero]
      · have := (Nat.log2_lt (k := 52) hzero).2 hsmall
        omega
    rw [units_small hsmall, hlog, Nat.zero_mul, Nat.zero_add, Nat.pow_zero]
    simpa using roundDiv_mul .even rank Nat.one_pos
  · have hm : rank % 0x10000000000000 < 0x10000000000000 := Nat.mod_lt _ (by decide)
    have hscale : Nat.log2 (units rank) - 52 = rank / 0x10000000000000 - 1 := by
      rw [units_large hsmall, log2_significand _ _ hm]
      omega
    -- The scale divides the units, so nothing is rounded off.
    rw [hscale, units_large hsmall, roundDiv_mul .even _ (Nat.two_pow_pos _)]
    omega

end Binary64

namespace Decimal

theorem numerator_eq (d : Decimal) : d.numerator = d.digits * 10 ^ d.exponent.toNat := by
  rw [numerator, Nat.pow_eq]

theorem denominator_eq (d : Decimal) : d.denominator = 10 ^ (-d.exponent).toNat := by
  rw [denominator, Nat.pow_eq]

theorem denominator_pos (d : Decimal) : 0 < d.denominator := by
  rw [denominator_eq]
  exact Nat.pow_pos (by decide)

/-- The rank of the number that a decimal is nearest to. -/
def rank (d : Decimal) : Nat :=
  Binary64.nearestRank d.numerator d.denominator

/-- A zero at the end of the digits can go into the exponent. -/
theorem rank_shift (m : Nat) (exponent : Int) :
    rank ⟨m * 10, exponent⟩ = rank ⟨m, exponent + 1⟩ := by
  simp only [rank, numerator_eq, denominator_eq]
  by_cases hsign : 0 ≤ exponent
  · have hneg : (-exponent).toNat = 0 := by omega
    have hneg' : (-(exponent + 1)).toNat = 0 := by omega
    have hsucc : (exponent + 1).toNat = exponent.toNat + 1 := by omega
    simp only [hneg, hneg', hsucc]
    rw [Nat.mul_assoc, Nat.mul_comm 10, ← Nat.pow_succ]
  · have hpos : exponent.toNat = 0 := by omega
    have hpos' : (exponent + 1).toNat = 0 := by omega
    have hsucc : (-exponent).toNat = (-(exponent + 1)).toNat + 1 := by omega
    simp only [hpos, hpos', hsucc, Nat.pow_zero, Nat.mul_one, Nat.pow_succ]
    exact Binary64.nearestRank_scale m _ (by decide)

theorem rank_trim (digits : Nat) (exponent : Int) :
    rank (trim digits exponent) = rank ⟨digits, exponent⟩ := by
  fun_induction trim digits exponent with
  | case1 digits exponent h ih =>
    have hdigits : digits / 10 * 10 = digits := by omega
    rw [ih, ← rank_shift, hdigits]
  | case2 digits exponent => rfl

/-- Binary places are as many decimal ones. -/
theorem rank_places (num places : Nat) :
    rank ⟨num * Nat.pow 5 places, -places⟩ = Binary64.nearestRank num (Nat.pow 2 places) := by
  have hneg : (-(-(places : Int))).toNat = places := by omega
  have hpos : (-(places : Int)).toNat = 0 := by omega
  rw [rank]
  apply Binary64.nearestRank_congr (denominator_pos _) (Nat.two_pow_pos places)
  simp only [numerator_eq, denominator_eq, hneg, hpos, Nat.pow_eq, Nat.pow_zero, Nat.mul_one]
  rw [Nat.mul_assoc, ← Nat.mul_pow]

end Decimal

namespace Binary64

theorem readable?_reads {reads : Decimal → Bool} {up : Bool} {below above d : Decimal}
    (h : readable? reads up below above = some d) : reads d = true := by
  unfold readable? at h
  split at h
  · rename_i hbelow habove
    split at h
    · cases h
      exact habove
    · cases h
      exact hbelow
  · rename_i hbelow habove
    cases h
    exact hbelow
  · rename_i hbelow habove
    cases h
    exact habove
  · cases h

theorem rank_decimalAt? {tie : Tie} {rank : Nat} {exponent : Int} {d : Decimal}
    (h : decimalAt? tie rank exponent = some d) : d.rank = rank := by
  unfold decimalAt? at h
  have hreads := readable?_reads h
  rw [readsAs, beq_iff_eq] at hreads
  exact hreads

theorem rank_exact (rank : Nat) : (⟨units rank * Nat.pow 5 1074, -1074⟩ : Decimal).rank = rank := by
  have hunits := nearestRank_units rank
  unfold unitsPerOne at hunits
  exact (Decimal.rank_places (units rank) 1074).trans hunits

theorem rank_zero : (⟨0, 0⟩ : Decimal).rank = 0 := by
  have hzero := nearestRank_units 0
  rw [units_small (by decide)] at hzero
  rw [Decimal.rank, Decimal.numerator, Nat.zero_mul]
  refine (nearestRank_congr (Decimal.denominator_pos _) unitsPerOne_pos ?_).trans hzero
  rw [Nat.zero_mul, Nat.zero_mul]

/-- A number is read back from the decimal that it is written as. -/
theorem rank_shortest (tie : Tie) (rank : Nat) : (shortest tie rank).rank = rank := by
  unfold shortest
  split
  · rename_i hzero
    rw [hzero, rank_zero]
  · rw [Decimal.rank_trim]
    cases hfound : (List.range 17).findSome? fun i =>
        decimalAt? tie rank (wholeDigits (units rank) - (i + 1 : Nat)) with
    | none => exact rank_exact rank
    | some d =>
      obtain ⟨i, -, hi⟩ := List.exists_of_findSome?_eq_some hfound
      exact rank_decimalAt? hi

end Binary64
end Introspect
