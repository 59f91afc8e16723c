import Introspect.Latency
import Introspect.Proofs.Nearest
import Mathlib.Tactic.Ring

/-!
Rounding keeps the order, and so does the numbering of the finite values. A quotient is too large
for a finite number from half-way between the largest of them and the next power of two on.
-/
namespace Introspect

theorem div_le_roundDiv (tie : Tie) (n d : Nat) : n / d ≤ roundDiv tie n d := by
  unfold roundDiv
  split <;> omega

theorem roundDiv_le_succ (tie : Tie) (n d : Nat) : roundDiv tie n d ≤ n / d + 1 := by
  unfold roundDiv
  split <;> omega

theorem roundsUp_mono {tie : Tie} {q r s d : Nat} (hle : r ≤ s)
    (h : tie.roundsUp q r d = true) : tie.roundsUp q s d = true := by
  simp only [Tie.roundsUp, Bool.or_eq_true, Bool.and_eq_true, decide_eq_true_eq, beq_iff_eq] at h ⊢
  rcases h with habove | ⟨hhalf, htie⟩
  · exact .inl (by omega)
  · rcases Nat.lt_or_eq_of_le hle with hlt | rfl
    · exact .inl (by omega)
    · exact .inr ⟨hhalf, htie⟩

theorem roundDiv_mono (tie : Tie) {m n : Nat} (d : Nat) (h : m ≤ n) :
    roundDiv tie m d ≤ roundDiv tie n d := by
  rcases Nat.lt_or_eq_of_le (Nat.div_le_div_right (c := d) h) with hlt | heq
  · calc roundDiv tie m d ≤ m / d + 1 := roundDiv_le_succ tie m d
      _ ≤ n / d := hlt
      _ ≤ roundDiv tie n d := div_le_roundDiv tie n d
  · have hrest : m % d ≤ n % d := by
      have hm := Nat.div_add_mod m d
      have hn := Nat.div_add_mod n d
      rw [heq] at hm
      omega
    unfold roundDiv
    rw [heq]
    split
    · rename_i hup
      rw [if_pos (roundsUp_mono hrest hup)]
    · split <;> omega

/-- A half below an even number goes up to it. -/
theorem roundDiv_even_lt_iff {n d k : Nat} (hd : 0 < d) (hk : k % 2 = 0) :
    roundDiv .even n d < k ↔ 2 * n + d < 2 * (k * d) := by
  have hn := Nat.div_add_mod n d
  have hrest := Nat.mod_lt n hd
  -- The quotient is below the number by more than one, by one, or not at all.
  rcases Nat.lt_trichotomy (n / d + 1) k with hlow | hone | hhigh
  · have hround := roundDiv_le_succ .even n d
    have hscaled : d * (n / d + 2) ≤ d * k := Nat.mul_le_mul_left d hlow
    rw [Nat.mul_add] at hscaled
    rw [Nat.mul_comm k]
    constructor <;> omega
  · have hodd : n / d % 2 = 1 := by omega
    have hup : Tie.even.roundsUp (n / d) (n % d) d = true ↔ d ≤ 2 * (n % d) := by
      simp only [Tie.roundsUp, hodd, Bool.or_eq_true, Bool.and_eq_true, decide_eq_true_eq,
        beq_iff_eq, or_true, and_true]
      omega
    have hscaled : d * (n / d + 1) = d * k := by rw [hone]
    rw [Nat.mul_add] at hscaled
    unfold roundDiv
    rw [Nat.mul_comm k]
    split
    · rename_i h
      rw [hup] at h
      omega
    · rename_i h
      rw [hup] at h
      omega
  · have hround := div_le_roundDiv .even n d
    have hscaled : d * k ≤ d * (n / d) := Nat.mul_le_mul_left d (by omega)
    rw [Nat.mul_comm k]
    constructor <;> omega

namespace Binary64

theorem unitsPerOne_eq {places : Nat} (h : places = 1074) : unitsPerOne = 2 ^ places := by
  unfold unitsPerOne
  rw [← h]
  exact Nat.pow_eq

theorem finiteCount_eq : finiteCount = 2047 * 0x10000000000000 := rfl

attribute [local irreducible] unitsPerOne

/-- How far the significand of a quotient is shifted, given its whole units. -/
def scaleOf (whole : Nat) : Nat :=
  Nat.log2 whole - 52

theorem nearestRank_eq (num den : Nat) : nearestRank num den =
    scaleOf (num * unitsPerOne / den) * 0x10000000000000 +
      roundDiv .even (num * unitsPerOne) (den * 2 ^ scaleOf (num * unitsPerOne / den)) := rfl

theorem scaleOf_mono {v w : Nat} (h : v ≤ w) : scaleOf v ≤ scaleOf w := by
  unfold scaleOf
  by_cases hv : v = 0
  · simp [hv]
  · have hw : w ≠ 0 := by omega
    have hlog : v.log2 ≤ w.log2 := (Nat.le_log2 hw).2 (Nat.le_trans (Nat.log2_self_le hv) h)
    omega

theorem lt_two_pow_scaleOf (v : Nat) : v < 2 ^ (scaleOf v + 53) := by
  refine Nat.lt_of_lt_of_le Nat.lt_log2_self (Nat.pow_le_pow_right (by decide) ?_)
  unfold scaleOf
  omega

theorem two_pow_scaleOf_le {v : Nat} (h : 0 < scaleOf v) : 2 ^ (scaleOf v + 52) ≤ v := by
  unfold scaleOf at h ⊢
  have hv : v ≠ 0 := by
    rintro rfl
    simp at h
  rw [Nat.sub_add_cancel (by omega)]
  exact Nat.log2_self_le hv

/-- A significand has at most 53 bits, or is the next power of two. -/
theorem significand_le (n den : Nat) :
    roundDiv .even n (den * 2 ^ scaleOf (n / den)) ≤ 2 * 0x10000000000000 := by
  refine Nat.le_trans (roundDiv_le_succ _ _ _) ?_
  rw [← Nat.div_div_eq_div_mul, Nat.succ_le_iff, Nat.div_lt_iff_lt_mul (Nat.two_pow_pos _)]
  refine Nat.lt_of_lt_of_eq (lt_two_pow_scaleOf _) ?_
  rw [Nat.pow_add, Nat.mul_comm]

/-- A significand that is shifted has 53 bits. -/
theorem le_significand (n den : Nat) (h : 0 < scaleOf (n / den)) :
    0x10000000000000 ≤ roundDiv .even n (den * 2 ^ scaleOf (n / den)) := by
  refine Nat.le_trans ?_ (div_le_roundDiv _ _ _)
  rw [← Nat.div_div_eq_div_mul, Nat.le_div_iff_mul_le (Nat.two_pow_pos _)]
  refine Nat.le_trans (Nat.le_of_eq ?_) (two_pow_scaleOf_le h)
  rw [Nat.pow_add, Nat.mul_comm]

theorem nearestRank_mono_num {a b : Nat} (den : Nat) (h : a ≤ b) :
    nearestRank a den ≤ nearestRank b den := by
  have hunits : a * unitsPerOne ≤ b * unitsPerOne := Nat.mul_le_mul_right _ h
  have hscale := scaleOf_mono (Nat.div_le_div_right (c := den) hunits)
  rw [nearestRank_eq, nearestRank_eq]
  rcases Nat.lt_or_eq_of_le hscale with hlt | heq
  · have hlow := significand_le (a * unitsPerOne) den
    have hhigh := le_significand (b * unitsPerOne) den (by omega)
    omega
  · rw [heq]
    exact Nat.add_le_add_left (roundDiv_mono .even _ hunits) _

/-- Larger quotients are not nearest to smaller numbers. -/
theorem nearestRank_mono {num den num' den' : Nat} (hden : 0 < den) (hden' : 0 < den')
    (h : num * den' ≤ num' * den) : nearestRank num den ≤ nearestRank num' den' := by
  calc nearestRank num den
      = nearestRank (num * den') (den * den') := (nearestRank_scale num den hden').symm
    _ ≤ nearestRank (num' * den) (den * den') := nearestRank_mono_num _ h
    _ = nearestRank (num' * den) (den' * den) := by rw [Nat.mul_comm den]
    _ = nearestRank num' den' := nearestRank_scale num' den' hden

/-- Ranks are in the order of the values. -/
theorem units_mono {r s : Nat} (h : r ≤ s) : units r ≤ units s := by
  refine Nat.le_of_not_lt fun hlt => ?_
  have hrank := nearestRank_mono_num unitsPerOne (Nat.le_of_lt hlt)
  rw [nearestRank_units, nearestRank_units] at hrank
  rw [Nat.le_antisymm h hrank] at hlt
  exact Nat.lt_irrefl _ hlt

/-- A positive whole number is not rounded to zero. -/
theorem units_nearestRank_pos {n : Nat} (hn : 0 < n) : 0 < units (nearestRank n 1) := by
  have hunit : units 1 = 1 := units_small (by decide)
  have hunits : units 1 * 1 ≤ n * unitsPerOne := by
    rw [hunit]
    exact Nat.mul_le_mul hn unitsPerOne_pos
  have hrank := nearestRank_mono unitsPerOne_pos Nat.one_pos hunits
  rw [nearestRank_units] at hrank
  calc 0 < units 1 := by rw [hunit]; exact Nat.one_pos
    _ ≤ units (nearestRank n 1) := units_mono hrank

/-- Numbers of one sign are in the order of their units. -/
theorem units_lt_iff {r s : Nat} : units r < units s ↔ r < s := by
  constructor
  · intro h
    by_contra hle
    exact Nat.not_le.2 h (units_mono (Nat.le_of_not_lt hle))
  · intro h
    refine Nat.lt_of_le_of_ne (units_mono (Nat.le_of_lt h)) fun heq => ?_
    have hrank := nearestRank_units r
    rw [heq, nearestRank_units] at hrank
    omega

/-! ### Crossing a power of two

A quotient is nearest to `2 ^ (k + 54)` from half-way to the number in front of that power on. -/

theorem two_pow_eq_units (e k : Nat) : 2 ^ (e + (k + 1074)) = 2 ^ e * 2 ^ k * unitsPerOne := by
  obtain ⟨places, hplaces⟩ : ∃ places, places = 1074 := ⟨_, rfl⟩
  rw [unitsPerOne_eq hplaces, ← Nat.pow_add, ← Nat.pow_add, hplaces, Nat.add_assoc]

variable {k : Nat}

/-- What is shifted by less than the numbers in front of the power lies below the half-way point. -/
theorem lt_of_scaleOf_lt {num den : Nat} (hden : 0 < den)
    (h : scaleOf (num * unitsPerOne / den) < k + 1075) : num < (2 ^ 54 - 1) * 2 ^ k * den := by
  have hpow : 2 ^ (scaleOf (num * unitsPerOne / den) + 53) ≤ 2 ^ 53 * 2 ^ k * unitsPerOne := by
    rw [← two_pow_eq_units]
    exact Nat.pow_le_pow_right (by decide) (by omega)
  have hvalue := Nat.lt_of_lt_of_le (lt_two_pow_scaleOf (num * unitsPerOne / den)) hpow
  have hnum := (Nat.div_lt_iff_lt_mul hden).1 hvalue
  rw [Nat.mul_right_comm] at hnum
  refine Nat.lt_of_lt_of_le (Nat.lt_of_mul_lt_mul_right hnum) ?_
  exact Nat.mul_le_mul_right den (Nat.mul_le_mul_right _ (by decide))

/-- What is shifted by more than those numbers does not. -/
theorem le_of_lt_scaleOf {num den : Nat} (hden : 0 < den)
    (h : k + 1075 < scaleOf (num * unitsPerOne / den)) : (2 ^ 54 - 1) * 2 ^ k * den ≤ num := by
  have hpow : 2 ^ 54 * 2 ^ k * unitsPerOne ≤ 2 ^ (scaleOf (num * unitsPerOne / den) + 52) := by
    rw [← two_pow_eq_units]
    exact Nat.pow_le_pow_right (by decide) (by omega)
  have hvalue := Nat.le_trans hpow (two_pow_scaleOf_le (Nat.zero_lt_of_lt h))
  have hnum := (Nat.le_div_iff_mul_le hden).1 hvalue
  rw [Nat.mul_right_comm] at hnum
  refine Nat.le_trans ?_ (Nat.le_of_mul_le_mul_right hnum unitsPerOne_pos)
  exact Nat.mul_le_mul_right den (Nat.mul_le_mul_right _ (by decide))

/-- What is shifted as they are has a significand of 53 bits just if it lies below that point. -/
theorem significand_lt_iff {num den : Nat} (hden : 0 < den) :
    roundDiv .even (num * unitsPerOne) (den * 2 ^ (k + 1075)) < 2 ^ 53 ↔
      num < (2 ^ 54 - 1) * 2 ^ k * den := by
  have hpow : 2 ^ (k + 1075) = 2 ^ 1 * 2 ^ k * unitsPerOne := by
    rw [← two_pow_eq_units, Nat.add_comm 1]
  rw [roundDiv_even_lt_iff (Nat.mul_pos hden (Nat.two_pow_pos _)) (by decide), hpow]
  generalize 2 ^ k = half
  have hleft : 2 * (num * unitsPerOne) + den * (2 ^ 1 * half * unitsPerOne) =
      2 * (num + half * den) * unitsPerOne := by
    ring
  have hright : 2 * (2 ^ 53 * (den * (2 ^ 1 * half * unitsPerOne))) =
      2 * (2 ^ 54 * (half * den)) * unitsPerOne := by
    ring
  rw [hleft, hright, Nat.mul_lt_mul_right unitsPerOne_pos, Nat.mul_assoc]
  omega

theorem nearestRank_lt_power_iff {num den : Nat} (hden : 0 < den) :
    nearestRank num den < (k + 1077) * 0x10000000000000 ↔ num < (2 ^ 54 - 1) * 2 ^ k * den := by
  have hhigh := significand_le (num * unitsPerOne) den
  rw [nearestRank_eq]
  rcases Nat.lt_trichotomy (scaleOf (num * unitsPerOne / den)) (k + 1075) with
    hlow | hscale | habove
  · exact iff_of_true (by omega) (lt_of_scaleOf_lt hden hlow)
  · rw [hscale, ← significand_lt_iff hden]
    omega
  · have hsignificand := le_significand (num * unitsPerOne) den (by omega)
    exact iff_of_false (by omega) (Nat.not_lt.2 (le_of_lt_scaleOf hden habove))

/-- Half-way between the largest finite number and the next power of two. -/
def overflowBound : Nat :=
  2 ^ 1024 - 2 ^ 970

theorem overflowBound_eq : overflowBound = (2 ^ 54 - 1) * 2 ^ 970 := by
  rw [overflowBound, Nat.sub_mul, ← Nat.pow_add, Nat.one_mul]

/-- A quotient has a finite nearest number just if it lies below the bound. -/
theorem nearestRank_lt_iff {num den : Nat} (hden : 0 < den) :
    nearestRank num den < finiteCount ↔ num < overflowBound * den := by
  rw [overflowBound_eq, finiteCount_eq]
  exact nearestRank_lt_power_iff (k := 970) hden

theorem isFinite_ofRatio_iff {negative : Bool} {num den : Nat} (hden : 0 < den) :
    (ofRatio negative num den).isFinite = true ↔ num < overflowBound * den := by
  rw [← nearestRank_lt_iff hden]
  unfold ofRatio
  split
  · rename_i h
    simp [isFinite, h]
  · rename_i h
    simp [isFinite, h]

/-! ### Bounds that hold of results -/

/-- A finite number that is not negative and at most a power of two. -/
def Within (x : Binary64) (e : Nat) : Prop :=
  ∃ rank, x = .finite false rank ∧ units rank ≤ 2 ^ e * unitsPerOne

/-- Powers of two are numbers. -/
theorem units_two_pow (e : Nat) :
    units ((e + 1023) * 0x10000000000000) = 2 ^ e * unitsPerOne := by
  have hlarge : ¬ (e + 1023) * 0x10000000000000 < 0x10000000000000 := by omega
  have hmod : (e + 1023) * 0x10000000000000 % 0x10000000000000 = 0 := Nat.mul_mod_left _ _
  have hdiv : (e + 1023) * 0x10000000000000 / 0x10000000000000 - 1 = e + 1022 := by omega
  obtain ⟨places, hplaces⟩ : ∃ places, places = 1074 := ⟨_, rfl⟩
  have hexponent : e + places = 52 + (e + 1022) := by omega
  rw [units_large hlarge, hmod, hdiv, unitsPerOne_eq hplaces, ← Nat.pow_add, hexponent,
    Nat.pow_add 2 52]

theorem within_ofRatio {num den e : Nat} (hden : 0 < den) (he : e < 1024)
    (h : num ≤ 2 ^ e * den) : (ofRatio false num den).Within e := by
  have hrank : nearestRank num den ≤ (e + 1023) * 0x10000000000000 := by
    rw [← nearestRank_units ((e + 1023) * 0x10000000000000), units_two_pow]
    apply nearestRank_mono hden unitsPerOne_pos
    calc num * unitsPerOne ≤ 2 ^ e * den * unitsPerOne := Nat.mul_le_mul_right _ h
      _ = 2 ^ e * unitsPerOne * den := Nat.mul_right_comm _ _ _
  have hlt : nearestRank num den < finiteCount := by
    rw [finiteCount_eq]
    omega
  refine ⟨⟨nearestRank num den, hlt⟩, ?_, ?_⟩
  · rw [ofRatio, dif_pos hlt]
  · rw [← units_two_pow]
    exact units_mono hrank

theorem Within.mono {x : Binary64} {e f : Nat} (h : x.Within e) (hef : e ≤ f) : x.Within f := by
  obtain ⟨rank, rfl, hrank⟩ := h
  refine ⟨rank, rfl, Nat.le_trans hrank (Nat.mul_le_mul_right _ ?_)⟩
  exact Nat.pow_le_pow_right (by decide) hef

theorem Within.isFinite {x : Binary64} {e : Nat} (h : x.Within e) : x.isFinite = true := by
  obtain ⟨rank, rfl, -⟩ := h
  rfl

theorem ofInt_natCast (n : Nat) : ofInt n = ofRatio false n 1 := by
  have hsign : ¬ (n : Int) < 0 := by omega
  simp [ofInt, hsign]

theorem within_ofInt {n e : Nat} (he : e < 1024) (h : n ≤ 2 ^ e) : (ofInt n).Within e := by
  rw [ofInt_natCast]
  exact within_ofRatio Nat.one_pos he (by simpa using h)

theorem Within.add {x y : Binary64} {e : Nat} (he : e + 1 < 1024) (hx : x.Within e)
    (hy : y.Within e) : (x.add y).Within (e + 1) := by
  obtain ⟨a, rfl, ha⟩ := hx
  obtain ⟨b, rfl, hb⟩ := hy
  have hsum : (Binary64.finite false a).add (.finite false b) =
      ofRatio false (units a + units b) unitsPerOne := by
    have hsign : ¬ (units a : Int) + units b < 0 := by omega
    have hsize : ((units a : Int) + units b).natAbs = units a + units b := by omega
    simp [Binary64.add, signedUnits, hsign, hsize]
  rw [hsum]
  refine within_ofRatio unitsPerOne_pos he ?_
  rw [Nat.pow_succ, Nat.mul_right_comm, Nat.mul_two]
  exact Nat.add_le_add ha hb

theorem Within.mul {x y : Binary64} {e f : Nat} (he : e + f < 1024) (hx : x.Within e)
    (hy : y.Within f) : (x.mul y).Within (e + f) := by
  obtain ⟨a, rfl, ha⟩ := hx
  obtain ⟨b, rfl, hb⟩ := hy
  refine within_ofRatio (Nat.mul_pos unitsPerOne_pos unitsPerOne_pos) he ?_
  calc units a * units b ≤ (2 ^ e * unitsPerOne) * (2 ^ f * unitsPerOne) := Nat.mul_le_mul ha hb
    _ = 2 ^ (e + f) * (unitsPerOne * unitsPerOne) := by ring

/-- A proper fraction of integers is at most one. -/
theorem within_div_ofInt {m n e : Nat} (he : e < 1024) (hmn : m ≤ n) (hpos : 0 < n)
    (hn : n ≤ 2 ^ e) : ((ofInt m).div (ofInt n)).Within 0 := by
  have hfinite {k : Nat} (hk : k ≤ n) : nearestRank k 1 < finiteCount := by
    have hwithin := within_ofInt he (Nat.le_trans hk hn)
    rw [ofInt_natCast] at hwithin
    rw [nearestRank_lt_iff Nat.one_pos]
    exact (isFinite_ofRatio_iff Nat.one_pos).1 hwithin.isFinite
  have hof {k : Nat} (hk : k ≤ n) : ofInt k = .finite false ⟨nearestRank k 1, hfinite hk⟩ := by
    rw [ofInt_natCast, ofRatio, dif_pos (hfinite hk)]
  have hunits : units (nearestRank m 1) ≤ units (nearestRank n 1) :=
    units_mono (nearestRank_mono_num 1 hmn)
  have hone := units_nearestRank_pos hpos
  rw [hof hmn, hof (Nat.le_refl n)]
  simp only [Binary64.div, Nat.ne_of_gt hone, ne_eq, not_false_eq_true, if_true]
  exact within_ofRatio hone (by decide) (by simpa using hunits)

end Binary64

/-- A span of 64 bits has a finite number of milliseconds. -/
theorem Latency.isFinite_millisOfNanos {nanos : Nat} (h : nanos < 2 ^ 64) :
    (millisOfNanos nanos).isFinite = true := by
  have hwhole : (Binary64.ofInt (nanos / 1000000000 : Nat)).Within 35 :=
    Binary64.within_ofInt (by decide) (by omega)
  have hrest : ((Binary64.ofInt (nanos % 1000000000 : Nat)).div
      (Binary64.ofInt (1000000000 : Nat))).Within 0 :=
    Binary64.within_div_ofInt (e := 30) (by decide) (by omega) (by decide) (by decide)
  have hseconds := Binary64.Within.add (by decide) hwhole (hrest.mono (Nat.zero_le 35))
  have hthousand : (Binary64.ofInt (1000 : Nat)).Within 10 :=
    Binary64.within_ofInt (by decide) (by decide)
  exact (Binary64.Within.mul (by decide) hseconds hthousand).isFinite

end Introspect
