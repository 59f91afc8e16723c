import Introspect.Proofs.Checking
import Introspect.Proofs.Lenient
import Mathlib.Algebra.Order.Floor.Semifield
import Mathlib.Data.Rat.Floor

/-!
Depths. The number behind the keyword is cut to an integer and brought into 32 bits, whatever it is,
and the parser goes on behind it. Of two numbers in texts the one that is written larger has no
smaller depth, also where one is rounded to a float and the other is not. Each depth is read back
as it is written.
-/
namespace Introspect

attribute [local irreducible] Binary64.unitsPerOne

/-- The most there is of a depth. -/
def maxDepth : Nat := 4294967295

theorem toNat_ofNatClamp (n : Nat) : (UInt32.ofNatClamp n).toNat = min n maxDepth := by
  unfold maxDepth
  by_cases h : n < UInt32.size
  · rw [UInt32.toNat_ofNatClamp_of_lt h]
    simp only [UInt32.size] at h
    omega
  · have hle := Nat.le_of_not_lt h
    rw [UInt32.toNat_ofNatClamp_of_le hle]
    simp only [UInt32.size] at hle ⊢
    omega

/-- The range of 64-bit integers goes past that of depths. -/
theorem toNat_ofIntClamp (n : Int) :
    (UInt32.ofNatClamp (Int64.ofIntClamp n).toInt.toNat).toNat = min n.toNat maxDepth := by
  have hleast : Int64.minValue.toInt = -0x8000000000000000 := by decide
  have hmost : Int64.maxValue.toInt = 0x7fffffffffffffff := by decide
  rw [toNat_ofNatClamp]
  unfold Int64.ofIntClamp maxDepth
  split
  · split
    · rw [Int64.toInt_ofIntLE]
    · omega
  · omega

namespace Binary64

/-- The value of a finite number. -/
def toRat? : Binary64 → Option ℚ
  | .finite negative rank => some (signedUnits negative rank / unitsPerOne)
  | _ => none

/-! ### Whole numbers -/

/-- A whole number of at most 53 bits can be shifted up to 53 bits. -/
theorem exists_shift {n : Nat} (hzero : n ≠ 0) (h : n < 2 ^ 53) :
    ∃ k ≤ 52, 0x10000000000000 ≤ n * 2 ^ k ∧ n * 2 ^ k < 2 * 0x10000000000000 := by
  have hlog : n.log2 < 53 := (Nat.log2_lt hzero).2 h
  obtain ⟨k, hk⟩ : ∃ k, n.log2 + k = 52 := ⟨52 - n.log2, by omega⟩
  refine ⟨k, by omega, ?_, ?_⟩
  · calc 0x10000000000000 = 2 ^ n.log2 * 2 ^ k := by rw [← Nat.pow_add, hk]
      _ ≤ n * 2 ^ k := Nat.mul_le_mul_right _ (Nat.log2_self_le hzero)
  · calc n * 2 ^ k < 2 ^ (n.log2 + 1) * 2 ^ k :=
          Nat.mul_lt_mul_of_pos_right Nat.lt_log2_self (Nat.two_pow_pos k)
      _ = 2 * 0x10000000000000 := by rw [← Nat.pow_add, Nat.add_right_comm, hk]

/-- Whole numbers of at most 53 bits are numbers. -/
theorem exists_units_whole {n : Nat} (h : n < 2 ^ 53) : ∃ rank, units rank = n * unitsPerOne := by
  by_cases hzero : n = 0
  · exact ⟨0, by rw [hzero, units_small (by decide), Nat.zero_mul]⟩
  · obtain ⟨places, hplaces⟩ : ∃ places, places = 1074 := ⟨_, rfl⟩
    obtain ⟨k, hk, hleast, hmost⟩ := exists_shift hzero h
    -- Shifted, the number is the significand of its own rank.
    refine ⟨(places - k) * 0x10000000000000 + n * 2 ^ k, ?_⟩
    have hlarge : ¬ (places - k) * 0x10000000000000 + n * 2 ^ k < 0x10000000000000 := by omega
    have hmod : 0x10000000000000 +
        ((places - k) * 0x10000000000000 + n * 2 ^ k) % 0x10000000000000 = n * 2 ^ k := by omega
    have hdiv : ((places - k) * 0x10000000000000 + n * 2 ^ k) / 0x10000000000000 - 1 =
        places - k := by omega
    have hexponent : k + (places - k) = places := by omega
    rw [units_large hlarge, hmod, hdiv, Nat.mul_assoc, ← Nat.pow_add, hexponent,
      unitsPerOne_eq hplaces]

theorem units_nearestRank_whole {n : Nat} (h : n < 2 ^ 53) :
    units (nearestRank n 1) = n * unitsPerOne := by
  obtain ⟨rank, hrank⟩ := exists_units_whole h
  have hcongr : nearestRank n 1 = nearestRank (units rank) unitsPerOne := by
    apply nearestRank_congr Nat.one_pos unitsPerOne_pos
    rw [hrank, Nat.mul_one]
  rw [hcongr, nearestRank_units, hrank]

/-- Rounding moves no whole number across the bound of depths. -/
theorem min_nearestRank_whole (n : Nat) :
    min (units (nearestRank n 1) / unitsPerOne) maxDepth = min n maxDepth := by
  by_cases h : n < 2 ^ 53
  · rw [units_nearestRank_whole h, Nat.mul_div_cancel _ unitsPerOne_pos]
  · have hround : nearestRank (maxDepth : Nat) 1 ≤ nearestRank n 1 := by
      apply nearestRank_mono_num
      unfold maxDepth
      omega
    have hunits := units_mono hround
    rw [units_nearestRank_whole (by decide)] at hunits
    have hquotient := (Nat.le_div_iff_mul_le unitsPerOne_pos).2 hunits
    have hlarge : maxDepth ≤ n := by
      unfold maxDepth
      omega
    rw [Nat.min_eq_right hquotient, Nat.min_eq_right hlarge]

end Binary64

/-- The value of a literal that is a finite number. -/
def Literal.toRat? : Literal → Option ℚ
  | .integer n => some n.toInt
  | .float x => x.toRat?
  | .text _ => none

/-! ### The depth for a payload -/

/-- `DepthFor payload depth`: what a number token asks for that carries the payload. -/
inductive DepthFor : Option Literal → Nat → Prop
  | missing : DepthFor none 0
  | text (s : String) : DepthFor (some (.text s)) 0
  | nan : DepthFor (some (.float .nan)) 0
  | infinite (negative : Bool) :
      DepthFor (some (.float (.infinite negative))) (if negative then 0 else maxDepth)
  | negative {l : Literal} {v : ℚ} (value : l.toRat? = some v) (below : v < 0) :
      DepthFor (some l) 0
  | number {l : Literal} {v : ℚ} (value : l.toRat? = some v) (nonnegative : 0 ≤ v) :
      DepthFor (some l) (min ⌊v⌋₊ maxDepth)

/-- A payload asks for one depth. -/
theorem DepthFor.unique {payload : Option Literal} {m n : Nat} (h : DepthFor payload m)
    (h' : DepthFor payload n) : m = n := by
  cases h with
  | negative value below =>
    cases h' with
    | negative => rfl
    | number value' nonnegative =>
      obtain rfl := Option.some.inj (value.symm.trans value')
      exact absurd below (not_lt.2 nonnegative)
    | _ => cases value
  | number value nonnegative =>
    cases h' with
    | negative value' below =>
      obtain rfl := Option.some.inj (value.symm.trans value')
      exact absurd below (not_lt.2 nonnegative)
    | number value' _ =>
      rw [Option.some.inj (value.symm.trans value')]
    | _ => cases value
  | missing =>
    cases h'
    rfl
  | text s | nan | infinite sign =>
    cases h' with
    | negative value _ | number value _ => cases value
    | _ => rfl

namespace Binary64

theorem toRat?_positive (rank : Fin finiteCount) :
    (finite false rank).toRat? = some ((units rank : ℚ) / unitsPerOne) := by
  rw [toRat?, signedUnits, if_neg (by decide), Int.cast_natCast]

/-- The two zeros ask for the same. -/
theorem depthFor_finite (negative : Bool) (rank : Fin finiteCount) :
    DepthFor (some (.float (.finite negative rank)))
      (if negative then 0 else min (units rank / unitsPerOne) maxDepth) := by
  have hone : (0 : ℚ) < unitsPerOne := Nat.cast_pos.2 unitsPerOne_pos
  cases negative with
  | false =>
    have hfloor : ⌊(units rank : ℚ) / unitsPerOne⌋₊ = units rank / unitsPerOne :=
      Nat.floor_div_eq_div _ _
    rw [if_neg (by decide), ← hfloor]
    exact .number (toRat?_positive rank) (div_nonneg (Nat.cast_nonneg _) hone.le)
  | true =>
    have hvalue : (finite true rank).toRat? = some (-(units rank : ℚ) / unitsPerOne) := by
      rw [toRat?, signedUnits, if_pos rfl, Int.cast_neg, Int.cast_natCast]
    rw [if_pos rfl]
    by_cases hzero : units rank = 0
    · rw [hzero, Nat.cast_zero, neg_zero, zero_div] at hvalue
      have hnumber := DepthFor.number (l := .float (.finite true rank)) hvalue le_rfl
      rwa [Nat.floor_zero, Nat.zero_min] at hnumber
    · have hunits : (0 : ℚ) < units rank := Nat.cast_pos.2 (Nat.pos_of_ne_zero hzero)
      exact .negative hvalue (div_neg_of_neg_of_pos (neg_lt_zero.2 hunits) hone)

end Binary64

namespace Token

variable {t : Token}

theorem depth_of_integer {n : Int64} (h : t.literal? = some (.integer n)) :
    t.depth.toNat = min n.toInt.toNat maxDepth := by
  rw [depth, h]
  exact toNat_ofNatClamp _

theorem depth_of_float {x : Binary64} (h : t.literal? = some (.float x)) :
    t.depth = UInt32.ofNatClamp x.truncate.toInt.toNat := by
  rw [depth, h]
  rfl

theorem depth_of_finite {negative : Bool} {rank : Fin Binary64.finiteCount}
    (h : t.literal? = some (.float (.finite negative rank))) :
    t.depth.toNat = if negative then 0
      else min (Binary64.units rank / Binary64.unitsPerOne) maxDepth := by
  rw [depth_of_float h, Binary64.truncate, toNat_ofIntClamp]
  cases negative with
  | true =>
    have hneg (m : Nat) : (-(m : Int)).toNat = 0 := by omega
    rw [if_pos rfl, if_pos rfl, hneg, Nat.zero_min]
  | false => rfl

theorem depthFor (t : Token) : DepthFor t.literal? t.depth.toNat := by
  rcases hliteral : t.literal? with _ | n | x | s
  · have hdepth : t.depth = 0 := by rw [depth, hliteral]; rfl
    rw [hdepth]
    exact .missing
  · rw [depth_of_integer hliteral]
    by_cases hneg : n.toInt < 0
    · have hzero : n.toInt.toNat = 0 := Int.toNat_of_nonpos (Int.le_of_lt hneg)
      rw [hzero, Nat.zero_min]
      exact .negative rfl (Int.cast_lt_zero.2 hneg)
    · have hnonneg : 0 ≤ n.toInt := Int.not_lt.1 hneg
      have hfloor : ⌊(n.toInt : ℚ)⌋₊ = n.toInt.toNat := by
        rw [← Int.floor_toNat, Int.floor_intCast]
      rw [← hfloor]
      exact .number rfl (Int.cast_nonneg hnonneg)
  · cases x with
    | finite negative rank =>
      rw [depth_of_finite hliteral]
      exact Binary64.depthFor_finite negative rank
    | infinite negative =>
      rw [depth_of_float hliteral]
      cases negative with
      | true => exact .infinite true
      | false => exact .infinite false
    | nan =>
      rw [depth_of_float hliteral]
      exact .nan
  · have hdepth : t.depth = 0 := by rw [depth, hliteral]; rfl
    rw [hdepth]
    exact .text s

end Token

/-! ### The parser behind the keyword -/

theorem Stage.enter?_depth {allowed : List Clause} {stage : Stage}
    (h : enter? allowed (.keyword .depth) = some stage) : stage = .depth := by
  unfold enter? at h
  split at h
  · rename_i clause hfound
    have hclause : clause = .depth := by
      have hkeyword := List.find?_some hfound
      cases clause <;> simp [Clause.keyword] at hkeyword ⊢
    rw [hclause] at h
    exact (Option.some.inj h).symm
  · simp at h

theorem Stage.next?_depth {stage : Stage} {q : Query} {k : Token} {p : Stage × Query}
    (hkind : k.kind = .keyword .depth) (h : stage.next? q k = some p) : p = (.depth, q) := by
  have hentered {allowed : List Clause} {p : Stage × Query}
      (h : (enter? allowed k.kind).map (·, q) = some p) : p = (.depth, q) := by
    obtain ⟨stage, hstage, rfl⟩ := Option.map_eq_some_iff.1 h
    rw [hkind] at hstage
    rw [enter?_depth hstage]
  cases stage with
  | clauses allowed => exact hentered h
  | pairEnd clause =>
    rw [next?, if_neg (by simp [hkind])] at h
    exact hentered h
  | _ => simp [next?, Token.name?, Token.value?, hkind] at h

/-- Wherever the keyword fits, the parser takes any number behind it and goes on. -/
theorem Parser.follow_depth {stop : Nat} {stage : Stage} {q : Query} {k t : Token}
    (rest : List Token) (fits : (stage.next? q k).isSome = true)
    (hkind : k.kind = .keyword .depth) (hnumber : t.kind = .number) :
    follow stop stage q (k :: t :: rest) =
      follow stop (.clauses Clause.depth.later) { q with depth := t.depth } rest := by
  obtain ⟨p, hp⟩ := Option.isSome_iff_exists.1 fits
  have hentered := Stage.next?_depth hkind hp
  have hnext : Stage.depth.next? q t =
      some (.clauses Clause.depth.later, { q with depth := t.depth }) := by
    rw [Stage.next?, if_pos hnumber]
  rw [follow_cons_of_next? hp, hentered, follow_cons_of_next? hnext]

/-! ### Numbers of texts -/

open Lexeme

/-- The token is read off a number of the text. The number is worth `written` as it is written, and
`read` as it is read. -/
structure NumberIn (text : String) (mode : Mode) (t : Token) (written read : ℚ) : Prop where
  stands : ∃ before whole fraction rest,
    text.toList = before ++ ((numeral whole fraction).chars ++ rest) ∧
    (numeral whole fraction).Munches rest ∧
    Gives mode (before.length, numeral whole fraction) t ∧ written = value whole fraction
  reads : t.literal?.bind Literal.toRat? = some read

/-- A number gives a token with an integer or float, which is rounded from what is written. -/
theorem Lexeme.Gives.number {mode : Mode} {position : Nat} {whole : List Char}
    {fraction : Option (List Char)} {t : Token}
    (h : Gives mode (position, numeral whole fraction) t) :
    (fraction = none ∧ Nat.ofDigitChars 10 whole 0 < 0x8000000000000000 ∧
      t.literal? = some (.integer (Int64.ofNat (Nat.ofDigitChars 10 whole 0)))) ∨
    ∃ rank : Fin Binary64.finiteCount, t.literal? = some (.float (.finite false rank)) ∧
      rank.val = (decimal whole (fraction.getD [])).rank := by
  have hfloat {fraction : Option (List Char)}
      (finite : (floatOf whole fraction).isFinite = true) :
      ∃ rank : Fin Binary64.finiteCount, floatOf whole fraction = .finite false rank ∧
        rank.val = (decimal whole (fraction.getD [])).rank := by
    rw [floatOf, Decimal.toBinary64, Binary64.ofRatio] at finite ⊢
    split at finite
    · rename_i hlt
      exact ⟨⟨_, hlt⟩, dif_pos hlt, rfl⟩
    · simp [Binary64.isFinite] at finite
  rcases h.reads with hreads | ⟨w, hreads⟩
  · cases hreads with
    | integer small => exact .inl ⟨rfl, small, rfl⟩
    | float finite =>
      obtain ⟨rank, hrank, hval⟩ := hfloat finite
      exact .inr ⟨rank, by rw [hrank]; rfl, hval⟩
  · cases hreads with
    | overflow large finite =>
      obtain ⟨rank, hrank, hval⟩ := hfloat finite
      exact .inr ⟨rank, by rw [hrank]; rfl, hval⟩

/-- However a number is read, it asks for the depth of its rounded value. -/
theorem Lexeme.Gives.depth {mode : Mode} {position : Nat} {whole : List Char}
    {fraction : Option (List Char)} {t : Token}
    (h : Gives mode (position, numeral whole fraction) t) :
    t.depth.toNat = min (Binary64.units (decimal whole (fraction.getD [])).rank /
      Binary64.unitsPerOne) maxDepth := by
  rcases h.number with ⟨rfl, small, hliteral⟩ | ⟨rank, hliteral, hrank⟩
  · have hdecimal : (decimal whole []).rank =
        Binary64.nearestRank (Nat.ofDigitChars 10 whole 0) 1 := by
      rw [decimal, List.append_nil, Decimal.rank, Decimal.numerator_eq, Decimal.denominator_eq]
      simp
    rw [Option.getD_none, hdecimal, Binary64.min_nearestRank_whole,
      Token.depth_of_integer hliteral, Int64.toInt_ofNat_of_lt small, Int.toNat_natCast]
  · rw [Token.depth_of_finite hliteral, if_neg (by decide), hrank]

theorem Lexeme.Gives.exists_read {mode : Mode} {position : Nat} {whole : List Char}
    {fraction : Option (List Char)} {t : Token}
    (h : Gives mode (position, numeral whole fraction) t) :
    ∃ v, 0 ≤ v ∧ t.literal?.bind Literal.toRat? = some v := by
  rcases h.number with ⟨-, small, hliteral⟩ | ⟨rank, hliteral, -⟩
  · refine ⟨(Nat.ofDigitChars 10 whole 0 : ℚ), Nat.cast_nonneg _, ?_⟩
    rw [hliteral, Option.bind_some, Literal.toRat?, Int64.toInt_ofNat_of_lt small,
      Int.cast_natCast]
  · refine ⟨(Binary64.units rank : ℚ) / Binary64.unitsPerOne,
      div_nonneg (Nat.cast_nonneg _) (Nat.cast_nonneg _), ?_⟩
    rw [hliteral]
    exact Binary64.toRat?_positive rank

theorem Lexeme.value_le_iff {whole whole' : List Char} {fraction fraction' : Option (List Char)} :
    value whole fraction ≤ value whole' fraction' ↔
      (decimal whole (fraction.getD [])).numerator *
          (decimal whole' (fraction'.getD [])).denominator ≤
        (decimal whole' (fraction'.getD [])).numerator *
          (decimal whole (fraction.getD [])).denominator := by
  have hpos := Decimal.denominator_pos (decimal whole (fraction.getD []))
  have hpos' := Decimal.denominator_pos (decimal whole' (fraction'.getD []))
  rw [value_eq, value_eq, div_le_div_iff₀ (Nat.cast_pos.2 hpos) (Nat.cast_pos.2 hpos'),
    ← Nat.cast_mul, ← Nat.cast_mul, Nat.cast_le]

namespace NumberIn

variable {text text' : String} {mode mode' : Mode} {t t' : Token} {w w' v v' : ℚ}

theorem depth_eq (h : NumberIn text mode t w v) :
    0 ≤ v ∧ t.depth.toNat = min ⌊v⌋₊ maxDepth := by
  obtain ⟨before, whole, fraction, rest, -, -, hgives, -⟩ := h.stands
  obtain ⟨u, hu, hread⟩ := hgives.exists_read
  obtain rfl : u = v := Option.some.inj (hread.symm.trans h.reads)
  have hfor := t.depthFor
  obtain ⟨l, hl, hvalue⟩ := Option.bind_eq_some_iff.1 hread
  rw [hl] at hfor
  exact ⟨hu, hfor.unique (.number hvalue hu)⟩

theorem depth_mono (h : NumberIn text mode t w v) (h' : NumberIn text' mode' t' w' v')
    (hle : w ≤ w' ∨ v ≤ v') : t.depth ≤ t'.depth := by
  rw [UInt32.le_iff_toNat_le]
  rcases hle with hle | hle
  · obtain ⟨before, whole, fraction, rest, -, -, hgives, rfl⟩ := h.stands
    obtain ⟨before', whole', fraction', rest', -, -, hgives', rfl⟩ := h'.stands
    have hrank := Binary64.nearestRank_mono (Decimal.denominator_pos _)
      (Decimal.denominator_pos _) (value_le_iff.1 hle)
    rw [hgives.depth, hgives'.depth]
    exact min_le_min_right _ (Nat.div_le_div_right (Binary64.units_mono hrank))
  · rw [h.depth_eq.2, h'.depth_eq.2]
    exact min_le_min_right _ (Nat.floor_mono hle)

end NumberIn

theorem Lexeme.Gives.exists_numeral {mode : Mode} {position : Nat} {lexeme : Lexeme} {t : Token}
    (h : Gives mode (position, lexeme) t) (hnumber : t.kind = .number) :
    ∃ whole fraction, lexeme = numeral whole fraction := by
  rcases h.reads with hreads | ⟨w, hreads⟩
  · cases hreads with
    | integer | float => exact ⟨_, _, rfl⟩
    | word chars => rcases wordKind_cases chars with ⟨k, hkind⟩ | hkind <;> simp [hkind] at hnumber
    | _ => simp at hnumber
  · cases hreads with
    | overflow => exact ⟨_, _, rfl⟩
    | unclosed => simp at hnumber

/-- Every number token of a text is a number of the text. -/
theorem exists_numberIn {text : String} {mode : Mode} {ts : List Token} {ws : List LexWarning}
    {t : Token} (h : tokenize text mode = .ok (ts, ws)) (hmem : t ∈ ts)
    (hnumber : t.kind = .number) : ∃ w v, NumberIn text mode t w v := by
  obtain ⟨body, rfl, hbody⟩ := readOff_of_tokenize h
  rcases List.mem_append.1 hmem with hmem | hmem
  · obtain ⟨before, lexeme, rest, hstands, hmunch, hgives⟩ := hbody t hmem
    obtain ⟨whole, fraction, rfl⟩ := hgives.exists_numeral hnumber
    obtain ⟨v, -, hread⟩ := hgives.exists_read
    exact ⟨_, v, ⟨before, whole, fraction, rest, hstands, hmunch, hgives, rfl⟩, hread⟩
  · obtain rfl := List.mem_singleton.1 hmem
    cases hnumber

/-! ### Rendering -/

/-- Any depth can be written into a query that can be read. -/
theorem Query.parse_render_depth {text : String} {mode : Mode} {q : Query}
    (h : Query.parse text mode = .ok q) (n : UInt32) (mode' : Mode) :
    Query.parse (Query.render { q with depth := n }) mode' = .ok { q with depth := n } := by
  have hwell := Grammar.wellFormed_of_parse h
  have hrender := Grammar.parse_render (q := { q with depth := n })
    ⟨hwell.fields_ne_nil, hwell.fields, hwell.source, hwell.filter, hwell.options,
      hwell.constraints⟩
  exact Query.parse_eq_ok_iff_check.2 ⟨[], Query.check_render hrender mode'⟩

/-- Behind the keyword any number is taken, and its depth is what its payload asks for, brought into
32 bits. Of two numbers in texts, read in whichever mode, the one that is written or read as larger
has no smaller depth. In the text of a query any depth is read back. -/
theorem depth_clamps :
    (∀ (stop : Nat) (stage : Stage) (q : Query) (k t : Token) (rest : List Token),
      (stage.next? q k).isSome = true → k.kind = .keyword .depth → t.kind = .number →
      Parser.follow stop stage q (k :: t :: rest) =
        Parser.follow stop (.clauses Clause.depth.later) { q with depth := t.depth } rest) ∧
    (∀ (t : Token) (n : Nat), t.depth.toNat = n ↔ DepthFor t.literal? n) ∧
    (∀ text mode ts ws t, tokenize text mode = .ok (ts, ws) → t ∈ ts → t.kind = .number →
      ∃ w v, NumberIn text mode t w v) ∧
    (∀ text mode t w v, NumberIn text mode t w v → 0 ≤ v ∧ t.depth.toNat = min ⌊v⌋₊ maxDepth) ∧
    (∀ text text' mode mode' t t' w w' v v', NumberIn text mode t w v →
      NumberIn text' mode' t' w' v' → w ≤ w' ∨ v ≤ v' → t.depth ≤ t'.depth) ∧
    ∀ text mode q, Query.parse text mode = .ok q → ∀ (n : UInt32) mode',
      Query.parse (Query.render { q with depth := n }) mode' = .ok { q with depth := n } := by
  refine ⟨?_, ?_, ?_, ?_, ?_, ?_⟩
  · intro stop stage q k t rest fits hkind hnumber
    exact Parser.follow_depth rest fits hkind hnumber
  · intro t n
    constructor
    · rintro rfl
      exact t.depthFor
    · intro h
      exact t.depthFor.unique h
  · intro text mode ts ws t h hmem hnumber
    exact exists_numberIn h hmem hnumber
  · intro text mode t w v h
    exact h.depth_eq
  · intro text text' mode mode' t t' w w' v v' h h' hle
    exact h.depth_mono h' hle
  · intro text mode q h n mode'
    exact Query.parse_render_depth h n mode'

/-- An integer of twenty digits, which is read as a float. -/
theorem depth_of_twenty_digits :
    let text := "introspect \x7b select a from s depth 99999999999999999999 \x7d"
    let small : Token := ⟨.number, .literal (.integer 2), 0⟩
    let large : Token := ⟨.number, .literal (.float (.ofBits 0x4415af1d78b58c40)), 2⟩
    tokenize "2 99999999999999999999" .lenient =
        .ok ([small, large, Token.eof 22], [.overflow "99999999999999999999" 2]) ∧
      small.depth ≤ large.depth ∧ large.depth = 4294967295 ∧
      Query.parse text .lenient = .ok { Query.plain ["a"] "s" with depth := large.depth } ∧
      Query.parse (Query.render { Query.plain ["a"] "s" with depth := large.depth }) .strict =
        .ok { Query.plain ["a"] "s" with depth := large.depth } ∧
      Parser.follow 0 (.clauses [.depth]) (Query.plain ["a"] "s")
          [⟨.keyword .depth, .symbol "depth", 0⟩, large, ⟨.mark .closeBrace, .absent, 0⟩] =
        (.ok { Query.plain ["a"] "s" with depth := large.depth }, []) := by
  intro text small large
  obtain ⟨hfollow, hfor, hnumber, hclamp, hmono, hrender⟩ := depth_clamps
  have htokens : tokenize "2 99999999999999999999" .lenient =
      .ok ([small, large, Token.eof 22], [.overflow "99999999999999999999" 2]) := by
    decide +kernel
  have hlarge : large.depth = 4294967295 := by decide +kernel
  have hparse : Query.parse text .lenient =
      .ok { Query.plain ["a"] "s" with depth := large.depth } := by
    rw [hlarge]
    decide +kernel
  obtain ⟨w, v, hsmall⟩ := hnumber _ _ _ _ small htokens (by simp) rfl
  obtain ⟨w', v', hin⟩ := hnumber _ _ _ _ large htokens (by simp) rfl
  have hle : v ≤ v' := by
    have hv : ((2 : Int64).toInt : ℚ) = v := Option.some.inj hsmall.reads
    have hfloor := (hclamp _ _ _ _ _ hin).2
    have hmost : maxDepth ≤ ⌊v'⌋₊ := by
      rw [hlarge] at hfloor
      exact min_eq_right_iff.1 hfloor.symm
    calc v = ((2 : Nat) : ℚ) := hv.symm
      _ ≤ maxDepth := Nat.cast_le.2 (by decide)
      _ ≤ v' := (Nat.le_floor_iff (hclamp _ _ _ _ _ hin).1).1 hmost
  refine ⟨htokens, hmono _ _ _ _ _ _ _ _ _ _ hsmall hin (.inr hle), hlarge, hparse,
    hrender _ _ _ hparse _ _, ?_⟩
  rw [hfollow 0 _ _ _ large _ (by decide) rfl rfl]
  rfl

end Introspect
