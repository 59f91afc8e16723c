import Introspect.Latency
import Introspect.Proofs.Tiling

/-!
Which texts are read as a latency: a numeral, perhaps milliseconds for its unit, and blanks around
both. The text determines the numeral, also where digits of other scripts count as digits; such a
numeral is found and then not read.
-/
namespace Introspect

/-- Digits of some sort, then perhaps a point and further digits. -/
def IsNumeralOf (digit : Char → Bool) (cs : List Char) : Prop :=
  ∃ whole rest, cs = whole ++ rest ∧ whole ≠ [] ∧ (∀ d ∈ whole, digit d = true) ∧
    (rest = [] ∨ ∃ places, rest = '.' :: places ∧ ∀ d ∈ places, digit d = true)

/-- Digits are neither blanks nor points nor what the unit starts with. -/
def IsDigitSort (digit : Char → Bool) : Prop :=
  ∀ c, digit c = true → Text.isBlank c = false ∧ c ≠ '.' ∧ c ≠ 'm'

theorem isDigitSort_isDigit : IsDigitSort Char.isDigit := by
  intro c h
  refine ⟨digit_not_blank h, ?_, ?_⟩ <;> rintro rfl <;> exact absurd h (by decide)

/-- Neither a digit nor a point comes next. -/
def EndsNumeral (digit : Char → Bool) (cs : List Char) : Prop :=
  ∀ c ∈ cs.head?, digit c = false ∧ c ≠ '.'

/-- The digits at the front of a text, with a point among them, and what comes behind. -/
def numeralFront (digit : Char → Bool) (cs : List Char) : List Char × List Char :=
  match cs.dropWhile digit with
  | '.' :: rest => (cs.takeWhile digit ++ '.' :: rest.takeWhile digit, rest.dropWhile digit)
  | rest => (cs.takeWhile digit, rest)

section Front
variable {digit digit' : Char → Bool} {cs number rest : List Char}

theorem IsNumeralOf.mono (h : IsNumeralOf digit number)
    (sub : ∀ c, digit c = true → digit' c = true) : IsNumeralOf digit' number := by
  obtain ⟨whole, behind, rfl, hne, hwhole, hbehind⟩ := h
  refine ⟨whole, behind, rfl, hne, fun d hd => sub d (hwhole d hd), hbehind.imp_right ?_⟩
  rintro ⟨places, rfl, hplaces⟩
  exact ⟨places, rfl, fun d hd => sub d (hplaces d hd)⟩

theorem IsNumeralOf.exists_cons (h : IsNumeralOf digit number) :
    ∃ d more, number = d :: more ∧ digit d = true := by
  obtain ⟨whole, behind, rfl, hne, hwhole, -⟩ := h
  obtain ⟨d, whole, rfl⟩ := List.exists_cons_of_ne_nil hne
  exact ⟨d, whole ++ behind, rfl, hwhole d List.mem_cons_self⟩

theorem IsDigitSort.not_point (sort : IsDigitSort digit) : digit '.' = false :=
  Bool.eq_false_iff.2 fun h => (sort '.' h).2.1 rfl

theorem IsDigitSort.not_unit (sort : IsDigitSort digit) : digit 'm' = false :=
  Bool.eq_false_iff.2 fun h => (sort 'm' h).2.2 rfl

theorem IsDigitSort.endsNumeral_append (sort : IsDigitSort digit) {blanks : List Char}
    (hblanks : ∀ c ∈ blanks, Text.isBlank c = true) (h : EndsNumeral digit rest) :
    EndsNumeral digit (blanks ++ rest) := by
  cases blanks with
  | nil => exact h
  | cons b blanks =>
    intro c hc
    obtain rfl := Option.some.inj hc
    have hblank := hblanks b List.mem_cons_self
    constructor
    · refine Bool.eq_false_iff.2 fun hdigit => ?_
      rw [(sort b hdigit).1] at hblank
      cases hblank
    · rintro rfl
      exact absurd hblank (by decide)

theorem numeralFront_point (h : cs.dropWhile digit = '.' :: rest) :
    numeralFront digit cs =
      (cs.takeWhile digit ++ '.' :: rest.takeWhile digit, rest.dropWhile digit) := by
  simp only [numeralFront, h]

theorem numeralFront_whole (h : ∀ rest, cs.dropWhile digit ≠ '.' :: rest) :
    numeralFront digit cs = (cs.takeWhile digit, cs.dropWhile digit) := by
  unfold numeralFront
  split
  · rename_i rest hdrop
    exact absurd hdrop (h rest)
  · rfl

theorem numeralFront_append : (numeralFront digit cs).1 ++ (numeralFront digit cs).2 = cs := by
  have hcs := List.takeWhile_append_dropWhile (p := digit) (l := cs)
  by_cases hpoint : ∃ rest, cs.dropWhile digit = '.' :: rest
  · obtain ⟨rest, hdrop⟩ := hpoint
    rw [numeralFront_point hdrop, List.append_assoc, List.cons_append,
      List.takeWhile_append_dropWhile, ← hdrop, hcs]
  · rw [numeralFront_whole (not_exists.1 hpoint), hcs]

theorem isNumeralOf_numeralFront (h : cs.takeWhile digit ≠ []) :
    IsNumeralOf digit (numeralFront digit cs).1 := by
  have hrun (cs : List Char) : ∀ d ∈ cs.takeWhile digit, digit d = true :=
    fun d hd => List.mem_takeWhile_imp hd
  by_cases hpoint : ∃ rest, cs.dropWhile digit = '.' :: rest
  · obtain ⟨rest, hdrop⟩ := hpoint
    rw [numeralFront_point hdrop]
    exact ⟨_, _, rfl, h, hrun cs, .inr ⟨_, rfl, hrun rest⟩⟩
  · rw [numeralFront_whole (not_exists.1 hpoint)]
    exact ⟨_, [], (List.append_nil _).symm, h, hrun cs, .inl rfl⟩

/-- A numeral is all of the front, if it ends there. -/
theorem numeralFront_of_isNumeralOf (sort : IsDigitSort digit) (h : IsNumeralOf digit number)
    (edge : EndsNumeral digit rest) : numeralFront digit (number ++ rest) = (number, rest) := by
  obtain ⟨whole, behind, rfl, -, hwhole, hbehind⟩ := h
  have hedge : ∀ c ∈ rest.head?, digit c = false := fun c hc => (edge c hc).1
  rcases hbehind with rfl | ⟨places, rfl, hplaces⟩
  · have hdrop := dropWhile_run hwhole hedge
    have hnone : ∀ behind, (whole ++ rest).dropWhile digit ≠ '.' :: behind := by
      intro behind hpoint
      rw [hdrop] at hpoint
      exact (edge '.' (by simp [hpoint])).2 rfl
    rw [List.append_nil, numeralFront_whole hnone, takeWhile_run hwhole hedge, hdrop]
  · have hpoint : ∀ c ∈ ('.' :: (places ++ rest)).head?, digit c = false := by
      rintro _ ⟨⟩
      exact sort.not_point
    rw [List.append_assoc, List.cons_append, numeralFront_point (dropWhile_run hwhole hpoint),
      takeWhile_run hwhole hpoint, takeWhile_run hplaces hedge, dropWhile_run hplaces hedge]

end Front

theorem floatOfNumeral_sign (cs : List Char) :
    (floatOfNumeral cs).isNegative = false ∧ floatOfNumeral cs ≠ .nan := by
  unfold floatOfNumeral Decimal.toBinary64 Binary64.ofRatio
  split <;> exact ⟨rfl, nofun⟩

namespace Latency

/-- What may come behind the numeral of a latency. -/
def Trails (cs : List Char) : Prop :=
  ∃ between unit after, cs = between ++ (unit ++ after) ∧
    (∀ c ∈ between, Text.isBlank c = true) ∧ (unit = [] ∨ unit = ['m', 's']) ∧
    ∀ c ∈ after, Text.isBlank c = true

/-- The text is that of a latency, if `number` is a number. -/
def Holds (cs number : List Char) : Prop :=
  ∃ before rest, cs = before ++ (number ++ rest) ∧ (∀ c ∈ before, Text.isBlank c = true) ∧
    Trails rest

theorem exists_dropBlanks (cs : List Char) :
    ∃ blanks, cs = blanks ++ Text.dropBlanks cs ∧ ∀ c ∈ blanks, Text.isBlank c = true :=
  ⟨_, List.takeWhile_append_dropWhile.symm, fun _ hc => List.mem_takeWhile_imp hc⟩

theorem dropBlanks_eq_nil_iff {cs : List Char} :
    Text.dropBlanks cs = [] ↔ ∀ c ∈ cs, Text.isBlank c = true := by
  rw [Text.dropBlanks, List.dropWhile_eq_nil_iff]

theorem dropUnit_cases (cs : List Char) :
    (∃ rest, cs = ['m', 's'] ++ rest ∧ dropUnit cs = rest) ∨ dropUnit cs = cs := by
  unfold dropUnit
  split
  · rename_i rest
    exact .inl ⟨rest, rfl, rfl⟩
  · exact .inr rfl

theorem trails_iff {cs : List Char} :
    Trails cs ↔ Text.dropBlanks (dropUnit (Text.dropBlanks cs)) = [] := by
  constructor
  · rintro ⟨between, unit, after, rfl, hbetween, rfl | rfl, hafter⟩
    · have hblank : Text.dropBlanks (between ++ ([] ++ after)) = [] := by
        rw [dropBlanks_eq_nil_iff, List.nil_append, List.forall_mem_append]
        exact ⟨hbetween, hafter⟩
      rw [hblank]
      rfl
    · have hunit : Text.dropBlanks (between ++ (['m', 's'] ++ after)) = 'm' :: 's' :: after :=
        dropWhile_run hbetween (by rintro _ ⟨⟩; decide)
      rw [hunit]
      exact dropBlanks_eq_nil_iff.2 hafter
  · intro h
    obtain ⟨between, hcs, hbetween⟩ := exists_dropBlanks cs
    rcases dropUnit_cases (Text.dropBlanks cs) with ⟨after, hunit, hdrop⟩ | hdrop
    · rw [hdrop, dropBlanks_eq_nil_iff] at h
      rw [hunit] at hcs
      exact ⟨between, ['m', 's'], after, hcs, hbetween, .inr rfl, h⟩
    · rw [hdrop, dropBlanks_eq_nil_iff] at h
      exact ⟨between, [], _, hcs, hbetween, .inl rfl, h⟩

section Reading
variable {digit : Char → Bool} {cs number before rest : List Char} {v : Binary64}

theorem Trails.endsNumeral (h : Trails cs) (sort : IsDigitSort digit) : EndsNumeral digit cs := by
  obtain ⟨between, unit, after, rfl, hbetween, rfl | rfl, hafter⟩ := h
  · rw [List.nil_append, ← List.append_nil (between ++ after), List.append_assoc]
    exact sort.endsNumeral_append hbetween (sort.endsNumeral_append hafter nofun)
  · refine sort.endsNumeral_append hbetween ?_
    rintro _ ⟨⟩
    exact ⟨sort.not_unit, by decide⟩

theorem dropBlanks_numeral (sort : IsDigitSort digit) (h : IsNumeralOf digit number)
    (hbefore : ∀ c ∈ before, Text.isBlank c = true) (rest : List Char) :
    Text.dropBlanks (before ++ (number ++ rest)) = number ++ rest := by
  obtain ⟨d, more, rfl, hdigit⟩ := h.exists_cons
  refine dropWhile_run hbefore ?_
  rintro _ ⟨⟩
  exact (sort d hdigit).1

theorem Holds.exists_rest (sort : IsDigitSort digit) (hholds : Holds cs number)
    (hnumber : IsNumeralOf digit number) : ∃ rest, Text.dropBlanks cs = number ++ rest ∧
      numeralFront digit (Text.dropBlanks cs) = (number, rest) ∧ Trails rest := by
  obtain ⟨before, rest, rfl, hbefore, htrails⟩ := hholds
  have hdrop := dropBlanks_numeral sort hnumber hbefore rest
  refine ⟨rest, hdrop, ?_, htrails⟩
  rw [hdrop, numeralFront_of_isNumeralOf sort hnumber (htrails.endsNumeral sort)]

/-- The text alone says how the number is written. -/
theorem Holds.unique (sort : IsDigitSort digit) {number' : List Char} (hholds : Holds cs number)
    (hnumber : IsNumeralOf digit number) (hholds' : Holds cs number')
    (hnumber' : IsNumeralOf digit number') : number = number' := by
  obtain ⟨rest, -, hfront, -⟩ := hholds.exists_rest sort hnumber
  obtain ⟨rest', -, hfront', -⟩ := hholds'.exists_rest sort hnumber'
  exact congrArg Prod.fst (hfront.symm.trans hfront')

/-- The front is read, if it has digits and what comes behind may trail it. -/
theorem ofChars?_eq_numeralFront (cs : List Char) :
    let found := numeralFront Char.isDigit (Text.dropBlanks cs)
    ofChars? cs =
      if (Text.dropBlanks cs).takeWhile Char.isDigit = [] ∨
        Text.dropBlanks (dropUnit (Text.dropBlanks found.2)) ≠ []
      then none else some (floatOfNumeral found.1) := by
  intro found
  have hwhole : ∀ d ∈ (Text.dropBlanks cs).takeWhile Char.isDigit, d.isDigit = true :=
    fun d hd => List.mem_takeWhile_imp hd
  by_cases hpoint : ∃ rest, (Text.dropBlanks cs).dropWhile Char.isDigit = '.' :: rest
  · obtain ⟨rest, hdrop⟩ := hpoint
    simp only [found, ofChars?, hdrop, numeralFront_point hdrop, floatOfNumeral_point hwhole,
      List.isEmpty_iff, Bool.not_eq_true', List.isEmpty_eq_false_iff]
    rfl
  · have hnone := not_exists.1 hpoint
    simp only [found, ofChars?, numeralFront_whole hnone, floatOfNumeral_whole hwhole,
      List.isEmpty_iff, Bool.not_eq_true', List.isEmpty_eq_false_iff]
    rfl

theorem ofChars?_eq_some_iff : ofChars? cs = some v ↔
    ∃ number, Holds cs number ∧ IsNumeral number ∧ v = floatOfNumeral number := by
  rw [ofChars?_eq_numeralFront]
  constructor
  · intro h
    split at h
    · cases h
    · rename_i hreads
      obtain ⟨hdigits, htrails⟩ := not_or.1 hreads
      obtain ⟨before, hcs, hbefore⟩ := exists_dropBlanks cs
      refine ⟨(numeralFront Char.isDigit (Text.dropBlanks cs)).1, ?_,
        isNumeralOf_numeralFront hdigits, (Option.some.inj h).symm⟩
      refine ⟨before, _, ?_, hbefore, trails_iff.2 (not_not.1 htrails)⟩
      rw [numeralFront_append]
      exact hcs
  · rintro ⟨number, hholds, hnumber, hv⟩
    obtain ⟨rest, hdrop, hfront, htrails⟩ := hholds.exists_rest isDigitSort_isDigit hnumber
    have hdigits : (Text.dropBlanks cs).takeWhile Char.isDigit ≠ [] := by
      obtain ⟨d, more, rfl, hdigit⟩ := IsNumeralOf.exists_cons hnumber
      simp [hdrop, hdigit]
    rw [hfront, if_neg (not_or.2 ⟨hdigits, not_not.2 (trails_iff.1 htrails)⟩), hv]

/-! ### Texts that are not read -/

theorem ofChars?_eq_none_iff :
    ofChars? cs = none ↔ ∀ number, Holds cs number → ¬ IsNumeral number := by
  rw [Option.eq_none_iff_forall_ne_some]
  constructor
  · intro h number hholds hnumber
    exact h _ (ofChars?_eq_some_iff.2 ⟨number, hholds, hnumber, rfl⟩)
  · intro h v hv
    obtain ⟨number, hholds, hnumber, -⟩ := ofChars?_eq_some_iff.1 hv
    exact h number hholds hnumber

/-- A character that no latency has. -/
theorem ofChars?_of_foreign {c : Char} (hmem : c ∈ cs) (hblank : Text.isBlank c = false)
    (hdigit : c.isDigit = false) (hother : c ∉ ['.', 'm', 's']) : ofChars? cs = none := by
  refine ofChars?_eq_none_iff.2 fun number hholds hnumber => ?_
  have hnot {blanks : List Char} (hblanks : ∀ b ∈ blanks, Text.isBlank b = true) :
      c ∉ blanks := by
    intro hc
    rw [hblanks c hc] at hblank
    cases hblank
  obtain ⟨before, _, rfl, hbefore, between, unit, after, rfl, hbetween, hunit, hafter⟩ := hholds
  simp only [List.mem_append, hnot hbefore, hnot hbetween, hnot hafter, false_or, or_false] at hmem
  rcases hmem with hmem | hmem
  · rcases hnumber.mem hmem with h | rfl
    · exact absurd (h.symm.trans hdigit) (by decide)
    · exact hother (by decide)
  · rcases hunit with rfl | rfl
    · cases hmem
    · exact hother (List.mem_cons_of_mem _ hmem)

theorem ofChars?_of_point (hbefore : ∀ c ∈ before, Text.isBlank c = true) (rest : List Char) :
    ofChars? (before ++ '.' :: rest) = none := by
  refine ofChars?_eq_none_iff.2 fun number hholds hnumber => ?_
  obtain ⟨rest', hdrop, -⟩ := hholds.exists_rest isDigitSort_isDigit hnumber
  obtain ⟨d, more, rfl, hdigit⟩ := IsNumeralOf.exists_cons hnumber
  have hpoint : Text.dropBlanks (before ++ '.' :: rest) = '.' :: rest :=
    dropWhile_run hbefore (by rintro _ ⟨⟩; decide)
  rw [hpoint] at hdrop
  obtain rfl : '.' = d := (List.cons.inj hdrop).1
  exact absurd hdigit (by decide)

/-- A word behind the numeral trails it only as the unit. -/
theorem eq_unit_of_trails {between unit after : List Char}
    (hbetween : ∀ c ∈ between, Text.isBlank c = true) (hne : unit ≠ [])
    (hunit : ∀ c ∈ unit, Text.isBlank c = false) (hafter : ∀ c ∈ after, Text.isBlank c = true)
    (h : Trails (between ++ (unit ++ after))) : unit = ['m', 's'] := by
  have hfirst : ∀ c ∈ (unit ++ after).head?, Text.isBlank c = false := by
    obtain ⟨u, more, rfl⟩ := List.exists_cons_of_ne_nil hne
    rintro _ ⟨⟩
    exact hunit u List.mem_cons_self
  have hword {word blanks : List Char} (hword : ∀ c ∈ word, Text.isBlank c = false)
      (hblanks : ∀ c ∈ blanks, Text.isBlank c = true) :
      (word ++ blanks).takeWhile (fun c => !Text.isBlank c) = word := by
    apply takeWhile_run
    · simpa using hword
    · intro c hc
      rw [hblanks c (List.mem_of_mem_head? hc)]
      rfl
  have hdrop : Text.dropBlanks (between ++ (unit ++ after)) = unit ++ after :=
    dropWhile_run hbetween hfirst
  rw [trails_iff, hdrop] at h
  rcases dropUnit_cases (unit ++ after) with ⟨rest, hrest, hblank⟩ | hsame
  · rw [hblank, dropBlanks_eq_nil_iff] at h
    rw [← hword hunit hafter, hrest]
    have hms : ∀ c ∈ ['m', 's'], Text.isBlank c = false :=
      List.forall_mem_cons.2 ⟨by decide, List.forall_mem_singleton.2 (by decide)⟩
    exact hword hms h
  · -- Without the unit nothing but blanks may be left.
    rw [hsame, dropBlanks_eq_nil_iff] at h
    obtain ⟨u, more, rfl⟩ := List.exists_cons_of_ne_nil hne
    have hblank := h u List.mem_cons_self
    rw [hunit u List.mem_cons_self] at hblank
    cases hblank

theorem ofChars?_of_unit {between unit after : List Char}
    (hbefore : ∀ c ∈ before, Text.isBlank c = true) (hnumber : IsNumeral number)
    (hbetween : ∀ c ∈ between, Text.isBlank c = true) (hne : unit ≠ [])
    (hunit : ∀ c ∈ unit, Text.isBlank c = false) (hends : EndsNumeral Char.isDigit unit)
    (hafter : ∀ c ∈ after, Text.isBlank c = true) (hother : unit ≠ ['m', 's']) :
    ofChars? (before ++ (number ++ (between ++ (unit ++ after)))) = none := by
  refine ofChars?_eq_none_iff.2 fun number' hholds hnumber' => ?_
  obtain ⟨rest, hdrop, hfront, htrails⟩ := hholds.exists_rest isDigitSort_isDigit hnumber'
  have hedge : EndsNumeral Char.isDigit (between ++ (unit ++ after)) := by
    refine isDigitSort_isDigit.endsNumeral_append hbetween ?_
    obtain ⟨u, more, rfl⟩ := List.exists_cons_of_ne_nil hne
    exact hends
  rw [dropBlanks_numeral isDigitSort_isDigit hnumber hbefore,
    numeralFront_of_isNumeralOf isDigitSort_isDigit hnumber hedge] at hfront
  obtain rfl : between ++ (unit ++ after) = rest := congrArg Prod.snd hfront
  exact hother (eq_unit_of_trails hbetween hne hunit hafter htrails)

end Reading

/-- A text is read as a latency just if it is a numeral with an optional unit and blanks around
both, and the latency is then the number of the numeral. Numerals of more digits than these are
found in the same way, where they are digits of some sort, but only those of these digits are read.
No text is read that has any other character, that starts with a point, or that has another unit. -/
theorem text_reads_numeral (s : String) :
    (∀ v, ofLiteral? (.text s) = some v ↔
      ∃ number, Holds s.toList number ∧ IsNumeral number ∧ v = floatOfNumeral number) ∧
    (∀ number number', Holds s.toList number → IsNumeral number →
      Holds s.toList number' → IsNumeral number' → number = number') ∧
    (∀ v, ofLiteral? (.text s) = some v → v.isNegative = false ∧ v ≠ .nan) ∧
    (∀ digit : Char → Bool, IsDigitSort digit → (∀ c, c.isDigit = true → digit c = true) →
      (∀ number, Holds s.toList number → IsNumeralOf digit number →
        (IsNumeral number → ofLiteral? (.text s) = some (floatOfNumeral number)) ∧
        (¬ IsNumeral number → ofLiteral? (.text s) = none)) ∧
      ((∀ number, Holds s.toList number → ¬ IsNumeralOf digit number) →
        ofLiteral? (.text s) = none)) ∧
    (∀ c ∈ s.toList, Text.isBlank c = false → c.isDigit = false → c ∉ ['.', 'm', 's'] →
      ofLiteral? (.text s) = none) ∧
    (∀ before rest, s.toList = before ++ '.' :: rest → (∀ c ∈ before, Text.isBlank c = true) →
      ofLiteral? (.text s) = none) ∧
    ∀ before number between unit after,
      s.toList = before ++ (number ++ (between ++ (unit ++ after))) →
      (∀ c ∈ before, Text.isBlank c = true) → IsNumeral number →
      (∀ c ∈ between, Text.isBlank c = true) → unit ≠ [] →
      (∀ c ∈ unit, Text.isBlank c = false) → EndsNumeral Char.isDigit unit →
      (∀ c ∈ after, Text.isBlank c = true) → unit ≠ ['m', 's'] →
      ofLiteral? (.text s) = none := by
  simp only [ofLiteral?]
  refine ⟨fun v => ofChars?_eq_some_iff, ?_, ?_, ?_, ?_, ?_, ?_⟩
  · intro number number' hholds hnumber hholds' hnumber'
    exact hholds.unique isDigitSort_isDigit hnumber hholds' hnumber'
  · intro v hv
    obtain ⟨number, -, -, hvalue⟩ := ofChars?_eq_some_iff.1 hv
    rw [hvalue]
    exact floatOfNumeral_sign number
  · intro digit sort ascii
    constructor
    · intro number hholds hnumber
      refine ⟨fun h => ofChars?_eq_some_iff.2 ⟨number, hholds, h, rfl⟩, fun hnot => ?_⟩
      refine ofChars?_eq_none_iff.2 fun number' hholds' hnumber' => ?_
      have hwider : IsNumeralOf digit number' := IsNumeralOf.mono hnumber' ascii
      obtain rfl := hholds.unique sort hnumber hholds' hwider
      exact hnot hnumber'
    · intro hnone
      refine ofChars?_eq_none_iff.2 fun number hholds hnumber => ?_
      exact hnone number hholds (IsNumeralOf.mono hnumber ascii)
  · intro c hmem hblank hdigit hother
    exact ofChars?_of_foreign hmem hblank hdigit hother
  · intro before rest hs hbefore
    rw [hs]
    exact ofChars?_of_point hbefore rest
  · intro before number between unit after hs hbefore hnumber hbetween hne hunit hends hafter hother
    rw [hs]
    exact ofChars?_of_unit hbefore hnumber hbetween hne hunit hends hafter hother

/-- Blanks anywhere; then a numeral with a digit of another script, one without a digit in front of
its point, and one with another unit. -/
theorem text_reads_spaced :
    ofLiteral? (.text " 2.5 ms ") = some (floatOfNumeral ['2', '.', '5']) ∧
      ofLiteral? (.text "4\u0663") = none ∧ ofLiteral? (.text " .5ms") = none ∧
      ofLiteral? (.text "5.s") = none := by
  have hblank : ∀ c ∈ [' '], Text.isBlank c = true := List.forall_mem_singleton.2 (by decide)
  have htwo : ∀ d ∈ ['2'], d.isDigit = true := List.forall_mem_singleton.2 (by decide)
  have hfive : ∀ d ∈ ['5'], d.isDigit = true := List.forall_mem_singleton.2 (by decide)
  refine ⟨?_, ?_, ?_, ?_⟩
  · refine ((text_reads_numeral " 2.5 ms ").1 _).2 ⟨['2', '.', '5'], ?_, ?_, rfl⟩
    · exact ⟨[' '], _, rfl, hblank, [' '], ['m', 's'], [' '], rfl, hblank, .inr rfl, hblank⟩
    · exact ⟨['2'], _, rfl, by simp, htwo, .inr ⟨['5'], rfl, hfive⟩⟩
  · obtain ⟨-, -, -, hcaptured, -⟩ := text_reads_numeral "4\u0663"
    let digit (c : Char) : Bool := c.isDigit || c == '\u0663'
    have hsort : IsDigitSort digit := by
      intro c h
      rcases Bool.or_eq_true_iff.1 h with h | h
      · exact isDigitSort_isDigit c h
      · obtain rfl := beq_iff_eq.1 h
        decide
    have hdigits : ∀ d ∈ ['4', '\u0663'], digit d = true :=
      List.forall_mem_cons.2 ⟨by decide, List.forall_mem_singleton.2 (by decide)⟩
    refine ((hcaptured digit hsort fun c h => Bool.or_eq_true_iff.2 (.inl h)).1 ['4', '\u0663']
      ?_ ?_).2 ?_
    · exact ⟨[], [], rfl, by simp, [], [], [], rfl, by simp, .inl rfl, by simp⟩
    · exact ⟨_, [], (List.append_nil _).symm, by simp, hdigits, .inl rfl⟩
    · intro hnumeral
      rcases hnumeral.mem (c := '\u0663') (by simp) with h | h <;> exact absurd h (by decide)
  · obtain ⟨-, -, -, -, -, hpoint, -⟩ := text_reads_numeral " .5ms"
    exact hpoint [' '] ['5', 'm', 's'] rfl hblank
  · obtain ⟨-, -, -, -, -, -, hunit⟩ := text_reads_numeral "5.s"
    have hletter : ∀ c ∈ ['s'], Text.isBlank c = false :=
      List.forall_mem_singleton.2 (by decide)
    refine hunit [] ['5', '.'] [] ['s'] [] rfl (by simp) ?_ (by simp) (by simp) hletter ?_
      (by simp) (by simp)
    · exact ⟨['5'], _, rfl, by simp, hfive, .inr ⟨[], rfl, by simp⟩⟩
    · rintro _ ⟨⟩
      decide

end Latency
end Introspect
