import Introspect.Json.Printer
import Introspect.Proofs.JsonTree
import Introspect.Proofs.Munch

/-!
The tokens of a JSON text. Numerals and strings are read back as they were written, a numeral only
in front of something that does not go on with it.
-/
namespace Introspect.Json

namespace Token

/-- A text that no number goes on with. -/
def Edge (cs : List Char) : Prop :=
  ∀ c ∈ cs.head?, c.isDigit = false ∧ c ≠ '.' ∧ c ≠ 'e' ∧ c ≠ 'E'

/-- `Spells cs ts`: the text `cs` consists of blanks and of the tokens `ts`. -/
inductive Spells : List Char → List Token → Prop
  | nil : Spells [] []
  | blank {c : Char} {cs : List Char} {ts : List Token} (blank : isBlank c = true)
      (more : Spells cs ts) : Spells (c :: cs) ts
  | token {c : Char} (cs : List Char) {rest : List Char} {t : Token} {ts : List Token}
      (solid : isBlank c = false) (scan : scan? c (cs ++ rest) = some (t, rest))
      (more : Spells rest ts) : Spells (c :: (cs ++ rest)) (t :: ts)

theorem Spells.length_le {cs : List Char} {ts : List Token} (h : Spells cs ts) :
    ts.length ≤ cs.length := by
  induction h with
  | nil => exact Nat.le_refl _
  | blank blank more ih =>
    rw [List.length_cons]
    omega
  | token cs solid scan more ih =>
    rw [List.length_cons, List.length_cons, List.length_append]
    omega

theorem Spells.scanAll {cs : List Char} {ts : List Token} (h : Spells cs ts) (done : List Token)
    {measure : Nat} (hmeasure : ts.length ≤ measure) :
    scanAll done measure cs = some (done.reverse ++ ts) := by
  induction h generalizing done measure with
  | nil => simp [Token.scanAll]
  | blank blank more ih =>
    have hmore := ih done hmeasure
    unfold Token.scanAll at hmore ⊢
    rwa [List.dropWhile_cons_of_pos blank]
  | @token c cs rest t ts solid scan more ih =>
    rw [List.length_cons] at hmeasure
    obtain ⟨measure, rfl⟩ := Nat.exists_eq_add_of_lt hmeasure
    have hmore := ih (t :: done) (Nat.le_add_right ts.length measure)
    rw [Token.scanAll, List.dropWhile_cons_of_neg (by simp [solid])]
    simp only [scan]
    rw [hmore]
    simp

theorem Spells.ofText? {text : String} {ts : List Token} (h : Spells text.toList ts) :
    ofText? text = some ts :=
  h.scanAll [] h.length_le

end Token

/-! ### Numerals -/

namespace Numeral

def fractionChars : Option (List Char) → List Char
  | none => []
  | some ds => '.' :: ds

def exponentChars : Option (Bool × List Char) → List Char
  | none => []
  | some (down, ds) => 'e' :: (if down then '-' else '+') :: ds

/-- The text of a numeral without its sign. -/
def magnitudeChars (n : Numeral) : List Char :=
  n.whole ++ (fractionChars n.fraction ++ exponentChars n.exponent)

def chars (n : Numeral) : List Char :=
  Binary64.signed n.negative n.magnitudeChars

/-- A numeral that keeps to the grammar: no part is empty, and the whole part starts with no zero
unless it is one. -/
structure Grammatical (n : Numeral) : Prop where
  nonempty : n.whole ≠ []
  leading : n.whole = ['0'] ∨ n.whole.head? ≠ some '0'
  digits : ∀ c ∈ n.whole, c.isDigit = true
  fraction : ∀ ds ∈ n.fraction, ds ≠ [] ∧ ∀ c ∈ ds, c.isDigit = true
  exponent : ∀ e ∈ n.exponent, e.2 ≠ [] ∧ ∀ c ∈ e.2, c.isDigit = true

end Numeral

namespace Token
open Numeral

theorem digits_append {ds rest : List Char} (hdigits : ∀ c ∈ ds, c.isDigit = true)
    (hedge : ∀ c ∈ rest.head?, c.isDigit = false) : digits (ds ++ rest) = (ds, rest) := by
  rw [digits, takeWhile_run hdigits hedge, dropWhile_run hdigits hedge]

theorem isEmpty_of_ne_nil {ds : List Char} (h : ds ≠ []) : ds.isEmpty = false := by
  simpa using h

theorem scanExponent_chars {e : Option (Bool × List Char)} {rest : List Char}
    (he : ∀ p ∈ e, p.2 ≠ [] ∧ ∀ c ∈ p.2, c.isDigit = true) (hedge : Edge rest) :
    scanExponent (exponentChars e ++ rest) = some (e, rest) := by
  cases e with
  | none =>
    rw [exponentChars, List.nil_append, scanExponent]
    · rintro tail rfl
      exact (hedge 'e' rfl).2.2.1 rfl
    · rintro tail rfl
      exact (hedge 'E' rfl).2.2.2 rfl
  | some p =>
    obtain ⟨down, ds⟩ := p
    obtain ⟨hne, hdigits⟩ := he _ rfl
    have hds := digits_append hdigits fun c hc => (hedge c hc).1
    cases down <;> simp [exponentChars, scanExponent, scanSign, hds, isEmpty_of_ne_nil hne]

theorem scanFraction_chars {f : Option (List Char)} {rest : List Char}
    (hf : ∀ ds ∈ f, ds ≠ [] ∧ ∀ c ∈ ds, c.isDigit = true)
    (hedge : ∀ c ∈ rest.head?, c.isDigit = false ∧ c ≠ '.') :
    scanFraction (fractionChars f ++ rest) = some (f, rest) := by
  cases f with
  | none =>
    rw [fractionChars, List.nil_append, scanFraction]
    rintro tail rfl
    exact (hedge '.' rfl).2 rfl
  | some ds =>
    obtain ⟨hne, hdigits⟩ := hf _ rfl
    have hds := digits_append hdigits fun c hc => (hedge c hc).1
    simp [fractionChars, scanFraction, hds, isEmpty_of_ne_nil hne]

theorem scanWhole_append {whole rest : List Char} (hne : whole ≠ [])
    (hleading : whole = ['0'] ∨ whole.head? ≠ some '0')
    (hdigits : ∀ c ∈ whole, c.isDigit = true) (hedge : ∀ c ∈ rest.head?, c.isDigit = false) :
    scanWhole (whole ++ rest) = some (whole, rest) := by
  rcases hleading with rfl | hleading
  · rfl
  · rw [scanWhole]
    · simp [digits_append hdigits hedge, isEmpty_of_ne_nil hne]
    · intro tail heq
      obtain ⟨d, ds, rfl⟩ := List.exists_cons_of_ne_nil hne
      simp [(List.cons.inj heq).1] at hleading

theorem edge_exponentChars {e : Option (Bool × List Char)} {rest : List Char} (hedge : Edge rest) :
    ∀ c ∈ (exponentChars e ++ rest).head?, c.isDigit = false ∧ c ≠ '.' := by
  cases e with
  | none => exact fun c hc => ⟨(hedge c hc).1, (hedge c hc).2.1⟩
  | some p => simp [exponentChars]

theorem edge_fractionChars {f : Option (List Char)} {rest : List Char}
    (hedge : ∀ c ∈ rest.head?, c.isDigit = false) :
    ∀ c ∈ (fractionChars f ++ rest).head?, c.isDigit = false := by
  cases f with
  | none => exact hedge
  | some ds => simp [fractionChars]

theorem scanNumber_chars {n : Numeral} (h : n.Grammatical) {rest : List Char}
    (hedge : Edge rest) :
    scanNumber n.negative (n.magnitudeChars ++ rest) = some (n, rest) := by
  have hexponent := edge_exponentChars (e := n.exponent) hedge
  have hfraction := edge_fractionChars (f := n.fraction) fun c hc => (hexponent c hc).1
  simp only [scanNumber, magnitudeChars, List.append_assoc, Option.bind_eq_bind, Option.bind_some,
    scanWhole_append h.nonempty h.leading h.digits hfraction,
    scanFraction_chars h.fraction hexponent, scanExponent_chars h.exponent hedge]
  rfl

theorem isBlank_digit {c : Char} (h : c.isDigit = true) : isBlank c = false := by
  by_contra hblank
  simp only [isBlank, Bool.not_eq_false, Bool.or_eq_true, beq_iff_eq] at hblank
  rcases hblank with ((rfl | rfl) | rfl) | rfl <;> simp at h

/-- What starts with a digit is scanned as a number. -/
theorem scan?_digit {c : Char} (h : c.isDigit = true) (rest : List Char) :
    scan? c rest = (scanNumber false (c :: rest)).map fun (n, rest) => (number n, rest) := by
  unfold scan?
  split <;> simp_all

theorem spells_number {n : Numeral} (h : n.Grammatical) {rest : List Char} {ts : List Token}
    (hedge : Edge rest) (more : Spells rest ts) : Spells (n.chars ++ rest) (.number n :: ts) := by
  have hscan := scanNumber_chars h hedge
  unfold chars Binary64.signed
  split
  · rename_i hneg
    rw [hneg] at hscan
    exact .token _ (by decide) (by rw [scan?, hscan]; rfl) more
  · rename_i hneg
    have hneg : n.negative = false := by simpa using hneg
    obtain ⟨d, ds, hwhole⟩ := List.exists_cons_of_ne_nil h.nonempty
    have hd : d.isDigit = true := h.digits d (by simp [hwhole])
    rw [hneg, magnitudeChars, hwhole, List.cons_append, List.cons_append] at hscan
    rw [magnitudeChars, hwhole, List.cons_append, List.cons_append]
    refine .token _ (isBlank_digit hd) ?_ more
    rw [scan?_digit hd, hscan]
    rfl

end Token

/-! ### Strings -/

/-- The piece that a character is written as. -/
def Piece.ofChar (c : Char) : Piece :=
  if c.toNat < 0x20 ∧ c ∉ ['\x08', '\t', '\n', '\x0c', '\r'] then .code c.toNat else .char c

def RawString.ofText (s : String) : RawString :=
  s.toList.map Piece.ofChar

theorem RawString.chars?_code {n : Nat} (h : n < 0xd800) (rest : RawString) :
    chars? (.code n :: rest) = (chars? rest).map (Char.ofNat n :: ·) := by
  have hlow : ¬ 0xd800 ≤ n := by omega
  have hhigh : ¬ 0xdc00 ≤ n := by omega
  cases rest with
  | nil => simp [chars?, hlow]
  | cons p rest => cases p <;> simp [chars?, hlow, hhigh]

theorem RawString.chars?_ofChar (cs : List Char) : chars? (cs.map Piece.ofChar) = some cs := by
  induction cs with
  | nil => rfl
  | cons c cs ih =>
    rw [List.map_cons, Piece.ofChar]
    split
    · rename_i hcode
      rw [chars?_code (by omega), ih, Char.ofNat_toNat, Option.map_some]
    · rw [chars?, ih, Option.map_some]

/-- A string is read back as its text. -/
theorem RawString.text?_ofText (s : String) : (ofText s).text? = some s := by
  rw [text?, ofText, chars?_ofChar, Option.map_some, String.ofList_toList]

namespace Token

theorem hexCode?_controlCode : ∀ n < 0x20,
    (controlCode (Char.ofNat n)).length = 4 ∧
      hexCode? (controlCode (Char.ofNat n)) = some n := by
  decide

theorem scanString_controlCode (done : List Piece) {c : Char} (h : c.toNat < 0x20)
    (rest : List Char) :
    scanString done ('\\' :: 'u' :: (controlCode c ++ rest)) =
      scanString (.code c.toNat :: done) rest := by
  obtain ⟨hlength, hcode⟩ := hexCode?_controlCode c.toNat h
  rw [Char.ofNat_toNat] at hlength hcode
  generalize controlCode c = digits at hlength hcode
  match digits with
  | [i, j, k, l] => simp only [List.cons_append, List.nil_append, scanString, hcode]

theorem scanString_escapeChar (done : List Piece) (c : Char) (rest : List Char) :
    scanString done (escapeChar c ++ rest) = scanString (.ofChar c :: done) rest := by
  unfold escapeChar
  split
  case h_8 hquote hslash hb ht hn hf hr =>
    have hnone : c ∉ ['\x08', '\t', '\n', '\x0c', '\r'] := by
      simp only [List.mem_cons, List.not_mem_nil, or_false, not_or]
      exact ⟨hb, ht, hn, hf, hr⟩
    unfold Piece.ofChar
    split
    · rename_i hcontrol
      rw [if_pos ⟨hcontrol, hnone⟩]
      exact scanString_controlCode done hcontrol rest
    · rename_i hplain
      rw [if_neg fun h => hplain h.1]
      rw [List.singleton_append, scanString, if_neg hplain]
      · exact hquote
      · exact fun _ _ _ _ _ heq _ => hslash heq
      · exact fun _ _ heq _ => hslash heq
  all_goals rfl

theorem scanString_chars (done : List Piece) (cs rest : List Char) :
    scanString done (cs.flatMap escapeChar ++ '"' :: rest) =
      some (done.reverse ++ cs.map Piece.ofChar, rest) := by
  induction cs generalizing done with
  | nil => simp [scanString]
  | cons c cs ih =>
    rw [List.flatMap_cons, List.append_assoc, scanString_escapeChar, ih]
    simp

theorem spells_string (s : String) {rest : List Char} {ts : List Token} (more : Spells rest ts) :
    Spells ((stringText s).toList ++ rest) (.string (.ofText s) :: ts) := by
  have hscan := scanString_chars [] s.toList rest
  have htext : (stringText s).toList ++ rest =
      '"' :: ((s.toList.flatMap escapeChar ++ ['"']) ++ rest) := by
    rw [stringText, String.toList_ofList, List.cons_append, List.cons_append]
  rw [htext]
  refine .token _ (by decide) ?_ more
  rw [List.append_assoc, List.singleton_append, scan?, hscan]
  rfl

end Token
end Introspect.Json
