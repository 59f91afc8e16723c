import Introspect.Proofs.Scan
import Mathlib.Data.List.Nodup
import Mathlib.Data.List.Pairwise

/-!
How tokens lie in a text. Each token but the end of input owns a span of the text, the longest of
its sort that starts there; what lies between the spans is blank or was dropped with a warning.
-/
namespace Introspect

namespace Lexeme

/-- The position behind a lexeme. -/
def stop (entry : Nat × Lexeme) : Nat :=
  entry.1 + entry.2.chars.length

theorem Splits.lt_stop {position : Nat} {cs : List Char} {found : List (Nat × Lexeme)}
    (h : Splits position cs found) {entry : Nat × Lexeme} (hmem : entry ∈ found) :
    entry.1 < stop entry := by
  obtain ⟨-, rest, -, -, munch⟩ := h.stands hmem
  obtain ⟨c, cs, hchars, -⟩ := munch.exists_cons
  simp [stop, hchars]

theorem Splits.ordered {position : Nat} {cs : List Char} {found : List (Nat × Lexeme)}
    (h : Splits position cs found) : found.Pairwise fun a b => stop a ≤ b.1 := by
  induction h with
  | blanks => exact .nil
  | lexeme blank munch solid more ih =>
    refine List.pairwise_cons.2 ⟨fun entry hmem => ?_, ih⟩
    obtain ⟨before, rest, -, hposition, -⟩ := more.stands hmem
    simp only [stop]
    omega

/-- What is not blank lies in a lexeme. -/
theorem Splits.covers {position : Nat} {cs : List Char} {found : List (Nat × Lexeme)}
    (h : Splits position cs found) {i : Nat} {c : Char} (hc : cs[i]? = some c) :
    Text.isBlank c = true ∨
      ∃ entry ∈ found, entry.1 ≤ position + i ∧ position + i < stop entry := by
  induction h generalizing i with
  | blanks blank => exact .inl (blank c (List.mem_of_getElem? hc))
  | @lexeme position gap rest lexeme found blank munch solid more ih =>
    by_cases hgap : i < gap.length
    · rw [List.getElem?_append_left hgap] at hc
      exact .inl (blank c (List.mem_of_getElem? hc))
    rw [List.getElem?_append_right (by omega)] at hc
    by_cases hlexeme : i - gap.length < lexeme.chars.length
    · exact .inr ⟨_, List.mem_cons_self, by simp only [stop]; omega⟩
    rw [List.getElem?_append_right (by omega)] at hc
    refine (ih hc).imp_right fun ⟨entry, hmem, hlow, hhigh⟩ => ?_
    exact ⟨entry, List.mem_cons_of_mem _ hmem, by omega, by omega⟩

/-- Lexemes that share a position are the same. -/
theorem Splits.apart {position : Nat} {cs : List Char} {found : List (Nat × Lexeme)}
    (h : Splits position cs found) {a b : Nat × Lexeme} (ha : a ∈ found) (hb : b ∈ found)
    {i : Nat} (hia : a.1 ≤ i ∧ i < stop a) (hib : b.1 ≤ i ∧ i < stop b) : a = b := by
  by_contra hne
  have hdisjoint : found.Pairwise fun a b => stop a ≤ b.1 ∨ stop b ≤ a.1 :=
    h.ordered.imp fun hle => .inl hle
  have : Std.Symm fun a b : Nat × Lexeme => stop a ≤ b.1 ∨ stop b ≤ a.1 := ⟨fun _ _ => Or.symm⟩
  have := hdisjoint.forall ha hb hne
  omega

/-- No two warnings share a position. -/
theorem Splits.nodup_notes {position : Nat} {cs : List Char} {found : List (Nat × Lexeme)}
    (h : Splits position cs found) (mode : Mode) : (found.filterMap (note? mode)).Nodup := by
  have increasing : found.Pairwise fun a b => a.1 < b.1 :=
    h.ordered.imp_of_mem fun ha _ hle => Nat.lt_of_lt_of_le (h.lt_stop ha) hle
  refine increasing.filterMap (note? mode) fun a b hlt v hv w hw heq => ?_
  have := position_of_note? hv
  have := position_of_note? hw
  subst heq
  omega

/-- A lexeme without a warning has none at its position. -/
theorem Splits.position_ne {position : Nat} {cs : List Char} {found : List (Nat × Lexeme)}
    (h : Splits position cs found) {mode : Mode} {entry : Nat × Lexeme} (hmem : entry ∈ found)
    (hnone : note? mode entry = none) {w : LexWarning}
    (hw : w ∈ found.filterMap (note? mode)) : w.position ≠ entry.1 := by
  intro hposition
  obtain ⟨other, hother, hnote⟩ := List.mem_filterMap.1 hw
  have hstart : other.1 = entry.1 := (position_of_note? hnote).symm.trans hposition
  have hlt := h.lt_stop hother
  have hsame : other = entry := by
    apply h.apart hother hmem (i := entry.1)
    · exact ⟨Nat.le_of_eq hstart, hstart ▸ hlt⟩
    · exact ⟨Nat.le_refl _, h.lt_stop hmem⟩
  rw [hsame, hnone] at hnote
  cases hnote

end Lexeme

/-- A stretch of a text: the characters from `start` up to, but not including, `stop`. -/
structure Span where
  start : Nat
  stop : Nat
deriving DecidableEq

namespace Span

def Contains (s : Span) (i : Nat) : Prop :=
  s.start ≤ i ∧ i < s.stop

/-- The characters of a text in a span. -/
def of (s : Span) (cs : List Char) : List Char :=
  (cs.drop s.start).take (s.stop - s.start)

end Span

/-- Digits, then perhaps a point and further digits. -/
def IsNumeral (cs : List Char) : Prop :=
  ∃ whole rest, cs = whole ++ rest ∧ whole ≠ [] ∧ (∀ d ∈ whole, d.isDigit = true) ∧
    (rest = [] ∨ ∃ places, rest = '.' :: places ∧ ∀ d ∈ places, d.isDigit = true)

/-- The number that a numeral stands for, as a float. -/
def floatOfNumeral (cs : List Char) : Binary64 :=
  (Lexeme.decimal (cs.takeWhile Char.isDigit) (cs.dropWhile Char.isDigit).tail).toBinary64 false

namespace Token

/-- A mark is one character, and carries it. -/
structure MarkAt (cs : List Char) (m : Mark) (t : Token) (s : Span) : Prop where
  char : s.of cs = [m.char]
  lexeme : t.payload = .symbol (String.ofList (s.of cs))

/-- A word is the longest run of word characters, and carries it. It is a keyword if it is one in
capitals. -/
structure WordAt (cs : List Char) (t : Token) (s : Span) : Prop where
  start : ∀ c ∈ (s.of cs).head?, startsWord c = true
  run : ∀ c ∈ s.of cs, inWord c = true
  edge : ∀ c ∈ cs[s.stop]?, inWord c = false
  lexeme : t.payload = .symbol (String.ofList (s.of cs))
  keyword : ∀ k, t.kind = .keyword k ↔ Text.upperAscii? (s.of cs) = some k.spelling.toList

/-- A number is the longest numeral, and carries its value: an integer if it has no point and fits
into 63 bits, else a float. -/
structure NumberAt (cs : List Char) (t : Token) (s : Span) : Prop where
  numeral : IsNumeral (s.of cs)
  longest : ∀ stop, s.stop < stop → stop ≤ cs.length → ¬ IsNumeral (Span.of ⟨s.start, stop⟩ cs)
  value :
    if '.' ∉ s.of cs ∧ Nat.ofDigitChars 10 (s.of cs) 0 ≤ 0x7fffffffffffffff then
      ∃ n : Int64, t.payload = .literal (.integer n) ∧ n.toInt = Nat.ofDigitChars 10 (s.of cs) 0
    else t.payload = .literal (.float (floatOfNumeral (s.of cs))) ∧
      (floatOfNumeral (s.of cs)).isFinite = true

/-- A quoted text ends with the next such quote, or unclosed with the input, of which there is one
warning. It carries what stands between. -/
def StringAt (mode : Mode) (cs : List Char) (warnings : List LexWarning) (t : Token) (s : Span) :
    Prop :=
  ∃ quote body, IsQuote quote ∧ quote ∉ body ∧ t.payload = .literal (.text (String.ofList body)) ∧
    (s.of cs = quote :: body ++ [quote] ∧ .unclosed s.start ∉ warnings ∨
      s.of cs = quote :: body ∧ s.stop = cs.length ∧ mode = .lenient ∧
        warnings.count (.unclosed s.start) = 1)

/-- The token owns the span: it starts there and says what the text there says. -/
def Owns (mode : Mode) (cs : List Char) (warnings : List LexWarning) (t : Token) (s : Span) :
    Prop :=
  t.position = s.start ∧ s.start < s.stop ∧ s.stop ≤ cs.length ∧
    match t.kind with
    | .mark m => MarkAt cs m t s
    | .keyword _ | .identifier => WordAt cs t s
    | .number => NumberAt cs t s
    | .string => StringAt mode cs warnings t s
    | .eof => False

end Token

/-- The tokens and warnings of a text account for all of it, by way of `spans`. -/
structure Tiling (mode : Mode) (cs : List Char) (ts : List Token) (warnings : List LexWarning)
    (spans : List Span) : Prop where
  owners : ∃ body, ts = body ++ [Token.eof cs.length] ∧
    List.Forall₂ (Token.Owns mode cs warnings) body spans
  ordered : spans.Pairwise fun a b => a.stop ≤ b.start
  outside : ∀ i c, cs[i]? = some c → (∀ s ∈ spans, ¬ s.Contains i) →
    Text.isBlank c = true ∨ warnings.count (.dropped c i) = 1
  dropped : ∀ c i, .dropped c i ∈ warnings → cs[i]? = some c ∧ ∀ s ∈ spans, ¬ s.Contains i

section Stretch
variable {before cs rest : List Char}

theorem Span.of_stretch :
    Span.of ⟨before.length, before.length + cs.length⟩ (before ++ (cs ++ rest)) = cs := by
  simp [Span.of]

theorem getElem?_behind_stretch :
    (before ++ (cs ++ rest))[before.length + cs.length]? = rest.head? := by
  rw [List.getElem?_append_right (by omega), List.getElem?_append_right (by omega),
    show before.length + cs.length - before.length - cs.length = 0 by omega,
    List.head?_eq_getElem?]

/-- A longer stretch goes on with the character behind it. -/
theorem Span.of_longer_stretch {stop : Nat} (hlow : before.length + cs.length < stop)
    (hhigh : stop ≤ (before ++ (cs ++ rest)).length) :
    ∃ d ∈ rest.head?, ∃ more,
      Span.of ⟨before.length, stop⟩ (before ++ (cs ++ rest)) = cs ++ d :: more := by
  cases rest with
  | nil =>
    simp only [List.append_nil, List.length_append] at hhigh
    omega
  | cons d rest =>
    refine ⟨d, rfl, rest.take (stop - before.length - cs.length - 1), ?_⟩
    obtain ⟨n, hn⟩ : ∃ n, stop - before.length - cs.length = n + 1 :=
      ⟨_, (Nat.succ_pred (by omega)).symm⟩
    simp only [Span.of, List.drop_left]
    rw [List.take_append, List.take_of_length_le (by omega), hn, List.take_succ_cons]
    rfl

end Stretch

theorem IsNumeral.mem {cs : List Char} (h : IsNumeral cs) {c : Char} (hc : c ∈ cs) :
    c.isDigit = true ∨ c = '.' := by
  obtain ⟨whole, rest, rfl, -, digits, rfl | ⟨places, rfl, hplaces⟩⟩ := h
  · exact .inl (digits c (by simpa using hc))
  · rcases List.mem_append.1 hc with hc | hc
    · exact .inl (digits c hc)
    · exact (List.mem_cons.1 hc).symm.imp_left (hplaces c)

theorem not_mem_point {cs : List Char} (digits : ∀ d ∈ cs, d.isDigit = true) : '.' ∉ cs :=
  fun hmem => absurd (digits '.' hmem) (by decide)

theorem IsNumeral.count_point {cs : List Char} (h : IsNumeral cs) : cs.count '.' ≤ 1 := by
  obtain ⟨whole, rest, rfl, -, digits, rfl | ⟨places, rfl, hplaces⟩⟩ := h
  · simp [List.count_eq_zero_of_not_mem (not_mem_point digits)]
  · simp [List.count_append, List.count_eq_zero_of_not_mem (not_mem_point digits),
      List.count_eq_zero_of_not_mem (not_mem_point hplaces)]

theorem floatOfNumeral_whole {whole : List Char} (digits : ∀ d ∈ whole, d.isDigit = true) :
    floatOfNumeral whole = Lexeme.floatOf whole none := by
  rw [floatOfNumeral, List.takeWhile_eq_self_iff.2 digits, List.dropWhile_eq_nil_iff.2 digits]
  rfl

theorem floatOfNumeral_point {whole : List Char} (digits : ∀ d ∈ whole, d.isDigit = true)
    (fraction : List Char) :
    floatOfNumeral (whole ++ '.' :: fraction) = Lexeme.floatOf whole (some fraction) := by
  have outside : ∀ d ∈ ('.' :: fraction).head?, d.isDigit = false := by simp
  rw [floatOfNumeral, takeWhile_run digits outside, dropWhile_run digits outside]
  rfl

namespace Lexeme
open Token

/-- Where a lexeme stands, as a span. -/
def spanOf (entry : Nat × Lexeme) : Span :=
  ⟨entry.1, stop entry⟩

section Laws
variable {before rest : List Char} {position : Nat}

theorem wordAt {cs : List Char} (munch : (word cs).Munches rest) :
    WordAt (before ++ (cs ++ rest)) ⟨wordKind cs, .symbol (String.ofList cs), position⟩
      ⟨before.length, before.length + cs.length⟩ := by
  cases munch with
  | @word c cs _ start inside edge =>
    refine ⟨?_, ?_, ?_, ?_, ?_⟩
    · rw [Span.of_stretch]
      simpa using start
    · rw [Span.of_stretch]
      exact List.forall_mem_cons.2 ⟨inWord_of_startsWord start, inside⟩
    · rw [getElem?_behind_stretch]
      exact edge
    · rw [Span.of_stretch]
    · rw [Span.of_stretch]
      exact fun k => wordKind_eq_keyword_iff

/-- A number without a point. -/
theorem numberAt_whole {whole : List Char} (munch : (numeral whole none).Munches rest)
    {payload : Payload}
    (value : if Nat.ofDigitChars 10 whole 0 < 0x8000000000000000 then
      payload = .literal (.integer (Int64.ofNat (Nat.ofDigitChars 10 whole 0)))
      else payload = .literal (.float (floatOf whole none)) ∧
        (floatOf whole none).isFinite = true) :
    NumberAt (before ++ (whole ++ rest)) ⟨.number, payload, position⟩
      ⟨before.length, before.length + whole.length⟩ := by
  cases munch with
  | @whole c cs _ digits edge =>
    refine ⟨?_, ?_, ?_⟩
    · rw [Span.of_stretch]
      exact ⟨c :: cs, [], by simp, by simp, digits, .inl rfl⟩
    · intro stop hlow hhigh hnumeral
      obtain ⟨d, hd, more, hspan⟩ := Span.of_longer_stretch hlow hhigh
      rw [hspan] at hnumeral
      obtain ⟨hdigit, hpoint⟩ := edge d hd
      rcases hnumeral.mem (c := d) (by simp) with h | h
      · exact absurd (h.symm.trans hdigit) (by decide)
      · exact hpoint h
    · rw [Span.of_stretch, floatOfNumeral_whole digits]
      split at value
      · rename_i small
        rw [if_pos ⟨not_mem_point digits, by omega⟩]
        exact ⟨_, value, Int64.toInt_ofNat_of_lt small⟩
      · rw [if_neg fun h => by omega]
        exact value

/-- A number with a point. -/
theorem numberAt_point {whole fraction : List Char}
    (munch : (numeral whole (some fraction)).Munches rest)
    (finite : (floatOf whole (some fraction)).isFinite = true) :
    NumberAt (before ++ ((whole ++ '.' :: fraction) ++ rest))
      ⟨.number, .literal (.float (floatOf whole (some fraction))), position⟩
      ⟨before.length, before.length + (whole ++ '.' :: fraction).length⟩ := by
  cases munch with
  | @point c cs _ _ digits places edge =>
    refine ⟨?_, ?_, ?_⟩
    · rw [Span.of_stretch]
      exact ⟨c :: cs, '.' :: fraction, rfl, by simp, digits, .inr ⟨fraction, rfl, places⟩⟩
    · intro stop hlow hhigh hnumeral
      obtain ⟨d, hd, more, hspan⟩ := Span.of_longer_stretch hlow hhigh
      rw [hspan] at hnumeral
      rcases hnumeral.mem (c := d) (by simp) with h | rfl
      · exact absurd (h.symm.trans (edge d hd)) (by decide)
      · have := hnumeral.count_point
        rw [List.count_append, List.count_append, List.count_cons_self,
          List.count_cons_self] at this
        omega
    · rw [Span.of_stretch, floatOfNumeral_point digits, if_neg fun h => h.1 (by simp)]
      exact ⟨rfl, finite⟩

end Laws

/-- The token of a lexeme owns the span of the lexeme. -/
theorem Splits.owns {cs : List Char} {found : List (Nat × Lexeme)} (h : Splits 0 cs found)
    {mode : Mode} {entry : Nat × Lexeme} (hmem : entry ∈ found) {t : Token}
    (hgives : Gives mode entry t) :
    Owns mode cs (found.filterMap (note? mode)) t (spanOf entry) := by
  have hlt := h.lt_stop hmem
  obtain ⟨before, rest, hcs, hposition, munch⟩ := h.stands hmem
  obtain ⟨position, lexeme⟩ := entry
  obtain rfl : position = before.length := by simpa using hposition
  have hstop : (spanOf (before.length, lexeme)).stop ≤ cs.length := by
    simp only [hcs, spanOf, stop, List.length_append]
    omega
  have hspan : (spanOf (before.length, lexeme)).of cs = lexeme.chars := by
    rw [hcs]
    exact Span.of_stretch
  have hreads := read_reads mode before.length lexeme
  rcases hgives with hread | ⟨w, hread⟩
  · rw [hread] at hreads
    cases hreads with
    | mark m =>
      exact ⟨rfl, hlt, hstop, hspan, by rw [hspan]; rfl⟩
    | word chars =>
      refine ⟨rfl, hlt, hstop, ?_⟩
      subst hcs
      have hword := @wordAt before _ before.length _ munch
      rcases wordKind_cases chars with ⟨k, hkind⟩ | hkind <;> rw [hkind] at hword ⊢ <;>
        exact hword
    | integer small =>
      refine ⟨rfl, hlt, hstop, ?_⟩
      subst hcs
      exact numberAt_whole munch (by rw [if_pos small])
    | float finite =>
      refine ⟨rfl, hlt, hstop, ?_⟩
      subst hcs
      exact numberAt_point munch finite
    | closed quote body =>
      refine ⟨rfl, hlt, hstop, ?_⟩
      cases munch with
      | closed opening inside =>
        refine ⟨quote, body, opening, inside, rfl, .inl ⟨?_, fun hwarned => ?_⟩⟩
        · simpa [chars] using hspan
        · exact h.position_ne hmem (by simp [note?, hread]) hwarned rfl
  · rw [hread] at hreads
    have hnoted : w ∈ found.filterMap (note? mode) :=
      List.mem_filterMap.2 ⟨_, hmem, by simp [note?, hread]⟩
    cases hreads with
    | overflow large finite =>
      refine ⟨rfl, hlt, hstop, ?_⟩
      subst hcs
      exact numberAt_whole munch (by rw [if_neg (by omega)]; exact ⟨rfl, finite⟩)
    | unclosed quote body =>
      refine ⟨rfl, hlt, hstop, ?_⟩
      have honce := List.count_eq_one_of_mem (h.nodup_notes .lenient) hnoted
      cases munch with
      | unclosed opening inside =>
        refine ⟨quote, body, opening, inside, rfl, .inr ⟨?_, ?_, rfl, honce⟩⟩
        · simpa [chars] using hspan
        · simp [hcs, spanOf, stop]

theorem Splits.owners {cs : List Char} {found : List (Nat × Lexeme)} (h : Splits 0 cs found)
    {mode : Mode} {entries : List (Nat × Lexeme)} {body : List Token}
    (hgives : List.Forall₂ (Gives mode) entries body) (hsub : ∀ entry ∈ entries, entry ∈ found) :
    List.Forall₂ (Owns mode cs (found.filterMap (note? mode))) body (entries.map spanOf) := by
  induction hgives with
  | nil => exact .nil
  | cons hfirst _ ih =>
    obtain ⟨hmem, hsub⟩ := List.forall_mem_cons.1 hsub
    exact .cons (h.owns hmem hfirst) (ih hsub)

/-- A solid lexeme covers no dropped character. -/
theorem Splits.dropped_outside {cs : List Char} {found : List (Nat × Lexeme)}
    (h : Splits 0 cs found) {mode : Mode} {c : Char} {i : Nat}
    (hmem : .dropped c i ∈ found.filterMap (note? mode)) :
    cs[i]? = some c ∧ ∀ s ∈ (found.filter (·.2.isSolid)).map spanOf, ¬ s.Contains i := by
  obtain ⟨entry, hentry, hnote⟩ := List.mem_filterMap.1 hmem
  obtain rfl := eq_foreign_of_note? hnote
  obtain ⟨before, rest, hcs, hposition, -⟩ := h.stands hentry
  constructor
  · obtain rfl : i = before.length := by simpa using hposition
    simp [hcs, chars]
  · intro s hs hcontains
    obtain ⟨other, hother, rfl⟩ := List.mem_map.1 hs
    obtain ⟨hother, hsolid⟩ := List.mem_filter.1 hother
    obtain rfl := h.apart hother hentry hcontains ⟨Nat.le_refl i, h.lt_stop hentry⟩
    exact absurd hsolid (by simp [isSolid])

end Lexeme

open Lexeme

/-- The tokens of a text tile it: each owns a span, the longest of its sort that starts there, and
all else is blank or was dropped with one warning. -/
theorem tokenize_tiles {text : String} {mode : Mode} {ts : List Token} {ws : List LexWarning}
    (h : tokenize text mode = .ok (ts, ws)) : ∃ spans, Tiling mode text.toList ts ws spans := by
  obtain ⟨found, hsplits⟩ := exists_splits 0 text.toList
  have hread := readAll_of_tokenize hsplits h
  obtain ⟨body, rfl, hbody⟩ := tokens_of_readAll hread
  obtain ⟨rfl, hforeign⟩ := warnings_of_readAll hread
  refine ⟨(found.filter (·.2.isSolid)).map spanOf, ?_, ?_, ?_, ?_⟩
  · refine ⟨body, by rw [String.length_toList], hsplits.owners hbody fun entry hmem => ?_⟩
    exact (List.mem_filter.1 hmem).1
  · exact List.pairwise_map.2 (hsplits.ordered.filter _)
  · intro i c hc houtside
    refine (hsplits.covers hc).imp_right fun ⟨⟨position, lexeme⟩, hmem, hlow, hhigh⟩ => ?_
    rw [Nat.zero_add] at hlow hhigh
    cases hsolid : lexeme.isSolid with
    | true =>
      have hspan : spanOf (position, lexeme) ∈ (found.filter (·.2.isSolid)).map spanOf :=
        List.mem_map.2 ⟨_, List.mem_filter.2 ⟨hmem, hsolid⟩, rfl⟩
      exact absurd ⟨hlow, hhigh⟩ (houtside _ hspan)
    | false =>
      obtain ⟨d, rfl⟩ := isSolid_eq_false_iff.1 hsolid
      obtain rfl : position = i := by
        simp only [stop, chars, List.length_singleton] at hlow hhigh
        omega
      have hdropped := hforeign position d hmem
      obtain rfl : c = d := by
        simpa [hc] using (hsplits.dropped_outside hdropped).1
      exact List.count_eq_one_of_mem (hsplits.nodup_notes mode) hdropped
  · exact fun c i hmem => hsplits.dropped_outside hmem

/-- A text with a token of each sort and a character that stands for none. -/
theorem tokenize_tiles_mixed :
    ∃ ts ws, tokenize "from = $7 1.5 'x" .lenient = .ok (ts, ws) ∧ ws.length = 2 ∧
      ∃ spans, Tiling .lenient "from = $7 1.5 'x".toList ts ws spans := by
  have h : tokenize "from = $7 1.5 'x" .lenient = .ok
      ([⟨.keyword .source, .symbol "from", 0⟩, ⟨.mark .equals, .symbol "=", 5⟩,
        ⟨.number, .literal (.integer 7), 8⟩,
        ⟨.number, .literal (.float (.ofBits 0x3ff8000000000000)), 10⟩,
        ⟨.string, .literal (.text "x"), 14⟩, Token.eof 16],
        [.dropped '$' 7, .unclosed 14]) := by
    decide +kernel
  exact ⟨_, _, h, rfl, tokenize_tiles h⟩

end Introspect
