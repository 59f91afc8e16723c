import Introspect.Proofs.Casing
import Introspect.Proofs.Dropped
import Introspect.Proofs.Lenient

/-!
Texts with words in letters of another case. They consist of the same pieces, and each word stays of
its kind, so that a lexer gives the same tokens at the same places. Only the spelling of the words is
another one.
-/
namespace Introspect

/-! ### Letters of another case -/

/-- The same characters, up to the case of the letters of ASCII. -/
def SameLetters (cs cs' : List Char) : Prop :=
  cs'.map Char.toUpper = cs.map Char.toUpper

theorem startsWord_of_isAlpha {c : Char} (h : c.isAlpha = true) : startsWord c = true := by
  have hlow : c.toNat < 0x80 := by
    have := toNat_of_isAlpha h
    omega
  simp [startsWord, Text.isLetter, hlow, h]

theorem startsWord_congr {c d : Char} (h : c.toUpper = d.toUpper) :
    startsWord c = startsWord d := by
  rcases eq_or_isAlpha_of_toUpper h with rfl | ⟨hc, hd⟩
  · rfl
  · rw [startsWord_of_isAlpha hc, startsWord_of_isAlpha hd]

theorem inWord_congr {c d : Char} (h : c.toUpper = d.toUpper) : inWord c = inWord d := by
  rcases eq_or_isAlpha_of_toUpper h with rfl | ⟨hc, hd⟩
  · rfl
  · rw [inWord_of_startsWord (startsWord_of_isAlpha hc),
      inWord_of_startsWord (startsWord_of_isAlpha hd)]

theorem isDigit_congr {c d : Char} (h : c.toUpper = d.toUpper) : c.isDigit = d.isDigit := by
  rcases eq_or_isAlpha_of_toUpper h with rfl | ⟨hc, hd⟩
  · rfl
  · rw [startsWord_not_digit (startsWord_of_isAlpha hc),
      startsWord_not_digit (startsWord_of_isAlpha hd)]

theorem endsNumeral_congr {c d : Char} (h : c.toUpper = d.toUpper)
    (hc : c.isDigit = false ∧ c ≠ '.') : d.isDigit = false ∧ d ≠ '.' := by
  refine ⟨isDigit_congr h ▸ hc.1, ?_⟩
  rintro rfl
  rcases eq_or_isAlpha_of_toUpper h with rfl | ⟨-, hpoint⟩
  · exact hc.2 rfl
  · cases hpoint

theorem Text.asciiUpper?_congr {c d : Char} (h : c.toUpper = d.toUpper) :
    asciiUpper? c = asciiUpper? d := by
  rcases eq_or_isAlpha_of_toUpper h with rfl | ⟨hc, hd⟩
  · rfl
  · have hlow {c : Char} (hc : c.isAlpha = true) : c.toNat < 0x80 := by
      have := toNat_of_isAlpha hc
      omega
    rw [asciiUpper?, asciiUpper?, if_pos (hlow hc), if_pos (hlow hd), h]

namespace SameLetters

variable {cs cs' : List Char}

theorem length_eq (h : SameLetters cs cs') : cs'.length = cs.length := by
  have := congrArg List.length h
  rwa [List.length_map, List.length_map] at this

theorem head? (h : SameLetters cs cs') :
    ∀ d' ∈ cs'.head?, ∃ d ∈ cs.head?, d.toUpper = d'.toUpper := by
  intro d' hd'
  have hheads := congrArg List.head? h
  rw [List.head?_map, List.head?_map, Option.mem_def.1 hd', Option.map_some] at hheads
  exact Option.map_eq_some_iff.1 hheads.symm

theorem mem (h : SameLetters cs cs') : ∀ d' ∈ cs', ∃ d ∈ cs, d.toUpper = d'.toUpper := by
  intro d' hd'
  have hmem : d'.toUpper ∈ cs'.map Char.toUpper := List.mem_map_of_mem hd'
  rw [h] at hmem
  exact List.mem_map.1 hmem

theorem cons_left {c : Char} (h : SameLetters (c :: cs) cs') :
    ∃ d ds, cs' = d :: ds ∧ c.toUpper = d.toUpper ∧ SameLetters cs ds := by
  cases cs' with
  | nil => cases h
  | cons d ds =>
    obtain ⟨hhead, htail⟩ := List.cons.inj h
    exact ⟨d, ds, rfl, hhead.symm, htail⟩

theorem append_left {front back : List Char} (h : SameLetters (front ++ back) cs') :
    ∃ front' back', cs' = front' ++ back' ∧ SameLetters front front' ∧ SameLetters back back' := by
  rw [SameLetters, List.map_append] at h
  obtain ⟨front', back', rfl, hfront, hback⟩ := List.map_eq_append_iff.1 h
  exact ⟨front', back', rfl, hfront, hback⟩

theorem upperAscii?_eq (h : SameLetters cs cs') : Text.upperAscii? cs' = Text.upperAscii? cs := by
  induction cs generalizing cs' with
  | nil =>
    obtain rfl := List.map_eq_nil_iff.1 h
    rfl
  | cons c cs ih =>
    obtain ⟨d, ds, rfl, hhead, htail⟩ := h.cons_left
    rw [Text.upperAscii?, Text.upperAscii?, Text.asciiUpper?_congr hhead, ih htail]

theorem wordKind_eq (h : SameLetters cs cs') : Lexeme.wordKind cs' = Lexeme.wordKind cs := by
  rw [Lexeme.wordKind, Lexeme.wordKind, h.upperAscii?_eq]

end SameLetters

/-! ### Texts with words in another case -/

namespace Lexeme

/-- The position lies in a word of one of the kinds. -/
def Covers (kinds : TokenKind → Bool) (found : List (Nat × Lexeme)) (i : Nat) : Prop :=
  ∃ start cs, (start, word cs) ∈ found ∧ kinds (wordKind cs) = true ∧
    start ≤ i ∧ i < start + cs.length

/-- Two texts that start at `position`. Letters that are covered may differ in case, and nothing
else. -/
structure Recases (covered : Nat → Prop) (position : Nat) (cs cs' : List Char) : Prop where
  letters : SameLetters cs cs'
  kept : ∀ i, ¬ covered (position + i) → cs'[i]? = cs[i]?

namespace Recases

variable {covered covered' : Nat → Prop} {position : Nat} {cs cs' : List Char}

theorem eq_of_not (h : Recases covered position cs cs')
    (hno : ∀ i, position ≤ i → i < position + cs.length → ¬ covered i) : cs' = cs := by
  apply List.ext_getElem?
  intro i
  by_cases hi : i < cs.length
  · exact h.kept i (hno _ (Nat.le_add_right _ _) (Nat.add_lt_add_left hi _))
  · have hi' : cs'.length ≤ i := by
      rw [h.letters.length_eq]
      exact Nat.le_of_not_lt hi
    rw [List.getElem?_eq_none hi', List.getElem?_eq_none (Nat.le_of_not_lt hi)]

theorem append_left {front back : List Char} (h : Recases covered position (front ++ back) cs') :
    ∃ front' back', cs' = front' ++ back' ∧ Recases covered position front front' ∧
      Recases covered (position + front.length) back back' := by
  obtain ⟨front', back', rfl, hfront, hback⟩ := h.letters.append_left
  refine ⟨front', back', rfl, ⟨hfront, fun i hi => ?_⟩, ⟨hback, fun i hi => ?_⟩⟩
  · by_cases hlt : i < front.length
    · have hkept := h.kept i hi
      rwa [List.getElem?_append_left hlt,
        List.getElem?_append_left (hfront.length_eq.symm ▸ hlt)] at hkept
    · rw [List.getElem?_eq_none (Nat.le_of_not_lt hlt),
        List.getElem?_eq_none (hfront.length_eq.symm ▸ Nat.le_of_not_lt hlt)]
  · have hkept := h.kept (front.length + i) (by rwa [← Nat.add_assoc])
    rw [List.getElem?_append_right (Nat.le_add_right _ _), Nat.add_sub_cancel_left,
      ← hfront.length_eq, List.getElem?_append_right (Nat.le_add_right _ _),
      Nat.add_sub_cancel_left] at hkept
    exact hkept

theorem mono (h : Recases covered position cs cs')
    (hmono : ∀ i, position ≤ i → covered i → covered' i) : Recases covered' position cs cs' :=
  ⟨h.letters, fun i hi => h.kept i fun hcovered => hi (hmono _ (Nat.le_add_right _ _) hcovered)⟩

end Recases

/-- The same lexeme, or a word of one of the kinds in letters of another case. -/
inductive Respelled (kinds : TokenKind → Bool) : Nat × Lexeme → Nat × Lexeme → Prop
  | same (entry : Nat × Lexeme) : Respelled kinds entry entry
  | word {position : Nat} {cs cs' : List Char} (kind : kinds (wordKind cs) = true)
      (letters : SameLetters cs cs') :
      Respelled kinds (position, .word cs) (position, .word cs')

theorem Munches.recased {lexeme : Lexeme} {rest rest' : List Char} (h : lexeme.Munches rest)
    (same : SameLetters rest rest') : lexeme.Munches rest' := by
  have outside {p : Char → Prop} (hp : ∀ c d, c.toUpper = d.toUpper → p c → p d)
      (edge : ∀ d ∈ rest.head?, p d) : ∀ d ∈ rest'.head?, p d := by
    intro d' hd'
    obtain ⟨d, hd, hsame⟩ := same.head? d' hd'
    exact hp d d' hsame (edge d hd)
  cases h with
  | mark m => exact .mark m rest'
  | word start inside edge =>
    exact .word start inside (outside (fun _ _ hcd hc => inWord_congr hcd ▸ hc) edge)
  | whole digits edge => exact .whole digits (outside (fun _ _ => endsNumeral_congr) edge)
  | point digits places edge =>
    exact .point digits places (outside (fun _ _ hcd hc => isDigit_congr hcd ▸ hc) edge)
  | closed opening inside => exact .closed opening inside
  | unclosed opening inside =>
    obtain rfl := List.map_eq_nil_iff.1 same
    exact .unclosed opening inside
  | foreign mark quote digit word => exact .foreign mark quote digit word

theorem Munches.recased_word {cs cs' rest : List Char} (h : (Lexeme.word cs).Munches rest)
    (same : SameLetters cs cs') : (Lexeme.word cs').Munches rest := by
  cases h with
  | word start inside edge =>
    obtain ⟨d, ds, rfl, hhead, htail⟩ := same.cons_left
    refine .word (startsWord_congr hhead ▸ start) (fun e he => ?_) edge
    obtain ⟨e', he', hsame⟩ := htail.mem e he
    rw [← inWord_congr hsame]
    exact inside e' he'

/-- A text in which covered letters are of another case splits like the text itself. -/
theorem Splits.recased {kinds : TokenKind → Bool} {position : Nat} {cs cs' : List Char}
    {found : List (Nat × Lexeme)} (h : Splits position cs found)
    (hre : Recases (Covers kinds found) position cs cs') :
    ∃ found', Splits position cs' found' ∧ List.Forall₂ (Respelled kinds) found found' := by
  induction h generalizing cs' with
  | blanks blank =>
    have hnone (i : Nat) : ¬ Covers kinds [] i := by
      rintro ⟨start, cs, hmem, -⟩
      cases hmem
    obtain rfl := hre.eq_of_not fun i _ _ => hnone i
    exact ⟨[], .blanks blank, .nil⟩
  | @lexeme position gap rest lexeme found blank munch solid more ih =>
    obtain ⟨gap', tail', rfl, hgap, htail⟩ := hre.append_left
    obtain ⟨chars', rest', rfl, hchars, hrest⟩ := htail.append_left
    -- What covers a position is the lexeme in which it lies.
    have hcover {i : Nat} (hcovered : Covers kinds ((position + gap.length, lexeme) :: found) i) :
        (position + gap.length ≤ i ∧ i < position + gap.length + lexeme.chars.length ∧
          ∃ w, lexeme = word w ∧ kinds (wordKind w) = true) ∨
        (position + gap.length + lexeme.chars.length ≤ i ∧ Covers kinds found i) := by
      obtain ⟨start, w, hmem, hkind, hlow, hhigh⟩ := hcovered
      rcases List.mem_cons.1 hmem with heq | hmem
      · obtain ⟨rfl, rfl⟩ := Prod.mk.inj heq
        exact .inl ⟨hlow, hhigh, w, rfl, hkind⟩
      · exact .inr ⟨Nat.le_trans (more.le_start hmem) hlow, start, w, hmem, hkind, hlow, hhigh⟩
    have hgap' : gap' = gap := hgap.eq_of_not fun i _ hi hcovered => by
      rcases hcover hcovered with ⟨hlow, -⟩ | ⟨hlow, -⟩ <;> omega
    obtain ⟨found', hsplits, hfound⟩ := ih (hrest.mono fun i hi hcovered => by
      rcases hcover hcovered with ⟨-, hhigh, -⟩ | ⟨-, hlater⟩
      · omega
      · exact hlater)
    have hmunch := munch.recased hrest.letters
    rw [hgap']
    by_cases hword : ∃ w, lexeme = word w ∧ kinds (wordKind w) = true
    · obtain ⟨w, rfl, hkind⟩ := hword
      have hmunch' := hmunch.recased_word hchars.letters
      have hsolid : ∀ c ∈ chars'.head?, Text.isBlank c = false := by
        cases hmunch' with
        | word start => simpa using startsWord_not_blank start
      have hlength : (word w).chars.length = (word chars').chars.length :=
        hchars.letters.length_eq.symm
      rw [hlength] at hsplits
      exact ⟨_, .lexeme blank hmunch' hsolid hsplits, .cons (.word hkind hchars.letters) hfound⟩
    · have hkept : chars' = lexeme.chars := hchars.eq_of_not fun i hlow hhigh hcovered => by
        rcases hcover hcovered with ⟨-, -, hcase⟩ | ⟨hle, -⟩
        · exact hword hcase
        · omega
      rw [hkept]
      exact ⟨_, .lexeme blank hmunch solid hsplits, .cons (.same _) hfound⟩

end Lexeme

/-! ### Tokens in another spelling -/

/-- The token, spelled as in another text. -/
def Token.respell (cs : List Char) (t : Token) : Token :=
  match t.payload with
  | .symbol s => { t with payload := .symbol (String.ofList ((cs.drop t.position).take s.length)) }
  | _ => t

@[simp] theorem Token.respell_kind (cs : List Char) (t : Token) :
    (t.respell cs).kind = t.kind := by
  unfold respell
  split <;> rfl

@[simp] theorem Token.respell_position (cs : List Char) (t : Token) :
    (t.respell cs).position = t.position := by
  unfold respell
  split <;> rfl

/-- What a new spelling may do to a token: nothing, or to a token of one of the kinds, letters of
another case. -/
inductive Token.Recased (kinds : TokenKind → Bool) (t : Token) : Token → Prop
  | same : Recased kinds t t
  | spelled {cs cs' : List Char} (kind : kinds t.kind = true)
      (symbol : t.payload = .symbol (String.ofList cs)) (letters : SameLetters cs cs') :
      Recased kinds t { t with payload := .symbol (String.ofList cs') }

namespace Lexeme

def Reading.respell (cs : List Char) : Reading → Reading
  | .token t => .token (t.respell cs)
  | .mended t w => .mended (t.respell cs) w
  | reading => reading

/-- The lexeme is what the text has at its position. -/
def StandsIn (cs : List Char) (entry : Nat × Lexeme) : Prop :=
  (cs.drop entry.1).take entry.2.chars.length = entry.2.chars

theorem Splits.standsIn {cs : List Char} {found : List (Nat × Lexeme)} (h : Splits 0 cs found) :
    ∀ entry ∈ found, StandsIn cs entry := by
  intro entry hmem
  obtain ⟨before, rest, rfl, hposition, -⟩ := h.stands hmem
  rw [Nat.zero_add] at hposition
  rw [StandsIn, hposition, List.drop_left, List.take_left]

theorem respell_word {kind : TokenKind} {cs w w' : List Char} {position : Nat}
    (h : StandsIn cs (position, word w')) (hlength : w'.length = w.length) :
    Token.respell cs ⟨kind, .symbol (String.ofList w), position⟩ =
      ⟨kind, .symbol (String.ofList w'), position⟩ := by
  have hspan : (cs.drop position).take w'.length = w' := h
  simp only [Token.respell, String.length_ofList, ← hlength, hspan]

/-- A lexeme is read as it is spelled. -/
theorem read_respell_self {cs : List Char} {position : Nat} {lexeme : Lexeme}
    (h : StandsIn cs (position, lexeme)) (mode : Mode) :
    (lexeme.read mode position).respell cs = lexeme.read mode position := by
  have hreads := read_reads mode position lexeme
  generalize lexeme.read mode position = reading at hreads ⊢
  cases hreads with
  | word w => rw [Reading.respell, respell_word h rfl]
  | mark m =>
    have hmark : StandsIn cs (position, word [m.char]) := h
    exact congrArg Reading.token (respell_word hmark rfl)
  | _ => rfl

variable {kinds : TokenKind → Bool} {cs : List Char} {entry entry' : Nat × Lexeme}
  {found found' : List (Nat × Lexeme)}

theorem Respelled.read_eq (h : Respelled kinds entry entry') (stands : StandsIn cs entry')
    (mode : Mode) :
    entry'.2.read mode entry'.1 = (entry.2.read mode entry.1).respell cs := by
  cases h with
  | same => exact (read_respell_self stands mode).symm
  | word kind letters =>
    simp only [Lexeme.read, Reading.respell, respell_word stands letters.length_eq,
      letters.wordKind_eq]

theorem Respelled.recased (h : Respelled kinds entry entry') (stands : StandsIn cs entry')
    {mode : Mode} {t : Token} (hgives : Gives mode entry t) :
    t.Recased kinds (t.respell cs) := by
  cases h with
  | same =>
    have hself := read_respell_self stands mode
    have hsame : t.respell cs = t := by
      rcases hgives with hread | ⟨w, hread⟩
      · rw [hread] at hself
        exact Reading.token.inj hself
      · rw [hread] at hself
        exact (Reading.mended.inj hself).1
    rw [hsame]
    exact .same
  | @word position w w' kind letters =>
    rcases hgives with hread | ⟨_, hread⟩
    · cases hread
      rw [respell_word stands letters.length_eq]
      exact .spelled kind rfl letters
    · cases hread

theorem readAll_respelled (h : List.Forall₂ (Respelled kinds) found found')
    (stands : ∀ entry ∈ found', StandsIn cs entry) (mode : Mode) (stop : Nat) :
    readAll mode stop found' =
      ((readAll mode stop found).1.map (List.map (Token.respell cs)),
        (readAll mode stop found).2) := by
  induction h with
  | nil => rfl
  | @cons entry entry' found found' hentry _ ih =>
    obtain ⟨hstands, hmore⟩ := List.forall_mem_cons.1 stands
    have hread := hentry.read_eq hstands mode
    obtain ⟨position, lexeme⟩ := entry
    obtain ⟨position', lexeme'⟩ := entry'
    simp only [readAll, hread, ih hmore]
    cases lexeme.read mode position with
    | refused e => rfl
    | _ => cases (readAll mode stop found).1 <;> rfl

theorem recased_of_readAll (h : List.Forall₂ (Respelled kinds) found found')
    (stands : ∀ entry ∈ found', StandsIn cs entry) {mode : Mode} {stop : Nat} {ts : List Token}
    {ws : List LexWarning} (hread : readAll mode stop found = (.ok ts, ws)) :
    ∀ t ∈ ts, t.Recased kinds (t.respell cs) := by
  induction h generalizing ts ws with
  | nil =>
    obtain ⟨⟨⟩, -⟩ := Prod.mk.inj hread
    exact List.forall_mem_singleton.2 .same
  | @cons entry entry' found found' hentry _ ih =>
    obtain ⟨hstands, hmore⟩ := List.forall_mem_cons.1 stands
    obtain ⟨us, vs, hlater, hcase⟩ := readAll_cons_ok hread
    rcases hcase with ⟨t, ht, rfl, -⟩ | ⟨t, w, ht, rfl, -⟩ | ⟨w, -, rfl, -⟩
    · exact List.forall_mem_cons.2 ⟨hentry.recased hstands (.inl ht), ih hmore hlater⟩
    · exact List.forall_mem_cons.2 ⟨hentry.recased hstands (.inr ⟨w, ht⟩), ih hmore hlater⟩
    · exact ih hmore hlater

end Lexeme

open Lexeme

/-- The position lies in a word of the text, of one of the kinds. -/
def WordCovers (kinds : TokenKind → Bool) (text : String) (i : Nat) : Prop :=
  ∃ found, Splits 0 text.toList found ∧ Covers kinds found i

/-- Letters inside the words of some kinds are of another case. -/
def RecasedWords (kinds : TokenKind → Bool) (text text' : String) : Prop :=
  Recases (WordCovers kinds text) 0 text.toList text'.toList

namespace RecasedWords

variable {kinds : TokenKind → Bool} {text text' : String}

theorem length_eq (h : RecasedWords kinds text text') : text'.length = text.length := by
  have hlength := h.letters.length_eq
  rwa [String.length_toList, String.length_toList] at hlength

/-- Both texts consist of the same lexemes, up to the case of words. -/
theorem exists_splits (h : RecasedWords kinds text text') :
    ∃ found found', Splits 0 text.toList found ∧ Splits 0 text'.toList found' ∧
      List.Forall₂ (Respelled kinds) found found' := by
  obtain ⟨found, hsplits⟩ := Lexeme.exists_splits 0 text.toList
  have hcovers : Recases (Covers kinds found) 0 text.toList text'.toList := by
    refine h.mono fun i _ hin => ?_
    obtain ⟨other, hother, hcovered⟩ := hin
    rwa [hsplits.unique hother]
  obtain ⟨found', hsplits', hfound⟩ := hsplits.recased hcovers
  exact ⟨found, found', hsplits, hsplits', hfound⟩

/-- The lexer gives the same tokens in the other spelling, the same errors and the same warnings. -/
theorem tokens_eq (h : RecasedWords kinds text text') (mode : Mode) :
    (Lexer.ofText text' mode).tokens.1 =
        (Lexer.ofText text mode).tokens.1.map (List.map (Token.respell text'.toList)) ∧
      (Lexer.ofText text' mode).tokens.2.warnings =
        (Lexer.ofText text mode).tokens.2.warnings := by
  obtain ⟨found, found', hsplits, hsplits', hfound⟩ := h.exists_splits
  obtain ⟨htokens, hwarnings⟩ := Lexer.tokens_of_splits hsplits (Lexer.ofText text mode) rfl rfl
  obtain ⟨htokens', hwarnings'⟩ :=
    Lexer.tokens_of_splits hsplits' (Lexer.ofText text' mode) rfl rfl
  have hread := readAll_respelled hfound hsplits'.standsIn mode (0 + text.toList.length)
  rw [h.letters.length_eq] at htokens' hwarnings'
  constructor
  · rw [htokens, htokens']
    exact congrArg Prod.fst hread
  · rw [← Array.toList_inj, hwarnings, hwarnings']
    exact congrArg ([] ++ ·.2) hread

/-- Of the tokens, those of the kinds are in the case of the other text, and all others the same. -/
theorem recased (h : RecasedWords kinds text text') {mode : Mode} {ts : List Token}
    {ws : List LexWarning} (hts : tokenize text mode = .ok (ts, ws)) :
    ∀ t ∈ ts, t.Recased kinds (t.respell text'.toList) := by
  obtain ⟨found, found', hsplits, hsplits', hfound⟩ := h.exists_splits
  exact recased_of_readAll hfound hsplits'.standsIn (readAll_of_tokenize hsplits hts)

end RecasedWords

end Introspect
