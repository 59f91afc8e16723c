import Introspect.Proofs.Checking

/-!
Words and letter case. The words that are reserved are those with the capitals of a keyword; their
letters may be of either case, and a few characters past ASCII have capitals that are ASCII.
-/
namespace Introspect

/-! ### Capitals of ASCII characters -/

theorem toNat_toUpper (c : Char) :
    c.toUpper.toNat = if 97 ≤ c.toNat ∧ c.toNat ≤ 122 then c.toNat - 32 else c.toNat := by
  have hlow : ('a'.val ≤ c.val ∧ c.val ≤ 'z'.val) ↔ 97 ≤ c.toNat ∧ c.toNat ≤ 122 := by
    simp only [UInt32.le_iff_toNat_le]
    exact Iff.rfl
  unfold Char.toUpper
  simp only [hlow]
  split
  · have hsum : (c.val + ('A'.val - 'a'.val)).toNat = c.toNat - 32 := by
      rw [UInt32.toNat_add]
      have hval : c.val.toNat = c.toNat := rfl
      have hshift : ('A'.val - 'a'.val).toNat = 2 ^ 32 - 32 := by decide
      omega
    exact hsum
  · rfl

theorem isAlpha_iff {c : Char} :
    c.isAlpha = true ↔ 65 ≤ c.toNat ∧ c.toNat ≤ 90 ∨ 97 ≤ c.toNat ∧ c.toNat ≤ 122 := by
  refine ⟨toNat_of_isAlpha, fun h => Bool.or_eq_true_iff.2 ?_⟩
  rcases h with ⟨hlow, hhigh⟩ | ⟨hlow, hhigh⟩
  · exact .inl (decide_eq_true ⟨UInt32.le_iff_toNat_le.2 hlow, UInt32.le_iff_toNat_le.2 hhigh⟩)
  · exact .inr (Bool.and_eq_true_iff.2 ⟨decide_eq_true (UInt32.le_iff_toNat_le.2 hlow),
      decide_eq_true (UInt32.le_iff_toNat_le.2 hhigh)⟩)

/-- Characters with the same capital are the same, or are both letters. -/
theorem eq_or_isAlpha_of_toUpper {c d : Char} (h : c.toUpper = d.toUpper) :
    c = d ∨ c.isAlpha = true ∧ d.isAlpha = true := by
  have hnat := congrArg Char.toNat h
  rw [toNat_toUpper, toNat_toUpper] at hnat
  by_cases hsame : c.toNat = d.toNat
  · exact .inl (Char.toNat_inj.1 hsame)
  · right
    rw [isAlpha_iff, isAlpha_iff]
    split at hnat <;> split at hnat <;> omega

namespace Text

/-- `Spells cs capitals`: the characters stand for the capitals. A letter may be of either case, a
dotless `ı` stands for `I`, a long `ſ` for `S`, and either ligature of the two letters for `ST`. -/
inductive Spells : List Char → List Char → Prop
  | nil : Spells [] []
  | letter (c : Char) {cs ds : List Char} (more : Spells cs ds) : Spells (c :: cs) (c.toUpper :: ds)
  | dotless {cs ds : List Char} (more : Spells cs ds) : Spells ('ı' :: cs) ('I' :: ds)
  | long {cs ds : List Char} (more : Spells cs ds) : Spells ('ſ' :: cs) ('S' :: ds)
  | ligature {c : Char} {cs ds : List Char} (joined : c = 'ﬅ' ∨ c = 'ﬆ') (more : Spells cs ds) :
    Spells (c :: cs) ('S' :: 'T' :: ds)

/-- Capitals of single characters that no keyword has anywhere. -/
def unusedCapitals : List (List Char) :=
  [['S', 'S'], ['F', 'F'], ['F', 'I'], ['F', 'L']]

/-- What a single character can become. -/
theorem asciiUpper?_cases {c : Char} {us : List Char} (h : asciiUpper? c = some us) :
    (c.toNat < 0x80 ∧ us = [c.toUpper]) ∨ (c = 'ı' ∧ us = ['I']) ∨ (c = 'ſ' ∧ us = ['S']) ∨
      ((c = 'ﬅ' ∨ c = 'ﬆ') ∧ us = ['S', 'T']) ∨ ∃ form ∈ unusedCapitals, form <+: us := by
  have hchar {d : Char} (hnat : c.toNat = d.toNat) : c = d := Char.toNat_inj.1 hnat
  unfold asciiUpper? at h
  split at h
  · rename_i hlow
    exact .inl ⟨hlow, (Option.some.inj h).symm⟩
  · right
    split at h
    all_goals cases h
    all_goals rename_i hnat
    · exact .inr (.inr (.inr ⟨['S', 'S'], by decide, by decide⟩))
    · exact .inl ⟨hchar hnat, rfl⟩
    · exact .inr (.inl ⟨hchar hnat, rfl⟩)
    · exact .inr (.inr (.inr ⟨['F', 'F'], by decide, by decide⟩))
    · exact .inr (.inr (.inr ⟨['F', 'I'], by decide, by decide⟩))
    · exact .inr (.inr (.inr ⟨['F', 'L'], by decide, by decide⟩))
    · exact .inr (.inr (.inr ⟨['F', 'F'], by decide, by decide⟩))
    · exact .inr (.inr (.inr ⟨['F', 'F'], by decide, by decide⟩))
    · exact .inr (.inr (.inl ⟨.inl (hchar hnat), rfl⟩))
    · exact .inr (.inr (.inl ⟨.inr (hchar hnat), rfl⟩))

theorem upperAscii?_cons_eq_some_iff {c : Char} {cs ds : List Char} :
    upperAscii? (c :: cs) = some ds ↔
      ∃ us vs, asciiUpper? c = some us ∧ upperAscii? cs = some vs ∧ ds = us ++ vs := by
  rw [upperAscii?]
  cases asciiUpper? c <;> cases upperAscii? cs <;> simp [eq_comm]

theorem spells_of_upperAscii? {cs ds : List Char}
    (unused : ∀ form ∈ unusedCapitals, ¬ form <:+: ds) (h : upperAscii? cs = some ds) :
    Spells cs ds := by
  induction cs generalizing ds with
  | nil =>
    cases h
    exact .nil
  | cons c cs ih =>
    obtain ⟨us, vs, hc, hcs, rfl⟩ := upperAscii?_cons_eq_some_iff.1 h
    have more : Spells cs vs :=
      ih (fun form hform hinside => unused form hform (hinside.trans (List.infix_append_right ..))) hcs
    rcases asciiUpper?_cases hc with
      ⟨-, rfl⟩ | ⟨rfl, rfl⟩ | ⟨rfl, rfl⟩ | ⟨joined, rfl⟩ | ⟨form, hform, hfront⟩
    · exact .letter c more
    · exact .dotless more
    · exact .long more
    · exact .ligature joined more
    · exact absurd (hfront.trans (List.prefix_append us vs)).isInfix (unused form hform)

theorem upperAscii?_of_spells {cs ds : List Char} (h : Spells cs ds)
    (ascii : ∀ d ∈ ds, d.toNat < 0x80) : upperAscii? cs = some ds := by
  induction h with
  | nil => rfl
  | letter c more ih =>
    obtain ⟨hc, hds⟩ := List.forall_mem_cons.1 ascii
    have hlow : c.toNat < 0x80 := by
      rw [toNat_toUpper] at hc
      split at hc <;> omega
    exact upperAscii?_cons_eq_some_iff.2 ⟨[c.toUpper], _, if_pos hlow, ih hds, rfl⟩
  | dotless more ih =>
    obtain ⟨-, hds⟩ := List.forall_mem_cons.1 ascii
    exact upperAscii?_cons_eq_some_iff.2 ⟨['I'], _, by decide, ih hds, rfl⟩
  | long more ih =>
    obtain ⟨-, hds⟩ := List.forall_mem_cons.1 ascii
    exact upperAscii?_cons_eq_some_iff.2 ⟨['S'], _, by decide, ih hds, rfl⟩
  | ligature joined more ih =>
    have hds := (List.forall_mem_cons.1 (List.forall_mem_cons.1 ascii).2).2
    refine upperAscii?_cons_eq_some_iff.2 ⟨['S', 'T'], _, ?_, ih hds, rfl⟩
    rcases joined with rfl | rfl <;> decide

end Text

/-! ### Reserved words -/

namespace Keyword

theorem unused_spelling (k : Keyword) :
    ∀ form ∈ Text.unusedCapitals, ¬ form <:+: k.spelling.toList := by
  cases k <;> decide

theorem ascii_spelling (k : Keyword) : ∀ d ∈ k.spelling.toList, d.toNat < 0x80 := by
  have hall : k.spelling.toList.all (·.toNat < 0x80) = true := by
    cases k <;> rfl
  intro d hd
  exact of_decide_eq_true (List.all_eq_true.1 hall d hd)

/-- The word is the keyword, in one of its spellings. -/
def SpelledBy (k : Keyword) (w : String) : Prop :=
  Text.Spells w.toList k.spelling.toList

theorem spelledBy_iff {k : Keyword} {w : String} :
    k.SpelledBy w ↔ Text.upperAscii? w.toList = some k.spelling.toList :=
  ⟨fun h => Text.upperAscii?_of_spells h k.ascii_spelling,
    Text.spells_of_upperAscii? k.unused_spelling⟩

end Keyword

/-- Letters, numerals and underscores, of which the first one is no numeral. -/
structure IsWord (w : String) : Prop where
  start : ∃ c ∈ w.toList.head?, startsWord c = true
  run : ∀ c ∈ w.toList, inWord c = true

instance (w : String) : Decidable (IsWord w) :=
  decidable_of_iff (w.toList.head?.any startsWord = true ∧ w.toList.all inWord = true)
    ⟨fun h => ⟨(Option.any_eq_true _ _).1 h.1, List.all_eq_true.1 h.2⟩,
      fun h => ⟨(Option.any_eq_true _ _).2 h.start, List.all_eq_true.2 h.run⟩⟩

theorem isName_iff {w : String} : IsName w ↔ IsWord w ∧ ∀ k : Keyword, ¬ k.SpelledBy w := by
  simp only [Keyword.spelledBy_iff]
  constructor
  · intro h
    exact ⟨⟨h.start, h.run⟩, h.free⟩
  · rintro ⟨h, free⟩
    exact ⟨h.start, h.run, free⟩

open Lexeme in
/-- A word alone is one token. -/
theorem tokenize_word {w : String} (h : IsWord w) (mode : Mode) :
    tokenize w mode =
      .ok ([⟨wordKind w.toList, .symbol w, 0⟩, Token.eof w.length], []) := by
  have hmunch := standalone_word h.start h.run [] (by simp)
  have hread (mode : Mode) :
      (word w.toList).read mode 0 = .token ⟨wordKind w.toList, .symbol w, 0⟩ := by
    rw [Lexeme.read, String.ofList_toList]
  have hsplits : Splits 0 ([] ++ (w.toList ++ [])) [(0, word w.toList)] :=
    .lexeme (by simp) hmunch (hmunch.solid (hread .strict)) (.blanks (by simp))
  rw [List.nil_append, List.append_nil] at hsplits
  rw [tokenize_of_splits hsplits]
  simp [readAll, hread mode, Except.map]

/-- The names that a plain query can have. -/
theorem exists_parse_plain_iff {mode : Mode} {fields : List String} {source : String} :
    (∃ text, Query.parse text mode = .ok (Query.plain fields source)) ↔
      fields ≠ [] ∧ ∀ name ∈ source :: fields, IsName name := by
  rw [List.forall_mem_cons]
  constructor
  · rintro ⟨text, h⟩
    have hwell := Grammar.wellFormed_of_parse h
    exact ⟨hwell.fields_ne_nil, hwell.source, hwell.fields⟩
  · rintro ⟨hne, hsource, hfields⟩
    have hempty : Bindings.Writable ∅ := fun p hp => nomatch hp
    have hparse := Grammar.parse_render (q := Query.plain fields source)
      ⟨hne, hfields, hsource, hempty, hempty, hempty⟩
    exact ⟨_, Query.parse_eq_ok_iff_check.2 ⟨[], Query.check_render hparse mode⟩⟩

/-- A word is read as a keyword if it spells one, and as an identifier if it spells none. All words
but those can be written as the names of fields and sources. -/
theorem only_spellings_reserved (mode : Mode) :
    (∀ w, IsWord w → ∃ kind,
      tokenize w mode = .ok ([⟨kind, .symbol w, 0⟩, Token.eof w.length], []) ∧
      (∀ k, kind = .keyword k ↔ k.SpelledBy w) ∧
      (kind = .identifier ↔ ∀ k : Keyword, ¬ k.SpelledBy w)) ∧
    ∀ fields source,
      (∃ text, Query.parse text mode = .ok (Query.plain fields source)) ↔
        fields ≠ [] ∧ ∀ name ∈ source :: fields,
          IsWord name ∧ ∀ k : Keyword, ¬ k.SpelledBy name := by
  constructor
  · intro w h
    refine ⟨_, tokenize_word h mode, ?_, ?_⟩
    · intro k
      rw [Lexeme.wordKind_eq_keyword_iff, Keyword.spelledBy_iff]
    · rw [Lexeme.wordKind_eq_identifier_iff]
      simp only [Keyword.spelledBy_iff, ne_eq]
  · intro fields source
    rw [exists_parse_plain_iff]
    simp only [isName_iff]

/-- A word with a ligature and a dotless `ı`, and names with letters past ASCII. -/
theorem constraint_with_ligature_reserved :
    IsWord "conﬆraınt" ∧
      tokenize "conﬆraınt" .strict =
        .ok ([⟨.keyword .constraint, .symbol "conﬆraınt", 0⟩, Token.eof 9], []) ∧
      ∃ text, Query.parse text .strict = .ok (Query.plain ["größe", "ſelected"] "ﬁrm_1") := by
  obtain ⟨hword, hnames⟩ := only_spellings_reserved .strict
  have hligature : IsWord "conﬆraınt" := by decide +kernel
  refine ⟨hligature, ?_, ?_⟩
  · obtain ⟨kind, htokens, hkeyword, -⟩ := hword _ hligature
    have hspelled : Keyword.constraint.SpelledBy "conﬆraınt" :=
      .letter 'c' (.letter 'o' (.letter 'n' (.ligature (.inr rfl) (.letter 'r' (.letter 'a'
        (.dotless (.letter 'n' (.letter 't' .nil))))))))
    rw [(hkeyword .constraint).2 hspelled] at htokens
    exact htokens
  · refine (hnames _ _).2 ⟨List.cons_ne_nil _ _, ?_⟩
    simp only [← isName_iff, List.forall_mem_cons, List.not_mem_nil, IsEmpty.forall_iff,
      implies_true, and_true]
    have name {w : String} (word : IsWord w) (kind : Lexeme.wordKind w.toList = .identifier) :
        IsName w :=
      ⟨word.start, word.run, Lexeme.wordKind_eq_identifier_iff.1 kind⟩
    refine ⟨name ?_ ?_, name ?_ ?_, name ?_ ?_⟩
    all_goals decide +kernel

/-- A long `ſ` makes a keyword of a word that is none in the letters of ASCII. -/
theorem select_with_long_s_reserved :
    IsWord "ſelect" ∧
      (¬ ∃ k : Keyword, "ſelect".toList.map Char.toUpper = k.spelling.toList) ∧
      tokenize "ſelect" .strict =
        .ok ([⟨.keyword .select, .symbol "ſelect", 0⟩, Token.eof 6], []) ∧
      Query.parse "INTROSPECT \x7b SELECT ſelect FROM memory \x7d" .strict =
        .error (.parse (.unexpected .identifier (.keyword .select) 20)) := by
  refine ⟨by decide +kernel, ?_, by decide +kernel, by decide +kernel⟩
  rintro ⟨k, h⟩
  cases k <;> exact absurd h (by decide)

end Introspect
