import Introspect.Proofs.Modes

/-!
A lenient lexer reads a character that it drops like a blank: the character ends the lexeme in
front of it and takes no part in the one behind it. With spaces in the place of such characters a
text has the same tokens at the same positions, and nothing is dropped any more.
-/
namespace Introspect

namespace LexWarning

def isDropped : LexWarning → Bool
  | dropped .. => true
  | _ => false

/-- Whether the character at a position was dropped. -/
def dropsAt (ws : List LexWarning) (position : Nat) : Bool :=
  ws.any fun w => w.isDropped && w.position == position

theorem dropsAt_iff {ws : List LexWarning} {position : Nat} :
    dropsAt ws position = true ↔ ∃ c, .dropped c position ∈ ws := by
  rw [dropsAt, List.any_eq_true]
  constructor
  · rintro ⟨w, hmem, hw⟩
    obtain ⟨hdropped, hposition⟩ := Bool.and_eq_true_iff.1 hw
    cases w with
    | dropped c start =>
      obtain rfl : start = position := eq_of_beq hposition
      exact ⟨c, hmem⟩
    | unclosed | overflow => cases hdropped
  · rintro ⟨c, hmem⟩
    exact ⟨_, hmem, Bool.and_eq_true_iff.2 ⟨rfl, beq_self_eq_true position⟩⟩

end LexWarning

/-- A text that starts at `position`, with a space in each place that is marked. -/
def blankOut (marked : Nat → Bool) (position : Nat) (cs : List Char) : List Char :=
  cs.mapIdx fun i c => if marked (position + i) then ' ' else c

/-- A text with a space in the place of each character that was dropped. -/
def clearDropped (ws : List LexWarning) (text : String) : String :=
  String.ofList (blankOut (LexWarning.dropsAt ws) 0 text.toList)

section BlankOut
variable {marked : Nat → Bool} {position : Nat}

@[simp] theorem length_blankOut (cs : List Char) :
    (blankOut marked position cs).length = cs.length :=
  List.length_mapIdx

theorem blankOut_append (cs cs' : List Char) :
    blankOut marked position (cs ++ cs') =
      blankOut marked position cs ++ blankOut marked (position + cs.length) cs' := by
  simp only [blankOut, List.mapIdx_append, Nat.add_assoc, Nat.add_comm cs.length]

theorem blankOut_eq_self {cs : List Char}
    (h : ∀ i, position ≤ i → i < position + cs.length → marked i = false) :
    blankOut marked position cs = cs := by
  apply List.ext_getElem (length_blankOut cs)
  intro i _ hi
  simp [blankOut, h (position + i) (by omega) (by omega)]

theorem head?_blankOut {cs : List Char} :
    ∀ c ∈ (blankOut marked position cs).head?, c ∈ cs.head? ∨ Text.isBlank c = true := by
  cases cs with
  | nil => simp [blankOut]
  | cons d cs =>
    simp only [blankOut, List.mapIdx_cons, List.head?_cons, Option.mem_some_iff, forall_eq']
    split
    · exact .inr rfl
    · exact .inl rfl

end BlankOut

namespace Lexeme

theorem Splits.le_start {position : Nat} {cs : List Char} {found : List (Nat × Lexeme)}
    (h : Splits position cs found) {entry : Nat × Lexeme} (hmem : entry ∈ found) :
    position ≤ entry.1 := by
  obtain ⟨before, rest, -, hposition, -⟩ := h.stands hmem
  omega

/-- From a position on, the marks are on the lexemes that stand for no token. -/
def Marks (marked : Nat → Bool) (position : Nat) (found : List (Nat × Lexeme)) : Prop :=
  ∀ i, position ≤ i → (marked i = true ↔ ∃ c, (i, foreign c) ∈ found)

section Marks
variable {marked : Nat → Bool} {position : Nat} {entry : Nat × Lexeme}
  {found : List (Nat × Lexeme)}

theorem Marks.tail (h : Marks marked position (entry :: found)) {behind : Nat}
    (hle : position ≤ behind) (hlt : entry.1 < behind) : Marks marked behind found := by
  intro i hi
  rw [h i (by omega)]
  have hne : entry.1 ≠ i := by omega
  refine exists_congr fun c => ⟨fun hmem => ?_, List.mem_cons_of_mem entry⟩
  exact (List.mem_cons.1 hmem).resolve_left fun heq => hne (congrArg Prod.fst heq).symm

/-- In front of the lexemes still to come, only the next one can be marked. -/
theorem Marks.front (h : Marks marked position (entry :: found)) {behind : Nat}
    (hfound : ∀ other ∈ found, behind ≤ other.1) {i : Nat} (hlow : position ≤ i)
    (hhigh : i < behind) : marked i = true ↔ i = entry.1 ∧ ∃ c, entry.2 = foreign c := by
  rw [h i hlow]
  constructor
  · rintro ⟨c, hmem⟩
    rcases List.mem_cons.1 hmem with rfl | hmem
    · exact ⟨rfl, c, rfl⟩
    · exact absurd (hfound _ hmem) (Nat.not_le_of_lt hhigh)
  · rintro ⟨rfl, c, hforeign⟩
    exact ⟨c, hforeign ▸ List.mem_cons_self⟩

end Marks

/-- Where the characters that stand for no token are blanked out, the other lexemes are left. -/
theorem Splits.cleared {position : Nat} {cs : List Char} {found : List (Nat × Lexeme)}
    (h : Splits position cs found) {marked : Nat → Bool} (hmarks : Marks marked position found) :
    Splits position (blankOut marked position cs) (found.filter (·.2.isSolid)) := by
  induction h with
  | @blanks position cs blank =>
    have hself : blankOut marked position cs = cs := by
      apply blankOut_eq_self
      intro i hlow _
      simpa using (hmarks i hlow).not
    rw [hself]
    exact .blanks blank
  | @lexeme position gap rest lexeme found blank munch solid more ih =>
    obtain ⟨d, ds, hchars, -⟩ := munch.exists_cons
    have hpos : 0 < lexeme.chars.length := by
      rw [hchars, List.length_cons]
      omega
    have hmore := ih (hmarks.tail (by omega) (by dsimp only; omega))
    have hfront {i : Nat} (hlow : position ≤ i)
        (hhigh : i < position + gap.length + lexeme.chars.length) :
        marked i = true ↔ i = position + gap.length ∧ ∃ c, lexeme = foreign c :=
      hmarks.front (fun _ => more.le_start) hlow hhigh
    have hgap : blankOut marked position gap = gap := by
      apply blankOut_eq_self
      intro i hlow hhigh
      simpa [Nat.ne_of_lt hhigh] using (hfront hlow (by omega)).not
    rw [blankOut_append, blankOut_append, hgap]
    by_cases hforeign : ∃ c, lexeme = foreign c
    · -- The space that takes the place of the character lengthens the gap.
      obtain ⟨c, rfl⟩ := hforeign
      have hmarked := (hfront (i := position + gap.length) (by omega) (by omega)).2 ⟨rfl, c, rfl⟩
      have hspace : blankOut marked (position + gap.length) (foreign c).chars = [' '] := by
        simp [blankOut, chars, hmarked]
      rw [hspace, ← List.append_assoc]
      apply Splits.behind_blanks
      · exact List.forall_mem_append.2 ⟨blank, List.forall_mem_singleton.2 rfl⟩
      · rw [List.length_append, ← Nat.add_assoc]
        exact hmore
    · have hself : blankOut marked (position + gap.length) lexeme.chars = lexeme.chars := by
        apply blankOut_eq_self
        intro i hlow hhigh
        simpa [hforeign] using (hfront (by omega) hhigh).not
      have hsolid : lexeme.isSolid = true := by
        simpa using mt isSolid_eq_false_iff.1 hforeign
      simp only [hself, List.filter_cons, hsolid, if_true]
      refine .lexeme blank (munch.congr ?_ head?_blankOut) solid hmore
      rintro quote body rfl
      cases munch
      rfl

/-- What stands for no token has no part in the tokens. -/
theorem readAll_solid {stop : Nat} {found : List (Nat × Lexeme)} {ts : List Token}
    {ws : List LexWarning} (h : readAll .lenient stop found = (.ok ts, ws)) :
    readAll .lenient stop (found.filter (·.2.isSolid)) = (.ok ts, ws.filter (!·.isDropped)) := by
  induction found generalizing ts ws with
  | nil =>
    obtain ⟨⟨⟩, rfl⟩ := Prod.mk.inj h
    rfl
  | cons entry found ih =>
    obtain ⟨position, lexeme⟩ := entry
    obtain ⟨us, vs, hmore, hcase⟩ := readAll_cons_ok h
    have hlater := ih hmore
    have hreads := read_reads .lenient position lexeme
    rcases hcase with ⟨t, hread, rfl, rfl⟩ | ⟨t, w, hread, rfl, rfl⟩ | ⟨w, hread, rfl, rfl⟩
    · have hgives : Gives .lenient (position, lexeme) t := .inl hread
      simp only [List.filter_cons, isSolid_of_gives hgives, if_true, readAll, hlater, hread]
      rfl
    · have hgives : Gives .lenient (position, lexeme) t := .inr ⟨w, hread⟩
      have hkept : w.isDropped = false := by
        rw [hread] at hreads
        cases hreads <;> rfl
      simp only [List.filter_cons, isSolid_of_gives hgives, if_true, readAll, hlater, hread, hkept,
        Bool.not_false]
      rfl
    · obtain ⟨c, rfl, rfl⟩ := foreign_of_dropped hread
      exact hlater

end Lexeme

open Lexeme

theorem tokenize_clearDropped {text : String} {ts : List Token} {ws : List LexWarning}
    (h : tokenize text .lenient = .ok (ts, ws)) :
    tokenize (clearDropped ws text) .lenient = .ok (ts, ws.filter (!·.isDropped)) := by
  obtain ⟨found, hsplits⟩ := exists_splits 0 text.toList
  have hread := readAll_of_tokenize hsplits h
  obtain ⟨hnotes, hforeign⟩ := warnings_of_readAll hread
  have hmarks : Marks (LexWarning.dropsAt ws) 0 found := by
    intro i _
    rw [LexWarning.dropsAt_iff]
    refine exists_congr fun c => ⟨fun hmem => ?_, hforeign i c⟩
    rw [hnotes] at hmem
    obtain ⟨entry, hentry, hnote⟩ := List.mem_filterMap.1 hmem
    rwa [← eq_foreign_of_note? hnote]
  have hcleared : Splits 0 (clearDropped ws text).toList (found.filter (·.2.isSolid)) := by
    rw [clearDropped, String.toList_ofList]
    exact hsplits.cleared hmarks
  have hlength : (clearDropped ws text).length = text.length := by
    rw [clearDropped, ← String.length_toList, String.toList_ofList, length_blankOut,
      String.length_toList]
  rw [tokenize_of_splits hcleared, hlength, readAll_solid hread]
  rfl

/-- Dropped characters read like blanks. With a space in the place of each of them, a text has the
same tokens and its other warnings; if it has no others, lenient reading of the text and strict
reading of the cleared one come to the same query or the same syntax error. -/
theorem dropped_read_as_blanks {text : String} {ts : List Token} {ws : List LexWarning}
    (h : tokenize text .lenient = .ok (ts, ws)) :
    tokenize (clearDropped ws text) .lenient = .ok (ts, ws.filter (!·.isDropped)) ∧
      ((∀ w ∈ ws, w.isDropped = true) →
        Query.parse text .lenient = Query.parse (clearDropped ws text) .strict ∧
          ∀ e, Query.parse text .lenient ≠ .error (.lex e)) := by
  have hlenient := tokenize_clearDropped h
  refine ⟨hlenient, fun hdropped => ?_⟩
  have hnone : ws.filter (!·.isDropped) = [] := by
    rw [List.filter_eq_nil_iff]
    intro w hw
    simp [hdropped w hw]
  rw [hnone] at hlenient
  have hstrict := tokenize_strict_eq_ok_iff.2 ⟨rfl, hlenient⟩
  rw [Query.parse_of_tokenize h, Query.parse_of_tokenize hstrict]
  refine ⟨rfl, fun e he => ?_⟩
  cases hquery : (Parser.ofTokens ts).query.1 <;> rw [hquery] at he <;> cases he

/-- A character dropped behind a field, and one behind the source. -/
theorem dropped_semicolon :
    Query.parse "introspect \x7b select a; , b from s! \x7d" .lenient =
      Query.parse "introspect \x7b select a  , b from s  \x7d" .strict := by
  have h : tokenize "introspect \x7b select a; , b from s! \x7d" .lenient = .ok
      ([⟨.keyword .introspect, .symbol "introspect", 0⟩, ⟨.mark .openBrace, .symbol "\x7b", 11⟩,
        ⟨.keyword .select, .symbol "select", 13⟩, ⟨.identifier, .symbol "a", 20⟩,
        ⟨.mark .comma, .symbol ",", 23⟩, ⟨.identifier, .symbol "b", 25⟩,
        ⟨.keyword .source, .symbol "from", 27⟩, ⟨.identifier, .symbol "s", 32⟩,
        ⟨.mark .closeBrace, .symbol "\x7d", 35⟩, Token.eof 36],
        [.dropped ';' 21, .dropped '!' 33]) := by
    decide +kernel
  exact ((dropped_read_as_blanks h).2 (by decide)).1

end Introspect
