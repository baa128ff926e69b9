/-
# The longest lexeme

A lexeme that stands in a text is as long as its class allows (`Lexeme.Longest`):
a word takes all alphanumeric characters, a number all digits of its radix, and no
letter follows it. Each class is described without the way it is cut off. What is
cut off the front of a text is such a lexeme or a comment, and wherever such a
lexeme stands in front, it is what is cut off.

Key definitions: `Radix.mark`, `Lexeme.Longest`, `IsComment`.
Key theorems: `longest_or_isComment_of_readLexeme`, `Lexeme.Longest.readLexeme`,
`Lexeme.Longest.spells`, `IsComment.readLexeme`.
-/
import Mathlib.Data.List.TakeWhile
import Chip8.Proofs.Printing.Spelling

namespace Chip8

/-- What is written in front of the digits of a number. -/
def Radix.mark : Radix → List Char
  | decimal => []
  | hexadecimal => ['#']

/-- A lexeme that stands in front of a text and is as long as its class allows: a word, a number
whose digits have its exact value, or a symbol. -/
inductive Lexeme.Longest : Lexeme → List Char → Prop where
  | word {w : String} {rest : List Char} (h : IsWord w) (ends : Cut rest) :
      Longest ⟨.ofWord w, w⟩ rest
  | number (radix : Radix) {ds rest : List Char} {n : UInt32}
      (digits : ∀ d ∈ ds, radix.isDigit d = true) (some_digit : ds ≠ [])
      (value : radix.value ds = n.toNat) (ends : radix.EndsBefore rest) :
      Longest ⟨.number n, String.ofList (radix.mark ++ ds)⟩ rest
  | symbol {c : Char} {rest : List Char} (h : c ∈ Token.symbols) : Longest (.symbol c) rest

/-- A comment in front of a text: a semicolon and all that stands behind it in its line. -/
def IsComment (cs rest : List Char) : Prop :=
  ∃ note, cs = ';' :: note ∧ (∀ c ∈ note, c ≠ '\n') ∧ ∀ c ∈ rest.head?, c = '\n'

theorem Token.Kind.ofWord_cases (w : String) :
    ofWord w = .mnemonic ∨ ofWord w = .keyword ∨ ofWord w = .identifier := by
  unfold ofWord
  split
  · exact .inl rfl
  · split
    · exact .inr (.inl rfl)
    · exact .inr (.inr rfl)

/-- Comments and the end of the input are in no class. -/
theorem Lexeme.Longest.kind_ne {l : Lexeme} {rest : List Char} (h : l.Longest rest) :
    l.kind ≠ .comment ∧ l.kind ≠ .endOfInput := by
  cases h with
  | @word w rest hw ends =>
    rcases Token.Kind.ofWord_cases w with hk | hk | hk
    · simp [hk]
    · simp [hk]
    · simp [hk]
  | number radix digits some_digit value ends => simp
  | symbol h => simp [Lexeme.symbol]

/-- A lexeme has a first character. -/
theorem Lexeme.Longest.exists_cons {l : Lexeme} {rest : List Char} (h : l.Longest rest) :
    ∃ c cs, l.text = String.ofList (c :: cs) := by
  cases h with
  | word hw ends =>
    obtain ⟨c, cs, rfl, -⟩ := hw.exists_cons
    exact ⟨c, cs, rfl⟩
  | @number radix ds rest n digits some_digit value ends =>
    have hne : radix.mark ++ ds ≠ [] := by simp [some_digit]
    obtain ⟨c, cs, hcs⟩ := List.exists_cons_of_ne_nil hne
    exact ⟨c, cs, congrArg String.ofList hcs⟩
  | @symbol c rest h => exact ⟨c, [], rfl⟩

namespace Token

theorem eq_toNat_of_word? {k : Nat} {n : UInt32} (h : word? k = some n) : k = n.toNat := by
  unfold word? at h
  split at h
  · next hk =>
    cases h
    exact (Nat.mod_eq_of_lt hk).symm
  · cases h

/-- What is left behind a run does not go on it. -/
theorem eq_false_of_head?_dropWhile {k : Char → Bool} {cs : List Char} :
    ∀ c ∈ (cs.dropWhile k).head?, k c = false := by
  intro c hc
  have hhead := List.head?_dropWhile_not k cs
  rw [Option.mem_def.mp hc] at hhead
  simpa using hhead

/-! ### What is cut off is as long as it can be -/

theorem longest_of_readNumber (radix : Radix) {cs : List Char} {piece : Piece}
    (h : readNumber radix radix.mark cs = .ok piece) :
    Lexeme.Longest ⟨piece.kind, String.ofList piece.text⟩ piece.rest := by
  unfold readNumber at h
  simp only at h
  split at h
  · cases h
  · next hnone =>
    split at h
    · cases h
    · next hne =>
      split at h
      · next n hn =>
        cases h
        have hletter : ∀ c ∈ (cs.dropWhile radix.isDigit).head?, isAlphabetic c = false := by
          intro c hc
          rw [Option.filter_eq_none_iff] at hnone
          simpa using hnone c hc
        refine .number radix (fun d hd => List.mem_takeWhile_imp hd) hne (eq_toNat_of_word? hn) ?_
        exact fun c hc => ⟨hletter c hc, eq_false_of_head?_dropWhile c hc⟩
      · cases h

/-- What is cut off is a comment, or a lexeme that is as long as it can be. -/
theorem longest_or_isComment_of_readLexeme {c : Char} {cs : List Char} {piece : Piece}
    (h : readLexeme c cs = .ok piece) :
    (piece.kind = .comment ∧ IsComment piece.text piece.rest) ∨
      Lexeme.Longest ⟨piece.kind, String.ofList piece.text⟩ piece.rest := by
  unfold readLexeme at h
  split at h
  · next hc =>
    cases h
    have hword : IsWord (String.ofList (c :: cs.takeWhile isAlphanumeric)) :=
      isWord_ofList_cons.mpr ⟨hc, fun d hd => List.mem_takeWhile_imp hd⟩
    exact .inr (.word hword eq_false_of_head?_dropWhile)
  · split at h
    · exact .inr (longest_of_readNumber .decimal h)
    · split at h
      · exact .inr (longest_of_readNumber .hexadecimal h)
      · split at h
        · next hsemicolon =>
          cases h
          have hnote : ∀ d ∈ cs.takeWhile (· != '\n'), d ≠ '\n' := fun d hd => by
            simpa using List.mem_takeWhile_imp hd
          have hends : ∀ d ∈ (cs.dropWhile (· != '\n')).head?, d = '\n' := fun d hd => by
            simpa using eq_false_of_head?_dropWhile d hd
          exact .inl ⟨rfl, cs.takeWhile (· != '\n'), congrArg (· :: _) hsemicolon, hnote, hends⟩
        · split at h
          · next hsymbol =>
            cases h
            exact .inr (.symbol hsymbol)
          · cases h

end Token

/-! ### What is as long as it can be is cut off -/

/-- A character of each class is in no class before it. -/
theorem Lexeme.Longest.readLexeme {l : Lexeme} {c : Char} {cs rest : List Char}
    (h : l.Longest rest) (hl : l.text = String.ofList (c :: cs)) :
    isBlank c = false ∧ Token.readLexeme c (cs ++ rest) = .ok ⟨l.kind, c :: cs, rest⟩ := by
  cases h with
  | word hw ends =>
    obtain rfl := hl
    obtain ⟨hc, hcs⟩ := isWord_ofList_cons.mp hw
    exact ⟨isBlank_eq_false_of_isAlphabetic hc, Token.readLexeme_word hc hcs ends⟩
  | @number radix ds rest n digits some_digit value ends =>
    have htext : radix.mark ++ ds = c :: cs := by simpa using congrArg String.toList hl
    cases radix with
    | decimal =>
      obtain rfl : ds = c :: cs := htext
      have hc := (isBlank_and_isAlphabetic_of_isDigit (digits c List.mem_cons_self)).1
      exact ⟨hc, Token.readLexeme_decimal digits value ends⟩
    | hexadecimal =>
      obtain ⟨rfl, rfl⟩ := List.cons.inj htext
      exact ⟨by decide, Token.readLexeme_hex digits some_digit value ends⟩
  | @symbol c' rest hc =>
    have htext : [c'] = c :: cs := by simpa [Lexeme.symbol] using congrArg String.toList hl
    obtain ⟨rfl, rfl⟩ := List.cons.inj htext
    exact ⟨(Token.class_of_mem_symbols c' hc).1, Token.readLexeme_symbol hc _⟩

/-- What is behind a lexeme only matters for whether it goes on the lexeme. -/
theorem Lexeme.Longest.imp {l : Lexeme} {rest rest' : List Char} (h : l.Longest rest)
    (hcut : Cut rest → Cut rest')
    (hends : ∀ radix : Radix, radix.EndsBefore rest → radix.EndsBefore rest') :
    l.Longest rest' := by
  cases h with
  | word hw ends => exact .word hw (hcut ends)
  | number radix digits some_digit value ends =>
    exact .number radix digits some_digit value (hends radix ends)
  | symbol hc => exact .symbol hc

/-- A lexeme is also as long as it can be where nothing goes on it. -/
theorem Lexeme.Longest.of_cut {l : Lexeme} {rest rest' : List Char} (h : l.Longest rest)
    (hcut : Cut rest') : l.Longest rest' :=
  h.imp (fun _ => hcut) fun radix _ => hcut.endsBefore radix

/-- In front of a text that spells some lexemes, one that is as long as it can be adds itself. -/
theorem Lexeme.Longest.spells {l : Lexeme} {rest : List Char} {ls : List Lexeme}
    (h : l.Longest rest) (hrest : Spells rest ls) : Spells (l.text.toList ++ rest) (l :: ls) := by
  obtain ⟨c, cs, htext⟩ := h.exists_cons
  obtain ⟨hblank, hread⟩ := h.readLexeme htext
  have hspells := spells_piece hblank hread h.kind_ne.1 hrest
  rw [← htext] at hspells
  rwa [htext, String.toList_ofList]

theorem IsComment.readLexeme {cs rest : List Char} (h : IsComment cs rest) :
    ∃ note, cs = ';' :: note ∧
      Token.readLexeme ';' (note ++ rest) = .ok ⟨.comment, cs, rest⟩ := by
  obtain ⟨note, rfl, hnote, hends⟩ := h
  have hline : ∀ c ∈ note, (c != '\n') = true := fun c hc => by simpa using hnote c hc
  have hnewline : ∀ c ∈ rest.head?, (c != '\n') = false := fun c hc => by simpa using hends c hc
  obtain ⟨htake, hdrop⟩ := run_append hline hnewline
  have hclass : isAlphabetic ';' = false ∧ Char.isDigit ';' = false := by decide
  exact ⟨note, rfl, by simp [Token.readLexeme, hclass.1, hclass.2, htake, hdrop]⟩

end Chip8
