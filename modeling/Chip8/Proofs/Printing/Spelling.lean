/-
# How lexemes are spelled

A text spells a row of lexemes if it is split into tokens that say them, wherever
it begins (`Spells`). Spellings are put together from the back: in front of a text
that spells some lexemes, a blank changes nothing, and a symbol adds itself
(`spells_blank`, `spells_symbol`). A word or a number adds itself too, if what is
behind it does not go on with a letter or digit (`Cut`, `spells_word`,
`spells_decimal`, `spells_hex`).

Key definitions: `Cut`, `Radix.EndsBefore`, `IsWord`, `Lexeme.symbol`, `Spells`, `Writes`.
Key theorems: `spells_blank`, `spells_symbol`, `spells_word`, `spells_decimal`, `spells_hex`.
-/
import Chip8.Token.Scan

namespace Chip8

/-! ### Classes of characters -/

/-- What holds for each of the 128 ASCII characters, tried one by one. -/
theorem forall_ascii {P : Char → Prop} (h : ∀ n < 0x80, P (Char.ofNat n)) {c : Char}
    (hc : c.toNat < 0x80) : P c := by
  have hn := h c.toNat hc
  rwa [Char.ofNat_toNat] at hn

/-- A character of one class is not of another if their ranges do not meet. -/
theorem Ranges.has_eq_false_of_disjoint {rs rs' : Ranges}
    (h : ∀ r ∈ rs, ∀ r' ∈ rs', r.2 < r'.1 ∨ r'.2 < r.1) {n : Nat} (hn : rs.has n = true) :
    rs'.has n = false := by
  rw [← Bool.not_eq_true, has_iff]
  obtain ⟨r, hr, hlo, hhi⟩ := (has_iff rs n).mp hn
  rintro ⟨r', hr', hlo', hhi'⟩
  rcases h r hr r' hr' with hlt | hlt <;> omega

theorem isBlank_eq_false_of_isAlphabetic {c : Char} (h : isAlphabetic c = true) :
    isBlank c = false := by
  by_cases hc : c.toNat < 0x80
  · have all : ∀ n < 0x80, isAlphabetic (.ofNat n) = true → isBlank (.ofNat n) = false := by
      decide +kernel
    exact @forall_ascii (fun c => isAlphabetic c = true → isBlank c = false) all c hc h
  · rw [isAlphabetic, if_neg hc] at h
    exact Ranges.has_eq_false_of_disjoint (by decide +kernel) h

theorem toNat_lt_of_isDigit {radix : Radix} {c : Char} (h : radix.isDigit c = true) :
    c.toNat < 0x80 := by
  have hdecimal : c.isDigit = true → c.toNat < 0x80 := fun hc =>
    Nat.lt_of_le_of_lt (Char.isDigit_iff_toNat.mp hc).2 (by decide)
  have hletter : ∀ {d : Char}, c ≤ d → d.toNat < 0x80 → c.toNat < 0x80 := fun hle hd =>
    Nat.lt_of_le_of_lt (UInt32.le_iff_toNat_le.mp hle) hd
  cases radix with
  | decimal => exact hdecimal h
  | hexadecimal =>
    simp only [Radix.isDigit, Bool.or_eq_true, Bool.and_eq_true, decide_eq_true_eq] at h
    rcases h with (h | h) | h
    · exact hdecimal h
    · exact hletter h.2 (by decide)
    · exact hletter h.2 (by decide)

/-- The digits of either radix may stand inside a word. -/
theorem isAlphanumeric_of_isDigit {radix : Radix} {c : Char} (h : radix.isDigit c = true) :
    isAlphanumeric c = true := by
  have all : ∀ n < 0x80, radix.isDigit (.ofNat n) = true → isAlphanumeric (.ofNat n) = true := by
    cases radix <;> decide +kernel
  exact @forall_ascii (fun c => radix.isDigit c = true → isAlphanumeric c = true) all c
    (toNat_lt_of_isDigit h) h

/-- A decimal digit is not blank and begins no word. -/
theorem isBlank_and_isAlphabetic_of_isDigit {c : Char} (h : c.isDigit = true) :
    isBlank c = false ∧ isAlphabetic c = false := by
  have all : ∀ n < 0x80, (Char.ofNat n).isDigit = true →
      isBlank (.ofNat n) = false ∧ isAlphabetic (.ofNat n) = false := by
    decide +kernel
  exact @forall_ascii (fun c => c.isDigit = true → isBlank c = false ∧ isAlphabetic c = false) all c
    (@toNat_lt_of_isDigit .decimal c h) h

theorem Radix.all_isDigit_padded (radix : Radix) (width n : Nat) :
    ∀ d ∈ radix.padded width n, radix.isDigit d = true := by
  intro d hd
  rcases List.mem_append.mp hd with hd | hd
  · rw [(List.mem_replicate.mp hd).2]
    cases radix <;> rfl
  · exact all_isDigit_digits radix n d hd

theorem Radix.padded_ne_nil (radix : Radix) (width n : Nat) : radix.padded width n ≠ [] := by
  simp [padded, List.leftpad, digits_ne_nil]

/-- No symbol belongs to another class. -/
theorem Token.class_of_mem_symbols : ∀ c ∈ symbols,
    isBlank c = false ∧ isAlphanumeric c = false ∧ c.isDigit = false ∧ c ≠ '#' ∧ c ≠ ';' := by
  have all : (symbols.all fun c => !isBlank c && !isAlphanumeric c && !c.isDigit && c != '#' &&
      c != ';') = true := by
    decide +kernel
  intro c hc
  have h := List.all_eq_true.mp all c hc
  simpa [and_assoc] using h

/-! ### Runs of characters -/

/-- Nothing in front that goes on a word or number. -/
def Cut (cs : List Char) : Prop := ∀ c ∈ cs.head?, isAlphanumeric c = false

theorem cut_nil : Cut [] := nofun

theorem Cut.append {cs ds : List Char} (h : Cut cs) (h' : Cut ds) : Cut (cs ++ ds) := by
  cases cs with
  | nil => exact h'
  | cons c cs => simpa [Cut] using h

theorem cut_cons {c : Char} (h : isAlphanumeric c = false) (cs : List Char) : Cut (c :: cs) := by
  simpa [Cut] using h

/-- A run ends in front of a character that does not go on it. -/
theorem run_append {k : Char → Bool} {cs rest : List Char} (hcs : ∀ c ∈ cs, k c = true)
    (hrest : ∀ c ∈ rest.head?, k c = false) :
    (cs ++ rest).takeWhile k = cs ∧ (cs ++ rest).dropWhile k = rest := by
  rw [List.takeWhile_append_of_pos hcs, List.dropWhile_append_of_pos hcs]
  cases rest with
  | nil => simp
  | cons c rest => simp [hrest c rfl]

/-- Nothing in front that goes on a number: no digit, and no letter that it would run into. -/
def Radix.EndsBefore (radix : Radix) (cs : List Char) : Prop :=
  ∀ c ∈ cs.head?, isAlphabetic c = false ∧ radix.isDigit c = false

theorem Cut.endsBefore {cs : List Char} (h : Cut cs) (radix : Radix) : radix.EndsBefore cs := by
  intro c hc
  have hcut := h c hc
  have halpha : isAlphabetic c = false := by
    rw [isAlphanumeric, Bool.or_eq_false_iff] at hcut
    exact hcut.1
  have hdigit : radix.isDigit c = false := by
    rw [← Bool.not_eq_true]
    exact fun hd => absurd (isAlphanumeric_of_isDigit hd) (by simp [hcut])
  exact ⟨halpha, hdigit⟩

/-! ### Lexemes at the front of a text -/

/-- A word: an alphabetic character, and then alphanumeric ones. -/
def IsWord (w : String) : Prop :=
  w.toList.head?.any isAlphabetic = true ∧ w.toList.tail.all isAlphanumeric = true

instance : DecidablePred IsWord := fun _ => inferInstanceAs (Decidable (_ ∧ _))

theorem isWord_ofList_cons {c : Char} {cs : List Char} :
    IsWord (String.ofList (c :: cs)) ↔
      isAlphabetic c = true ∧ ∀ d ∈ cs, isAlphanumeric d = true := by
  simp [IsWord]

theorem IsWord.exists_cons {w : String} (h : IsWord w) : ∃ c cs, w = String.ofList (c :: cs) ∧
    isAlphabetic c = true ∧ ∀ d ∈ cs, isAlphanumeric d = true := by
  rw [← String.ofList_toList (s := w)] at h ⊢
  cases hw : w.toList with
  | nil => simp [hw, IsWord] at h
  | cons c cs => exact ⟨c, cs, rfl, isWord_ofList_cons.mp (hw ▸ h)⟩

/-- The lexeme of a symbol. -/
def Lexeme.symbol (c : Char) : Lexeme := ⟨.symbol, String.ofList [c]⟩

namespace Token

theorem readLexeme_word {c : Char} {cs rest : List Char} (hc : isAlphabetic c = true)
    (hcs : ∀ d ∈ cs, isAlphanumeric d = true) (h : Cut rest) :
    readLexeme c (cs ++ rest) = .ok ⟨.ofWord (String.ofList (c :: cs)), c :: cs, rest⟩ := by
  obtain ⟨htake, hdrop⟩ := run_append hcs h
  simp [readLexeme, hc, htake, hdrop]

theorem readLexeme_symbol {c : Char} (hc : c ∈ symbols) (cs : List Char) :
    readLexeme c cs = .ok ⟨.symbol, [c], cs⟩ := by
  obtain ⟨-, halnum, hdigit, hhash, hsemicolon⟩ := class_of_mem_symbols c hc
  have halpha : isAlphabetic c = false := by
    rw [isAlphanumeric, Bool.or_eq_false_iff] at halnum
    exact halnum.1
  simp [readLexeme, halpha, hdigit, hhash, hsemicolon, hc]

theorem word?_toNat (n : UInt32) : word? n.toNat = some n := by
  simp [word?, n.toNat_lt]

theorem readNumber_digits {radix : Radix} {ds rest : List Char} {n : UInt32} (mark : List Char)
    (hds : ∀ d ∈ ds, radix.isDigit d = true) (hne : ds ≠ []) (hn : radix.value ds = n.toNat)
    (h : radix.EndsBefore rest) :
    readNumber radix mark (ds ++ rest) = .ok ⟨.number n, mark ++ ds, rest⟩ := by
  obtain ⟨htake, hdrop⟩ := run_append hds fun c hc => (h c hc).2
  have hnext : rest.head?.filter isAlphabetic = none := by
    cases rest with
    | nil => rfl
    | cons c rest => simp [(h c rfl).1]
  simp [readNumber, htake, hdrop, hnext, hne, hn, word?_toNat]

theorem readLexeme_decimal {d : Char} {ds rest : List Char} {n : UInt32}
    (hds : ∀ e ∈ d :: ds, Radix.decimal.isDigit e = true)
    (hn : Radix.decimal.value (d :: ds) = n.toNat) (h : Radix.decimal.EndsBefore rest) :
    readLexeme d (ds ++ rest) = .ok ⟨.number n, d :: ds, rest⟩ := by
  have hd : d.isDigit = true := hds d List.mem_cons_self
  have hread := readNumber_digits [] hds (by simp) hn h
  simpa [readLexeme, hd, (isBlank_and_isAlphabetic_of_isDigit hd).2] using hread

theorem readLexeme_hex {ds rest : List Char} {n : UInt32}
    (hds : ∀ d ∈ ds, Radix.hexadecimal.isDigit d = true) (hne : ds ≠ [])
    (hn : Radix.hexadecimal.value ds = n.toNat) (h : Radix.hexadecimal.EndsBefore rest) :
    readLexeme '#' (ds ++ rest) = .ok ⟨.number n, '#' :: ds, rest⟩ := by
  have hread := readNumber_digits ['#'] hds hne hn h
  have hhash : isAlphabetic '#' = false ∧ Char.isDigit '#' = false := by decide
  simpa [readLexeme, hhash.1, hhash.2] using hread

end Token

/-! ### Spellings -/

/-- The text is split into tokens that say `ls`, wherever it begins. -/
def Spells (cs : List Char) (ls : List Lexeme) : Prop :=
  ∀ p, ∃ ts, Token.scan p cs = .ok ts ∧ ts.map Token.toLexeme = ls ++ [.endOfInput]

theorem spells_nil : Spells [] [] := fun p => ⟨_, Token.scan_nil p, rfl⟩

variable {cs rest : List Char} {ls : List Lexeme}

theorem spells_blank {c : Char} (hc : isBlank c = true) (h : Spells cs ls) : Spells (c :: cs) ls :=
  fun p => by
    rw [Token.scan_blank hc]
    exact h (p.step c)

/-- A lexeme that is cut off the front is the first one. -/
theorem spells_piece {c : Char} {piece : Token.Piece} (hc : isBlank c = false)
    (hread : Token.readLexeme c cs = .ok piece) (hk : piece.kind ≠ .comment)
    (h : Spells piece.rest ls) :
    Spells (c :: cs) (⟨piece.kind, String.ofList piece.text⟩ :: ls) := by
  intro p
  obtain ⟨ts, hts, hls⟩ := h (p.advance piece.text)
  rw [Token.scan_ok hc hread, hts]
  refine ⟨_, rfl, ?_⟩
  simp only [if_neg hk, List.map_cons, hls, List.cons_append]

theorem spells_symbol {c : Char} (hc : c ∈ Token.symbols) (h : Spells rest ls) :
    Spells (c :: rest) (.symbol c :: ls) :=
  spells_piece (Token.class_of_mem_symbols c hc).1 (Token.readLexeme_symbol hc rest) nofun h

theorem spells_word {w : String} (hw : IsWord w) (hcut : Cut rest) (h : Spells rest ls) :
    Spells (w.toList ++ rest) (⟨.ofWord w, w⟩ :: ls) := by
  obtain ⟨c, cs, rfl, hc, hcs⟩ := hw.exists_cons
  rw [String.toList_ofList, List.cons_append]
  refine spells_piece (isBlank_eq_false_of_isAlphabetic hc) (Token.readLexeme_word hc hcs hcut) ?_ h
  unfold Token.Kind.ofWord
  split
  · nofun
  · split <;> nofun

theorem spells_decimal (n : UInt32) (hcut : Cut rest) (h : Spells rest ls) :
    Spells ((decimal n.toNat).toList ++ rest) (⟨.number n, decimal n.toNat⟩ :: ls) := by
  have hdigits := Radix.all_isDigit_digits .decimal n.toNat
  have hvalue := Radix.value_digits .decimal n.toNat
  rw [decimal, String.toList_ofList]
  obtain ⟨d, ds, hds⟩ := List.exists_cons_of_ne_nil (Radix.digits_ne_nil .decimal n.toNat)
  rw [hds] at hdigits hvalue ⊢
  have hblank := (isBlank_and_isAlphabetic_of_isDigit (hdigits d List.mem_cons_self)).1
  exact spells_piece hblank (Token.readLexeme_decimal hdigits hvalue (hcut.endsBefore _)) nofun h

theorem spells_hex (width : Nat) (n : UInt32) (hcut : Cut rest) (h : Spells rest ls) :
    Spells (("#" ++ hex width n.toNat).toList ++ rest)
      (⟨.number n, "#" ++ hex width n.toNat⟩ :: ls) := by
  have hread := Token.readLexeme_hex (Radix.all_isDigit_padded .hexadecimal width n.toNat)
    (Radix.padded_ne_nil _ _ _) (Radix.value_padded _ width n.toNat) (hcut.endsBefore _)
  have hpiece := spells_piece (by decide) hread nofun h
  rw [hex, String.toList_append, String.toList_ofList]
  simpa using hpiece

/-! ### Spellings that go on -/

/-- Wherever `cs` is cut off, it spells the leaves `ts`. -/
def Writes (cs : List Char) (ts : List Token) : Prop :=
  ∀ ⦃rest ls⦄, Cut rest → Spells rest ls → Spells (cs ++ rest) (ts.map Token.toLexeme ++ ls)

theorem writes_nil : Writes [] [] := fun _ _ _ h => h

variable {ds : List Char} {ts us : List Token}

theorem Writes.append (h : Writes cs ts) (hds : Cut ds) (h' : Writes ds us) :
    Writes (cs ++ ds) (ts ++ us) := by
  intro rest ls hrest hls
  rw [List.append_assoc, List.map_append, List.append_assoc]
  exact h (hds.append hrest) (h' hrest hls)

theorem Writes.blank {c : Char} (h : Writes cs ts) (hc : isBlank c = true) : Writes (c :: cs) ts :=
  fun _ _ hrest hls => spells_blank hc (h hrest hls)

theorem Writes.symbol {t : Token} {c : Char} (h : Writes cs ts) (hc : c ∈ Token.symbols)
    (ht : t.toLexeme = .symbol c) : Writes (c :: cs) (t :: ts) := by
  intro rest ls hrest hls
  rw [List.map_cons, ht]
  exact spells_symbol hc (h hrest hls)

theorem Writes.spells (h : Writes cs ts) : Spells cs (ts.map Token.toLexeme) := by
  have hspells := h cut_nil spells_nil
  rwa [List.append_nil, List.append_nil] at hspells

end Chip8
