/-
# Splitting two texts behind one another

No lexeme goes over a newline: a word or number ends in front of it, and so does a
comment. So of two texts with a newline between them the first is split as if
nothing followed, and then the second, which begins at a later position
(`scan_append_newline`). Splitting copies positions and steps over characters, so
where a map of positions goes with every step, the tokens go with it
(`scan_moved`); and a position that begins later stays as much later
(`Position.later_step`). The tokens of the second text are those it has alone, moved.

Key definitions: `Token.Piece.before`, `Position.later`.
Key theorems: `readLexeme_append_newline`, `scan_append_newline`, `scan_moved`,
`advance_start_newline`, `result_tokenize_append_newline`.
-/
import Chip8.Proofs.Moved.Basic
import Chip8.Token.Scan

namespace Chip8

/-! ### No lexeme goes over a newline -/

namespace Token

/-- A run that a newline ends is the same whatever follows the newline. -/
theorem run_append_newline {k : Char → Bool} (hk : k '\n' = false) (cs ds : List Char) :
    (cs ++ '\n' :: ds).takeWhile k = cs.takeWhile k ∧
      (cs ++ '\n' :: ds).dropWhile k = cs.dropWhile k ++ '\n' :: ds := by
  induction cs with
  | nil => simp [hk]
  | cons c cs ih =>
    by_cases hc : k c = true
    · simp [hc, ih.1, ih.2]
    · simp [hc]

/-- The piece with a newline and `ds` behind it. -/
def Piece.before (ds : List Char) (piece : Piece) : Piece :=
  { piece with rest := piece.rest ++ '\n' :: ds }

theorem readNumber_append_newline (radix : Radix) (mark cs ds : List Char) :
    readNumber radix mark (cs ++ '\n' :: ds) =
      (readNumber radix mark cs).map (Piece.before ds) := by
  have hdigit : radix.isDigit '\n' = false := by cases radix <;> decide
  obtain ⟨htake, hdrop⟩ := run_append_newline hdigit cs ds
  have hnext : (cs.dropWhile radix.isDigit ++ '\n' :: ds).head?.filter isAlphabetic =
      (cs.dropWhile radix.isDigit).head?.filter isAlphabetic := by
    cases cs.dropWhile radix.isDigit with
    | nil => rfl
    | cons c rest => rfl
  unfold readNumber
  simp only [htake, hdrop, hnext]
  split
  · rfl
  · split
    · rfl
    · split <;> rfl

/-- What is cut off in front of a newline does not depend on what follows it. -/
theorem readLexeme_append_newline (c : Char) (cs ds : List Char) :
    readLexeme c (cs ++ '\n' :: ds) = (readLexeme c cs).map (Piece.before ds) := by
  obtain ⟨hword, hrest⟩ := run_append_newline (k := isAlphanumeric) (by decide) cs ds
  obtain ⟨hnote, hline⟩ := run_append_newline (k := (· != '\n')) (by decide) cs ds
  unfold readLexeme
  simp only [hword, hrest, hnote, hline, ← List.cons_append, readNumber_append_newline]
  split
  · rfl
  · split
    · rfl
    · split
      · rfl
      · split
        · rfl
        · split <;> rfl

/-- A piece is cut off in front of a newline as it is in front of the end. -/
theorem scan_before_newline {p : Position} {c : Char} {cs : List Char} {piece : Piece}
    (hb : ¬isBlank c = true) (hcut : readLexeme c cs = .ok piece) (ds : List Char) :
    scan p (c :: (cs ++ '\n' :: ds)) =
      (scan (p.advance piece.text) (piece.rest ++ '\n' :: ds)).map fun ts =>
        if piece.kind = .comment then ts
        else ⟨⟨piece.kind, String.ofList piece.text⟩, p⟩ :: ts := by
  have hcut' := readLexeme_append_newline c cs ds
  rw [hcut] at hcut'
  exact scan_ok (by simpa using hb) hcut' p

/-- The position behind the newline, whether one walks over a piece first or not. -/
theorem advance_before {p : Position} {c : Char} {cs : List Char} {piece : Piece}
    (hcut : readLexeme c cs = .ok piece) :
    p.advance (c :: cs ++ ['\n']) = (p.advance piece.text).advance (piece.rest ++ ['\n']) := by
  rw [← readLexeme_append hcut, List.append_assoc, Position.advance_append]

theorem ne_nil_of_scan {p : Position} {cs : List Char} {ts : List Token}
    (h : scan p cs = .ok ts) : ts ≠ [] := by
  fun_induction scan p cs generalizing ts with
  | case1 =>
    cases h
    simp
  | case2 p c cs hb ih => exact ih h
  | case3 => cases h
  | case4 => cases h
  | case5 p c cs hb piece hcut us hus hk ih =>
    cases h
    exact ih hus
  | case6 =>
    cases h
    simp

/-- **Splitting goes on behind a newline**: the tokens of the first text without the end of the
input, and then those of the second. -/
theorem scan_append_newline (p : Position) (cs ds : List Char) :
    scan p (cs ++ '\n' :: ds) =
      (scan p cs).bind fun ts =>
        (scan (p.advance (cs ++ ['\n'])) ds).map (ts.dropLast ++ ·) := by
  fun_induction scan p cs with
  | case1 p =>
    rw [List.nil_append, scan_blank (by decide)]
    change scan (p.step '\n') ds = (scan (p.step '\n') ds).map ([] ++ ·)
    cases scan (p.step '\n') ds <;> rfl
  | case2 p c cs hb ih =>
    rw [List.cons_append, scan_blank hb, ih, List.cons_append, Position.advance_cons]
  | case3 p c cs hb cause hcut =>
    have hcut' := readLexeme_append_newline c cs ds
    rw [hcut] at hcut'
    rw [List.cons_append, scan_error (by simpa using hb) hcut']
    rfl
  | case4 p c cs hb piece hcut f hf ih =>
    rw [hf] at ih
    rw [List.cons_append, scan_before_newline hb hcut ds, ih]
    rfl
  | case5 p c cs hb piece hcut us hus hk ih =>
    rw [hus] at ih
    rw [List.cons_append, scan_before_newline hb hcut ds, ih, ← advance_before hcut]
    simp only [hk, if_true]
    cases scan (p.advance (c :: cs ++ ['\n'])) ds <;> rfl
  | case6 p c cs hb piece hcut us hus hk ih =>
    obtain ⟨u, us, rfl⟩ := List.exists_cons_of_ne_nil (ne_nil_of_scan hus)
    rw [hus] at ih
    rw [List.cons_append, scan_before_newline hb hcut ds, ih, ← advance_before hcut]
    simp only [hk, if_false]
    cases scan (p.advance (c :: cs ++ ['\n'])) ds <;> rfl

/-! ### Splitting behind another text -/

variable {f : Position → Position}

theorem advance_moved (hf : ∀ p c, f (p.step c) = (f p).step c) (p : Position) (cs : List Char) :
    f (p.advance cs) = (f p).advance cs := by
  induction cs generalizing p with
  | nil => rfl
  | cons c cs ih => rw [Position.advance_cons, ih, hf, Position.advance_cons]

/-- Splitting only steps over characters: where each step goes as far, so do all tokens. -/
theorem scan_moved (hf : ∀ p c, f (p.step c) = (f p).step c) (p : Position) (cs : List Char) :
    scan (f p) cs = relocate f (List.map (moved f)) (scan p cs) := by
  fun_induction scan p cs with
  | case1 p => rw [scan_nil]; rfl
  | case2 p c cs hb ih => rw [scan_blank hb, ← hf, ih]
  | case3 p c cs hb cause hcut =>
    rw [scan_error (by simpa using hb) hcut]
    rfl
  | case4 p c cs hb piece hcut e he ih =>
    rw [he] at ih
    rw [scan_ok (by simpa using hb) hcut, ← advance_moved hf, ih]
    rfl
  | case5 p c cs hb piece hcut us hus hk ih =>
    rw [hus] at ih
    rw [scan_ok (by simpa using hb) hcut, ← advance_moved hf, ih]
    simp only [hk, if_true]
    rfl
  | case6 p c cs hb piece hcut us hus hk ih =>
    rw [hus] at ih
    rw [scan_ok (by simpa using hb) hcut, ← advance_moved hf, ih]
    simp only [hk, if_false]
    rfl

end Token

namespace Position

/-- The position, moved behind the lines `lines`: its offset and line are later by theirs. -/
def later (lines : String) (p : Position) : Position :=
  { p with offset := p.offset + lines.utf8ByteSize, line := p.line + lines.toList.count '\n' }

/-- A position stays as much later at every step. -/
theorem later_step (lines : String) (p : Position) (c : Char) :
    later lines (p.step c) = (later lines p).step c := by
  unfold step later
  split
  · simp only [Nat.add_right_comm]
  · simp only [Nat.add_right_comm]

/-- Behind a newline a text begins in the first column. -/
theorem advance_start_newline (source text : String) :
    (start source).advance (text.toList ++ ['\n']) = later (text ++ "\n") (start source) := by
  have hlist : (text ++ "\n").toList = text.toList ++ ['\n'] := by simp
  have hsource := source_advance (text.toList ++ ['\n']) (start source)
  have hoffset := offset_advance (text.toList ++ ['\n']) (start source)
  have hline := line_advance (text.toList ++ ['\n']) (start source)
  have hcolumn : ((start source).advance (text.toList ++ ['\n'])).column = 1 := by
    rw [advance_append, advance_cons, advance_nil, column_step, if_pos rfl]
  rw [← hlist, String.ofList_toList] at hoffset
  rw [← hlist] at hsource hline hcolumn ⊢
  generalize (start source).advance (text ++ "\n").toList = p at *
  obtain ⟨source', offset, line, column⟩ := p
  simp_all [later, start]

end Position

/-- **Two texts with a newline between them are split one behind the other.** The first fault ends
it; the tokens of the second text, or its fault, stand as much later as the first text is long. -/
theorem Token.result_tokenize_append_newline (source a b : String) :
    (tokenize source (a ++ "\n" ++ b)).result =
      (tokenize source a).result.bind fun ts =>
        (relocate (Position.later (a ++ "\n")) (List.map (moved (Position.later (a ++ "\n"))))
          (tokenize source b).result).map (ts.dropLast ++ ·) := by
  have htext : (a ++ "\n" ++ b).toList = a.toList ++ '\n' :: b.toList := by simp
  have hmoved := scan_moved (Position.later_step (a ++ "\n")) (.start source) b.toList
  rw [result_tokenize, result_tokenize, result_tokenize, htext, scan_append_newline,
    Position.advance_start_newline, hmoved]

/-- **A text is split behind a newline as it is alone**, and its tokens stand as much later as the
text in front of it is long. -/
theorem Token.result_tokenize_newline {source a b : String} {ts us : List Token}
    (ha : (tokenize source a).result = .ok ts) (hb : (tokenize source b).result = .ok us) :
    (tokenize source (a ++ "\n" ++ b)).result =
      .ok (ts.dropLast ++ us.map (moved (Position.later (a ++ "\n")))) := by
  rw [result_tokenize_append_newline, ha, hb]
  rfl

end Chip8
