/-
# Tokens behind a newline, and tokens with spaces between them

What is in front of a newline and what is behind it are split apart from each other. So the
tokens of two texts with a newline between them are those of the one and those of the
other, which stand later, and the first fault is that of the first text that has one
(`Token.result_tokenize_append_newline`).

Between two lexemes a space is enough: each of them is as long as it can be in front of what
followed it in the text, and so it is in front of a space (`Lexeme.Longest.of_cut`). So the
texts of the tokens with spaces between them are split into tokens that say the same
(`spells_spaced`), though comments and all other white space are gone.

Key definitions: `Token.spoken`, `Token.spaced`.
Key theorems: `spells_spaced`, `Token.exists_spoken_of_tokenize`, `Token.tokenize_spaced`,
`tokens_by_lines_and_by_spaces`.
-/
import Chip8.Proofs.Joining.Texts
import Chip8.Proofs.Printing.Printable

namespace Chip8

namespace Token

/-- The tokens but for the end of the input. -/
def spoken (ts : List Token) : List Token := ts.filter fun t => t.kind != .endOfInput

/-- The texts of the tokens, with a space between each two. -/
def spaced (ts : List Token) : String := " ".intercalate (ts.map fun t => t.text)

end Token

/-! ### Spaces -/

/-- Lexemes that are as long as they can be, wherever they stand, are spelled with spaces between
them. -/
theorem spells_spaced : ∀ {ls : List Lexeme}, (∀ l ∈ ls, ∃ rest, l.Longest rest) →
    Spells (" ".intercalate (ls.map Lexeme.text)).toList ls
  | [], _ => spells_nil
  | [l], h => by
    obtain ⟨rest, hl⟩ := h l List.mem_cons_self
    have hspells := (hl.of_cut cut_nil).spells spells_nil
    rwa [List.append_nil] at hspells
  | l :: l' :: ls, h => by
    obtain ⟨⟨rest, hl⟩, hls⟩ := List.forall_mem_cons.mp h
    have hmore := spells_blank (by decide : isBlank ' ' = true) (spells_spaced hls)
    have hspells := (hl.of_cut (cut_cons (by decide) _)).spells hmore
    rwa [List.map_cons, List.map_cons, toList_intercalate_cons_cons]

variable {source text : String} {ts : List Token}

/-- Each of the tokens that split a text, but for the end of the input, is as long as it can be. -/
theorem Splits.exists_longest {front cs : List Char} (h : Splits source front cs ts) :
    ∀ t ∈ Token.spoken ts, ∃ rest, t.toLexeme.Longest rest := by
  intro t ht
  obtain ⟨hmem, hkind⟩ := List.mem_filter.mp ht
  obtain ⟨ss, last, stop, rfl, -, -, -, hss⟩ := h.exists_stretches
  rcases List.mem_append.mp hmem with hmem | hmem
  · obtain ⟨s, hs, rfl⟩ := List.mem_map.mp hmem
    obtain ⟨before, after, rfl⟩ := List.append_of_mem hs
    exact ⟨_, (hss before s after rfl).longest⟩
  · obtain rfl := List.mem_singleton.mp hmem
    have hend : Lexeme.endOfInput.kind = .endOfInput := rfl
    simp [hend] at hkind

namespace Token

/-- The end of the input is the last of the tokens, and no other one is. -/
theorem exists_spoken_of_tokenize (h : (tokenize source text).result = .ok ts) :
    ∃ stop, ts = spoken ts ++ [⟨.endOfInput, stop⟩] := by
  rw [result_tokenize, scan_eq_ok_iff_splits] at h
  obtain ⟨us, stop, rfl, hus⟩ := h.exists_concat
  have hall : ∀ t ∈ us, (t.kind != .endOfInput) = true := fun t ht => by simpa using hus t ht
  have hspoken : spoken (us ++ [⟨.endOfInput, stop⟩]) = us := by
    rw [spoken, List.filter_append, List.filter_eq_self.mpr hall]
    exact List.append_nil us
  exact ⟨stop, by rw [hspoken]⟩

/-- **The texts of the tokens of a text, with spaces between them, are split into tokens that say
the same.** -/
theorem tokenize_spaced (h : (tokenize source text).result = .ok ts) (name : String) :
    ∃ us, (tokenize name (spaced (spoken ts))).result = .ok us ∧
      us.map toLexeme = ts.map toLexeme := by
  obtain ⟨stop, hts⟩ := exists_spoken_of_tokenize h
  rw [result_tokenize, scan_eq_ok_iff_splits] at h
  have hlongest : ∀ l ∈ (spoken ts).map toLexeme, ∃ rest, l.Longest rest :=
    List.forall_mem_map.mpr h.exists_longest
  obtain ⟨us, hus, hsay⟩ := spells_spaced hlongest (.start name)
  rw [List.map_map] at hus
  refine ⟨us, (result_tokenize name _).trans hus, ?_⟩
  conv_rhs => rw [hts]
  rw [hsay, List.map_append]
  rfl

end Token

/-- **Tokens go by lines, and by spaces.** Two texts with a newline between them are split one
behind the other: a fault of the first one stays as it is; then a fault of the second one is later
by the bytes and the lines in front, in the same column; and without a fault there are the tokens
of the first text but for the end of the input, and those of the second, which are later in the same
way. And the texts of the tokens of a text, with single spaces between them, are split into tokens
of the same kinds with the same texts. -/
theorem tokens_by_lines_and_by_spaces (source a b : String) :
    (∀ p, Position.later (a ++ "\n") p =
      ⟨p.source, p.offset + (a.utf8ByteSize + 1), p.line + (a.toList.count '\n' + 1), p.column⟩) ∧
    (∀ e, (Token.tokenize source a).result = .error e →
      (Token.tokenize source (a ++ "\n" ++ b)).result = .error e) ∧
    (∀ ts e, (Token.tokenize source a).result = .ok ts →
      (Token.tokenize source b).result = .error e →
        (Token.tokenize source (a ++ "\n" ++ b)).result =
          .error (e.moved (Position.later (a ++ "\n")))) ∧
    (∀ ts us, (Token.tokenize source a).result = .ok ts →
      (Token.tokenize source b).result = .ok us →
        (Token.tokenize source (a ++ "\n" ++ b)).result =
          .ok (Token.spoken ts ++ us.map (Token.moved (Position.later (a ++ "\n"))))) ∧
    ∀ ts, (Token.tokenize source a).result = .ok ts →
      ∃ us, (Token.tokenize source (Token.spaced (Token.spoken ts))).result = .ok us ∧
        us.map Token.toLexeme = ts.map Token.toLexeme := by
  have hjoined := Token.result_tokenize_append_newline source a b
  refine ⟨fun p => ?_, fun e ha => ?_, fun ts e ha hb => ?_, fun ts us ha hb => ?_,
    fun ts ha => Token.tokenize_spaced ha source⟩
  · have hbytes : (a ++ "\n").utf8ByteSize = a.utf8ByteSize + 1 := by
      rw [String.utf8ByteSize_append]
      rfl
    have hlines : (a ++ "\n").toList.count '\n' = a.toList.count '\n' + 1 := by simp
    rw [Position.later, hbytes, hlines]
  · rw [hjoined, ha]
    rfl
  · rw [hjoined, ha, hb]
    rfl
  · obtain ⟨stop, hts⟩ := Token.exists_spoken_of_tokenize ha
    have hfirst : ts.dropLast = Token.spoken ts := by
      conv_lhs => rw [hts]
      exact List.dropLast_concat
    rw [hjoined, ha, hb, ← hfirst]
    rfl

/-- A number that runs into a letter of two bytes, in front of a newline; a comment that would take
in a `#` behind the newline, which is at fault there; and a number that would go on behind the
newline. -/
theorem tokens_by_lines_and_by_spaces_cut :
    (∃ e, (Token.tokenize "t" "jp 1é").result = .error e ∧
      (Token.tokenize "t" ("jp 1é" ++ "\n" ++ "x")).result = .error e) ∧
    (∃ ts e, (Token.tokenize "t" "é: .db 12;").result = .ok ts ∧
      (Token.tokenize "t" " #").result = .error e ∧ e.position = ⟨"t", 1, 1, 2⟩ ∧
      (Token.tokenize "t" ("é: .db 12;" ++ "\n" ++ " #")).result =
        .error ⟨⟨"t", 13, 2, 2⟩, e.cause⟩) ∧
    ∃ ts us, (Token.tokenize "t" "é: .db 12").result = .ok ts ∧
      (Token.tokenize "t" "3").result = .ok us ∧
      (Token.tokenize "t" ("é: .db 12" ++ "\n" ++ "3")).result =
        .ok (Token.spoken ts ++ us.map (Token.moved (Position.later ("é: .db 12" ++ "\n")))) ∧
      Token.spaced (Token.spoken ts) = "é : . db 12" ∧
      ∃ vs, (Token.tokenize "t" (Token.spaced (Token.spoken ts))).result = .ok vs ∧
        vs.map Token.toLexeme = ts.map Token.toLexeme := by
  refine ⟨?_, ?_, ?_⟩
  · have hletter : (Token.tokenize "t" "jp 1é").result =
        .error ⟨⟨"t", 3, 1, 4⟩, .malformedNumber .decimal 'é'⟩ := by decide +kernel
    exact ⟨_, hletter, (tokens_by_lines_and_by_spaces "t" "jp 1é" "x").2.1 _ hletter⟩
  · have hnote : (Token.tokenize "t" "é: .db 12;").result.isOk = true := by decide +kernel
    have hbare : (Token.tokenize "t" " #").result = .error ⟨⟨"t", 1, 1, 2⟩, .noHexDigits⟩ := by
      decide +kernel
    obtain ⟨ts, hts, hfault⟩ := exists_of_isOk hnote fun ts hts =>
      (tokens_by_lines_and_by_spaces "t" "é: .db 12;" " #").2.2.1 ts _ hts hbare
    have hlater : Position.later ("é: .db 12;" ++ "\n") ⟨"t", 1, 1, 2⟩ = ⟨"t", 13, 2, 2⟩ := by
      decide +kernel
    exact ⟨ts, _, hts, hbare, rfl, hlater ▸ hfault⟩
  · have hspaced : (Token.tokenize "t" "é: .db 12").result.map
        (fun ts => Token.spaced (Token.spoken ts)) = .ok "é : . db 12" := by decide +kernel
    have hthree : (Token.tokenize "t" "3").result.isOk = true := by decide +kernel
    obtain ⟨ts, hts, hspaces⟩ := Except.map_eq_ok_iff.mp hspaced
    obtain ⟨us, hus, -⟩ := exists_of_isOk hthree fun _ _ => trivial
    obtain ⟨-, -, -, hjoined, hagain⟩ := tokens_by_lines_and_by_spaces "t" "é: .db 12" "3"
    exact ⟨ts, us, hts, hus, hjoined ts us hts hus, hspaces, hagain ts hts⟩

end Chip8
