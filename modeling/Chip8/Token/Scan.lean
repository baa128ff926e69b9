/-
# Splitting a text into tokens

A text is cut from the front, one lexeme at a time. What a lexeme is follows
from its first character: an alphabetic one begins a word, an ASCII digit a
decimal number, `#` a hexadecimal one, `;` a comment up to the end of the line,
and a symbol stands for itself. A word or number is as long as it can be; a
number that runs into a letter is malformed. Blanks and comments separate
tokens and are dropped, and a token for the end of the input closes the row.

Cutting loses nothing (`readLexeme_append`) and always takes something
(`readLexeme_ne_nil`), which is why scanning ends.

Key definitions: `Token.Piece`, `Token.readNumber`, `Token.readLexeme`, `Token.scan`,
`Token.tokenize`.
Key theorems: `readLexeme_append`, `readLexeme_ne_nil`, `length_rest_lt`, `scan_blank`.
-/
import Chip8.Outcome
import Chip8.Text.Blank
import Chip8.Text.Numeric

namespace Chip8
namespace Token

/-- The lexeme at the front of a text: its kind, its characters, and the text
behind it. -/
structure Piece where
  kind : Kind
  text : List Char
  rest : List Char
deriving DecidableEq

/-- Cuts a number off the front of `cs`; `mark` is what was written before its
digits. -/
def readNumber (radix : Radix) (mark cs : List Char) : Except Fault.Cause Piece :=
  let digits := cs.takeWhile radix.isDigit
  let rest := cs.dropWhile radix.isDigit
  match rest.head?.filter isAlphabetic with
  | some next => .error (.malformedNumber radix next)
  | none =>
    if digits = [] then .error .noHexDigits
    else
      match word? (radix.value digits) with
      | some n => .ok ⟨.number n, mark ++ digits, rest⟩
      | none => .error (.outOfRange (String.ofList (mark ++ digits)))

/-- Cuts the lexeme off the front of the text `c :: cs`, where `c` is not blank. -/
def readLexeme (c : Char) (cs : List Char) : Except Fault.Cause Piece :=
  if isAlphabetic c then
    let word := c :: cs.takeWhile isAlphanumeric
    .ok ⟨.ofWord (String.ofList word), word, cs.dropWhile isAlphanumeric⟩
  else if c.isDigit then readNumber .decimal [] (c :: cs)
  else if c = '#' then readNumber .hexadecimal ['#'] cs
  else if c = ';' then .ok ⟨.comment, c :: cs.takeWhile (· != '\n'), cs.dropWhile (· != '\n')⟩
  else if c ∈ symbols then .ok ⟨.symbol, [c], cs⟩
  else .error (.strayCharacter c)

/-! ### Cutting loses nothing and takes something -/

theorem readNumber_append {radix : Radix} {mark cs : List Char} {p : Piece}
    (h : readNumber radix mark cs = .ok p) :
    p.text ++ p.rest = mark ++ cs ∧ p.text ≠ [] := by
  unfold readNumber at h
  simp only at h
  split at h
  · cases h
  · split at h
    · cases h
    · next hne =>
      split at h
      · cases h
        exact ⟨by rw [List.append_assoc, List.takeWhile_append_dropWhile], by simp [hne]⟩
      · cases h

theorem readLexeme_append_and_ne_nil {c : Char} {cs : List Char} {p : Piece}
    (h : readLexeme c cs = .ok p) : p.text ++ p.rest = c :: cs ∧ p.text ≠ [] := by
  unfold readLexeme at h
  split at h
  · cases h
    exact ⟨by simp, by simp⟩
  · split at h
    · exact readNumber_append h
    · split at h
      · next hc => exact hc ▸ readNumber_append h
      · split at h
        · cases h
          exact ⟨by simp, by simp⟩
        · split at h
          · cases h
            exact ⟨rfl, by simp⟩
          · cases h

/-- A piece and what is behind it are the text. -/
theorem readLexeme_append {c : Char} {cs : List Char} {p : Piece} (h : readLexeme c cs = .ok p) :
    p.text ++ p.rest = c :: cs := (readLexeme_append_and_ne_nil h).1

theorem readLexeme_ne_nil {c : Char} {cs : List Char} {p : Piece} (h : readLexeme c cs = .ok p) :
    p.text ≠ [] := (readLexeme_append_and_ne_nil h).2

theorem length_rest_lt {c : Char} {cs : List Char} {p : Piece} (h : readLexeme c cs = .ok p) :
    p.rest.length < (c :: cs).length := by
  rw [← readLexeme_append h, List.length_append]
  have := List.length_pos_iff.mpr (readLexeme_ne_nil h)
  omega

/-! ### The row of tokens -/

/-- The tokens of a text that begins at `p`, and the token for its end. -/
def scan (p : Position) : List Char → Except Fault (List Token)
  | [] => .ok [⟨.endOfInput, p⟩]
  | c :: cs =>
    if isBlank c then scan (p.step c) cs
    else
      match _cut : readLexeme c cs with
      | .error cause => .error ⟨p, cause⟩
      | .ok piece =>
        match scan (p.advance piece.text) piece.rest with
        | .error f => .error f
        | .ok ts =>
          if piece.kind = .comment then .ok ts
          else .ok (⟨⟨piece.kind, String.ofList piece.text⟩, p⟩ :: ts)
termination_by cs => cs.length
decreasing_by
  · simp
  · exact length_rest_lt _cut

theorem scan_nil (p : Position) : scan p [] = .ok [⟨.endOfInput, p⟩] := by rw [scan]

/-- A blank only moves the position. -/
theorem scan_blank {c : Char} (h : isBlank c = true) (p : Position) (cs : List Char) :
    scan p (c :: cs) = scan (p.step c) cs := by
  rw [scan, if_pos h]

theorem scan_error {c : Char} {cs : List Char} {cause : Fault.Cause} (hb : isBlank c = false)
    (h : readLexeme c cs = .error cause) (p : Position) : scan p (c :: cs) = .error ⟨p, cause⟩ := by
  rw [scan, if_neg (by simp [hb])]
  split
  · next h' => simp_all
  · next h' => simp_all

/-- A lexeme other than a comment is the first token. -/
theorem scan_ok {c : Char} {cs : List Char} {piece : Piece} (hb : isBlank c = false)
    (h : readLexeme c cs = .ok piece) (p : Position) :
    scan p (c :: cs) = (scan (p.advance piece.text) piece.rest).map fun ts =>
      if piece.kind = .comment then ts
      else ⟨⟨piece.kind, String.ofList piece.text⟩, p⟩ :: ts := by
  rw [scan, if_neg (by simp [hb])]
  split
  · next h' => simp_all
  · next h' =>
    obtain rfl : piece = _ := Except.ok.inj (h.symm.trans h')
    cases scan (p.advance piece.text) piece.rest with
    | error f => rfl
    | ok ts => simp only [Except.map]; split <;> rfl

/-- The tokens of a named text. -/
def tokenize (source text : String) : Outcome (List Token) := do
  let ts ← .ofExcept (scan (.start source) text.toList)
  .raise (.tokens source ts.length)
  pure ts

theorem result_tokenize (source text : String) :
    (tokenize source text).result = scan (.start source) text.toList := by
  unfold tokenize
  simp only [Outcome.result_bind, Outcome.result_ofExcept, Outcome.result_raise,
    Outcome.result_pure]
  cases scan (.start source) text.toList <;> rfl

end Token
end Chip8
