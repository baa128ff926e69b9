/-
# Tokens

A text is read as a row of tokens. A lexeme is what a token says, its kind and
its text; a token is a lexeme at a position. The tokens of a text end in one
token of kind `endOfInput`.

A word is a mnemonic, the name of a special register, or else an identifier
(`Kind.ofWord`); case matters.

Key definitions: `Token.Kind`, `Lexeme`, `Token`, `Kind.ofWord`, `Lexeme.symbol?`,
`Lexeme.describe`.
Key theorems: `isSymbol_iff`, `ofWord_eq_mnemonic_iff`, `ofWord_eq_keyword_iff`.
-/
import Chip8.Position

namespace Chip8

/-- What a token is; a number carries its value. -/
inductive Token.Kind where
  | identifier
  | mnemonic
  | keyword
  | number (value : UInt32)
  | symbol
  | comment
  | endOfInput
deriving DecidableEq

/-- What a token says: its kind and the text it was written as. -/
structure Lexeme where
  kind : Token.Kind
  text : String
deriving DecidableEq

/-- A lexeme and where it starts. -/
structure Token extends Lexeme where
  position : Position
deriving DecidableEq

namespace Token

/-- The names of the instructions. -/
def mnemonics : List String :=
  ["cls", "ret", "jp", "call", "se", "sne", "ld", "add", "or", "and", "xor", "sub", "shr", "subn",
   "shl", "rnd", "drw", "skp", "sknp"]

/-- The names of the special registers. -/
def keywords : List String := ["I", "F", "B", "DT", "ST", "K"]

/-- The characters that are tokens by themselves. -/
def symbols : List Char := ['.', ',', ':', '@', '&', '[', ']', '(', ')', '\x7b', '\x7d', '!']

namespace Kind

/-- The kind of a word. -/
def ofWord (word : String) : Kind :=
  if word ∈ mnemonics then .mnemonic else if word ∈ keywords then .keyword else .identifier

theorem ofWord_eq_mnemonic_iff {word : String} : ofWord word = .mnemonic ↔ word ∈ mnemonics := by
  unfold ofWord
  split
  · simp [*]
  · split <;> simp [*]

/-- No mnemonic is a keyword, so the order of the two questions does not matter. -/
theorem not_mem_keywords_of_mem_mnemonics : ∀ word ∈ mnemonics, word ∉ keywords := by decide

theorem ofWord_eq_keyword_iff {word : String} : ofWord word = .keyword ↔ word ∈ keywords := by
  unfold ofWord
  split
  · next h => simp [not_mem_keywords_of_mem_mnemonics word h]
  · split <;> simp [*]

theorem ofWord_eq_identifier_iff {word : String} :
    ofWord word = .identifier ↔ word ∉ mnemonics ∧ word ∉ keywords := by
  unfold ofWord
  split
  · simp [*]
  · split <;> simp [*]

end Kind
end Token

namespace Lexeme

/-- The character a symbol starts with; nothing for the other kinds. -/
def symbol? (l : Lexeme) : Option Char :=
  match l.kind with
  | .symbol => l.text.toList.head?
  | _ => none

/-- Whether the lexeme is a symbol that starts with `c`. -/
def isSymbol (l : Lexeme) (c : Char) : Bool := l.symbol? == some c

/-- Whether the lexeme is the name of the special register `word`. -/
def isKeyword (l : Lexeme) (word : String) : Bool := l.kind == .keyword && l.text == word

/-- How messages name the lexeme. -/
def describe (l : Lexeme) : String :=
  match l.kind with
  | .identifier => "identifier `" ++ l.text ++ "`"
  | .mnemonic => "mnemonic `" ++ l.text ++ "`"
  | .keyword => "register `" ++ l.text ++ "`"
  | .number _ => "number `" ++ l.text ++ "`"
  | .symbol => "`" ++ l.text ++ "`"
  | .comment => "comment"
  | .endOfInput => "end of input"

/-- The lexeme behind the last one of a text. -/
def endOfInput : Lexeme := ⟨.endOfInput, ""⟩

theorem isSymbol_iff {l : Lexeme} {c : Char} : l.isSymbol c = true ↔ l.symbol? = some c := by
  simp [isSymbol]

theorem symbol?_eq_some_iff {l : Lexeme} {c : Char} :
    l.symbol? = some c ↔ l.kind = .symbol ∧ l.text.toList.head? = some c := by
  unfold symbol?
  split <;> simp_all

theorem isKeyword_iff {l : Lexeme} {word : String} :
    l.isKeyword word = true ↔ l.kind = .keyword ∧ l.text = word := by
  simp [isKeyword]

end Lexeme
end Chip8
