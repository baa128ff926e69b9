/-
# Positions in a named text

A position says where in a text something stands: the name of the text, the
offset in bytes of its UTF-8 form, and line and column, both from 1, the column
in characters. Walking over a text moves the position character by character
(`advance_append`); a newline starts the next line.

Key definitions: `Position`, `Position.step`, `Position.advance`, `Position.render`.
Key theorems: `advance_append`, `source_advance`, `offset_advance`, `line_advance`.
-/
import Chip8.Text.Numeral

namespace Chip8

/-- A place in a named text. -/
structure Position where
  source : String
  offset : Nat
  line : Nat
  column : Nat
deriving DecidableEq

namespace Position

/-- The beginning of a text. -/
def start (source : String) : Position := ⟨source, 0, 1, 1⟩

/-- The position behind a character that stands at `p`. -/
def step (p : Position) (c : Char) : Position :=
  if c = '\n' then ⟨p.source, p.offset + c.utf8Size, p.line + 1, 1⟩
  else ⟨p.source, p.offset + c.utf8Size, p.line, p.column + 1⟩

/-- The position behind a text that begins at `p`. -/
def advance (p : Position) (cs : List Char) : Position := cs.foldl step p

/-- The written form `source:line:column`. -/
def render (p : Position) : String := p.source ++ ":" ++ decimal p.line ++ ":" ++ decimal p.column

theorem advance_nil (p : Position) : p.advance [] = p := rfl

theorem advance_cons (p : Position) (c : Char) (cs : List Char) :
    p.advance (c :: cs) = (p.step c).advance cs := rfl

theorem advance_append (p : Position) (cs ds : List Char) :
    p.advance (cs ++ ds) = (p.advance cs).advance ds := List.foldl_append

theorem source_step (p : Position) (c : Char) : (p.step c).source = p.source := by
  unfold step
  split <;> rfl

theorem offset_step (p : Position) (c : Char) : (p.step c).offset = p.offset + c.utf8Size := by
  unfold step
  split <;> rfl

theorem line_step (p : Position) (c : Char) :
    (p.step c).line = p.line + if c = '\n' then 1 else 0 := by
  unfold step
  split <;> rfl

theorem column_step (p : Position) (c : Char) :
    (p.step c).column = if c = '\n' then 1 else p.column + 1 := by
  unfold step
  split <;> rfl

theorem source_advance : ∀ (cs : List Char) (p : Position), (p.advance cs).source = p.source
  | [], _ => rfl
  | c :: cs, p => by rw [advance_cons, source_advance cs, source_step]

/-- The offset counts bytes. -/
theorem offset_advance : ∀ (cs : List Char) (p : Position),
    (p.advance cs).offset = p.offset + (String.ofList cs).utf8ByteSize
  | [], _ => rfl
  | c :: cs, p => by
    rw [advance_cons, offset_advance cs, offset_step, String.ofList_cons,
      String.utf8ByteSize_append, String.utf8ByteSize_singleton, Nat.add_assoc]

/-- The line counts newlines. -/
theorem line_advance : ∀ (cs : List Char) (p : Position),
    (p.advance cs).line = p.line + cs.count '\n'
  | [], _ => rfl
  | c :: cs, p => by
    rw [advance_cons, line_advance cs, line_step, List.count_cons]
    by_cases h : c = '\n' <;> simp [h]
    omega

end Position
end Chip8
