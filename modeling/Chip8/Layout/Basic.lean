/-
# Layouts

While a program is laid out, a cursor says where the next statement goes, and
a table holds the labels seen so far. The cursor is a 32-bit word and wraps
around.

Key definitions: `Layout`, `Layout.start`, `Layout.advance`, `Layout.moveTo`,
`Layout.define`, `Layout.get?`.
Key theorems: `get?_define`.
-/
import Chip8.Layout.Symbols

namespace Chip8

/-- Where the next statement goes, and the labels seen so far. -/
structure Layout where
  cursor : UInt32
  symbols : Symbols
deriving DecidableEq

namespace Layout

/-- An empty layout that begins at `origin`. -/
def start (origin : UInt32) : Layout := ⟨origin, .empty⟩

/-- Moves the cursor on by `count` bytes. -/
def advance (l : Layout) (count : UInt32) : Layout := { l with cursor := l.cursor + count }

/-- Moves the cursor to an address. -/
def moveTo (l : Layout) (address : UInt32) : Layout := { l with cursor := address }

/-- The address of a label. -/
def get? (l : Layout) (name : String) : Option UInt32 := l.symbols.get? name

/-- Binds a name to the cursor; also says what it was bound to. -/
def define (l : Layout) (name : String) : Option UInt32 × Layout :=
  (l.get? name, { l with symbols := l.symbols.insert name l.cursor })

theorem get?_start (origin : UInt32) (name : String) : (start origin).get? name = none := rfl

theorem get?_advance (l : Layout) (count : UInt32) (name : String) :
    (l.advance count).get? name = l.get? name := rfl

theorem get?_moveTo (l : Layout) (address : UInt32) (name : String) :
    (l.moveTo address).get? name = l.get? name := rfl

theorem get?_define (l : Layout) (name other : String) :
    (l.define name).2.get? other = if other = name then some l.cursor else l.get? other :=
  l.symbols.get?_insert name other l.cursor

end Layout
end Chip8
