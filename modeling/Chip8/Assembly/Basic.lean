/-
# Assembling a program

A text is assembled in order: it is split into tokens, the tokens are read as
statements, the statements get addresses, names are replaced, and bytes are
made. The first fault ends it. What comes out are the lines of a listing, one
for each statement, and the symbol table. The image of a program is the bytes
of its lines, one after another: a gap that `.org` opens is not filled.

Key definitions: `Line`, `Assembly`, `Assembly.image`, `Assembly.linesOf`,
`assembleProgram`, `assemble`.
-/
import Chip8.Assembly.Emit
import Chip8.Assembly.Resolve
import Chip8.Program.Read
import Chip8.Token.Scan

namespace Chip8

/-- A statement of an assembled program: its address, how it reads with its names
replaced, and its bytes. -/
structure Line where
  address : UInt32
  statement : Statement
  bytes : List UInt8
deriving DecidableEq

/-- An assembled program. -/
structure Assembly where
  lines : List Line
  symbols : Symbols
deriving DecidableEq

namespace Assembly

/-- The bytes of the program. -/
def image (a : Assembly) : List UInt8 := a.lines.flatMap Line.bytes

/-- Puts addresses, statements and bytes together line by line. -/
def linesOf : List UInt32 → List Statement → List (List UInt8) → List Line
  | address :: addresses, s :: ss, bytes :: code =>
    ⟨address, s, bytes⟩ :: linesOf addresses ss code
  | _, _, _ => []

end Assembly

/-- Assembles statements, the first at `origin`; `source` names them in notices. -/
def assembleProgram (source : String) (origin : UInt32) (program : List Statement) :
    Outcome Assembly := do
  .raise (.statements source program.length)
  let (layout, placed) := (Layout.start origin).placeAll program
  let addresses ← placed
  .raise (.labels source layout.symbols.entries.length layout.cursor)
  let (resolved, fault) := Program.resolve layout.symbols program
  match fault with
  | some f => .fail f
  | none =>
    let code ← Program.emit resolved
    let assembly : Assembly := ⟨Assembly.linesOf addresses resolved code, layout.symbols⟩
    .raise (.bytes source assembly.image.length)
    pure assembly

/-- Assembles a text, beginning at `origin`; `source` is its name. -/
def assemble (source text : String) (origin : UInt32) : Outcome Assembly := do
  let tokens ← Token.tokenize source text
  let program ← Program.read tokens
  assembleProgram source origin program

end Chip8
