/-
# Statements

A program is a list of statements. A label names the address it stands at, an
instruction is two bytes of machine code, a directive moves the address
(`.org`) or puts down bytes (`.db`). Names of directives are free here: which
of them mean something is decided when the program is laid out.

Key definitions: `Statement`, `Statement.name`, `Statement.operands`,
`Statement.position`, `Statement.render`.
-/
import Chip8.Program.Operand

namespace Chip8

/-- A statement and where it starts; a directive's name is without its dot. -/
inductive Statement where
  | label (name : String) (position : Position)
  | instruction (mnemonic : String) (operands : List Operand) (position : Position)
  | directive (name : String) (operands : List Operand) (position : Position)
deriving DecidableEq

namespace Statement

/-- The word a statement is about: a label's name, a mnemonic, a directive's name. -/
def name : Statement → String
  | label name _ => name
  | instruction mnemonic _ _ => mnemonic
  | directive name _ _ => name

/-- The operands of a statement; a label has none. -/
def operands : Statement → List Operand
  | label _ _ => []
  | instruction _ operands _ => operands
  | directive _ operands _ => operands

/-- Where a statement starts. -/
def position : Statement → Position
  | label _ position => position
  | instruction _ _ position => position
  | directive _ _ position => position

/-- The written form of the operands behind a name. -/
def renderOperands : List Operand → String
  | [] => ""
  | os => " " ++ ", ".intercalate (os.map Operand.render)

/-- The written form of a statement. -/
def render : Statement → String
  | label name _ => name ++ ":"
  | instruction mnemonic operands _ => mnemonic ++ renderOperands operands
  | directive name operands _ => "." ++ name ++ renderOperands operands

end Statement
end Chip8
