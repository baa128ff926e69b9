/-
# Faults

A fault says what is wrong with a program and where. Its cause belongs to one
of three stages: the text does not split into tokens (lexical), the tokens do
not form statements (grammatical), or the statements cannot be assembled
(semantic). The first fault ends the assembly.

Key definitions: `Fault.Stage`, `Fault.Cause`, `Cause.stage`, `Cause.message`,
`Fault`, `Fault.render`.
-/
import Chip8.Program.Operand

namespace Chip8

/-- The stages of reading a program that can find fault with it. -/
inductive Fault.Stage where
  | lexical
  | grammatical
  | semantic
deriving DecidableEq

/-- What the grammar asks for at some token. -/
inductive Fault.Wanted where
  | statement
  | directiveName
  | value
  | symbol (c : Char)
deriving DecidableEq

/-- The things that can be wrong. -/
inductive Fault.Cause where
  /-- A character that starts no token. -/
  | strayCharacter (c : Char)
  /-- A number that runs into a letter. -/
  | malformedNumber (radix : Radix) (next : Char)
  /-- A `#` without digits. -/
  | noHexDigits
  /-- A number of more than 32 bits. -/
  | outOfRange (text : String)
  /-- A token other than the grammar wants. -/
  | expected (wanted : Fault.Wanted) (found : Lexeme)
  /-- A keyword that names no special register. -/
  | noSuchRegister
  /-- An `.org` without its one address. -/
  | originShape
  /-- An `.org` whose address is a name. -/
  | originName (name : String)
  /-- An `.org` whose address has no value. -/
  | originAbsent
  /-- A `.db` without operands. -/
  | dataEmpty
  /-- A `.db` with an operand that is no byte. -/
  | dataKind
  /-- A directive that means nothing. -/
  | unknownDirective (name : String)
  /-- A name that no label binds. -/
  | unknownName (name : String)
  /-- A name where a number is needed. -/
  | unresolvedName (name : String)
  /-- A mnemonic that does not take these operands. -/
  | unknownForm (mnemonic : String) (kinds : List Operand.Kind)
deriving DecidableEq

/-- What is wrong, and where. -/
structure Fault where
  position : Position
  cause : Fault.Cause
deriving DecidableEq

namespace Fault

/-- The name of a stage in messages. -/
def Stage.name : Stage → String
  | lexical => "lexical"
  | grammatical => "syntax"
  | semantic => "semantic"

/-- How messages name what the grammar asks for. -/
def Wanted.describe : Wanted → String
  | statement => "label, instruction or directive"
  | directiveName => "directive name"
  | value => "identifier or number"
  | symbol c => "`" ++ c.toString ++ "`"

/-- The stage a cause belongs to. -/
def Cause.stage : Cause → Stage
  | strayCharacter _ | malformedNumber _ _ | noHexDigits | outOfRange _ => .lexical
  | expected _ _ | noSuchRegister => .grammatical
  | originShape | originName _ | originAbsent | dataEmpty | dataKind | unknownDirective _
  | unknownName _ | unresolvedName _ | unknownForm _ _ => .semantic

/-- The wording of a cause. -/
def Cause.message : Cause → String
  | strayCharacter c => "unrecognized symbol `" ++ c.toString ++ "`"
  | malformedNumber radix next =>
    "malformed " ++ radix.name ++ " literal: unexpected `" ++ next.toString ++ "`"
  | noHexDigits => "hexadecimal digits expected after `#`"
  | outOfRange text => "number `" ++ text ++ "` out of range"
  | expected wanted found => wanted.describe ++ " expected here, found " ++ found.describe
  | noSuchRegister => "argument expected here"
  | originShape => "`.org` expects exactly one address"
  | originName name => "`.org` needs a literal address, `" ++ name ++ "` is not known yet"
  | originAbsent => "`.org` needs a literal address"
  | dataEmpty => "`.db` expects at least one byte"
  | dataKind => "`.db` accepts only byte values"
  | unknownDirective name => "unknown directive `." ++ name ++ "` or wrong arguments"
  | unknownName name => "unknown identifier `" ++ name ++ "`"
  | unresolvedName name => "unresolved identifier `" ++ name ++ "`"
  | unknownForm mnemonic kinds =>
    "unknown instruction `" ++ mnemonic ++ "` or wrong arguments [" ++
      ", ".intercalate (kinds.map Operand.Kind.name) ++ "]"

/-- The line `position: stage error: message`. -/
def report (position : Position) (stage : Stage) (message : String) : String :=
  position.render ++ ": " ++ stage.name ++ " error: " ++ message

/-- The stage that found the fault. -/
def stage (f : Fault) : Stage := f.cause.stage

/-- The wording of the fault. -/
def message (f : Fault) : String := f.cause.message

/-- The fault as one line. -/
def render (f : Fault) : String := report f.position f.stage f.message

end Fault
end Chip8
