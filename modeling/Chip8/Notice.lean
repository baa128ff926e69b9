/-
# Notices

While it works the assembler notes what a reader may want to know: warnings
about spots that are legal but suspicious, and accounts of its progress. Every
notice has a level and a channel, the part of the assembler that speaks. A
reader hears the notices up to a level (`heard`).

Key definitions: `Level`, `Notice`, `Notice.level`, `Notice.channel`,
`Notice.message`, `Notice.heard`.
Key theorems: `heard_append`, `mem_heard_iff`.
-/
import Chip8.Program.Statement

namespace Chip8

/-- How much a record matters, the gravest first. -/
inductive Level where
  | error
  | warn
  | info
  | debug
  | trace
deriving DecidableEq

namespace Level

/-- The place of a level, counted from the gravest. -/
def rank : Level → Nat
  | error => 0
  | warn => 1
  | info => 2
  | debug => 3
  | trace => 4

/-- The name of a level in records. -/
def name : Level → String
  | error => "ERROR"
  | warn => "WARN"
  | info => "INFO"
  | debug => "DEBUG"
  | trace => "TRACE"

/-- Whether a reader who listens up to `limit` hears the level. -/
def within (l limit : Level) : Bool := decide (l.rank ≤ limit.rank)

end Level

/-- The things that are noted. -/
inductive Notice where
  /-- A label is bound a second time. -/
  | redefined (position : Position) (name : String) (previous : UInt32)
  /-- The address of an `.org` is cut to 12 bits. -/
  | originCut (position : Position) (address : UInt32)
  /-- An `.org` goes back. -/
  | originBack (position : Position) (before after : UInt32)
  /-- An operand is cut to the bits of its field. -/
  | operandCut (position : Position) (value : UInt32) (bits : Nat)
  /-- A statement was read. -/
  | parsed (statement : Statement)
  /-- So many tokens were read. -/
  | tokens (source : String) (count : Nat)
  /-- So many statements were read. -/
  | statements (source : String) (count : Nat)
  /-- So many labels are bound, and the address behind the program. -/
  | labels (source : String) (count : Nat) (cursor : UInt32)
  /-- So many bytes were made. -/
  | bytes (source : String) (count : Nat)
deriving DecidableEq

namespace Notice

/-- The level of a notice. -/
def level : Notice → Level
  | redefined .. | originCut .. | originBack .. | operandCut .. => .warn
  | tokens .. | statements .. | labels .. | bytes .. => .debug
  | parsed _ => .trace

/-- The part of the assembler that speaks. -/
def channel : Notice → String
  | redefined .. | originCut .. | originBack .. => "chip8asm::assembler::pass"
  | operandCut .. => "chip8asm::assembler::isa"
  | parsed _ => "chip8asm::assembler::parser"
  | tokens .. => "chip8asm::assembler::lexer"
  | statements .. | labels .. | bytes .. => "chip8asm::assembler"

/-- The wording of a notice. -/
def message : Notice → String
  | redefined position name previous =>
    position.render ++ ": label `" ++ name ++ "` redefined, was 0x" ++ hex 3 previous.toNat
  | originCut position address =>
    position.render ++ ": `.org` address 0x" ++ hex 1 address.toNat ++
      " does not fit in 12 bits and will be truncated"
  | originBack position before after =>
    position.render ++ ": `.org` moves backwards from 0x" ++ hex 3 before.toNat ++ " to 0x" ++
      hex 3 after.toNat
  | operandCut position value bits =>
    position.render ++ ": value " ++ decimal value.toNat ++ " does not fit in " ++ decimal bits ++
      " bits and will be truncated"
  | parsed statement => "parsed `" ++ statement.render ++ "`"
  | tokens source count => source ++ ": " ++ decimal count ++ " token(s)"
  | statements source count => source ++ ": " ++ decimal count ++ " statement(s)"
  | labels source count cursor =>
    source ++ ": " ++ decimal count ++ " label(s), final address 0x" ++ hex 3 cursor.toNat
  | bytes source count => source ++ ": " ++ decimal count ++ " byte(s) generated"

/-- The notices that a reader hears who listens up to `limit`. -/
def heard (limit : Level) (ns : List Notice) : List Notice :=
  ns.filter fun n => n.level.within limit

theorem heard_append (limit : Level) (ms ns : List Notice) :
    heard limit (ms ++ ns) = heard limit ms ++ heard limit ns := List.filter_append ..

theorem mem_heard_iff {limit : Level} {ns : List Notice} {n : Notice} :
    n ∈ heard limit ns ↔ n ∈ ns ∧ n.level.rank ≤ limit.rank := by
  simp [heard, Level.within]

end Notice
end Chip8
