/-
# Operands

An operand has a kind, which says the role it plays, and a value: a number, a
name that stands for an address, or nothing. The kind is seen from the way the
operand is written:

    @n      the register with number n
    [n] &n  the address n
    !n      the nibble n
    [I]     the memory at the index register
    I F B DT ST K   a special register
    n       the byte n

Key definitions: `Operand.Kind`, `Value`, `Operand`, `Operand.render`, `Kind.ofKeyword?`.
Key theorems: `isSome_ofKeyword?_iff`.
-/
import Chip8.Token.Basic

namespace Chip8

/-- The roles an operand can play. -/
inductive Operand.Kind where
  | index
  | delayTimer
  | soundTimer
  | bcd
  | key
  | flags
  | register
  | address
  | byte
  | nibble
  | indexAddress
deriving DecidableEq

/-- What an operand carries: a name still to be looked up, a number, or nothing. -/
inductive Value where
  | name (label : String)
  | number (n : UInt32)
  | absent
deriving DecidableEq

/-- An operand and where it starts. -/
structure Operand where
  kind : Operand.Kind
  value : Value
  position : Position
deriving DecidableEq

namespace Operand.Kind

/-- All kinds. -/
def all : List Kind :=
  [.index, .delayTimer, .soundTimer, .bcd, .key, .flags, .register, .address, .byte, .nibble,
   .indexAddress]

/-- The name of a kind in messages. -/
def name : Kind → String
  | index => "Index"
  | delayTimer => "DelayTimer"
  | soundTimer => "SoundTimer"
  | bcd => "Bcd"
  | key => "Key"
  | flags => "Flags"
  | register => "Register"
  | address => "Address"
  | byte => "Byte"
  | nibble => "Nibble"
  | indexAddress => "IndexAddress"

/-- The kind with a name. -/
def ofName? (name : String) : Option Kind := all.find? (fun k => k.name == name)

/-- The kind of the special register that a word names. -/
def ofKeyword? : String → Option Kind
  | "K" => some key
  | "DT" => some delayTimer
  | "ST" => some soundTimer
  | "I" => some index
  | "B" => some bcd
  | "F" => some flags
  | _ => none

theorem mem_all (k : Kind) : k ∈ all := by cases k <;> decide

theorem ofName?_name (k : Kind) : ofName? k.name = some k := by cases k <;> decide

/-- The words that name a special register are the keywords. -/
theorem isSome_ofKeyword?_iff {word : String} :
    (ofKeyword? word).isSome = true ↔ word ∈ Token.keywords := by
  unfold ofKeyword?
  split <;> simp_all [Token.keywords]

end Operand.Kind

/-- The written form of a value. -/
def Value.render : Value → String
  | name label => label
  | number n => decimal n.toNat
  | absent => ""

/-- The written form of an operand; an address that is a number has at least
three hexadecimal digits. -/
def Operand.render (o : Operand) : String :=
  match o.kind with
  | .index => "I"
  | .delayTimer => "DT"
  | .soundTimer => "ST"
  | .bcd => "B"
  | .key => "K"
  | .flags => "F"
  | .indexAddress => "[I]"
  | .register => "@" ++ o.value.render
  | .nibble => "!" ++ o.value.render
  | .byte => o.value.render
  | .address =>
    match o.value with
    | .number n => "[#" ++ hex 3 n.toNat ++ "]"
    | v => "[" ++ v.render ++ "]"

/-- A special register is written as the word that names it. -/
theorem Operand.render_of_ofKeyword? {o : Operand} {word : String}
    (h : Kind.ofKeyword? word = some o.kind) : o.render = word := by
  obtain ⟨kind, value, position⟩ := o
  unfold Kind.ofKeyword? at h
  split at h
  all_goals simp only [Option.some.injEq, reduceCtorEq] at h
  all_goals subst h; rfl

end Chip8
