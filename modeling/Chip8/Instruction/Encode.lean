/-
# Encoding instructions

An instruction is encoded by finding its form and laying its operands into the
fixed bits of the opcode. Which operands are read and where they go is told by
the kinds: the cases of `Instruction.lay` are asked in their order, and the later
ones take what the earlier ones have left. An operand is read as its number, or
0 if it carries none; a name cannot be read. A number that is wider than its kind
allows is cut, with a notice.

Key definitions: `Operand.Kind.bits?`, `Operand.load`, `Instruction.lay`, `Instruction.encode`.
Key theorems: `load_eq_error_iff`, `encode_of_find?`, `encode_of_find?_eq_none`.
-/
import Chip8.Outcome
import Chip8.Instruction.Field
import Chip8.Instruction.Form

namespace Chip8

/-- The bits that an operand of some kind may have; any if it is not stored. -/
def Operand.Kind.bits? : Operand.Kind → Option Nat
  | .register => some 4
  | .nibble => some 4
  | .byte => some 8
  | .address => some 12
  | _ => none

namespace Operand

/-- The notice that a number has more bits than the operand's kind allows. -/
def cutNotice? (o : Operand) (v : UInt32) : Option Notice :=
  match o.kind.bits? with
  | some bits => if 1 <<< bits ≤ v.toNat then some (.operandCut o.position v bits) else none
  | none => none

/-- Reads an operand as a number. -/
def load (o : Operand) : Outcome UInt32 :=
  match o.value with
  | .name x => .fail ⟨o.position, .unresolvedName x⟩
  | .number v => ⟨(o.cutNotice? v).toList, .ok v⟩
  | .absent => pure 0

/-- Reads the operand with an index as a number. No case of `Instruction.lay` asks for an operand
that is not there. -/
def loadAt (operands : List Operand) (i : Nat) : Outcome UInt32 :=
  match operands[i]? with
  | some o => o.load
  | none => pure 0

/-- Only a name cannot be read. -/
theorem load_eq_error_iff {o : Operand} {f : Fault} :
    o.load.result = .error f ↔ ∃ x, o.value = .name x ∧ f = ⟨o.position, .unresolvedName x⟩ := by
  cases hv : o.value <;> simp [load, hv, eq_comm]

end Operand

namespace Instruction

/-- Lays operands into the fixed bits of an opcode, as their kinds ask for. -/
def lay (base : UInt16) (operands : List Operand) : Outcome UInt16 :=
  let v := Operand.loadAt operands
  match operands.map Operand.kind with
  | [] => pure base
  | [.register, .register] => do return Field.packXY base (← v 0) (← v 1)
  | [.register, .byte] => do return Field.packXKK base (← v 0) (← v 1)
  | [.register, .register, .nibble] => do return Field.packXYN base (← v 0) (← v 1) (← v 2)
  | [.address] => do return Field.nnn.pack base (← v 0)
  -- The machine always adds register 0; the one that is written is not read.
  | [.register, .address] => do return Field.nnn.pack base (← v 1)
  | .register :: _ => do return Field.x.pack base (← v 0)
  | [_, .register] => do return Field.x.pack base (← v 1)
  | [_, .address] => do return Field.nnn.pack base (← v 1)
  | _ => pure base

/-- The opcode of an instruction that stands at `position`. -/
def encode (mnemonic : String) (operands : List Operand) (position : Position) :
    Outcome UInt16 :=
  match Form.find? mnemonic (operands.map Operand.kind) with
  | some form => lay form.base operands
  | none => .fail ⟨position, .unknownForm mnemonic (operands.map Operand.kind)⟩

theorem encode_of_find? {mnemonic : String} {operands : List Operand} {form : Form}
    (h : Form.find? mnemonic (operands.map Operand.kind) = some form) (position : Position) :
    encode mnemonic operands position = lay form.base operands := by
  simp [encode, h]

theorem encode_of_find?_eq_none {mnemonic : String} {operands : List Operand}
    (h : Form.find? mnemonic (operands.map Operand.kind) = none) (position : Position) :
    encode mnemonic operands position =
      .fail ⟨position, .unknownForm mnemonic (operands.map Operand.kind)⟩ := by
  simp [encode, h]

end Instruction
end Chip8
