/-
# Making bytes

The third pass makes the bytes of each statement: none for a label or an
`.org`, two for an instruction, the high byte first, and one for each operand
of a `.db`, which have to be bytes.

Key definitions: `Operand.byte`, `Statement.emit`, `Program.emit`.
Key theorems: `Instruction.bytes_injective`.
-/
import Chip8.Assembly.Place
import Chip8.Instruction.Encode

namespace Chip8

/-- The byte that an operand of `.db` puts down. -/
def Operand.byte (o : Operand) : Outcome UInt8 :=
  if o.kind = .byte then do
    let v ← o.load
    pure v.toUInt8
  else .fail ⟨o.position, .dataKind⟩

/-- The two bytes of an opcode, the high one first. -/
def Instruction.bytes (opcode : UInt16) : List UInt8 := [(opcode >>> 8).toUInt8, opcode.toUInt8]

/-- The bytes of a statement. -/
def Statement.emit : Statement → Outcome (List UInt8)
  | .label _ _ => pure []
  | .instruction mnemonic operands position => do
    let opcode ← Instruction.encode mnemonic operands position
    pure (Instruction.bytes opcode)
  | .directive name operands position =>
    match Directive.ofName? name with
    | some .org => pure []
    | some .db => operands.mapM Operand.byte
    | none => .fail ⟨position, .unknownDirective name⟩

/-- The bytes of each statement of a program. -/
def Program.emit (ss : List Statement) : Outcome (List (List UInt8)) := ss.mapM Statement.emit

/-- An opcode is the two bytes it is put down as. -/
theorem Instruction.bytes_injective {a b : UInt16}
    (h : Instruction.bytes a = Instruction.bytes b) : a = b := by
  simp only [Instruction.bytes, List.cons.injEq, and_true] at h
  obtain ⟨hhigh, hlow⟩ := h
  have h1 := congrArg UInt8.toNat hhigh
  have h2 := congrArg UInt8.toNat hlow
  simp only [UInt16.toNat_toUInt8, UInt16.toNat_shiftRight] at h1 h2
  have ha := a.toNat_lt
  have hb := b.toNat_lt
  apply UInt16.toNat_inj.mp
  simp [Nat.shiftRight_eq_div_pow] at h1
  omega

end Chip8
