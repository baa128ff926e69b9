/-
# The instruction table

An instruction has a form: a mnemonic and the kinds of its operands. The table
gives the fixed bits of the opcode of each form; where the operands are laid
into it is told by their kinds alone (`Instruction.lay`).

A mnemonic and kinds name at most one form (`find?_eq_some_iff`).

Key definitions: `Form`, `Form.table`, `Form.find?`.
Key theorems: `find?_eq_some_iff`, `nodup_keys`.
-/
import Chip8.Program.Operand

namespace Chip8

/-- A form of instruction and the fixed bits of its opcode. -/
structure Form where
  mnemonic : String
  kinds : List Operand.Kind
  base : UInt16
deriving DecidableEq

namespace Form

/-- All forms. -/
def table : List Form :=
  [⟨"cls", [], 0x00E0⟩,
   ⟨"ret", [], 0x00EE⟩,
   ⟨"jp", [.address], 0x1000⟩,
   ⟨"call", [.address], 0x2000⟩,
   ⟨"se", [.register, .byte], 0x3000⟩,
   ⟨"sne", [.register, .byte], 0x4000⟩,
   ⟨"se", [.register, .register], 0x5000⟩,
   ⟨"ld", [.register, .byte], 0x6000⟩,
   ⟨"add", [.register, .byte], 0x7000⟩,
   ⟨"ld", [.register, .register], 0x8000⟩,
   ⟨"or", [.register, .register], 0x8001⟩,
   ⟨"and", [.register, .register], 0x8002⟩,
   ⟨"xor", [.register, .register], 0x8003⟩,
   ⟨"add", [.register, .register], 0x8004⟩,
   ⟨"sub", [.register, .register], 0x8005⟩,
   ⟨"shr", [.register, .register], 0x8006⟩,
   ⟨"subn", [.register, .register], 0x8007⟩,
   ⟨"shl", [.register, .register], 0x800E⟩,
   ⟨"shr", [.register], 0x8006⟩,
   ⟨"shl", [.register], 0x800E⟩,
   ⟨"sne", [.register, .register], 0x9000⟩,
   ⟨"ld", [.index, .address], 0xA000⟩,
   ⟨"jp", [.register, .address], 0xB000⟩,
   ⟨"rnd", [.register, .byte], 0xC000⟩,
   ⟨"drw", [.register, .register, .nibble], 0xD000⟩,
   ⟨"skp", [.register], 0xE09E⟩,
   ⟨"sknp", [.register], 0xE0A1⟩,
   ⟨"ld", [.register, .delayTimer], 0xF007⟩,
   ⟨"ld", [.register, .key], 0xF00A⟩,
   ⟨"ld", [.delayTimer, .register], 0xF015⟩,
   ⟨"ld", [.soundTimer, .register], 0xF018⟩,
   ⟨"add", [.index, .register], 0xF01E⟩,
   ⟨"ld", [.flags, .register], 0xF029⟩,
   ⟨"ld", [.bcd, .register], 0xF033⟩,
   ⟨"ld", [.indexAddress, .register], 0xF055⟩,
   ⟨"ld", [.register, .indexAddress], 0xF065⟩]

/-- The form with a mnemonic and kinds of operands. -/
def find? (mnemonic : String) (kinds : List Operand.Kind) : Option Form :=
  table.find? fun f => f.mnemonic == mnemonic && f.kinds == kinds

/-- No two forms have mnemonic and kinds in common. -/
theorem nodup_keys : (table.map fun f => (f.mnemonic, f.kinds)).Nodup := by decide

/-- Every mnemonic of the table is a mnemonic of the language. -/
theorem mem_mnemonics_of_mem_table : ∀ f ∈ table, f.mnemonic ∈ Token.mnemonics := by decide

theorem eq_of_mem_table {f g : Form} (hf : f ∈ table) (hg : g ∈ table)
    (hm : f.mnemonic = g.mnemonic) (hk : f.kinds = g.kinds) : f = g := by
  have all : ∀ f ∈ table, ∀ g ∈ table, f.mnemonic = g.mnemonic → f.kinds = g.kinds → f = g := by
    decide
  exact all f hf g hg hm hk

/-- The form that is found is the one in the table. -/
theorem find?_eq_some_iff {mnemonic : String} {kinds : List Operand.Kind} {f : Form} :
    find? mnemonic kinds = some f ↔ f ∈ table ∧ f.mnemonic = mnemonic ∧ f.kinds = kinds := by
  constructor
  · intro h
    have hp := List.find?_some h
    simp only [Bool.and_eq_true, beq_iff_eq] at hp
    exact ⟨List.mem_of_find?_eq_some h, hp⟩
  · rintro ⟨hf, rfl, rfl⟩
    cases h : find? f.mnemonic f.kinds with
    | none =>
      rw [find?, List.find?_eq_none] at h
      exact absurd (by simp) (h f hf)
    | some g =>
      have hp := List.find?_some h
      simp only [Bool.and_eq_true, beq_iff_eq] at hp
      rw [eq_of_mem_table (List.mem_of_find?_eq_some h) hf hp.1 hp.2]

/-- There is no form iff the table has none. -/
theorem find?_eq_none_iff {mnemonic : String} {kinds : List Operand.Kind} :
    find? mnemonic kinds = none ↔ ∀ f ∈ table, f.mnemonic = mnemonic → f.kinds ≠ kinds := by
  rw [find?, List.find?_eq_none]
  simp

end Form
end Chip8
