/-
# Fields of an opcode

An opcode is a word of 16 bits. The operands of an instruction are laid into
five fields of it:

    x    bits 8-11     a register
    y    bits 4-7      a register
    n    bits 0-3      a nibble
    kk   bits 0-7      a byte
    nnn  bits 0-11     an address

A value is cut to the width of its field and joined with the bits that are
there (`testBit_pack`). It can be read back from a field that was empty
(`get_pack`), and the other bits stay.

Key definitions: `Field`, `Field.size`, `Field.pack`, `Field.packXY`, `Field.packXKK`,
`Field.packXYN`, `Field.packAll`, `Field.get`.
Key theorems: `size_eq`, `testBit_pack`, `get_pack`.
-/

namespace Chip8

/-- The fields of an opcode. -/
inductive Field where
  | x
  | y
  | n
  | kk
  | nnn
deriving DecidableEq

namespace Field

/-- The lowest bit of a field. -/
def shift : Field → Nat
  | x => 8
  | y => 4
  | n => 0
  | kk => 0
  | nnn => 0

/-- The number of bits of a field. -/
def width : Field → Nat
  | x => 4
  | y => 4
  | n => 4
  | kk => 8
  | nnn => 12

/-- The number of values that fit into a field. -/
def size : Field → Nat
  | x => 0x10
  | y => 0x10
  | n => 0x10
  | kk => 0x100
  | nnn => 0x1000

/-- Joins a value, cut to the field, with the bits of an opcode. -/
def pack (f : Field) (opcode : UInt16) (v : UInt32) : UInt16 :=
  opcode ||| UInt16.ofNat ((v.toNat % f.size) <<< f.shift)

/-- Joins two registers with the bits of an opcode. -/
def packXY (opcode : UInt16) (first second : UInt32) : UInt16 := y.pack (x.pack opcode first) second

/-- Joins a register and a byte with the bits of an opcode. -/
def packXKK (opcode : UInt16) (register byte : UInt32) : UInt16 :=
  kk.pack (x.pack opcode register) byte

/-- Joins two registers and a nibble with the bits of an opcode. -/
def packXYN (opcode : UInt16) (first second nibble : UInt32) : UInt16 :=
  n.pack (packXY opcode first second) nibble

/-- Joins values with the bits of an opcode, one after another. -/
def packAll (opcode : UInt16) (vs : List (Field × UInt32)) : UInt16 :=
  vs.foldl (fun op (f, v) => f.pack op v) opcode

/-- The number a field holds. -/
def get (f : Field) (opcode : UInt16) : Nat := (opcode.toNat >>> f.shift) % f.size

/-- The values that fit into a field are those of its bits. -/
theorem size_eq (f : Field) : f.size = 1 <<< f.width := by cases f <;> rfl

theorem size_pos (f : Field) : 0 < f.size := by cases f <;> decide

theorem testBit_mod_size (f : Field) (v i : Nat) :
    (v % f.size).testBit i = (decide (i < f.width) && v.testBit i) := by
  rw [size_eq, Nat.one_shiftLeft, Nat.testBit_mod_two_pow]

/-- A value that is cut and shifted into its field is a word of 16 bits. -/
theorem shiftLeft_lt_size (f : Field) (v : Nat) : (v % f.size) <<< f.shift < UInt16.size := by
  have hv := Nat.mod_lt v f.size_pos
  rw [Nat.shiftLeft_eq]
  cases f <;> simp only [size, shift, UInt16.size] at hv ⊢ <;> omega

theorem toNat_pack (f : Field) (opcode : UInt16) (v : UInt32) :
    (f.pack opcode v).toNat = opcode.toNat ||| (v.toNat % f.size) <<< f.shift := by
  rw [pack, UInt16.toNat_or, UInt16.toNat_ofNat', Nat.mod_eq_of_lt (f.shiftLeft_lt_size v.toNat)]

/-- A bit of a packed opcode was there before or comes from the value. -/
theorem testBit_pack (f : Field) (opcode : UInt16) (v : UInt32) (i : Nat) :
    (f.pack opcode v).toNat.testBit i =
      (opcode.toNat.testBit i ||
        (decide (f.shift ≤ i) && decide (i - f.shift < f.width) &&
          v.toNat.testBit (i - f.shift))) := by
  rw [toNat_pack, Nat.testBit_or, Nat.testBit_shiftLeft, testBit_mod_size]
  simp [Bool.and_assoc]

/-- A field that was empty holds the value, cut to its width. -/
theorem get_pack {f : Field} {opcode : UInt16} (h : f.get opcode = 0) (v : UInt32) :
    f.get (f.pack opcode v) = v.toNat % f.size := by
  have bits : ∀ i, i < f.width → opcode.toNat.testBit (f.shift + i) = false := by
    intro i hi
    have := congrArg (Nat.testBit · i) h
    simpa [get, testBit_mod_size, hi, Nat.testBit_shiftRight] using this
  apply Nat.eq_of_testBit_eq
  intro i
  rw [get, testBit_mod_size, Nat.testBit_shiftRight, testBit_pack, testBit_mod_size]
  by_cases hi : i < f.width
  · simp [hi, bits i hi]
  · simp [hi]

end Field
end Chip8
