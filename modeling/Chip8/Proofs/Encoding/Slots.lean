/-
# Where operands go

What the kinds of operands ask for when they are laid into an opcode can be said as
data: each operand has a slot (`Slot.select`), with the field it goes to or with none,
and laying operands is filling their slots from left to right (`Slot.lay_select`). This
holds of operands of any kinds, in the table or not, and for the cases as they follow
one another: a case that takes what the ones before it have left selects slots for just
that. For a form of the table the slots are those of its kinds (`Form.slots`), and an
instruction is encoded by filling them (`Instruction.encode_eq_lay_slots`).

Key definitions: `Slot`, `Slot.lay`, `Slot.select`, `Form.slots`.
Key theorems: `Slot.lay_select`, `Instruction.encode_eq_lay_slots`, `Slot.map_kind_select`.
-/
import Chip8.Instruction.Encode

namespace Chip8

/-- The slot of an operand: its kind, and the field it goes to. -/
structure Slot where
  kind : Operand.Kind
  field : Option Field
deriving DecidableEq

theorem Operand.eq_pair_of_kinds {k k' : Operand.Kind} {os : List Operand}
    (h : [k, k'] = os.map Operand.kind) : ∃ o o', os = [o, o'] ∧ o.kind = k ∧ o'.kind = k' := by
  obtain ⟨o, os', rfl, ho, hos⟩ := List.map_eq_cons_iff.mp h.symm
  obtain ⟨o', rfl, ho'⟩ := List.map_eq_singleton_iff.mp hos
  exact ⟨o, o', rfl, ho, ho'⟩

namespace Slot

/-- A register in field x. -/
def x : Slot := ⟨.register, some .x⟩

/-- A register in field y. -/
def y : Slot := ⟨.register, some .y⟩

/-- A byte in field kk. -/
def byte : Slot := ⟨.byte, some .kk⟩

/-- A nibble in field n. -/
def nibble : Slot := ⟨.nibble, some .n⟩

/-- An address in field nnn. -/
def address : Slot := ⟨.address, some .nnn⟩

/-- An operand that is not stored. -/
def unstored (kind : Operand.Kind) : Slot := ⟨kind, none⟩

/-- Lays operands into the fields that their slots name, left to right. -/
def lay : List Slot → List Operand → UInt16 → Outcome UInt16
  | ⟨_, some field⟩ :: slots, o :: os, opcode => do
    let v ← o.load
    lay slots os (field.pack opcode v)
  | ⟨_, none⟩ :: slots, _ :: os, opcode => lay slots os opcode
  | _, _, opcode => pure opcode

/-- The slots that operands of some kinds ask for. -/
def select : List Operand.Kind → List Slot
  | [] => []
  | [.register, .register] => [x, y]
  | [.register, .byte] => [x, byte]
  | [.register, .register, .nibble] => [x, y, nibble]
  | [.address] => [address]
  | [.register, .address] => [unstored .register, address]
  | .register :: kinds => x :: kinds.map unstored
  | [kind, .register] => [unstored kind, x]
  | [kind, .address] => [unstored kind, address]
  | kinds => kinds.map unstored

theorem map_kind_unstored (kinds : List Operand.Kind) : (kinds.map unstored).map kind = kinds := by
  rw [List.map_map]
  exact List.map_id kinds

/-- Every operand has a slot of its kind. -/
theorem map_kind_select (kinds : List Operand.Kind) : (select kinds).map kind = kinds := by
  fun_cases select kinds with
  | case7 kinds => exact congrArg (Operand.Kind.register :: ·) (map_kind_unstored kinds)
  | case10 => exact map_kind_unstored kinds
  | _ => rfl

/-- Operands without a field leave the opcode as it is. -/
theorem lay_unstored (os : List Operand) (opcode : UInt16) :
    lay ((os.map Operand.kind).map unstored) os opcode = pure opcode := by
  induction os with
  | nil => rfl
  | cons o os ih => exact ih

/-- **Laying operands is filling their slots.** -/
theorem lay_select (base : UInt16) (os : List Operand) :
    Instruction.lay base os = lay (select (os.map Operand.kind)) os base := by
  have hunstored := lay_unstored os base
  unfold Instruction.lay
  generalize hkinds : os.map Operand.kind = kinds at hunstored ⊢
  -- In each case the kinds give the operands, as far as the case names them.
  split
  case h_1 =>
    obtain rfl := List.map_eq_nil_iff.mp hkinds
    rfl
  case h_2 =>
    obtain ⟨r, s, rfl, -⟩ := Operand.eq_pair_of_kinds hkinds.symm
    rfl
  case h_3 =>
    obtain ⟨r, b, rfl, -⟩ := Operand.eq_pair_of_kinds hkinds.symm
    rfl
  case h_4 =>
    obtain ⟨r, os, rfl, -, hkinds⟩ := List.map_eq_cons_iff.mp hkinds
    obtain ⟨s, n, rfl, -⟩ := Operand.eq_pair_of_kinds hkinds.symm
    rfl
  case h_5 =>
    obtain ⟨a, rfl, -⟩ := List.map_eq_singleton_iff.mp hkinds
    rfl
  case h_6 =>
    obtain ⟨r, a, rfl, -⟩ := Operand.eq_pair_of_kinds hkinds.symm
    rfl
  case h_7 =>
    obtain ⟨r, os, rfl, -, rfl⟩ := List.map_eq_cons_iff.mp hkinds
    rw [select]
    · simp only [x, lay, lay_unstored]
      rfl
    all_goals assumption
  case h_8 =>
    obtain ⟨o, r, rfl, -⟩ := Operand.eq_pair_of_kinds hkinds.symm
    rw [select]
    · rfl
    · assumption
  case h_9 =>
    obtain ⟨o, a, rfl, -⟩ := Operand.eq_pair_of_kinds hkinds.symm
    rw [select]
    · rfl
    · assumption
  case h_10 =>
    rw [select]
    · exact hunstored.symm
    all_goals assumption

end Slot

namespace Form

/-- The slots of the operands of a form. -/
def slots (f : Form) : List Slot := Slot.select f.kinds

theorem map_kind_slots (f : Form) : f.slots.map Slot.kind = f.kinds := Slot.map_kind_select f.kinds

end Form

/-- An instruction that has a form is encoded by filling the slots of the form. -/
theorem Instruction.encode_eq_lay_slots {mnemonic : String} {os : List Operand} {form : Form}
    (h : Form.find? mnemonic (os.map Operand.kind) = some form) (position : Position) :
    encode mnemonic os position = Slot.lay form.slots os form.base := by
  rw [encode_of_find? h, Slot.lay_select, Form.slots, (Form.find?_eq_some_iff.mp h).2.2]

end Chip8
