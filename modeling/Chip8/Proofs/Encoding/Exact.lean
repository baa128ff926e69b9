/-
# An opcode bit by bit

Where an operand is laid into the opcode can be said without telling cases apart
(`Instruction.packed`). The first register goes to field x and another one to y, a nibble
goes to n, a byte to kk and an address to nnn, and the other kinds tell forms apart and are
not laid down. The jump to an address and a register is the exception: its register is not
read at all. For the forms of the table the cases of laying keep this rule
(`Form.placed_slots`), and the templates leave the fields free. So an opcode holds its
operands, each cut to its field, and has the bits of its template elsewhere
(`Form.get_opcode`, `Form.testBit_opcode`).

An instruction has an opcode iff it has a form and no operand that is laid down is a name;
otherwise the form is missing, or the first such operand is at fault. Operands that are not
laid down may be names.

Key definitions: `Operand.Unresolved`, `Instruction.packedFrom`, `Instruction.packed`,
`Instruction.HasForm`.
Key theorems: `Slot.result_lay_eq_error_iff`, `Form.placed_slots`, `Form.get_opcode`,
`Form.testBit_opcode`, `opcode_is_template_and_operands`.
-/
import Chip8.Proofs.Encoding.Forms

namespace Chip8

/-- The operand is a name, which has no number to lay down, and `f` says so. -/
def Operand.Unresolved (o : Operand) (f : Fault) : Prop :=
  ∃ x, o.value = .name x ∧ f = ⟨o.position, .unresolvedName x⟩

theorem Operand.literal_iff {o : Operand} : o.Literal ↔ ∀ f, ¬o.Unresolved f := by
  constructor
  · rintro h f ⟨x, hx, -⟩
    exact h x hx
  · intro h x hx
    exact h ⟨o.position, .unresolvedName x⟩ ⟨x, hx, rfl⟩

namespace Instruction

/-- The operands that are laid into an opcode, from left to right and each with its field: of the
registers the first goes to `next` and others to y, a nibble to n, a byte to kk, and an address to
nnn. -/
def packedFrom (next : Field) : List Operand → List (Field × Operand)
  | [] => []
  | o :: os =>
    match o.kind with
    | .register => (next, o) :: packedFrom .y os
    | .nibble => (.n, o) :: packedFrom next os
    | .byte => (.kk, o) :: packedFrom next os
    | .address => (.nnn, o) :: packedFrom next os
    | _ => packedFrom next os

/-- The operands that are laid into the opcode of an instruction, each with its field: all
registers, nibbles, bytes and addresses but the register of `jp @r, [a]`. -/
def packed (mnemonic : String) (os : List Operand) : List (Field × Operand) :=
  packedFrom .x <|
    if mnemonic = "jp" ∧ os.map Operand.kind = [.register, .address] then os.tail else os

/-- The table has a form with the mnemonic and the kinds of the operands. -/
def HasForm (mnemonic : String) (os : List Operand) : Prop :=
  ∃ form ∈ Form.table, form.mnemonic = mnemonic ∧ form.kinds = os.map Operand.kind

end Instruction

namespace Instruction

variable {g : Operand → Operand} (hg : ∀ o, (g o).kind = o.kind)

include hg

/-- Where operands are laid depends on their kinds only. -/
theorem packedFrom_map : ∀ (next : Field) (os : List Operand),
    packedFrom next (os.map g) = (packedFrom next os).map fun q => (q.1, g q.2)
  | _, [] => rfl
  | next, o :: os => by
    have ih := fun field => packedFrom_map field os
    rw [List.map_cons, packedFrom, packedFrom, hg]
    split <;> simp [ih]

theorem packed_map (m : String) (os : List Operand) :
    packed m (os.map g) = (packed m os).map fun q => (q.1, g q.2) := by
  have hkinds : (os.map g).map Operand.kind = os.map Operand.kind := by
    rw [List.map_map]
    exact List.map_congr_left fun o _ => hg o
  rw [packed, packed, hkinds, ← packedFrom_map hg]
  split
  · rw [List.map_tail]
  · rfl

end Instruction

/-! ### Laying operands down -/

namespace Slot

/-- The first operand with a field that is a name is at fault. -/
theorem result_lay_eq_error_iff : ∀ {slots : List Slot} {os : List Operand} {op : UInt16}
    {f : Fault}, (lay slots os op).result = .error f ↔
      First Operand.Unresolved ((placed slots os).map Prod.snd) f
  | [], os, op, f => by simp [lay, placed, not_first_nil]
  | slot :: slots, [], op, f => by simp [lay, placed, not_first_nil]
  | ⟨kind, none⟩ :: slots, o :: os, op, f => by
    rw [lay, placed]
    exact result_lay_eq_error_iff
  | ⟨kind, some field⟩ :: slots, o :: os, op, f => by
    rw [lay, placed, List.map_cons, first_cons_iff, Outcome.result_bind]
    by_cases hl : o.Literal
    · have hno := Operand.literal_iff.mp hl
      rw [Operand.result_load hl]
      simp only [Except.bind, hno, not_false_eq_true, implies_true, true_and, false_or]
      exact result_lay_eq_error_iff
    · have hload : ∀ g, o.load.result = .error g ↔ o.Unresolved g := fun g =>
        Operand.load_eq_error_iff
      obtain ⟨g, hg⟩ : ∃ g, o.Unresolved g := by
        simpa only [Operand.literal_iff, not_forall, not_not] using hl
      have hnot : ¬∀ d, ¬o.Unresolved d := fun h => h g hg
      rw [← hload, (hload g).mpr hg]
      simp [Except.bind, hnot]

/-- The slots of operands of some kinds, by the rule of `Instruction.packedFrom`. -/
def ofKinds (next : Field) : List Operand.Kind → List Slot
  | [] => []
  | .register :: kinds => ⟨.register, some next⟩ :: ofKinds .y kinds
  | .nibble :: kinds => nibble :: ofKinds next kinds
  | .byte :: kinds => byte :: ofKinds next kinds
  | .address :: kinds => address :: ofKinds next kinds
  | kind :: kinds => unstored kind :: ofKinds next kinds

theorem placed_ofKinds : ∀ (next : Field) (os : List Operand),
    placed (ofKinds next (os.map Operand.kind)) os = Instruction.packedFrom next os
  | _, [] => rfl
  | next, ⟨kind, value, p⟩ :: os => by
    have ih := fun field => placed_ofKinds field os
    cases kind <;>
      simp [ofKinds, placed, Instruction.packedFrom, nibble, byte, address, unstored, ih]

end Slot

/-! ### Forms of the table -/

namespace Form

/-- For the forms of the table, what the cases select is the rule, the jump to an address and a
register apart. -/
theorem slots_eq_ofKinds_or_offsetJump : ∀ f ∈ table,
    f.slots = Slot.ofKinds .x f.kinds ∨ f = offsetJump := by decide

variable {form : Form} {os : List Operand} (hmem : form ∈ table)
  (hkinds : form.kinds = os.map Operand.kind)

include hmem hkinds

/-- The table lays operands down by the rule for their kinds. -/
theorem placed_slots : Slot.placed form.slots os = Instruction.packed form.mnemonic os := by
  rw [Instruction.packed]
  by_cases hjump : form.mnemonic = "jp" ∧ os.map Operand.kind = [.register, .address]
  · obtain ⟨hm, hk⟩ := hjump
    obtain rfl : form = offsetJump := eq_of_mem_table hmem (by decide) hm (hkinds.trans hk)
    obtain ⟨r, a, rfl, -, ha⟩ := Operand.eq_pair_of_kinds hkinds
    rw [if_pos ⟨hm, hk⟩, slots_offsetJump]
    simp [Slot.unstored, Slot.address, Slot.placed, Instruction.packedFrom, ha]
  · rw [if_neg hjump]
    rcases slots_eq_ofKinds_or_offsetJump form hmem with hslots | rfl
    · rw [hslots, hkinds, Slot.placed_ofKinds]
    · exact absurd ⟨rfl, hkinds.symm⟩ hjump

theorem mem_of_mem_packed {q : Field × Operand} (hq : q ∈ Instruction.packed form.mnemonic os) :
    q.2 ∈ os := by
  rw [← placed_slots hmem hkinds] at hq
  exact (Slot.placed_sublist form.slots os).subset (List.mem_map_of_mem hq)

theorem stored_eq_map_packed : Slot.stored form.slots os =
    (Instruction.packed form.mnemonic os).map fun q => (q.1, q.2.number) := by
  rw [Slot.stored_eq_map_placed, placed_slots hmem hkinds]

/-- The template of a form leaves the fields of its operands free. -/
theorem free_packed :
    Field.Free form.base ((Instruction.packed form.mnemonic os).map Prod.fst) := by
  have hstored := Slot.map_fst_stored (length_slots hkinds)
  rw [stored_eq_map_packed hmem hkinds, List.map_map] at hstored
  have hfree := free_fields form hmem
  rwa [fields, ← hstored] at hfree

/-- Each operand that is laid down can be read from its field, cut to its width. -/
theorem get_opcode : ∀ q ∈ Instruction.packed form.mnemonic os,
    q.1.get (form.opcode os) = q.2.number.toNat % q.1.size := by
  have hfree := free_packed hmem hkinds
  have hget := @Field.get_packAll form.base
    ((Instruction.packed form.mnemonic os).map fun q => (q.1, q.2.number))
    (by rwa [List.map_map])
  rw [List.forall_mem_map] at hget
  rwa [opcode, stored_eq_map_packed hmem hkinds]

/-- Bits outside of the fields of its operands are those of the template. -/
theorem testBit_opcode {i : Nat}
    (hi : ∀ q ∈ Instruction.packed form.mnemonic os, ¬q.1.Covers i) :
    (form.opcode os).toNat.testBit i = form.base.toNat.testBit i := by
  rw [opcode, stored_eq_map_packed hmem hkinds]
  exact Field.testBit_packAll (List.forall_mem_map.mpr hi)

end Form

/-! ### Instructions -/

namespace Instruction

variable {m : String} {os : List Operand} {p : Position} {f : Fault}

theorem find?_eq_none_iff_not_hasForm :
    Form.find? m (os.map Operand.kind) = none ↔ ¬HasForm m os := by
  rw [Form.find?_eq_none_iff]
  constructor
  · rintro h ⟨form, hmem, hm, hk⟩
    exact h form hmem hm hk
  · intro h form hmem hm hk
    exact h ⟨form, hmem, hm, hk⟩

theorem encode_of_not_hasForm (h : ¬HasForm m os) :
    (encode m os p).result = .error ⟨p, .unknownForm m (os.map Operand.kind)⟩ := by
  rw [encode_of_find?_eq_none (find?_eq_none_iff_not_hasForm.mpr h)]
  rfl

end Instruction

namespace Form

variable {form : Form} {os : List Operand} {p : Position} {f : Fault} (hmem : form ∈ table)
  (hkinds : form.kinds = os.map Operand.kind)

include hmem hkinds

theorem encode_eq_lay : Instruction.encode form.mnemonic os p = Slot.lay form.slots os form.base :=
  Instruction.encode_eq_lay_slots (find?_eq_some_iff.mpr ⟨hmem, rfl, hkinds⟩) p

/-- An instruction with a form has the opcode of the form, if no operand that is laid down is a
name. -/
theorem encode_of_literal (h : ∀ q ∈ Instruction.packed form.mnemonic os, q.2.Literal) :
    (Instruction.encode form.mnemonic os p).result = .ok (form.opcode os) := by
  rw [← placed_slots hmem hkinds] at h
  rw [encode_eq_lay hmem hkinds, Slot.result_lay_of_placed form.slots form.base h, opcode]

/-- Otherwise the first of them is at fault. -/
theorem encode_eq_error_iff : (Instruction.encode form.mnemonic os p).result = .error f ↔
    First Operand.Unresolved ((Instruction.packed form.mnemonic os).map Prod.snd) f := by
  rw [encode_eq_lay hmem hkinds, Slot.result_lay_eq_error_iff, placed_slots hmem hkinds]

theorem exists_encode_iff : (∃ op, (Instruction.encode form.mnemonic os p).result = .ok op) ↔
    ∀ q ∈ Instruction.packed form.mnemonic os, q.2.Literal := by
  constructor
  · rintro ⟨op, hop⟩ q hq
    refine Operand.literal_iff.mpr fun f hf => ?_
    -- A name among the operands gives a first one, and that would be at fault.
    have hmemq : q.2 ∈ (Instruction.packed form.mnemonic os).map Prod.snd := List.mem_map_of_mem hq
    obtain ⟨g, hg⟩ := exists_first_iff.mpr ⟨q.2, hmemq, f, hf⟩
    rw [(encode_eq_error_iff hmem hkinds).mpr hg] at hop
    cases hop
  · intro h
    exact ⟨_, encode_of_literal hmem hkinds h⟩

end Form

/-- **An opcode is its template and its operands.** An instruction has an opcode iff there is a form
for its mnemonic and kinds and none of the operands that are laid down is a name; otherwise the form
is missing, at the position of the instruction, or the first such operand is at fault. In the opcode
every operand that is laid down stands in its field, cut to its width and 0 if it carries no number,
and the bits outside of these fields are those of the form. -/
theorem opcode_is_template_and_operands (m : String) (os : List Operand) (p : Position) :
    ((∃ op, (Instruction.encode m os p).result = .ok op) ↔
      Instruction.HasForm m os ∧ ∀ q ∈ Instruction.packed m os, q.2.Literal) ∧
    (∀ f, (Instruction.encode m os p).result = .error f ↔
      ¬Instruction.HasForm m os ∧ f = ⟨p, .unknownForm m (os.map Operand.kind)⟩ ∨
        Instruction.HasForm m os ∧
          First Operand.Unresolved ((Instruction.packed m os).map Prod.snd) f) ∧
    ∀ op, (Instruction.encode m os p).result = .ok op →
      ∃ form ∈ Form.table, form.mnemonic = m ∧ form.kinds = os.map Operand.kind ∧
        (∀ q ∈ Instruction.packed m os, q.1.get op = q.2.number.toNat % q.1.size) ∧
        ∀ i, (∀ q ∈ Instruction.packed m os, ¬q.1.Covers i) →
          op.toNat.testBit i = form.base.toNat.testBit i := by
  by_cases hform : Instruction.HasForm m os
  · obtain ⟨form, hmem, rfl, hkinds⟩ := id hform
    have hok := Form.exists_encode_iff (p := p) hmem hkinds
    have herror := fun f => @Form.encode_eq_error_iff form os p f hmem hkinds
    refine ⟨by simp [hok, hform], fun f => by simp [herror, hform], fun op hop => ?_⟩
    have hliteral := hok.mp ⟨op, hop⟩
    rw [Form.encode_of_literal hmem hkinds hliteral] at hop
    obtain rfl := Except.ok.inj hop
    exact ⟨form, hmem, rfl, hkinds, Form.get_opcode hmem hkinds,
      fun i => Form.testBit_opcode hmem hkinds⟩
  · have herror := Instruction.encode_of_not_hasForm (p := p) hform
    refine ⟨?_, ?_, ?_⟩
    · simp [herror, hform]
    · intro f
      simp [herror, hform, eq_comm]
    · intro op hop
      rw [herror] at hop
      cases hop

/-- The register of a jump is not read, and the address is cut. -/
example : (Instruction.encode "jp" [⟨.register, .name "x", .start "t"⟩,
    ⟨.address, .number 0xF302, .start "t"⟩] (.start "t")).result = .ok 0xB302 := by
  decide

end Chip8
