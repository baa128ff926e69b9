/-
# Operands that are cut

What is noted while bytes are made can be seen from the statements: one notice for
each operand that is read (`Statement.readOperands`) and whose number has more bits
than its kind allows (`Operand.warning?`). All operands of an instruction are read but
the register of `jp @r, [a]`, which has no field; the others without a field are of
kinds that allow any number. So nothing is noted iff every number that is put down is
put down whole (`Statement.Whole`).

Key definitions: `Operand.warning?`, `Statement.readOperands`, `Statement.warnings`,
`Statement.Whole`.
Key theorems: `Slot.notices_lay`, `Statement.notices_emit`, `Program.notices_emit`,
`Statement.warnings_eq_nil_iff`.
-/
import Chip8.Proofs.Encoding.Exact
import Chip8.Proofs.Encoding.Images

namespace Chip8

/-- The notice that the number of an operand is too wide: of a register or nibble from 16 on, of a
byte from 256 on, and of an address from 4096 on. -/
def Operand.warning? (o : Operand) : Option Notice :=
  match o.kind with
  | .register | .nibble =>
    if 16 ≤ o.number.toNat then some (.operandCut o.position o.number 4) else none
  | .byte => if 256 ≤ o.number.toNat then some (.operandCut o.position o.number 8) else none
  | .address => if 4096 ≤ o.number.toNat then some (.operandCut o.position o.number 12) else none
  | _ => none

namespace Statement

/-- The operands whose numbers are read: those of a `.db`, and those of an instruction except for
the register of `jp @r, [a]`. -/
def readOperands : Statement → List Operand
  | label _ _ => []
  | instruction m os _ =>
    if m = "jp" ∧ os.map Operand.kind = [.register, .address] then os.tail else os
  | directive name os _ => if name = "db" then os else []

/-- What is suspicious about the operands of a statement. -/
def warnings (s : Statement) : List Notice := s.readOperands.filterMap Operand.warning?

end Statement

/-! ### What is noted -/

namespace Operand

theorem notices_load {o : Operand} (h : o.Literal) : o.load.notices = o.warning?.toList := by
  obtain ⟨kind, value, p⟩ := o
  cases value with
  | name x => exact absurd rfl (h x)
  | number n => cases kind <;> rfl
  | absent => cases kind <;> rfl

/-- A number is too wide iff its kind allows fewer bits. -/
theorem warning?_eq_none_iff {o : Operand} :
    o.warning? = none ↔ ∀ bits ∈ o.kind.bits?, o.number.toNat < 1 <<< bits := by
  obtain ⟨kind, value, p⟩ := o
  cases kind <;> simp [warning?, Kind.bits?]

theorem warning?_of_bits?_eq_none {o : Operand} (h : o.kind.bits? = none) : o.warning? = none :=
  warning?_eq_none_iff.mpr (by simp [h])

end Operand

/-- A row of steps without a fault notes what each step notes. -/
theorem Outcome.notices_mapM {α β : Type} {f : α → Outcome β} {g : α → List Notice} :
    ∀ {xs : List α} {ys : List β}, (xs.mapM f).result = .ok ys →
      (∀ x ∈ xs, ∀ y, (f x).result = .ok y → (f x).notices = g x) →
        (xs.mapM f).notices = xs.flatMap g
  | [], _, _, _ => rfl
  | x :: xs, ys, h, hg => by
    obtain ⟨hx, hxs⟩ := List.forall_mem_cons.mp hg
    rw [List.mapM_cons] at h ⊢
    obtain ⟨b, hb, h⟩ := bind_eq_ok_iff.mp h
    obtain ⟨bs, hbs, -⟩ := bind_eq_ok_iff.mp h
    rw [bind_ok hb, bind_ok hbs, List.flatMap_cons, hx b hb, notices_mapM hbs hxs,
      notices_pure, List.append_nil]

/-- Operands that are laid into fields of the widths that their kinds allow are warned of one by
one. -/
theorem Slot.notices_lay : ∀ {slots : List Slot} {os : List Operand} (op : UInt16),
    (∀ s ∈ slots, s.field.map Field.width = s.kind.bits?) →
      slots.map Slot.kind = os.map Operand.kind → (∀ o ∈ os, o.Literal) →
        (lay slots os op).notices = os.filterMap Operand.warning?
  | [], [], _, _, _, _ => by simp [lay]
  | ⟨kind, none⟩ :: slots, o :: os, op, hw, hkinds, hl => by
    obtain ⟨hwidth, hwidths⟩ := List.forall_mem_cons.mp hw
    obtain ⟨hkind, hkinds⟩ := List.cons.inj hkinds
    obtain ⟨ho, hos⟩ := List.forall_mem_cons.mp hl
    have hnone : o.kind.bits? = none := hkind ▸ hwidth.symm
    rw [lay, notices_lay op hwidths hkinds hos,
      List.filterMap_cons_none (Operand.warning?_of_bits?_eq_none hnone)]
  | ⟨kind, some field⟩ :: slots, o :: os, op, hw, hkinds, hl => by
    obtain ⟨-, hwidths⟩ := List.forall_mem_cons.mp hw
    obtain ⟨-, hkinds⟩ := List.cons.inj hkinds
    obtain ⟨ho, hos⟩ := List.forall_mem_cons.mp hl
    have hrest := notices_lay (field.pack op o.number) hwidths hkinds hos
    rw [lay, Outcome.bind_ok (Operand.result_load ho), Operand.notices_load ho, hrest]
    cases hwarn : o.warning? <;> simp [hwarn]

namespace Form

variable {form : Form} {os : List Operand} (p : Position)

/-- Which operands of an instruction are read can be seen from its form. -/
theorem readOperands_eq (hmem : form ∈ table) (hkinds : form.kinds = os.map Operand.kind) :
    (Statement.instruction form.mnemonic os p).readOperands =
      if form = offsetJump then os.tail else os := by
  have hjump : form.mnemonic = "jp" ∧ os.map Operand.kind = [.register, .address] ↔
      form = offsetJump := by
    constructor
    · rintro ⟨hm, hk⟩
      exact eq_of_mem_table hmem (by decide) hm (hkinds.trans hk)
    · rintro rfl
      exact ⟨rfl, hkinds.symm⟩
  rw [Statement.readOperands]
  simp only [hjump]

/-- The operands that are read have slots of their own, with fields as wide as their kinds allow,
and laying them is laying all. -/
theorem exists_readSlots (hmem : form ∈ table) (hkinds : form.kinds = os.map Operand.kind) :
    ∃ slots : List Slot, (∀ s ∈ slots, s.field.map Field.width = s.kind.bits?) ∧
      slots.map Slot.kind =
        (Statement.instruction form.mnemonic os p).readOperands.map Operand.kind ∧
      (∀ op, Slot.lay form.slots os op =
        Slot.lay slots (Statement.instruction form.mnemonic os p).readOperands op) ∧
      Slot.stored form.slots os =
        Slot.stored slots (Statement.instruction form.mnemonic os p).readOperands := by
  rw [readOperands_eq p hmem hkinds]
  rcases width_eq_bits?_or_offsetJump form hmem with hw | rfl
  · have hne : form ≠ offsetJump := by
      rintro rfl
      exact absurd hw (by decide)
    rw [if_neg hne]
    exact ⟨form.slots, hw, form.map_kind_slots.trans hkinds, fun _ => rfl, rfl⟩
  · obtain ⟨r, a, rfl, -, ha⟩ := Operand.eq_pair_of_kinds hkinds
    rw [if_pos rfl]
    refine ⟨[.address], by decide, by simp [Slot.address, ha], fun op => ?_, rfl⟩
    rw [slots_offsetJump, Slot.unstored, Slot.lay, List.tail_cons]

end Form

namespace Statement

theorem literal_readOperands {s : Statement} (h : s.Literal) : ∀ o ∈ s.readOperands, o.Literal := by
  intro o ho
  apply h
  cases s with
  | label name p => exact ho
  | instruction m os p =>
    rw [readOperands] at ho
    split at ho
    · exact List.mem_of_mem_tail ho
    · exact ho
  | directive name os p =>
    rw [readOperands] at ho
    split at ho
    · exact ho
    · cases ho

/-- **Making the bytes of a statement notes what is suspicious about its operands.** -/
theorem notices_emit {s : Statement} {bs : List UInt8} (hl : s.Literal)
    (h : s.emit.result = .ok bs) : s.emit.notices = s.warnings := by
  have hemitted := emitted_of_emit hl h
  have hread := literal_readOperands hl
  generalize s.emit.notices = ns at hemitted
  cases hemitted with
  | label name p => rfl
  | @instruction form os p hmem hkinds =>
    obtain ⟨slots, hw, hslots, hlay, -⟩ := form.exists_readSlots p hmem hkinds
    rw [hlay, Slot.notices_lay form.base hw hslots hread, warnings]
  | origin os p => rfl
  | @data os p hkinds =>
    rw [warnings, readOperands, if_pos rfl, List.filterMap_eq_flatMap_toList]
    exact List.flatMap_congr fun o ho => Operand.notices_load (hl o ho)

end Statement

/-- Making the bytes of a program notes what is suspicious about its operands, statement by
statement. -/
theorem Program.notices_emit {ss : List Statement} {code : List (List UInt8)}
    (hl : ∀ s ∈ ss, s.Literal) (h : (emit ss).result = .ok code) :
    (emit ss).notices = ss.flatMap Statement.warnings :=
  Outcome.notices_mapM h fun s hs _ hbs => Statement.notices_emit (hl s hs) hbs

/-! ### Where nothing is noted -/

/-- What is stored of operands fits its fields iff the operands are as narrow as their kinds
allow. -/
theorem Slot.forall_stored_lt_iff : ∀ {slots : List Slot} {os : List Operand},
    (∀ s ∈ slots, s.field.map Field.width = s.kind.bits?) →
      slots.map Slot.kind = os.map Operand.kind →
        ((∀ p ∈ stored slots os, p.2.toNat < p.1.size) ↔ ∀ o ∈ os, o.warning? = none)
  | [], [], _, _ => by simp [stored]
  | ⟨kind, field?⟩ :: slots, o :: os, hw, hkinds => by
    obtain ⟨hwidth, hwidths⟩ := List.forall_mem_cons.mp hw
    obtain ⟨hkind, hkinds⟩ := List.cons.inj hkinds
    have ih := forall_stored_lt_iff hwidths hkinds
    change field?.map Field.width = kind.bits? at hwidth
    change kind = o.kind at hkind
    rw [List.forall_mem_cons, ← ih, Operand.warning?_eq_none_iff, ← hkind, ← hwidth]
    cases field? with
    | none => simp [stored]
    | some field => simp [stored, Field.size_eq]

namespace Statement

/-- The bytes `bs` of the statement hold the numbers of its operands whole: those of an
instruction in the fields of its opcode, and those of a `.db` as bytes. -/
def Whole (bs : List UInt8) : Statement → Prop
  | label _ _ => True
  | instruction m os _ => ∃ op, bs = Instruction.bytes op ∧
      ∀ q ∈ Instruction.packed m os, q.1.get op = q.2.number.toNat
  | directive name os _ => name = "db" → bs.map UInt8.toNat = os.map fun o => o.number.toNat

/-- **Nothing is suspicious about the operands of a statement iff its bytes hold them whole.** -/
theorem warnings_eq_nil_iff {s : Statement} {bs : List UInt8} (hl : s.Literal)
    (h : s.emit.result = .ok bs) : s.warnings = [] ↔ s.Whole bs := by
  have hemitted := emitted_of_emit hl h
  rw [warnings, List.filterMap_eq_nil_iff]
  generalize s.emit.notices = ns at hemitted
  cases hemitted with
  | label name p => simp [readOperands, Whole]
  | @instruction form os p hmem hkinds =>
    obtain ⟨slots, hw, hslots, -, hstored⟩ := form.exists_readSlots p hmem hkinds
    have hget := Form.get_opcode hmem hkinds
    rw [← Slot.forall_stored_lt_iff hw hslots, ← hstored, Form.stored_eq_map_packed hmem hkinds,
      List.forall_mem_map]
    constructor
    · intro hlt
      exact ⟨form.opcode os, rfl, fun q hq => (hget q hq).trans (Nat.mod_eq_of_lt (hlt q hq))⟩
    · rintro ⟨op, hop, hwhole⟩ q hq
      obtain rfl := Instruction.bytes_injective hop
      rw [← hwhole q hq, hget q hq]
      exact Nat.mod_lt _ q.1.size_pos
  | origin os p => simp [readOperands, Whole]
  | @data os p hkinds =>
    rw [readOperands, if_pos rfl, Whole, List.map_map]
    simp only [forall_const, List.map_inj_left]
    refine forall₂_congr fun o ho => ?_
    have hlt : o.warning? = none ↔ o.number.toNat < 256 := by
      simp [Operand.warning?_eq_none_iff, hkinds o ho, Operand.Kind.bits?]
    rw [hlt, Function.comp_apply, UInt32.toNat_toUInt8]
    omega

end Statement

end Chip8
