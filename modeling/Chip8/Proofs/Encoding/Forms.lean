/-
# Which instructions have the same opcode

An opcode shows its form: two forms differ in a bit that is in no field of either,
unless they are one, or shifts with and without a second register
(`Form.eq_or_shortens`). A form shows its operands, cut to the widths that their
kinds allow, for each form but `jp @r, [a]` has a field for every operand that
has a width (`Form.width_eq_bits?_or_offsetJump`). So apart from the shifts and this
jump, instructions have the same opcode iff they are alike operand by operand
(`Form.opcode_eq_iff`).

Key definitions: `Operand.Alike`, `Statement.ShortFor`, `Statement.Alike`, `Form.opcode`,
`Form.Shortens`, `Form.offsetJump`.
Key theorems: `free_fields`, `eq_or_shortens`, `opcode_eq_iff_of_widths`,
`Shortens.opcode_eq_iff`, `opcode_eq_iff`.
-/
import Chip8.Proofs.Encoding.Packing

namespace Chip8

/-- The operands are of the same kind, and their numbers are the same in the bits that the kind
allows. -/
def Operand.Alike (o o' : Operand) : Prop :=
  o.kind = o'.kind ∧
    ∀ bits ∈ o.kind.bits?, o.number.toNat % (1 <<< bits) = o'.number.toNat % (1 <<< bits)

/-- The first instruction is a shift without a second register, and the second one is the same shift
with register 0 there. -/
inductive Statement.ShortFor : Statement → Statement → Prop where
  | intro {m : String} {x x' y : Operand} {p p' : Position} (hm : m = "shr" ∨ m = "shl")
      (hx : x.kind = .register) (h : x.Alike x') (hy : y.kind = .register)
      (hzero : y.number.toNat % 16 = 0) :
      ShortFor (.instruction m [x] p) (.instruction m [x', y] p')

/-- The instructions are the same to the machine: operand by operand, or as jumps that add a
register to an address, or as shifts with and without a second register. -/
inductive Statement.Alike : Statement → Statement → Prop where
  | same {m : String} {os os' : List Operand} {p p' : Position}
      (h : List.Forall₂ Operand.Alike os os') : Alike (.instruction m os p) (.instruction m os' p')
  | jump {r r' a a' : Operand} {p p' : Position} (hr : r.kind = .register)
      (hr' : r'.kind = .register) (ha : a.kind = .address) (h : a.Alike a') :
      Alike (.instruction "jp" [r, a] p) (.instruction "jp" [r', a'] p')
  | short {s s' : Statement} (h : s.ShortFor s') : Alike s s'
  | long {s s' : Statement} (h : s'.ShortFor s) : Alike s s'

/-! ### The table -/

namespace Form

/-- The fields of the operands that are stored. -/
def fields (f : Form) : List Field := f.slots.filterMap Slot.field

/-- The opcode that has the operands in its fields. -/
def opcode (f : Form) (os : List Operand) : UInt16 :=
  Field.packAll f.base (Slot.stored f.slots os)

/-- Both forms shift, and only the second one has a second register. -/
def Shortens (f g : Form) : Prop :=
  f.mnemonic = g.mnemonic ∧ (f.mnemonic = "shr" ∨ f.mnemonic = "shl") ∧ f.base = g.base ∧
    f.kinds = [.register] ∧ g.kinds = [.register, .register]

instance (f g : Form) : Decidable (f.Shortens g) := by
  unfold Shortens
  infer_instance

/-- The jump to an address and a register, which is always register 0. -/
def offsetJump : Form := ⟨"jp", [.register, .address], 0xB000⟩

theorem slots_offsetJump : offsetJump.slots = [.unstored .register, .address] := rfl

/-- The fields of a form are apart, and its fixed bits are outside of them. -/
theorem free_fields : ∀ f ∈ table, Field.Free f.base f.fields := by decide

/-- Forms that agree in the bits outside of their fields are one, or shifts. -/
theorem eq_or_shortens : ∀ f ∈ table, ∀ g ∈ table,
    (∀ i < 16, (∀ field ∈ f.fields ++ g.fields, ¬field.Covers i) →
      f.base.toNat.testBit i = g.base.toNat.testBit i) →
    f = g ∨ f.Shortens g ∨ g.Shortens f := by decide +kernel

theorem shortens_of_kinds : ∀ f ∈ table, ∀ g ∈ table, f.mnemonic = g.mnemonic →
    f.mnemonic = "shr" ∨ f.mnemonic = "shl" → f.kinds = [.register] →
      g.kinds = [.register, .register] → f.Shortens g := by decide

theorem width_eq_bits?_or_offsetJump : ∀ f ∈ table,
    (∀ s ∈ f.slots, s.field.map Field.width = s.kind.bits?) ∨ f = offsetJump := by decide

/-- Where opcodes are equal, the forms are one, or shifts. -/
theorem eq_or_shortens_of_opcode_eq {f g : Form} {os os' : List Operand} (hf : f ∈ table)
    (hg : g ∈ table) (hos : f.slots.length = os.length) (hos' : g.slots.length = os'.length)
    (h : f.opcode os = g.opcode os') : f = g ∨ f.Shortens g ∨ g.Shortens f := by
  apply eq_or_shortens f hf g hg
  intro i _ hout
  obtain ⟨hfi, hgi⟩ := List.forall_mem_append.mp hout
  rw [fields, ← Slot.map_fst_stored hos, List.forall_mem_map] at hfi
  rw [fields, ← Slot.map_fst_stored hos', List.forall_mem_map] at hgi
  calc f.base.toNat.testBit i = (f.opcode os).toNat.testBit i := (Field.testBit_packAll hfi).symm
    _ = (g.opcode os').toNat.testBit i := by rw [h]
    _ = g.base.toNat.testBit i := Field.testBit_packAll hgi

end Form

/-! ### Operands of one form -/

/-- Of operands that are stored with all their bits, those are alike that are cut to the same. -/
theorem Slot.forall₂_sameCut_stored_iff : ∀ {slots : List Slot} {os os' : List Operand},
    (∀ s ∈ slots, s.field.map Field.width = s.kind.bits?) →
      slots.map Slot.kind = os.map Operand.kind → slots.map Slot.kind = os'.map Operand.kind →
        (List.Forall₂ Field.SameCut (stored slots os) (stored slots os') ↔
          List.Forall₂ Operand.Alike os os')
  | [], [], [], _, _, _ => by simp [stored]
  | ⟨kind, field?⟩ :: slots, o :: os, o' :: os', hw, hos, hos' => by
    obtain ⟨hwidth, hwidths⟩ := List.forall_mem_cons.mp hw
    obtain ⟨hkind, hkinds⟩ := List.cons.inj hos
    obtain ⟨hkind', hkinds'⟩ := List.cons.inj hos'
    have ih := forall₂_sameCut_stored_iff hwidths hkinds hkinds'
    change field?.map Field.width = kind.bits? at hwidth
    change kind = o.kind at hkind
    change kind = o'.kind at hkind'
    rw [List.forall₂_cons, ← ih]
    cases field? with
    | none => simp [stored, Operand.Alike, ← hkind, ← hkind', ← hwidth]
    | some field =>
      simp [stored, Operand.Alike, Field.SameCut, ← hkind, ← hkind', ← hwidth, Field.size_eq]

namespace Form

variable {f g : Form} {os os' : List Operand}

theorem length_slots (h : f.kinds = os.map Operand.kind) : f.slots.length = os.length := by
  simpa using congrArg List.length (f.map_kind_slots.trans h)

/-- Two rows of operands are laid into the same opcode iff what is stored of them is cut to the
same. -/
theorem opcode_eq_iff_stored (hf : f ∈ table) (hos : f.slots.length = os.length)
    (hos' : f.slots.length = os'.length) :
    f.opcode os = f.opcode os' ↔
      List.Forall₂ Field.SameCut (Slot.stored f.slots os) (Slot.stored f.slots os') := by
  have hfields := Slot.map_fst_stored hos
  have hfree := free_fields f hf
  rw [fields, ← hfields] at hfree
  exact Field.packAll_eq_iff hfree (hfields.trans (Slot.map_fst_stored hos').symm)

theorem opcode_eq_iff_of_widths (hf : f ∈ table)
    (hw : ∀ s ∈ f.slots, s.field.map Field.width = s.kind.bits?)
    (hos : f.kinds = os.map Operand.kind) (hos' : f.kinds = os'.map Operand.kind) :
    f.opcode os = f.opcode os' ↔ List.Forall₂ Operand.Alike os os' := by
  rw [opcode_eq_iff_stored hf (length_slots hos) (length_slots hos')]
  exact Slot.forall₂_sameCut_stored_iff hw (f.map_kind_slots.trans hos)
    (f.map_kind_slots.trans hos')

/-- Of the jump to an address and a register only the address counts. -/
theorem offsetJump_opcode_eq_iff {r r' a a' : Operand} (ha : a.kind = .address)
    (ha' : a'.kind = .address) :
    offsetJump.opcode [r, a] = offsetJump.opcode [r', a'] ↔ a.Alike a' := by
  rw [opcode_eq_iff_stored (by decide) rfl rfl]
  simp [slots_offsetJump, Slot.unstored, Slot.address, Slot.stored, Field.SameCut, Field.size,
    Operand.Alike, ha, ha', Operand.Kind.bits?]

/-- A shift without a second register has the opcode of one with register 0 there. -/
theorem Shortens.opcode_eq_iff (h : f.Shortens g) (hg : g ∈ table)
    (hos : f.kinds = os.map Operand.kind) (hos' : g.kinds = os'.map Operand.kind)
    (p p' : Position) :
    f.opcode os = g.opcode os' ↔
      Statement.ShortFor (.instruction f.mnemonic os p) (.instruction g.mnemonic os' p') := by
  obtain ⟨hm, hshift, hbase, hshort, hkinds⟩ := h
  obtain ⟨x, rfl, hx⟩ := List.map_eq_singleton_iff.mp (hos.symm.trans hshort)
  obtain ⟨x', y, rfl, hx', hy⟩ := Operand.eq_pair_of_kinds (hkinds.symm.trans hos')
  have hf : f.slots = [.x] := congrArg Slot.select hshort
  have hslots : g.slots = [.x, .y] := congrArg Slot.select hkinds
  -- An operand that carries no number stands for register 0.
  have hzero : f.opcode [x] = g.opcode [x, ⟨.register, .absent, x.position⟩] := by
    simp only [opcode, hf, hslots, hbase, Slot.x, Slot.y, Slot.stored, Field.packAll_cons]
    exact congrArg (Field.packAll · []) (Field.pack_zero .y _).symm
  have hwidths : ∀ s ∈ g.slots, s.field.map Field.width = s.kind.bits? := by
    rw [hslots]
    decide
  have halike : f.opcode [x] = g.opcode [x', y] ↔ x.Alike x' ∧ y.number.toNat % 16 = 0 := by
    rw [hzero, opcode_eq_iff_of_widths hg hwidths (by simp [hkinds, hx]) hos']
    simp [Operand.Alike, hy, Operand.Kind.bits?, Operand.number, eq_comm]
  rw [halike, ← hm]
  constructor
  · rintro ⟨hxx', hy0⟩
    exact .intro hshift hx hxx' hy hy0
  · intro hshort
    cases hshort with
    | intro _ _ hxx' _ hy0 => exact ⟨hxx', hy0⟩

/-! ### Any two forms -/

theorem map_kind_of_alike (h : List.Forall₂ Operand.Alike os os') :
    os.map Operand.kind = os'.map Operand.kind := by
  rw [← List.forall₂_eq_eq_eq, List.forall₂_map_left_iff, List.forall₂_map_right_iff]
  exact h.imp fun o o' ho => ho.1

section

variable {m m' : String} {p p' : Position} (hf : f ∈ table) (hg : g ∈ table)
  (hm : f.mnemonic = m) (hm' : g.mnemonic = m') (hos : f.kinds = os.map Operand.kind)
  (hos' : g.kinds = os'.map Operand.kind)

include hf hg hm hm' hos hos'

theorem shortens_of_shortFor
    (h : Statement.ShortFor (.instruction m os p) (.instruction m' os' p')) : f.Shortens g := by
  cases h with
  | intro hshift hx h hy _ =>
    have hx' := h.1.symm.trans hx
    exact shortens_of_kinds f hf g hg (hm.trans hm'.symm) (hm ▸ hshift) (by simp [hos, hx])
      (by simp [hos', hx', hy])

theorem alike_of_opcode_eq (h : f.opcode os = g.opcode os') :
    Statement.Alike (.instruction m os p) (.instruction m' os' p') := by
  subst hm hm'
  rcases eq_or_shortens_of_opcode_eq hf hg (length_slots hos) (length_slots hos') h with
    rfl | hshort | hlong
  · rcases width_eq_bits?_or_offsetJump f hf with hw | rfl
    · exact .same ((opcode_eq_iff_of_widths hf hw hos hos').mp h)
    · obtain ⟨r, a, rfl, hr, ha⟩ := Operand.eq_pair_of_kinds hos
      obtain ⟨r', a', rfl, hr', ha'⟩ := Operand.eq_pair_of_kinds hos'
      exact .jump hr hr' ha ((offsetJump_opcode_eq_iff ha ha').mp h)
  · exact .short ((hshort.opcode_eq_iff hg hos hos' p p').mp h)
  · exact .long ((hlong.opcode_eq_iff hf hos' hos p' p).mp h.symm)

theorem opcode_eq_of_alike
    (h : Statement.Alike (.instruction m os p) (.instruction m' os' p')) :
    f.opcode os = g.opcode os' := by
  cases h with
  | same h =>
    have hkinds : f.kinds = g.kinds := hos.trans ((map_kind_of_alike h).trans hos'.symm)
    obtain rfl := eq_of_mem_table hf hg (hm.trans hm'.symm) hkinds
    rcases width_eq_bits?_or_offsetJump f hf with hw | rfl
    · exact (opcode_eq_iff_of_widths hf hw hos hos').mpr h
    · obtain ⟨r, a, rfl, hr, ha⟩ := Operand.eq_pair_of_kinds hos
      obtain ⟨r', a', rfl, hr', ha'⟩ := Operand.eq_pair_of_kinds hos'
      have halike : a.Alike a' := by simpa using (List.forall₂_cons.mp h).2
      exact (offsetJump_opcode_eq_iff ha ha').mpr halike
  | @jump r r' a a' _ _ hr hr' ha h =>
    have hjump : offsetJump ∈ table := by decide
    have ha' : a'.kind = .address := h.1 ▸ ha
    obtain rfl := eq_of_mem_table hf hjump hm (hos.trans (by simp [hr, ha, offsetJump]))
    obtain rfl := eq_of_mem_table hg hjump hm' (hos'.trans (by simp [hr', ha', offsetJump]))
    exact (offsetJump_opcode_eq_iff ha ha').mpr h
  | short h =>
    have hshort := shortens_of_shortFor hf hg hm hm' hos hos' h
    subst hm hm'
    exact (hshort.opcode_eq_iff hg hos hos' p p').mpr h
  | long h =>
    have hlong := shortens_of_shortFor hg hf hm' hm hos' hos h
    subst hm hm'
    exact ((hlong.opcode_eq_iff hf hos' hos p' p).mpr h).symm

/-- **Instructions have the same opcode iff they are alike.** -/
theorem opcode_eq_iff : f.opcode os = g.opcode os' ↔
    Statement.Alike (.instruction m os p) (.instruction m' os' p') :=
  ⟨alike_of_opcode_eq hf hg hm hm' hos hos', opcode_eq_of_alike hf hg hm hm' hos hos'⟩

end

end Form
end Chip8
