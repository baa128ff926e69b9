/-
# What an opcode holds

Values can be laid one after another into fields that are empty and have no bit in
common (`Field.Free`): each field holds its value, cut to its width (`get_packAll`),
and no bit outside of them changes (`testBit_packAll`). So two rows of values make the
same opcode iff they are the same, cut to the widths of their fields (`packAll_eq_iff`).

The operands of an instruction are such a row: those with a field are laid into it
(`Slot.placed`, `Slot.stored`, `Slot.result_lay_of_placed`).

Key definitions: `Field.Covers`, `Field.Free`, `Field.SameCut`, `Operand.number`, `Slot.stored`,
`Slot.placed`.
Key theorems: `get_pack_of_disjoint`, `get_packAll`, `testBit_packAll`, `packAll_eq_iff`,
`Slot.result_lay_of_placed`.
-/
import Mathlib.Data.List.Forall2
import Chip8.Proofs.Assembly.Resolve
import Chip8.Proofs.Encoding.Slots

namespace Chip8

namespace Field

variable {f g : Field} {op : UInt16} {v w : UInt32} {vs ws : List (Field × UInt32)} {i : Nat}

/-- The bit `i` of an opcode is one of the field. -/
def Covers (f : Field) (i : Nat) : Prop := f.shift ≤ i ∧ i < f.shift + f.width

/-- The fields have no bit in common. -/
def Disjoint (f g : Field) : Prop :=
  f.shift + f.width ≤ g.shift ∨ g.shift + g.width ≤ f.shift

instance (f : Field) (i : Nat) : Decidable (f.Covers i) := by
  unfold Covers
  infer_instance

instance (f g : Field) : Decidable (f.Disjoint g) := by
  unfold Disjoint
  infer_instance

theorem Disjoint.symm (h : f.Disjoint g) : g.Disjoint f := Or.symm h

/-- The fields have no bit in common, and in the opcode they are empty. -/
structure Free (op : UInt16) (fields : List Field) : Prop where
  apart : fields.Pairwise Disjoint
  empty : ∀ f ∈ fields, f.get op = 0

instance (op : UInt16) (fields : List Field) : Decidable (Free op fields) :=
  decidable_of_iff (fields.Pairwise Disjoint ∧ ∀ f ∈ fields, f.get op = 0)
    ⟨fun ⟨apart, empty⟩ => ⟨apart, empty⟩, fun ⟨apart, empty⟩ => ⟨apart, empty⟩⟩

/-- The values are for the same field, and the same when they are cut to its width. -/
def SameCut (p q : Field × UInt32) : Prop :=
  p.1 = q.1 ∧ p.2.toNat % p.1.size = q.2.toNat % p.1.size

/-! ### One value -/

theorem testBit_pack_of_not_covers (h : ¬f.Covers i) (op : UInt16) (v : UInt32) :
    (f.pack op v).toNat.testBit i = op.toNat.testBit i := by
  have hout : (decide (f.shift ≤ i) && decide (i - f.shift < f.width)) = false := by
    unfold Covers at h
    simp only [Bool.and_eq_false_iff, decide_eq_false_iff_not]
    omega
  rw [testBit_pack, hout, Bool.false_and, Bool.or_false]

theorem testBit_get (f : Field) (op : UInt16) (i : Nat) :
    (f.get op).testBit i = (decide (i < f.width) && op.toNat.testBit (f.shift + i)) := by
  rw [get, testBit_mod_size, Nat.testBit_shiftRight]

/-- What a field holds depends on its bits. -/
theorem get_congr {op' : UInt16}
    (h : ∀ i, f.Covers i → op.toNat.testBit i = op'.toNat.testBit i) : f.get op = f.get op' := by
  apply Nat.eq_of_testBit_eq
  intro i
  rw [testBit_get, testBit_get]
  by_cases hi : i < f.width
  · rw [h (f.shift + i) ⟨by omega, by omega⟩]
  · simp [hi]

/-- A field that is apart does not see what is laid down. -/
theorem get_pack_of_disjoint (h : f.Disjoint g) (op : UInt16) (v : UInt32) :
    f.get (g.pack op v) = f.get op := by
  apply get_congr
  intro i hi
  apply testBit_pack_of_not_covers
  unfold Disjoint at h
  unfold Covers at *
  omega

/-- Only what fits into the field is laid down. -/
theorem pack_congr (h : v.toNat % f.size = w.toNat % f.size) (op : UInt16) :
    f.pack op v = f.pack op w := by
  rw [pack, pack, h]

theorem pack_zero (f : Field) (op : UInt16) : f.pack op 0 = op := by
  have hzero : ((0 : UInt32).toNat % f.size) <<< f.shift = 0 := by
    rw [UInt32.toNat_zero, Nat.zero_mod, Nat.zero_shiftLeft]
  rw [pack, hzero]
  exact UInt16.or_zero

/-! ### A row of values -/

theorem packAll_cons (op : UInt16) (p : Field × UInt32) (vs : List (Field × UInt32)) :
    packAll op (p :: vs) = packAll (p.1.pack op p.2) vs := rfl

theorem testBit_packAll (h : ∀ p ∈ vs, ¬p.1.Covers i) :
    (packAll op vs).toNat.testBit i = op.toNat.testBit i := by
  induction vs generalizing op with
  | nil => rfl
  | cons p vs ih =>
    obtain ⟨hp, hvs⟩ := List.forall_mem_cons.mp h
    rw [packAll_cons, ih hvs, testBit_pack_of_not_covers hp]

theorem get_packAll_of_disjoint (h : ∀ p ∈ vs, f.Disjoint p.1) :
    f.get (packAll op vs) = f.get op := by
  induction vs generalizing op with
  | nil => rfl
  | cons p vs ih =>
    obtain ⟨hp, hvs⟩ := List.forall_mem_cons.mp h
    rw [packAll_cons, ih hvs, get_pack_of_disjoint hp]

/-- What is laid into the first field leaves the others free. -/
theorem Free.pack {fields : List Field} (h : Free op (f :: fields)) (v : UInt32) :
    Free (f.pack op v) fields := by
  obtain ⟨happart, hfields⟩ := List.pairwise_cons.mp h.apart
  refine ⟨hfields, fun g hg => ?_⟩
  rw [get_pack_of_disjoint (happart g hg).symm]
  exact h.empty g (List.mem_cons_of_mem f hg)

/-- The first field of a row holds its value. -/
theorem get_packAll_cons {p : Field × UInt32} (h : Free op ((p :: vs).map Prod.fst)) :
    p.1.get (packAll op (p :: vs)) = p.2.toNat % p.1.size := by
  have happart : ∀ q ∈ vs, p.1.Disjoint q.1 :=
    List.forall_mem_map.mp (List.pairwise_cons.mp h.apart).1
  rw [packAll_cons, get_packAll_of_disjoint happart, get_pack (h.empty p.1 List.mem_cons_self)]

/-- Every field of a row holds its value. -/
theorem get_packAll (h : Free op (vs.map Prod.fst)) :
    ∀ p ∈ vs, p.1.get (packAll op vs) = p.2.toNat % p.1.size := by
  induction vs generalizing op with
  | nil => simp
  | cons p vs ih => exact List.forall_mem_cons.mpr ⟨get_packAll_cons h, ih (h.pack p.2)⟩

/-- **What is laid down can be told apart** in free fields, but for what is cut off. -/
theorem packAll_eq_iff (h : Free op (vs.map Prod.fst))
    (hfields : vs.map Prod.fst = ws.map Prod.fst) :
    packAll op vs = packAll op ws ↔ List.Forall₂ SameCut vs ws := by
  induction vs generalizing op ws with
  | nil =>
    obtain rfl : ws = [] := by simpa using hfields.symm
    simp
  | cons p vs ih =>
    cases ws with
    | nil => simp at hfields
    | cons q ws =>
      obtain ⟨hfield, hfields'⟩ := List.cons.inj hfields
      -- Equal first values leave equal opcodes behind, on which the rest is laid.
      have hstep : SameCut p q → (packAll op (p :: vs) = packAll op (q :: ws) ↔
          List.Forall₂ SameCut vs ws) := by
        intro hpq
        rw [packAll_cons, packAll_cons, ← hfield, ← pack_congr hpq.2]
        exact ih (h.pack p.2) hfields'
      rw [List.forall₂_cons]
      constructor
      · intro heq
        have hq : Free op ((q :: ws).map Prod.fst) := hfields ▸ h
        have hget := get_packAll_cons hq
        rw [← heq, ← hfield, get_packAll_cons h] at hget
        have hpq : SameCut p q := ⟨hfield, hget⟩
        exact ⟨hpq, (hstep hpq).mp heq⟩
      · rintro ⟨hpq, hrest⟩
        exact (hstep hpq).mpr hrest

end Field

/-! ### Operands -/

/-- The number that an operand carries, 0 if it carries none. -/
def Operand.number (o : Operand) : UInt32 :=
  match o.value with
  | .number n => n
  | _ => 0

theorem Operand.result_load {o : Operand} (h : o.Literal) : o.load.result = .ok o.number := by
  cases hv : o.value with
  | name x => exact absurd hv (h x)
  | number n => simp [load, number, hv]
  | absent => simp [load, number, hv]

namespace Slot

/-- The fields that operands go to, and the numbers that are laid into them. -/
def stored : List Slot → List Operand → List (Field × UInt32)
  | ⟨_, some field⟩ :: slots, o :: os => (field, o.number) :: stored slots os
  | ⟨_, none⟩ :: slots, _ :: os => stored slots os
  | _, _ => []

/-- The operands that have a field, each with it. -/
def placed : List Slot → List Operand → List (Field × Operand)
  | ⟨_, some field⟩ :: slots, o :: os => (field, o) :: placed slots os
  | ⟨_, none⟩ :: slots, _ :: os => placed slots os
  | _, _ => []

theorem stored_eq_map_placed : ∀ (slots : List Slot) (os : List Operand),
    stored slots os = (placed slots os).map fun q => (q.1, q.2.number)
  | [], os => by simp [stored, placed]
  | slot :: slots, [] => by simp [stored, placed]
  | ⟨kind, none⟩ :: slots, o :: os => by
    rw [stored, placed]
    exact stored_eq_map_placed slots os
  | ⟨kind, some field⟩ :: slots, o :: os => by
    rw [stored, placed, List.map_cons, stored_eq_map_placed slots os]

/-- Operands are laid down in their order. -/
theorem placed_sublist : ∀ (slots : List Slot) (os : List Operand),
    ((placed slots os).map Prod.snd).Sublist os
  | [], os => List.nil_sublist os
  | _ :: _, [] => by simp [placed]
  | ⟨_, none⟩ :: slots, o :: os => (placed_sublist slots os).cons o
  | ⟨_, some _⟩ :: slots, o :: os => (placed_sublist slots os).cons_cons o

/-- Laying operands into an opcode is packing the numbers of those with a field; no others are
read. -/
theorem result_lay_of_placed : ∀ (slots : List Slot) {os : List Operand} (op : UInt16),
    (∀ q ∈ placed slots os, q.2.Literal) →
      (lay slots os op).result = .ok (Field.packAll op (stored slots os))
  | [], os, op, _ => by simp [lay, stored, Field.packAll]
  | slot :: slots, [], op, _ => by simp [lay, stored, Field.packAll]
  | ⟨kind, none⟩ :: slots, o :: os, op, h => by
    rw [lay, stored]
    exact result_lay_of_placed slots op h
  | ⟨kind, some field⟩ :: slots, o :: os, op, h => by
    obtain ⟨ho, hos⟩ := List.forall_mem_cons.mp h
    rw [lay, stored, Outcome.result_bind, Operand.result_load ho, Field.packAll_cons]
    exact result_lay_of_placed slots (field.pack op o.number) hos

theorem result_lay (slots : List Slot) {os : List Operand} (op : UInt16)
    (h : ∀ o ∈ os, o.Literal) :
    (lay slots os op).result = .ok (Field.packAll op (stored slots os)) :=
  result_lay_of_placed slots op fun _ hq =>
    h _ ((placed_sublist slots os).subset (List.mem_map_of_mem hq))

theorem map_fst_stored : ∀ {slots : List Slot} {os : List Operand}, slots.length = os.length →
    (stored slots os).map Prod.fst = slots.filterMap Slot.field
  | [], [], _ => rfl
  | ⟨kind, none⟩ :: slots, o :: os, h => by
    simpa [stored] using map_fst_stored (Nat.succ.inj h)
  | ⟨kind, some field⟩ :: slots, o :: os, h => by
    simpa [stored] using map_fst_stored (Nat.succ.inj h)

end Slot
end Chip8
