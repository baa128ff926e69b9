/-
# What making bytes does

Of a statement without names bytes are made iff it is in the machine's language
(`Statement.Encodable`): an instruction has a form in the table, and data are
bytes. What is wrong with a statement otherwise (`Statement.Unencodable`) depends
on mnemonics, kinds and positions alone, so replacing names does not change it.
The two other faults that making bytes knows, a name that is left and a directive
that means nothing, do not arise (`result_emit_eq_error_iff`). A statement has as
many bytes as placing it counted (`length_of_result_emit`).

Key definitions: `Statement.Encodable`, `Statement.Unencodable`.
Key theorems: `result_emit_eq_error_iff`, `unencodable_resolved_iff`, `length_of_result_emit`,
`Program.result_emit_eq_error_iff`.
-/
import Chip8.Assembly.Emit
import Chip8.Proofs.Encoding.Packing

namespace Chip8

/-! ### Operands -/

/-- The operand is no byte, and `f` says so. -/
def Operand.NoByte (o : Operand) (f : Fault) : Prop := o.kind ≠ .byte ∧ f = ⟨o.position, .dataKind⟩

theorem Operand.result_byte_eq_error_iff {o : Operand} (h : o.Literal) {f : Fault} :
    o.byte.result = .error f ↔ o.NoByte f := by
  have hv := result_load h
  unfold byte NoByte
  split
  · next hk => simp [hk, hv, Except.map]
  · next hk => simp [hk, eq_comm]

/-! ### Statements -/

namespace Statement

/-- A statement that the machine's language has bytes for. -/
def Encodable : Statement → Prop
  | label _ _ => True
  | instruction m os _ => ∃ form ∈ Form.table, form.mnemonic = m ∧ form.kinds = os.map Operand.kind
  | directive name os _ => name = "db" → ∀ o ∈ os, o.kind = .byte

/-- What is wrong with a statement that there are no bytes for, and where. -/
inductive Unencodable : Statement → Fault → Prop where
  | form {m : String} {os : List Operand} {p : Position}
      (h : ∀ form ∈ Form.table, form.mnemonic = m → form.kinds ≠ os.map Operand.kind) :
      Unencodable (.instruction m os p) ⟨p, .unknownForm m (os.map Operand.kind)⟩
  | data {name : String} {os : List Operand} {p : Position} {f : Fault} (hdb : name = "db")
      (h : First Operand.NoByte os f) : Unencodable (.directive name os p) f

variable {s : Statement}

theorem encodable_iff : s.Encodable ↔ ∀ f, ¬s.Unencodable f := by
  cases s with
  | label name p => exact ⟨fun _ f => nofun, fun _ => trivial⟩
  | instruction m os p =>
    constructor
    · rintro ⟨form, hmem, hm, hk⟩ f hf
      cases hf with
      | form h => exact h form hmem hm hk
    · intro h
      by_contra hno
      exact h _ (.form fun form hmem hm hk => hno ⟨form, hmem, hm, hk⟩)
  | directive name os p =>
    constructor
    · intro h f hf
      cases hf with
      | data hdb hfirst =>
        obtain ⟨o, ho, g, hkind, -⟩ := exists_first_iff.mp ⟨f, hfirst⟩
        exact hkind (h hdb o ho)
    · intro h hdb o ho
      by_contra hkind
      have hno : o.NoByte ⟨o.position, .dataKind⟩ := ⟨hkind, rfl⟩
      obtain ⟨f, hf⟩ := exists_first_iff.mpr ⟨o, ho, _, hno⟩
      exact h f (.data hdb hf)

/-- Of a statement without names that can be placed, bytes fail to be made only for want of an
encoding. -/
theorem result_emit_eq_error_iff (hl : s.Literal) (hp : s.Placeable) {f : Fault} :
    s.emit.result = .error f ↔ s.Unencodable f := by
  cases s with
  | label name p => exact ⟨nofun, nofun⟩
  | instruction m os p =>
    rw [emit, Outcome.result_bind]
    cases hform : Form.find? m (os.map Operand.kind) with
    | none =>
      have hnone := Form.find?_eq_none_iff.mp hform
      rw [Instruction.encode_of_find?_eq_none hform]
      constructor
      · intro h
        cases h
        exact .form hnone
      · intro h
        cases h
        rfl
    | some form =>
      obtain ⟨hmem, hm, hk⟩ := Form.find?_eq_some_iff.mp hform
      have hos : ∀ o ∈ os, o.Literal := hl
      rw [Instruction.encode_eq_lay_slots hform, Slot.result_lay form.slots form.base hos]
      constructor
      · nofun
      · intro h
        cases h with
        | form hno => exact absurd hk (hno form hmem hm)
  | directive name os p =>
    rw [emit]
    split
    · next horg =>
      obtain rfl := Directive.ofName?_eq_org_iff.mp horg
      constructor
      · nofun
      · intro h
        cases h with
        | data hdb => exact absurd hdb (by decide)
    · next hdb =>
      obtain rfl := Directive.ofName?_eq_db_iff.mp hdb
      have hos : ∀ o ∈ os, o.Literal := hl
      rw [Outcome.result_mapM_eq_error_iff,
        first_congr fun o ho g => Operand.result_byte_eq_error_iff (hos o ho)]
      constructor
      · exact .data rfl
      · intro h
        cases h with
        | data _ h => exact h
    · next hnone =>
      obtain ⟨horg, hdb⟩ := Directive.ofName?_eq_none_iff.mp hnone
      rcases hp with ⟨h, -⟩ | ⟨h, -⟩
      · exact absurd h horg
      · exact absurd h hdb

/-- Names have no part in what is wrong. -/
theorem unencodable_resolved_iff {symbols : Symbols} {f : Fault} :
    (s.resolved symbols).Unencodable f ↔ s.Unencodable f := by
  have hdata : ∀ os : List Operand,
      First Operand.NoByte (os.map (Operand.resolved symbols)) f ↔ First Operand.NoByte os f := by
    intro os
    rw [first_map_iff]
    refine first_congr (fun o _ g => ?_) f
    rw [Operand.NoByte, Operand.NoByte, Operand.kind_resolved, Operand.position_resolved]
  cases s with
  | label name p => exact ⟨nofun, nofun⟩
  | instruction m os p =>
    have h : (os.map (Operand.resolved symbols)).map Operand.kind = os.map Operand.kind :=
      Operand.map_kind_resolved os
    constructor
    · intro hf
      cases hf with
      | form hno =>
        simp only [operands, h] at hno ⊢
        exact .form hno
    · intro hf
      cases hf with
      | form hno =>
        rw [← h] at hno ⊢
        exact .form hno
  | directive name os p =>
    constructor
    · intro hf
      cases hf with
      | data hdb hfirst => exact .data hdb ((hdata os).mp hfirst)
    · intro hf
      cases hf with
      | data hdb hfirst => exact .data hdb ((hdata os).mpr hfirst)

/-- A statement has as many bytes as it takes up. -/
theorem length_of_result_emit {bs : List UInt8} (h : s.emit.result = .ok bs) :
    bs.length = s.size := by
  cases s with
  | label name p =>
    cases h
    rfl
  | instruction m os p =>
    obtain ⟨op, -, hop⟩ := Outcome.bind_eq_ok_iff.mp h
    cases hop
    rfl
  | directive name os p =>
    rw [emit] at h
    split at h
    · next horg =>
      obtain rfl := Directive.ofName?_eq_org_iff.mp horg
      cases h
      rfl
    · next hdb =>
      obtain rfl := Directive.ofName?_eq_db_iff.mp hdb
      rw [Outcome.result_mapM_eq_ok_iff] at h
      exact h.length_eq.symm
    · cases h

end Statement

/-! ### Programs -/

namespace Program

/-- The first statement without an encoding is at fault. -/
theorem result_emit_eq_error_iff {ss : List Statement} (hl : ∀ s ∈ ss, s.Literal)
    (hp : ∀ s ∈ ss, s.Placeable) {f : Fault} :
    (emit ss).result = .error f ↔ First Statement.Unencodable ss f := by
  rw [emit, Outcome.result_mapM_eq_error_iff]
  exact first_congr (fun s hs g => Statement.result_emit_eq_error_iff (hl s hs) (hp s hs)) f

end Program
end Chip8
