/-
# Assembling elsewhere

Assembling copies positions from statements and operands to faults and does not
look at them. So a program that is moved assembles to the same addresses, bytes and
symbols, and to its statements moved; and if it is at fault, then at the same
fault, moved (`result_assembleProgram_moved`). Every pass is such a step.

Key definitions: `Line.moved`, `Assembly.moved`.
Key theorems: `columns_moved`, `result_place_moved`, `resolve_moved`, `result_emit_moved`,
`result_assembleProgram_moved`.
-/
import Chip8.Proofs.Assembly.Program
import Chip8.Proofs.Moved.Basic

namespace Chip8

/-- The line with its statement moved. -/
def Line.moved (f : Position → Position) (l : Line) : Line :=
  { l with statement := l.statement.moved f }

/-- The assembled program with its statements moved. -/
def Assembly.moved (f : Position → Position) (a : Assembly) : Assembly :=
  { a with lines := a.lines.map (Line.moved f) }

variable {f : Position → Position}

theorem Assembly.image_moved (a : Assembly) : (a.moved f).image = a.image :=
  List.flatMap_map (Line.moved f) Line.bytes a.lines

/-- Moving an assembled program leaves its columns as they are, but for positions. -/
theorem Assembly.columns_moved (f : Position → Position) (a : Assembly) :
    (a.moved f).lines.map Line.address = a.lines.map Line.address ∧
      (a.moved f).lines.map Line.bytes = a.lines.map Line.bytes ∧
      (a.moved f).symbols = a.symbols ∧
      ((a.moved f).lines.map fun l => l.statement.unlocated) =
        a.lines.map fun l => l.statement.unlocated := by
  have hcolumn : ∀ {β : Type} (k : Line → β), (∀ l, k (l.moved f) = k l) →
      (a.moved f).lines.map k = a.lines.map k := by
    intro β k hk
    rw [moved, List.map_map]
    exact List.map_congr_left fun l _ => hk l
  exact ⟨hcolumn Line.address fun _ => rfl, hcolumn Line.bytes fun _ => rfl, rfl,
    hcolumn (fun l => l.statement.unlocated) fun l => l.statement.unlocated_moved f⟩

/-! ### Placing -/

theorem Directive.originOf_moved (p : Position) (os : List Operand) :
    originOf (f p) (os.map (Operand.moved f)) = relocate f id (originOf p os) := by
  match os with
  | [] => rfl
  | [o] =>
    obtain ⟨kind, value, position⟩ := o
    simp only [List.map_cons, List.map_nil, originOf, Operand.moved]
    split
    · cases value <;> rfl
    · rfl
  | o :: o' :: os => rfl

namespace Layout

/-- A statement is placed in the same way wherever it stands in a text. -/
theorem place_moved (l : Layout) (s : Statement) :
    (l.place (s.moved f)).1 = (l.place s).1 ∧
      (l.place (s.moved f)).2.result = relocate f id (l.place s).2.result := by
  cases s with
  | label name p =>
    rw [Statement.moved, place_label, place_label]
    exact ⟨rfl, rfl⟩
  | instruction m os p => exact ⟨rfl, rfl⟩
  | directive name os p =>
    rw [Statement.moved]
    cases hd : Directive.ofName? name with
    | none =>
      rw [place_unknown l hd, place_unknown l hd]
      exact ⟨rfl, rfl⟩
    | some d =>
      cases d with
      | org =>
        obtain rfl := Directive.ofName?_eq_org_iff.mp hd
        have ho := Directive.originOf_moved (f := f) p os
        cases horigin : Directive.originOf p os with
        | error e =>
          rw [horigin] at ho
          rw [place_origin_error l horigin, place_origin_error l ho]
          exact ⟨rfl, rfl⟩
        | ok n =>
          rw [horigin] at ho
          rw [place_origin l horigin, place_origin l ho]
          exact ⟨rfl, rfl⟩
      | db =>
        obtain rfl := Directive.ofName?_eq_db_iff.mp hd
        cases os with
        | nil => exact ⟨rfl, rfl⟩
        | cons o os =>
          rw [List.map_cons, place_data l (List.cons_ne_nil o os),
            place_data l (List.cons_ne_nil _ _), List.length_cons, List.length_map]
          exact ⟨rfl, rfl⟩

/-- A program is placed in the same way wherever it stands. -/
theorem placeAll_moved : ∀ (ss : List Statement) (l : Layout),
    (l.placeAll (ss.map (Statement.moved f))).1 = (l.placeAll ss).1 ∧
      (l.placeAll (ss.map (Statement.moved f))).2.result = relocate f id (l.placeAll ss).2.result
  | [], _ => ⟨rfl, rfl⟩
  | s :: ss, l => by
    obtain ⟨hlayout, hs⟩ := l.place_moved (f := f) s
    rw [List.map_cons]
    cases hplace : (l.place s).2.result with
    | error e =>
      rw [hplace] at hs
      rw [placeAll_error hplace, placeAll_error hs]
      exact ⟨hlayout, rfl⟩
    | ok =>
      rw [hplace] at hs
      obtain ⟨hlast, has⟩ := placeAll_moved ss (l.place s).1
      rw [placeAll_ok hplace, placeAll_ok hs, hlayout]
      exact ⟨hlast, relocate_map has fun as => rfl⟩

end Layout

/-! ### Replacing names -/

theorem Operand.resolve_moved (symbols : Symbols) (o : Operand) :
    (o.moved f).resolve symbols =
      (o.resolve symbols).map (Operand.moved f) (Option.map (Fault.moved f)) := by
  obtain ⟨kind, value, p⟩ := o
  cases value with
  | name x => cases hx : symbols.get? x <;> simp [resolve, moved, hx, Fault.moved]
  | number n => rfl
  | absent => rfl

theorem Statement.withOperands_moved (s : Statement) (os : List Operand) :
    (s.moved f).withOperands (os.map (Operand.moved f)) = (s.withOperands os).moved f := by
  cases s <;> rfl

theorem Statement.resolve_moved (symbols : Symbols) (s : Statement) :
    (s.moved f).resolve symbols =
      (s.resolve symbols).map (Statement.moved f) (Option.map (Fault.moved f)) := by
  rw [resolve, operands_moved, replaceUntil_map fun o _ => Operand.resolve_moved symbols o]
  simp only [Prod.map, withOperands_moved]
  rfl

/-- Names are replaced in the same way wherever they stand. -/
theorem Program.resolve_moved (symbols : Symbols) (ss : List Statement) :
    resolve symbols (ss.map (Statement.moved f)) =
      (resolve symbols ss).map (List.map (Statement.moved f)) (Option.map (Fault.moved f)) :=
  replaceUntil_map fun s _ => s.resolve_moved symbols

/-! ### Making bytes -/

theorem Operand.result_load_moved (o : Operand) :
    (o.moved f).load.result = relocate f id o.load.result := by
  obtain ⟨kind, value, p⟩ := o
  cases value <;> rfl

theorem Operand.result_byte_moved (o : Operand) :
    (o.moved f).byte.result = relocate f id o.byte.result := by
  by_cases hk : o.kind = .byte
  · simp only [byte, kind_moved, hk, if_true, Outcome.result_bind]
    exact relocate_bind o.result_load_moved fun v => rfl
  · simp only [byte, kind_moved, hk, if_false]
    rfl

theorem Slot.result_lay_moved : ∀ (slots : List Slot) (os : List Operand) (opcode : UInt16),
    (lay slots (os.map (Operand.moved f)) opcode).result =
      relocate f id (lay slots os opcode).result
  | [], os, opcode => by simp [lay, relocate]
  | slot :: slots, [], opcode => by simp [lay, relocate]
  | ⟨kind, none⟩ :: slots, o :: os, opcode => by
    simp only [List.map_cons, lay]
    exact result_lay_moved slots os opcode
  | ⟨kind, some field⟩ :: slots, o :: os, opcode => by
    simp only [List.map_cons, lay, Outcome.result_bind]
    exact relocate_bind o.result_load_moved fun v => result_lay_moved slots os _

theorem Instruction.result_encode_moved (m : String) (os : List Operand) (p : Position) :
    (encode m (os.map (Operand.moved f)) (f p)).result = relocate f id (encode m os p).result := by
  have hkinds := Operand.map_kind_moved (f := f) os
  cases hform : Form.find? m (os.map Operand.kind) with
  | none =>
    rw [encode_of_find?_eq_none hform, encode_of_find?_eq_none (hkinds ▸ hform), hkinds]
    rfl
  | some form =>
    rw [encode_eq_lay_slots hform, encode_eq_lay_slots (hkinds ▸ hform)]
    exact Slot.result_lay_moved _ os _

theorem Statement.result_emit_moved (s : Statement) :
    (s.moved f).emit.result = relocate f id s.emit.result := by
  cases s with
  | label name p => rfl
  | instruction m os p =>
    simp only [moved, emit, Outcome.result_bind]
    exact relocate_bind (Instruction.result_encode_moved m os p) fun opcode => rfl
  | directive name os p =>
    simp only [moved, emit]
    split
    · rfl
    · have hbytes := relocate_mapM (f := f) (h := id) fun o (_ : o ∈ os) =>
        o.result_byte_moved (f := f)
      rwa [List.map_id_fun] at hbytes
    · rfl

/-- Bytes are made in the same way wherever statements stand. -/
theorem Program.result_emit_moved (ss : List Statement) :
    (emit (ss.map (Statement.moved f))).result = relocate f id (emit ss).result := by
  have hcode := relocate_mapM (f := f) (h := id) fun s (_ : s ∈ ss) =>
    s.result_emit_moved (f := f)
  rwa [List.map_id_fun] at hcode

/-! ### All passes -/

/-- **A program assembles in the same way wherever it stands.** -/
theorem result_assembleProgram_moved (source source' : String) (origin : UInt32)
    (program : List Statement) :
    (assembleProgram source' origin (program.map (Statement.moved f))).result =
      relocate f (Assembly.moved f) (assembleProgram source origin program).result := by
  obtain ⟨hlayout, has⟩ := Layout.placeAll_moved (f := f) program (Layout.start origin)
  rw [result_assembleProgram, result_assembleProgram, hlayout, Program.resolve_moved]
  refine relocate_bind has fun as => ?_
  rcases Program.resolve ((Layout.start origin).placeAll program).1.symbols program with ⟨ss, _ | e⟩
  · refine relocate_map (Program.result_emit_moved ss) fun code => ?_
    rw [id, id, Assembly.linesOf_map]
    rfl
  · rfl

end Chip8
