/-
# Texts from another origin

A text that is assembled from an origin `d` bytes further on is assembled to the same
statements, and whether it is assembled at all, or what is wrong with it, does not depend
on the origin. Where the statements stand and what names are bound to, drifts
(`Layout.Apart`). Bytes change only where they hold a name: a field of an opcode and a
byte of `.db` that a name was written for holds a number as much further on as the name
drifts, cut to its width as the number was (`Statement.Drifts`). This survives the cutting,
since the sizes of fields divide 2^32 (`Field.toNat_add_mod_size`).

Key definitions: `Operand.Drifts`, `Statement.Drifts`, `Line.Drifts`, `Assembly.Drifts`.
Key theorems: `Operand.exists_drifts`, `Statement.drifts_of_emit`,
`drifts_of_assembleProgram`, `texts_drift_with_their_origin`.
-/
import Chip8.Proofs.Assembly.Acceptance
import Chip8.Proofs.Encoding.Exact
import Chip8.Proofs.Encoding.Images
import Chip8.Proofs.Relocation.Layouts

namespace Chip8

/-- How far the number moves that an operand stands for: that of a name as far as the name
drifts. -/
inductive Operand.Drifts (d : UInt32) (program : List Statement) : Operand → UInt32 → Prop where
  | name {o : Operand} {x : String} {e : UInt32} (hx : o.value = .name x)
      (h : Program.NameDrifts d program x e) : Drifts d program o e
  | literal {o : Operand} (h : o.Literal) : Drifts d program o 0

/-- What becomes of the bytes of a statement of the program: the bytes of `.db` move with their
operands, and so do the fields of an opcode; the rest of it stays. -/
inductive Statement.Drifts (d : UInt32) (program : List Statement) :
    Statement → List UInt8 → List UInt8 → Prop where
  | label (name : String) (p : Position) : Drifts d program (.label name p) [] []
  | origin (os : List Operand) (p : Position) : Drifts d program (.directive "org" os p) [] []
  | data {os : List Operand} {bs : List UInt8} {es : List UInt32} (p : Position)
      (hbs : bs.length = os.length) (hes : List.Forall₂ (Operand.Drifts d program) os es) :
      Drifts d program (.directive "db" os p) bs
        (List.zipWith (fun b e => b + e.toUInt8) bs es)
  | instruction {m : String} {os : List Operand} {op op' : UInt16} (p : Position)
      (hfields : ∀ q ∈ Instruction.packed m os, ∃ e, q.2.Drifts d program e ∧
        q.1.get op' = (q.1.get op + e.toNat) % q.1.size)
      (hrest : ∀ i, (∀ q ∈ Instruction.packed m os, ¬q.1.Covers i) →
        op'.toNat.testBit i = op.toNat.testBit i) :
      Drifts d program (.instruction m os p) (Instruction.bytes op) (Instruction.bytes op')

/-- What becomes of the line of a statement of the program that stands behind `before`. -/
structure Line.Drifts (d : UInt32) (program before : List Statement) (s : Statement)
    (l m : Line) : Prop where
  address : m.address = l.address + Program.drift d before
  length : m.bytes.length = l.bytes.length
  literal : s.Literal → m.bytes = l.bytes
  bytes : s.Drifts d program l.bytes m.bytes

/-- What becomes of a program from an origin that is `d` further on. -/
structure Assembly.Drifts (d : UInt32) (program : List Statement) (a b : Assembly) : Prop where
  length_left : a.lines.length = program.length
  length_right : b.lines.length = program.length
  lines : ∀ i s, program[i]? = some s → ∃ l m, a.lines[i]? = some l ∧ b.lines[i]? = some m ∧
    Line.Drifts d program (program.take i) s l m
  symbols : a.symbols.Apart d program b.symbols

/-! ### Operands -/

/-- A number that is moved and cut is moved behind the cut, and cut again. -/
theorem Field.toNat_add_mod_size (f : Field) (v e : UInt32) :
    (v + e).toNat % f.size = (v.toNat % f.size + e.toNat) % f.size := by
  have hdvd : f.size ∣ 2 ^ 32 := by cases f <;> decide
  rw [UInt32.toNat_add, Nat.mod_mod_of_dvd _ hdvd, Nat.mod_add_mod]

section Operands

variable {d : UInt32} {program : List Statement} {s t : Symbols} (h : s.Apart d program t)

include h

theorem Symbols.Apart.get?_ne_none {x : String} (hx : s.get? x ≠ none) : t.get? x ≠ none := by
  rcases h x with ⟨hs, -⟩ | ⟨address, e, -, ht, -⟩
  · exact absurd hs hx
  · simp [ht]

theorem Operand.bound_of_apart {o : Operand} (ho : o.Bound s) : o.Bound t :=
  fun x hx => h.get?_ne_none (ho x hx)

/-- An operand drifts: what stands for it moves as its name. -/
theorem Operand.exists_drifts {o : Operand} (ho : o.Bound s) :
    ∃ e, o.Drifts d program e ∧ (o.resolved t).number = (o.resolved s).number + e := by
  by_cases hlit : o.Literal
  · refine ⟨0, .literal hlit, ?_⟩
    rw [resolved_of_literal hlit, resolved_of_literal hlit, UInt32.add_zero]
  · obtain ⟨x, hx⟩ : ∃ x, o.value = .name x := by simpa [Literal] using hlit
    rcases h x with ⟨hs, -⟩ | ⟨address, e, hs, ht, hdrifts⟩
    · exact absurd hs (ho x hx)
    · refine ⟨e, .name hx hdrifts, ?_⟩
      simp [resolved, resolve, hx, hs, ht, number]

/-- The bytes of a row of operands drift one by one. -/
theorem Operand.exists_forall₂_drifts : ∀ {os : List Operand}, (∀ o ∈ os, o.Bound s) →
    ∃ es, List.Forall₂ (Operand.Drifts d program) os es ∧
      os.map (fun o => (o.resolved t).number.toUInt8) =
        List.zipWith (fun b e => b + e.toUInt8) (os.map fun o => (o.resolved s).number.toUInt8) es
  | [], _ => ⟨[], .nil, rfl⟩
  | o :: os, hos => by
    obtain ⟨ho, hos⟩ := List.forall_mem_cons.mp hos
    obtain ⟨e, he, hnumber⟩ := exists_drifts h ho
    obtain ⟨es, hes, hbytes⟩ := exists_forall₂_drifts hos
    refine ⟨e :: es, .cons he hes, ?_⟩
    rw [List.map_cons, List.map_cons, List.zipWith_cons_cons, hbytes, hnumber, UInt32.toUInt8_add]

end Operands

/-! ### Statements -/

/-- The bytes of an instruction without names are those of the opcode of its form. -/
theorem Statement.exists_form_of_emit {m : String} {os : List Operand} {p : Position}
    {bs : List UInt8} (hl : (instruction m os p).Literal)
    (h : (instruction m os p).emit.result = .ok bs) : ∃ form ∈ Form.table,
      form.mnemonic = m ∧ form.kinds = os.map Operand.kind ∧
        bs = Instruction.bytes (form.opcode os) := by
  obtain ⟨op, ⟨hmem, hkinds⟩, hbs⟩ := exists_encoded_of_emit hl h
  exact ⟨_, hmem, rfl, hkinds, hbs⟩

namespace Form

variable {form : Form} {os : List Operand} (hmem : form ∈ table)
  (hkinds : form.kinds = os.map Operand.kind) (symbols : Symbols)

include hmem hkinds

/-- Where operands are laid does not depend on their names, so the fields of an opcode hold what the
operands stand for. -/
theorem get_opcode_resolved : ∀ q ∈ Instruction.packed form.mnemonic os,
    q.1.get (form.opcode (os.map (Operand.resolved symbols))) =
      (q.2.resolved symbols).number.toNat % q.1.size := by
  have hkinds' : form.kinds = (os.map (Operand.resolved symbols)).map Operand.kind := by
    rw [hkinds, Operand.map_kind_resolved]
  have hget := get_opcode hmem hkinds'
  rwa [Instruction.packed_map Operand.kind_resolved, List.forall_mem_map] at hget

theorem testBit_opcode_resolved {i : Nat}
    (hi : ∀ q ∈ Instruction.packed form.mnemonic os, ¬q.1.Covers i) :
    (form.opcode (os.map (Operand.resolved symbols))).toNat.testBit i =
      form.base.toNat.testBit i := by
  have hkinds' : form.kinds = (os.map (Operand.resolved symbols)).map Operand.kind := by
    rw [hkinds, Operand.map_kind_resolved]
  apply testBit_opcode hmem hkinds'
  rwa [Instruction.packed_map Operand.kind_resolved, List.forall_mem_map]

end Form

section Statements

variable {d : UInt32} {program : List Statement} {symbols symbols' : Symbols}
  (h : symbols.Apart d program symbols')

include h

/-- Fields of an opcode drift with the operands that are laid into them. -/
theorem Form.drifts_opcode {form : Form} {os : List Operand} (hmem : form ∈ table)
    (hkinds : form.kinds = os.map Operand.kind) (hos : ∀ o ∈ os, o.Bound symbols) (p : Position) :
    Statement.Drifts d program (.instruction form.mnemonic os p)
      (Instruction.bytes (form.opcode (os.map (Operand.resolved symbols))))
      (Instruction.bytes (form.opcode (os.map (Operand.resolved symbols')))) := by
  refine .instruction p (fun q hq => ?_) fun i hi => ?_
  · obtain ⟨e, hdrifts, hnumber⟩ :=
      Operand.exists_drifts h (hos q.2 (mem_of_mem_packed hmem hkinds hq))
    refine ⟨e, hdrifts, ?_⟩
    have hget := get_opcode_resolved hmem hkinds symbols q hq
    have hget' := get_opcode_resolved hmem hkinds symbols' q hq
    rw [hget, hget', hnumber, Field.toNat_add_mod_size]
  · have hbit := testBit_opcode_resolved hmem hkinds symbols hi
    have hbit' := testBit_opcode_resolved hmem hkinds symbols' hi
    rw [hbit, hbit']

/-- The bytes of `.db` drift with its operands. -/
theorem Operand.drifts_data {os : List Operand} {bs cs : List UInt8}
    (hos : ∀ o ∈ os, o.Bound symbols)
    (hbs : ((os.map (resolved symbols)).mapM byte).result = .ok bs)
    (hcs : ((os.map (resolved symbols')).mapM byte).result = .ok cs) (p : Position) :
    Statement.Drifts d program (.directive "db" os p) bs cs := by
  have hl : ∀ o ∈ os.map (resolved symbols), o.Literal :=
    List.forall_mem_map.mpr fun o ho => literal_resolved (hos o ho)
  have hl' : ∀ o ∈ os.map (resolved symbols'), o.Literal :=
    List.forall_mem_map.mpr fun o ho => literal_resolved (bound_of_apart h (hos o ho))
  obtain ⟨-, rfl, -⟩ := bytes_of_mapM hl hbs
  obtain ⟨-, rfl, -⟩ := bytes_of_mapM hl' hcs
  obtain ⟨es, hes, hbytes⟩ := exists_forall₂_drifts h hos
  have hlength : ((os.map (resolved symbols)).map fun o => o.number.toUInt8).length =
      os.length := by
    rw [List.length_map, List.length_map]
  have hdata := Statement.Drifts.data p hlength hes
  rw [List.map_map] at hdata ⊢
  rw [List.map_map]
  exact hbytes ▸ hdata

/-- The bytes of a statement drift with the names in its operands. -/
theorem Statement.drifts_of_emit {s : Statement} {bs cs : List UInt8} (hb : s.Bound symbols)
    (hbs : (s.resolved symbols).emit.result = .ok bs)
    (hcs : (s.resolved symbols').emit.result = .ok cs) : s.Drifts d program bs cs := by
  have hl := literal_resolved hb
  have hl' := literal_resolved fun o ho => Operand.bound_of_apart h (hb o ho)
  cases s with
  | label name p =>
    cases hbs
    cases hcs
    exact .label name p
  | instruction m os p =>
    obtain ⟨form, hmem, rfl, hkinds, rfl⟩ := exists_form_of_emit hl hbs
    obtain ⟨form', hmem', hm', hkinds', rfl⟩ := exists_form_of_emit hl' hcs
    rw [Operand.map_kind_resolved] at hkinds hkinds'
    obtain rfl : form' = form := Form.eq_of_mem_table hmem' hmem hm' (hkinds'.trans hkinds.symm)
    exact Form.drifts_opcode h hmem hkinds hb p
  | directive name os p =>
    change (directive name (os.map (Operand.resolved symbols)) p).emit.result = _ at hbs
    change (directive name (os.map (Operand.resolved symbols')) p).emit.result = _ at hcs
    rw [emit] at hbs hcs
    cases hname : Directive.ofName? name with
    | none =>
      rw [hname] at hbs
      cases hbs
    | some directive =>
      rw [hname] at hbs hcs
      cases directive with
      | org =>
        obtain rfl := Directive.ofName?_eq_org_iff.mp hname
        cases hbs
        cases hcs
        exact .origin os p
      | db =>
        obtain rfl := Directive.ofName?_eq_db_iff.mp hname
        exact Operand.drifts_data h hb hbs hcs p

end Statements

/-! ### Programs -/

section Programs

variable {source text : String} {origin d : UInt32} {program : List Statement} {a b : Assembly}

theorem length_lines_of_assembleProgram
    (h : (assembleProgram source origin program).result = .ok a) :
    a.lines.length = program.length := by
  obtain ⟨-, hstatements, -⟩ := columns_of_assembleProgram h
  have hlength := congrArg List.length hstatements
  rwa [List.length_map, Program.resolved, List.length_map] at hlength

/-- The line of a statement stands at the cursor behind the statements before it, and has the bytes
of the statement, names replaced. -/
theorem exists_line_of_assembleProgram
    (h : (assembleProgram source origin program).result = .ok a) {i : Nat} {s : Statement}
    (hi : program[i]? = some s) :
    ∃ l, a.lines[i]? = some l ∧
      l.address = ((Layout.start origin).pastAll (program.take i)).cursor ∧
      (s.resolved (Program.symbols origin program)).emit.result = .ok l.bytes := by
  obtain ⟨haddresses, hstatements, -⟩ := columns_of_assembleProgram h
  obtain ⟨hlt, -⟩ := List.getElem?_eq_some_iff.mp hi
  have hlines : i < a.lines.length := by rwa [length_lines_of_assembleProgram h]
  have hl : a.lines[i]? = some a.lines[i] := List.getElem?_eq_getElem hlines
  have haddress := congrArg (·[i]?) haddresses
  have hstatement := congrArg (·[i]?) hstatements
  have hcursor := Program.getElem?_addresses (Layout.start origin) hlt
  simp only [Program.resolved, List.getElem?_map, hl, hi, Option.map_some,
    Option.some.injEq] at haddress hstatement
  refine ⟨_, hl, ?_, ?_⟩
  · exact Option.some.inj (haddress.trans hcursor)
  · rw [← hstatement]
    exact (literal_and_emit_of_mem_lines h _ (List.getElem_mem hlines)).2

/-- A program from an origin that is `d` further on is assembled to what drifts with it. -/
theorem drifts_of_assembleProgram (ha : (assembleProgram source origin program).result = .ok a)
    (hb : (assembleProgram source (origin + d) program).result = .ok b) :
    a.Drifts d program b := by
  obtain ⟨hp, hbound, -⟩ := result_assembleProgram_eq_ok_iff.mp ha
  obtain ⟨-, -, -, hsymbols⟩ := columns_of_assembleProgram ha
  obtain ⟨-, -, -, hsymbols'⟩ := columns_of_assembleProgram hb
  have hapart : (Program.symbols origin program).Apart d program
      (Program.symbols (origin + d) program) := (Layout.apart_pastAll origin hp).symbols
  refine ⟨length_lines_of_assembleProgram ha, length_lines_of_assembleProgram hb,
    fun i s hi => ?_, hsymbols ▸ hsymbols' ▸ hapart⟩
  obtain ⟨l, hl, haddress, hemit⟩ := exists_line_of_assembleProgram ha hi
  obtain ⟨m, hm, haddress', hemit'⟩ := exists_line_of_assembleProgram hb hi
  have htake : ∀ s ∈ program.take i, s.Placeable := fun s hs => hp s (List.mem_of_mem_take hs)
  refine ⟨l, m, hl, hm, ?_⟩
  constructor
  case address => rw [haddress, haddress', (Layout.apart_pastAll origin htake).cursor]
  case length =>
    rw [Statement.length_of_result_emit hemit, Statement.length_of_result_emit hemit',
      Statement.size_resolved, Statement.size_resolved]
  case literal =>
    intro hliteral
    rw [Statement.resolved_of_literal hliteral] at hemit hemit'
    exact Except.ok.inj (hemit'.symm.trans hemit)
  case bytes =>
    have hs := hbound s (List.mem_of_getElem? hi)
    exact Statement.drifts_of_emit hapart hs hemit hemit'

end Programs

/-- **A text drifts with its origin.** From two origins that are `d` apart, modulo 2^32, a text has
the same fault, or it is assembled from both, and of the second program, line by line: addresses are
`d` further on up to and with the first `.org` and the same behind it; a name has drifted with
its last label; there are as many bytes; they are the same if the statement has no name for an
operand; and of a name the field or the byte that it was laid into has drifted with the name, modulo
its size, while other bits stay. -/
theorem texts_drift_with_their_origin (source text : String) (origin d : UInt32) :
    (∃ f, (assemble source text origin).result = .error f ∧
        (assemble source text (origin + d)).result = .error f) ∨
      ∃ program a b, Reads source text program ∧ (assemble source text origin).result = .ok a ∧
        (assemble source text (origin + d)).result = .ok b ∧ a.Drifts d program b := by
  cases ha : (assemble source text origin).result with
  | error f =>
    have hfirst := result_assemble_eq_error_iff.mp ha
    exact .inl ⟨f, rfl, hfirst.result_assemble⟩
  | ok a =>
    have hreads := exists_result_assemble_iff.mp ⟨a, ha⟩
    obtain ⟨b, hb⟩ : ∃ b, (assemble source text (origin + d)).result = .ok b :=
      exists_result_assemble_iff.mpr hreads
    obtain ⟨program, hr, hpa⟩ := result_assemble_eq_ok_iff.mp ha
    have hpb := hb
    rw [result_assemble_of_reads hr] at hpb
    exact .inr ⟨program, a, b, hr, rfl, hb, drifts_of_assembleProgram hpa hpb⟩

/-- Four bytes further on, a label runs over what the field of a call and a byte can hold. -/
example : (assemble "t" "x: call [x]\n.org 2\n.db x" 0xFFE).result.map Assembly.image =
      .ok [0x2F, 0xFE, 0xFE] ∧
    (assemble "t" "x: call [x]\n.org 2\n.db x" 0x1002).result.map Assembly.image =
      .ok [0x20, 0x02, 0x02] := by
  decide +kernel

end Chip8
