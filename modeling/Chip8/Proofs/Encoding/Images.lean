/-
# Which programs have the same image

Of a statement without names, bytes are made in one way for each kind of statement
(`Statement.emitted_of_emit`); those of an instruction are its opcode. So the image of
a program without directives is the opcodes of its instructions, two bytes each, and
gives them back one by one (`flatMap_bytes_injective`). And an opcode gives back its
instruction, up to what the machine does not see (`Form.opcode_eq_iff`). Labels have
no bytes, and origins are seen only in the addresses that instructions carry.

Key definitions: `Statement.Encoded`, `Statement.Emitted`, `Program.instructions`.
Key theorems: `Statement.emitted_of_emit`, `flatMap_bytes_injective`, `exists_opcodes_of_emit`,
`image_eq_iff_alike`.
-/
import Chip8.Proofs.Assembly.Program
import Chip8.Proofs.Encoding.Forms

namespace Chip8

/-! ### What making bytes does -/

namespace Operand

/-- An operand of `.db` is a byte, and its number is cut to one. -/
theorem byte_of_result {o : Operand} {b : UInt8} (hl : o.Literal) (h : o.byte.result = .ok b) :
    o.kind = .byte ∧ o.number.toUInt8 = b ∧ o.byte.notices = o.load.notices := by
  unfold byte at h ⊢
  split at h
  · next hk =>
    rw [Outcome.bind_ok (result_load hl)] at h
    rw [if_pos hk, Outcome.bind_ok (result_load hl), Outcome.notices_pure, List.append_nil]
    exact ⟨hk, Except.ok.inj h, rfl⟩
  · cases h

/-- The operands of a `.db` are bytes, and their numbers are cut one by one. -/
theorem bytes_of_mapM : ∀ {os : List Operand} {bs : List UInt8}, (∀ o ∈ os, o.Literal) →
    (os.mapM byte).result = .ok bs →
      (∀ o ∈ os, o.kind = .byte) ∧ os.map (fun o => o.number.toUInt8) = bs ∧
        (os.mapM byte).notices = os.flatMap fun o => o.load.notices
  | [], bs, _, h => by
    cases h
    simp
  | o :: os, bs, hl, h => by
    obtain ⟨ho, hos⟩ := List.forall_mem_cons.mp hl
    rw [List.mapM_cons] at h ⊢
    obtain ⟨b, hb, h⟩ := Outcome.bind_eq_ok_iff.mp h
    obtain ⟨bs, hbs, h⟩ := Outcome.bind_eq_ok_iff.mp h
    cases h
    obtain ⟨hkind, hbyte, hnotices⟩ := byte_of_result ho hb
    obtain ⟨hkinds, hbytes, hrest⟩ := bytes_of_mapM hos hbs
    refine ⟨List.forall_mem_cons.mpr ⟨hkind, hkinds⟩, by rw [List.map_cons, hbyte, hbytes], ?_⟩
    rw [Outcome.bind_ok hb, Outcome.bind_ok hbs, hnotices, hrest, Outcome.notices_pure,
      List.append_nil, List.flatMap_cons]

end Operand

namespace Statement

/-- The statement is an instruction with the opcode. -/
inductive Encoded : Statement → UInt16 → Prop where
  | intro {form : Form} {os : List Operand} {p : Position} (hmem : form ∈ Form.table)
      (hkinds : form.kinds = os.map Operand.kind) :
      Encoded (.instruction form.mnemonic os p) (form.opcode os)

def isInstruction : Statement → Bool
  | instruction _ _ _ => true
  | _ => false

def isDirective : Statement → Bool
  | directive _ _ _ => true
  | _ => false

/-- What making the bytes of a statement yields, and what is noted: of an instruction the opcode of
its form, and of a `.db` its numbers, cut to bytes. -/
inductive Emitted : Statement → List UInt8 → List Notice → Prop where
  | label (name : String) (p : Position) : Emitted (.label name p) [] []
  | instruction {form : Form} {os : List Operand} (p : Position) (hmem : form ∈ Form.table)
      (hkinds : form.kinds = os.map Operand.kind) :
      Emitted (.instruction form.mnemonic os p) (Instruction.bytes (form.opcode os))
        (Slot.lay form.slots os form.base).notices
  | origin (os : List Operand) (p : Position) : Emitted (.directive "org" os p) [] []
  | data {os : List Operand} (p : Position) (hkinds : ∀ o ∈ os, o.kind = .byte) :
      Emitted (.directive "db" os p) (os.map fun o => o.number.toUInt8)
        (os.flatMap fun o => o.load.notices)

/-- **What making bytes does** to a statement without names. -/
theorem emitted_of_emit {s : Statement} {bs : List UInt8} (hl : s.Literal)
    (h : s.emit.result = .ok bs) : s.Emitted bs s.emit.notices := by
  cases s with
  | label name p =>
    cases h
    exact .label name p
  | instruction m os p =>
    have hos : ∀ o ∈ os, o.Literal := hl
    obtain ⟨op, hop, hbytes⟩ := Outcome.bind_eq_ok_iff.mp h
    cases hbytes
    rw [emit, Outcome.bind_ok hop, Outcome.notices_pure, List.append_nil]
    cases hform : Form.find? m (os.map Operand.kind) with
    | none =>
      rw [Instruction.encode_of_find?_eq_none hform] at hop
      cases hop
    | some form =>
      obtain ⟨hmem, rfl, hkinds⟩ := Form.find?_eq_some_iff.mp hform
      rw [Instruction.encode_eq_lay_slots hform] at hop ⊢
      rw [Slot.result_lay form.slots form.base hos] at hop
      obtain rfl := Except.ok.inj hop
      exact .instruction p hmem hkinds
  | directive name os p =>
    rw [emit] at h ⊢
    split at h
    · next horg =>
      obtain rfl := Directive.ofName?_eq_org_iff.mp horg
      cases h
      exact .origin os p
    · next hdb =>
      obtain rfl := Directive.ofName?_eq_db_iff.mp hdb
      have hos : ∀ o ∈ os, o.Literal := hl
      obtain ⟨hkinds, rfl, hnotices⟩ := Operand.bytes_of_mapM hos h
      change Emitted _ _ (os.mapM Operand.byte).notices
      rw [hnotices]
      exact .data p hkinds
    · cases h

/-- The bytes of an instruction without names are those of its opcode. -/
theorem exists_encoded_of_emit {m : String} {os : List Operand} {p : Position} {bs : List UInt8}
    (hl : (instruction m os p).Literal) (h : (instruction m os p).emit.result = .ok bs) :
    ∃ op, Encoded (instruction m os p) op ∧ bs = Instruction.bytes op := by
  have hemitted := emitted_of_emit hl h
  generalize (instruction m os p).emit.notices = ns at hemitted
  cases hemitted with
  | instruction _ hmem hkinds => exact ⟨_, .intro hmem hkinds, rfl⟩

variable {s s' : Statement} {op op' : UInt16}

theorem Encoded.eq_iff_alike (h : s.Encoded op) (h' : s'.Encoded op') :
    op = op' ↔ s.Alike s' := by
  obtain ⟨hmem, hkinds⟩ := h
  obtain ⟨hmem', hkinds'⟩ := h'
  exact Form.opcode_eq_iff hmem hmem' rfl rfl hkinds hkinds'

/-- Rows of instructions have the same opcodes iff they are alike one by one. -/
theorem opcodes_eq_iff_alike {ss ss' : List Statement} {ops ops' : List UInt16}
    (h : List.Forall₂ Encoded ss ops) (h' : List.Forall₂ Encoded ss' ops') :
    ops = ops' ↔ List.Forall₂ Alike ss ss' := by
  induction h generalizing ss' ops' with
  | nil =>
    cases h' with
    | nil => simp
    | cons => simp
  | cons hs hss ih =>
    cases h' with
    | nil => simp
    | cons hs' hss' => rw [List.cons.injEq, List.forall₂_cons, hs.eq_iff_alike hs', ih hss']

end Statement

/-! ### Images -/

/-- A row of opcodes is the bytes it is put down as. -/
theorem Instruction.flatMap_bytes_injective : ∀ {ops ops' : List UInt16},
    ops.flatMap bytes = ops'.flatMap bytes → ops = ops'
  | [], [], _ => rfl
  | [], op' :: ops', h => by simp [bytes] at h
  | op :: ops, [], h => by simp [bytes] at h
  | op :: ops, op' :: ops', h => by
    rw [List.flatMap_cons, List.flatMap_cons] at h
    obtain ⟨hop, hops⟩ := List.append_inj h rfl
    rw [bytes_injective hop, flatMap_bytes_injective hops]

/-- The bytes of labels and instructions are the opcodes of the instructions. -/
theorem Program.exists_opcodes_of_emit {ss : List Statement} {code : List (List UInt8)}
    (h : (emit ss).result = .ok code) (hl : ∀ s ∈ ss, s.Literal)
    (hd : ∀ s ∈ ss, s.isDirective = false) :
    ∃ ops, List.Forall₂ Statement.Encoded (ss.filter Statement.isInstruction) ops ∧
      code.flatten = ops.flatMap Instruction.bytes := by
  rw [emit, Outcome.result_mapM_eq_ok_iff] at h
  induction h with
  | nil => exact ⟨[], .nil, rfl⟩
  | @cons s bs ss code hs hss ih =>
    obtain ⟨hls, hlss⟩ := List.forall_mem_cons.mp hl
    obtain ⟨hds, hdss⟩ := List.forall_mem_cons.mp hd
    obtain ⟨ops, hops, hcode⟩ := ih hlss hdss
    cases s with
    | label name p =>
      cases hs
      exact ⟨ops, hops, hcode⟩
    | instruction m os p =>
      obtain ⟨op, hop, rfl⟩ := Statement.exists_encoded_of_emit hls hs
      refine ⟨op :: ops, .cons hop hops, ?_⟩
      rw [List.flatten_cons, List.flatMap_cons, hcode]
    | directive name os p => cases hds

/-- The instructions of a program that begins at `origin`, names replaced. -/
def Program.instructions (origin : UInt32) (program : List Statement) : List Statement :=
  (resolved origin program).filter Statement.isInstruction

theorem Statement.isDirective_resolved (symbols : Symbols) (s : Statement) :
    (s.resolved symbols).isDirective = s.isDirective := by
  cases s <;> rfl

variable {source source' text text' : String} {origin origin' : UInt32}
  {program program' : List Statement} {a b : Assembly}

/-- The image of labels and instructions is the opcodes of the instructions. -/
theorem exists_opcodes_of_assemble (hr : Reads source text program)
    (h : (assemble source text origin).result = .ok a)
    (hd : ∀ s ∈ program, s.isDirective = false) :
    ∃ ops, List.Forall₂ Statement.Encoded (Program.instructions origin program) ops ∧
      a.image = ops.flatMap Instruction.bytes := by
  rw [result_assemble_of_reads hr] at h
  obtain ⟨-, hb, -⟩ := result_assembleProgram_eq_ok_iff.mp h
  obtain ⟨-, -, hemit, -⟩ := columns_of_assembleProgram h
  have hresolved : ∀ s ∈ Program.resolved origin program, s.isDirective = false :=
    List.forall_mem_map.mpr fun s hs => (s.isDirective_resolved _).trans (hd s hs)
  obtain ⟨ops, hops, hcode⟩ :=
    Program.exists_opcodes_of_emit hemit (Program.literal_resolved hb) hresolved
  exact ⟨ops, hops, (List.flatMap_def ..).trans hcode⟩

/-- **An image determines its instructions**, up to what the machine does not see. Let two texts be
read as programs of labels and instructions, and be assembled, each with its own origin. Their
images are the same bytes iff the instructions of the programs, names replaced, are alike one by
one. -/
theorem image_eq_iff_alike (hr : Reads source text program) (hr' : Reads source' text' program')
    (ha : (assemble source text origin).result = .ok a)
    (hb : (assemble source' text' origin').result = .ok b)
    (hd : ∀ s ∈ program, s.isDirective = false) (hd' : ∀ s ∈ program', s.isDirective = false) :
    a.image = b.image ↔
      List.Forall₂ Statement.Alike (Program.instructions origin program)
        (Program.instructions origin' program') := by
  obtain ⟨ops, hops, himage⟩ := exists_opcodes_of_assemble hr ha hd
  obtain ⟨ops', hops', himage'⟩ := exists_opcodes_of_assemble hr' hb hd'
  rw [himage, himage', ← Statement.opcodes_eq_iff_alike hops hops']
  exact ⟨Instruction.flatMap_bytes_injective, congrArg _⟩

/-- Shifts with and without a second register, jumps with different registers, a label at an
address that does not fit, and a byte that is cut. -/
theorem image_eq_iff_alike_aliases :
    ∃ program program' a b,
      Reads "a" "x: shr @17 jp @1, [x] ld @1, #1FF shl @3, @16" program ∧
      Reads "b" "shr @1, @32 jp @2, [0] y: ld @17, 255 shl @3" program' ∧
      (assemble "a" "x: shr @17 jp @1, [x] ld @1, #1FF shl @3, @16" 4096).result = .ok a ∧
      (assemble "b" "shr @1, @32 jp @2, [0] y: ld @17, 255 shl @3" 512).result = .ok b ∧
      a.image = [0x81, 0x06, 0xB0, 0x00, 0x61, 0xFF, 0x83, 0x0E] ∧
      b.image = [0x81, 0x06, 0xB0, 0x00, 0x61, 0xFF, 0x83, 0x0E] ∧
      (Program.instructions 4096 program).length = 4 ∧
      List.Forall₂ Statement.Alike (Program.instructions 4096 program)
        (Program.instructions 512 program') := by
  have hread : ((Token.tokenize "a" "x: shr @17 jp @1, [x] ld @1, #1FF shl @3, @16").result.bind
      fun tokens => (Program.read tokens).result.bind fun program =>
        (assemble "a" "x: shr @17 jp @1, [x] ld @1, #1FF shl @3, @16" 4096).result.map fun a =>
          decide ((∀ s ∈ program, s.isDirective = false) ∧
            a.image = [0x81, 0x06, 0xB0, 0x00, 0x61, 0xFF, 0x83, 0x0E] ∧
            (Program.instructions 4096 program).length = 4)) = .ok true := by
    decide +kernel
  have hread' : ((Token.tokenize "b" "shr @1, @32 jp @2, [0] y: ld @17, 255 shl @3").result.bind
      fun tokens => (Program.read tokens).result.bind fun program =>
        (assemble "b" "shr @1, @32 jp @2, [0] y: ld @17, 255 shl @3" 512).result.map fun b =>
          decide ((∀ s ∈ program, s.isDirective = false) ∧
            b.image = [0x81, 0x06, 0xB0, 0x00, 0x61, 0xFF, 0x83, 0x0E])) = .ok true := by
    decide +kernel
  obtain ⟨tokens, ht, hread⟩ := Except.bind_eq_ok_iff.mp hread
  obtain ⟨program, hp, hread⟩ := Except.bind_eq_ok_iff.mp hread
  obtain ⟨a, ha, hread⟩ := Except.map_eq_ok_iff.mp hread
  obtain ⟨hd, himage, hcount⟩ := of_decide_eq_true hread
  obtain ⟨tokens', ht', hread'⟩ := Except.bind_eq_ok_iff.mp hread'
  obtain ⟨program', hp', hread'⟩ := Except.bind_eq_ok_iff.mp hread'
  obtain ⟨b, hb, hread'⟩ := Except.map_eq_ok_iff.mp hread'
  obtain ⟨hd', himage'⟩ := of_decide_eq_true hread'
  exact ⟨program, program', a, b, ⟨tokens, ht, hp⟩, ⟨tokens', ht', hp'⟩, ha, hb, himage, himage',
    hcount, (image_eq_iff_alike ⟨tokens, ht, hp⟩ ⟨tokens', ht', hp'⟩ ha hb hd hd').mp
      (himage.trans himage'.symm)⟩

end Chip8
