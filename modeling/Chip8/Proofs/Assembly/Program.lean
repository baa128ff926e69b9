/-
# What assembling does

The passes one behind another. The symbols of a program are those that placing
it leaves (`Program.symbols`), and with them its names are replaced
(`Program.resolved`). A program that is assembled can be placed, has all names
bound, and has bytes; its lines are the addresses, the statements with their
names replaced, and the bytes, side by side (`result_assembleProgram_eq_ok_iff`).
A text that is assembled is split, read, and then assembled as a program
(`result_assemble_eq_ok_iff`).

Key definitions: `Program.symbols`, `Program.resolved`, `Reads`.
Key theorems: `result_assembleProgram`, `result_assembleProgram_eq_ok_iff`,
`result_assemble_eq_ok_iff`, `columns_of_assembleProgram`, `literal_and_emit_of_mem_lines`.
-/
import Chip8.Assembly.Basic
import Chip8.Proofs.Assembly.Emit

namespace Chip8

namespace Program

/-- The symbols of a program that begins at `origin`. -/
def symbols (origin : UInt32) (program : List Statement) : Symbols :=
  ((Layout.start origin).pastAll program).symbols

/-- A program that begins at `origin`, its names replaced by its own symbols. -/
def resolved (origin : UInt32) (program : List Statement) : List Statement :=
  program.map (Statement.resolved (symbols origin program))

/-- A label of the program has the name `x`. -/
def Defines (program : List Statement) (x : String) : Prop := ∃ p, Statement.label x p ∈ program

end Program

/-- The text is read as the program. -/
def Reads (source text : String) (program : List Statement) : Prop :=
  ∃ tokens, (Token.tokenize source text).result = .ok tokens ∧
    (Program.read tokens).result = .ok program

variable {source : String} {origin : UInt32} {program : List Statement}

/-- The names that a program binds are those of its labels. -/
theorem Program.get?_symbols_ne_none_iff {x : String} :
    (symbols origin program).get? x ≠ none ↔ Defines program x := by
  change ((Layout.start origin).pastAll program).get? x ≠ none ↔ _
  rw [Layout.get?_pastAll_ne_none_iff, Layout.get?_start]
  constructor
  · rintro (h | ⟨s, hs, hlabel⟩)
    · exact absurd rfl h
    · cases s with
      | label name p =>
        cases hlabel
        exact ⟨p, hs⟩
      | instruction m os p => cases hlabel
      | directive name os p => cases hlabel
  · rintro ⟨p, hp⟩
    exact .inr ⟨_, hp, rfl⟩

theorem Program.placeable_resolved (hp : ∀ s ∈ program, s.Placeable) :
    ∀ s ∈ resolved origin program, s.Placeable :=
  List.forall_mem_map.mpr fun s hs => Statement.placeable_resolved (hp s hs)

theorem Program.literal_resolved (hb : ∀ s ∈ program, s.Bound (symbols origin program)) :
    ∀ s ∈ resolved origin program, s.Literal :=
  List.forall_mem_map.mpr fun s hs => Statement.literal_resolved (hb s hs)

/-- The outcome of assembling a program, pass by pass. -/
theorem result_assembleProgram (source : String) (origin : UInt32) (program : List Statement) :
    (assembleProgram source origin program).result =
      ((Layout.start origin).placeAll program).2.result.bind fun addresses =>
        match Program.resolve ((Layout.start origin).placeAll program).1.symbols program with
        | (_, some f) => .error f
        | (resolved, none) => (Program.emit resolved).result.map fun code =>
          ⟨Assembly.linesOf addresses resolved code,
            ((Layout.start origin).placeAll program).1.symbols⟩ := by
  unfold assembleProgram
  simp only [Outcome.result_bind, Outcome.result_raise, Except.bind]
  split
  · rfl
  · generalize Program.resolve ((Layout.start origin).placeAll program).1.symbols program = r
    obtain ⟨resolved, _ | f⟩ := r
    · simp only [Outcome.result_bind, Outcome.result_raise, Except.bind]
      cases (Program.emit resolved).result <;> rfl
    · rfl

/-- Of a program that can be placed, names are replaced and bytes are made. -/
theorem result_assembleProgram_of_placeable (hp : ∀ s ∈ program, s.Placeable) :
    (assembleProgram source origin program).result =
      match Program.resolve (Program.symbols origin program) program with
      | (_, some f) => .error f
      | (resolved, none) => (Program.emit resolved).result.map fun code =>
        ⟨Assembly.linesOf (Program.addresses origin program) resolved code,
          Program.symbols origin program⟩ := by
  obtain ⟨hlayout, has⟩ := Layout.placeAll_of_placeable (Layout.start origin) hp
  rw [result_assembleProgram, has, hlayout]
  rfl

/-- Of a program with all names bound besides, bytes are made. -/
theorem result_assembleProgram_of_bound (hp : ∀ s ∈ program, s.Placeable)
    (hb : ∀ s ∈ program, s.Bound (Program.symbols origin program)) :
    (assembleProgram source origin program).result =
      (Program.emit (Program.resolved origin program)).result.map fun code =>
        ⟨Assembly.linesOf (Program.addresses origin program) (Program.resolved origin program) code,
          Program.symbols origin program⟩ := by
  rw [result_assembleProgram_of_placeable hp, Program.resolve_of_bound hb]
  rfl

/-- **What a program assembles to.** -/
theorem result_assembleProgram_eq_ok_iff {a : Assembly} :
    (assembleProgram source origin program).result = .ok a ↔
      (∀ s ∈ program, s.Placeable) ∧ (∀ s ∈ program, s.Bound (Program.symbols origin program)) ∧
        ∃ code, (Program.emit (Program.resolved origin program)).result = .ok code ∧
          a = ⟨Assembly.linesOf (Program.addresses origin program) (Program.resolved origin program)
            code, Program.symbols origin program⟩ := by
  constructor
  · intro h
    have hplaced : ∃ as, ((Layout.start origin).placeAll program).2.result = .ok as := by
      rw [result_assembleProgram] at h
      cases hr : ((Layout.start origin).placeAll program).2.result with
      | error f => simp [hr, Except.bind] at h
      | ok as => exact ⟨as, rfl⟩
    obtain ⟨as, has⟩ := hplaced
    have hp := (Layout.result_placeAll_eq_ok_iff.mp has).1
    have hb : ∀ s ∈ program, s.Bound (Program.symbols origin program) := by
      rw [← Program.resolve_eq_none_iff]
      rw [result_assembleProgram_of_placeable hp] at h
      split at h
      · cases h
      · next hr => exact congrArg Prod.snd hr
    rw [result_assembleProgram_of_bound hp hb] at h
    refine ⟨hp, hb, ?_⟩
    cases hcode : (Program.emit (Program.resolved origin program)).result with
    | error f => simp [hcode, Except.map] at h
    | ok code =>
      rw [hcode] at h
      exact ⟨code, rfl, (Except.ok.inj h).symm⟩
  · rintro ⟨hp, hb, code, hcode, rfl⟩
    rw [result_assembleProgram_of_bound hp hb, hcode]
    rfl

/-! ### From the text on -/

theorem result_assemble_of_reads {text : String} (h : Reads source text program) :
    (assemble source text origin).result = (assembleProgram source origin program).result := by
  obtain ⟨tokens, ht, hp⟩ := h
  unfold assemble
  rw [Outcome.result_bind, ht]
  simp only [Except.bind, Outcome.result_bind, hp]

/-- A text is assembled iff it is read and its program is assembled. -/
theorem result_assemble_eq_ok_iff {text : String} {a : Assembly} :
    (assemble source text origin).result = .ok a ↔
      ∃ program, Reads source text program ∧
        (assembleProgram source origin program).result = .ok a := by
  constructor
  · intro h
    obtain ⟨tokens, ht, h⟩ := Outcome.bind_eq_ok_iff.mp h
    obtain ⟨program, hp, h⟩ := Outcome.bind_eq_ok_iff.mp h
    exact ⟨program, ⟨tokens, ht, hp⟩, h⟩
  · rintro ⟨program, hr, h⟩
    rw [result_assemble_of_reads hr, h]

/-- A result that is a value is a value with what holds of it. -/
theorem exists_of_isOk {α : Type} {x : Except Fault α} {P : α → Prop} (h : x.isOk = true)
    (hP : ∀ a, x = .ok a → P a) : ∃ a, x = .ok a ∧ P a := by
  cases x with
  | error f => cases h
  | ok a => exact ⟨a, rfl, hP a rfl⟩

theorem Except.map_eq_ok_iff {α β : Type} {x : Except Fault α} {f : α → β} {b : β} :
    x.map f = .ok b ↔ ∃ a, x = .ok a ∧ f a = b := by
  cases x <;> simp [Except.map]

/-! ### The columns of a listing -/

theorem Program.length_addresses : ∀ (ss : List Statement) (address : UInt32),
    (addresses address ss).length = ss.length
  | [], _ => rfl
  | s :: ss, address => congrArg (· + 1) (length_addresses ss (s.next address))

theorem Program.length_of_result_emit {ss : List Statement} {code : List (List UInt8)}
    (h : (emit ss).result = .ok code) : code.length = ss.length :=
  (Outcome.result_mapM_eq_ok_iff.mp h).length_eq.symm

/-- Lists of one length are the columns of their lines. -/
theorem Assembly.columns_linesOf : ∀ {as : List UInt32} {ss : List Statement}
    {code : List (List UInt8)}, as.length = ss.length → code.length = ss.length →
      (linesOf as ss code).map Line.address = as ∧ (linesOf as ss code).map Line.statement = ss ∧
        (linesOf as ss code).map Line.bytes = code
  | [], [], [], _, _ => ⟨rfl, rfl, rfl⟩
  | a :: as, s :: ss, bs :: code, has, hcode => by
    obtain ⟨h1, h2, h3⟩ := columns_linesOf (Nat.succ.inj has) (Nat.succ.inj hcode)
    simp [linesOf, h1, h2, h3]

/-- Changing the statements of lines is changing the column of statements. -/
theorem Assembly.linesOf_map (g : Statement → Statement) : ∀ (as : List UInt32)
    (ss : List Statement) (code : List (List UInt8)),
      linesOf as (ss.map g) code =
        (linesOf as ss code).map fun l => { l with statement := g l.statement }
  | [], _, _ => by simp [linesOf]
  | _ :: _, [], _ => by simp [linesOf]
  | _ :: _, _ :: _, [] => by simp [linesOf]
  | a :: as, s :: ss, bytes :: code => by
    rw [List.map_cons, linesOf, linesOf, linesOf_map g as ss code]
    rfl

/-- The columns of an assembled program: the addresses of its statements, the statements with
their names replaced, and the bytes of these. -/
theorem columns_of_assembleProgram {a : Assembly}
    (h : (assembleProgram source origin program).result = .ok a) :
    a.lines.map Line.address = Program.addresses origin program ∧
      a.lines.map Line.statement = Program.resolved origin program ∧
      (Program.emit (Program.resolved origin program)).result = .ok (a.lines.map Line.bytes) ∧
      a.symbols = Program.symbols origin program := by
  obtain ⟨-, -, code, hcode, rfl⟩ := result_assembleProgram_eq_ok_iff.mp h
  have hss : (Program.resolved origin program).length = program.length := List.length_map ..
  have has := (Program.length_addresses program origin).trans hss.symm
  obtain ⟨h1, h2, h3⟩ := Assembly.columns_linesOf has (Program.length_of_result_emit hcode)
  exact ⟨h1, h2, hcode.trans (congrArg Except.ok h3.symm), rfl⟩

/-- Every line of an assembled program is free of names, and its bytes are those of its
statement. -/
theorem literal_and_emit_of_mem_lines {a : Assembly}
    (h : (assembleProgram source origin program).result = .ok a) :
    ∀ l ∈ a.lines, l.statement.Literal ∧ l.statement.emit.result = .ok l.bytes := by
  obtain ⟨-, hb, -⟩ := result_assembleProgram_eq_ok_iff.mp h
  have hliteral := Program.literal_resolved hb
  obtain ⟨-, hstatements, hemit, -⟩ := columns_of_assembleProgram h
  rw [← hstatements] at hliteral hemit
  rw [Program.emit, Outcome.result_mapM_eq_ok_iff, List.forall₂_map_left_iff,
    List.forall₂_map_right_iff, List.forall₂_same] at hemit
  exact fun l hl => ⟨List.forall_mem_map.mp hliteral l hl, hemit l hl⟩

end Chip8
