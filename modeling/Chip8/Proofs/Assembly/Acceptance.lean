/-
# Which texts are assembled, and what is wrong with the others

A text is assembled iff five things hold: it splits into tokens, the tokens are
statements, the directives mean something, the names are those of labels, and
there are bytes for every statement. If one of them does not hold, the fault is
the first in that order, and among the statements the first in theirs
(`FirstFault`). Where a program begins has no part in it.

Making bytes knows two more faults, a name that is left and a directive that
means nothing, and neither arises: names are gone by then, and such a directive
was not placed.

Key definitions: `Operand.Undefined`, `Statement.Named`, `FirstFault`.
Key theorems: `exists_result_assemble_iff`, `result_assemble_eq_error_iff`,
`assemble_ok_iff_and_first_fault`.
-/
import Chip8.Proofs.Assembly.Program
import Chip8.Proofs.Stage

namespace Chip8

/-- The operand is a name that no label of the program has, and `f` says so. -/
def Operand.Undefined (program : List Statement) (o : Operand) (f : Fault) : Prop :=
  ∃ x, o.value = .name x ∧ ¬Program.Defines program x ∧ f = ⟨o.position, .unknownName x⟩

/-- Every name in the operands is that of a label of the program. -/
def Statement.Named (program : List Statement) (s : Statement) : Prop :=
  ∀ o ∈ s.operands, ∀ x, o.value = .name x → Program.Defines program x

/-- What is wrong with a text first: the stage that finds it, and the first offender there. -/
inductive FirstFault (source text : String) : Fault → Prop where
  | splitting {f : Fault} (stage : f.stage = .lexical)
      (h : (Token.tokenize source text).result = .error f) : FirstFault source text f
  | reading {f : Fault} {tokens : List Token} (stage : f.stage = .grammatical)
      (ht : (Token.tokenize source text).result = .ok tokens)
      (h : (Program.read tokens).result = .error f) : FirstFault source text f
  | placing {f : Fault} {program : List Statement} (stage : f.stage = .semantic)
      (hr : Reads source text program) (h : First Statement.Misplaced program f) :
      FirstFault source text f
  | naming {f : Fault} {program : List Statement} (stage : f.stage = .semantic)
      (hr : Reads source text program) (hp : ∀ s ∈ program, s.Placeable)
      (h : First (fun s => First (Operand.Undefined program) s.operands) program f) :
      FirstFault source text f
  | encoding {f : Fault} {program : List Statement} (stage : f.stage = .semantic)
      (hr : Reads source text program) (hp : ∀ s ∈ program, s.Placeable)
      (hn : ∀ s ∈ program, s.Named program) (h : First Statement.Unencodable program f) :
      FirstFault source text f

/-! ### The causes of the passes -/

theorem Statement.Misplaced.stage {s : Statement} {f : Fault} (h : s.Misplaced f) :
    f.stage = .semantic := by
  cases h <;> rfl

theorem Statement.Unencodable.cause {s : Statement} {f : Fault} (h : s.Unencodable f) :
    (∃ m kinds, f.cause = .unknownForm m kinds) ∨ f.cause = .dataKind := by
  cases h with
  | form => exact .inl ⟨_, _, rfl⟩
  | data _ h =>
    obtain ⟨o, -, -, rfl⟩ := h.exists_mem
    exact .inr rfl

theorem Statement.Unencodable.stage {s : Statement} {f : Fault} (h : s.Unencodable f) :
    f.stage = .semantic := by
  rcases h.cause with ⟨m, kinds, hc⟩ | hc
  · rw [Fault.stage, hc]; rfl
  · rw [Fault.stage, hc]; rfl

variable {source text : String} {origin : UInt32} {program : List Statement}

theorem Operand.unbound_symbols_iff {o : Operand} {f : Fault} :
    o.Unbound (Program.symbols origin program) f ↔ o.Undefined program f := by
  simp only [Unbound, Undefined, ← @Program.get?_symbols_ne_none_iff origin program, not_not]

theorem Statement.bound_symbols_iff {s : Statement} :
    s.Bound (Program.symbols origin program) ↔ s.Named program := by
  simp only [Bound, Operand.Bound, Named, Program.get?_symbols_ne_none_iff]

/-- Once a program is placed and its names are replaced, bytes are wanting only for want of an
encoding. -/
theorem Program.result_emit_resolved_eq_error_iff {f : Fault} (hp : ∀ s ∈ program, s.Placeable)
    (hn : ∀ s ∈ program, s.Named program) :
    (emit (resolved origin program)).result = .error f ↔ First Statement.Unencodable program f := by
  have hb : ∀ s ∈ program, s.Bound (symbols origin program) := fun s hs =>
    Statement.bound_symbols_iff.mpr (hn s hs)
  rw [result_emit_eq_error_iff (literal_resolved hb) (placeable_resolved hp), resolved,
    first_map_iff]
  exact first_congr (fun s _ g => Statement.unencodable_resolved_iff) f

/-! ### One stage after another -/

section Stages

variable {f : Fault}

theorem result_assembleProgram_of_misplaced (h : First Statement.Misplaced program f) :
    (assembleProgram source origin program).result = .error f := by
  rw [result_assembleProgram, Layout.result_placeAll_eq_error_iff.mpr h]
  rfl

theorem result_assembleProgram_of_undefined (hp : ∀ s ∈ program, s.Placeable)
    (h : First (fun s => First (Operand.Undefined program) s.operands) program f) :
    (assembleProgram source origin program).result = .error f := by
  have hsome : (Program.resolve (Program.symbols origin program) program).2 = some f := by
    rw [Program.resolve_eq_some_iff]
    refine (first_congr (fun s _ g => ?_) f).mpr h
    exact first_congr (fun o _ e => Operand.unbound_symbols_iff) g
  rw [result_assembleProgram_of_placeable hp]
  split
  · next hr =>
    rw [hr] at hsome
    cases hsome
    rfl
  · next hr =>
    rw [hr] at hsome
    cases hsome

theorem result_assembleProgram_of_unencodable (hp : ∀ s ∈ program, s.Placeable)
    (hn : ∀ s ∈ program, s.Named program) (h : First Statement.Unencodable program f) :
    (assembleProgram source origin program).result = .error f := by
  rw [result_assembleProgram_of_bound hp fun s hs => Statement.bound_symbols_iff.mpr (hn s hs),
    (Program.result_emit_resolved_eq_error_iff hp hn).mpr h]
  rfl

theorem exists_result_assembleProgram (hp : ∀ s ∈ program, s.Placeable)
    (hn : ∀ s ∈ program, s.Named program) (he : ∀ s ∈ program, s.Encodable) :
    ∃ a, (assembleProgram source origin program).result = .ok a := by
  rw [result_assembleProgram_of_bound hp fun s hs => Statement.bound_symbols_iff.mpr (hn s hs)]
  cases hcode : (Program.emit (Program.resolved origin program)).result with
  | error g =>
    obtain ⟨s, hs, hg⟩ := ((Program.result_emit_resolved_eq_error_iff hp hn).mp hcode).exists_mem
    exact absurd hg (Statement.encodable_iff.mp (he s hs) g)
  | ok code => exact ⟨_, rfl⟩

/-- A program is assembled, or the first offender of the first pass that has one is at fault. -/
theorem result_assembleProgram_cases (source : String) (origin : UInt32)
    (program : List Statement) :
    ((∀ s ∈ program, s.Placeable) ∧ (∀ s ∈ program, s.Named program) ∧
        (∀ s ∈ program, s.Encodable) ∧
          ∃ a, (assembleProgram source origin program).result = .ok a) ∨
      ∃ f, (assembleProgram source origin program).result = .error f ∧ f.stage = .semantic ∧
        (First Statement.Misplaced program f ∨
          (∀ s ∈ program, s.Placeable) ∧
            (First (fun s => First (Operand.Undefined program) s.operands) program f ∨
              (∀ s ∈ program, s.Named program) ∧ First Statement.Unencodable program f)) := by
  by_cases hp : ∀ s ∈ program, s.Placeable
  · by_cases hn : ∀ s ∈ program, s.Named program
    · by_cases he : ∀ s ∈ program, s.Encodable
      · exact .inl ⟨hp, hn, he, exists_result_assembleProgram hp hn he⟩
      · obtain ⟨f, hf⟩ := exists_first_of_not_forall (fun s => Statement.encodable_iff) he
        obtain ⟨s, -, hs⟩ := hf.exists_mem
        exact .inr ⟨f, result_assembleProgram_of_unencodable hp hn hf, hs.stage,
          .inr ⟨hp, .inr ⟨hn, hf⟩⟩⟩
    · have hrule : ∀ s : Statement,
          s.Named program ↔ ∀ e, ¬First (Operand.Undefined program) s.operands e := by
        intro s
        rw [← @Statement.bound_symbols_iff origin program s, Statement.bound_iff]
        simp only [first_congr fun o _ e => Operand.unbound_symbols_iff]
      obtain ⟨f, hf⟩ := exists_first_of_not_forall hrule hn
      obtain ⟨s, -, hs⟩ := hf.exists_mem
      obtain ⟨o, -, x, -, -, hx⟩ := hs.exists_mem
      exact .inr ⟨f, result_assembleProgram_of_undefined hp hf, hx ▸ rfl, .inr ⟨hp, .inl hf⟩⟩
  · obtain ⟨f, hf⟩ := exists_first_of_not_forall (fun s => Statement.placeable_iff) hp
    obtain ⟨s, -, hs⟩ := hf.exists_mem
    exact .inr ⟨f, result_assembleProgram_of_misplaced hf, hs.stage, .inl hf⟩

end Stages

/-! ### From the text on -/

/-- A text is assembled iff it is read as a program that none of the passes finds fault with. -/
theorem exists_result_assemble_iff :
    (∃ a, (assemble source text origin).result = .ok a) ↔
      ∃ program, Reads source text program ∧ (∀ s ∈ program, s.Placeable) ∧
        (∀ s ∈ program, s.Named program) ∧ ∀ s ∈ program, s.Encodable := by
  constructor
  · rintro ⟨a, ha⟩
    obtain ⟨program, hr, hpa⟩ := result_assemble_eq_ok_iff.mp ha
    rcases result_assembleProgram_cases source origin program with ⟨hp, hn, he, -⟩ | ⟨f, hf, -⟩
    · exact ⟨program, hr, hp, hn, he⟩
    · rw [hf] at hpa
      cases hpa
  · rintro ⟨program, hr, hp, hn, he⟩
    rw [result_assemble_of_reads hr]
    exact exists_result_assembleProgram hp hn he

variable {f : Fault}

theorem result_assemble_of_splitting (h : (Token.tokenize source text).result = .error f) :
    (assemble source text origin).result = .error f := by
  rw [assemble, Outcome.result_bind, h]
  rfl

theorem result_assemble_of_reading {tokens : List Token}
    (ht : (Token.tokenize source text).result = .ok tokens)
    (h : (Program.read tokens).result = .error f) :
    (assemble source text origin).result = .error f := by
  rw [assemble, Outcome.result_bind, ht]
  simp only [Except.bind, Outcome.result_bind, h]

theorem FirstFault.result_assemble (h : FirstFault source text f) :
    (assemble source text origin).result = .error f := by
  cases h with
  | splitting _ h => exact result_assemble_of_splitting h
  | reading _ ht h => exact result_assemble_of_reading ht h
  | placing _ hr h => rw [result_assemble_of_reads hr, result_assembleProgram_of_misplaced h]
  | naming _ hr hp h => rw [result_assemble_of_reads hr, result_assembleProgram_of_undefined hp h]
  | encoding _ hr hp hn h =>
    rw [result_assemble_of_reads hr, result_assembleProgram_of_unencodable hp hn h]

/-- A program at fault has a first offender in the first pass that has one. -/
theorem firstFault_of_assembleProgram (hr : Reads source text program)
    (h : (assembleProgram source origin program).result = .error f) :
    FirstFault source text f := by
  rcases result_assembleProgram_cases source origin program with
    ⟨-, -, -, a, ha⟩ | ⟨g, hg, hstage, hfirst⟩
  · rw [ha] at h
    cases h
  · obtain rfl : g = f := Except.error.inj (hg.symm.trans h)
    rcases hfirst with hf | ⟨hp, hf | ⟨hn, hf⟩⟩
    · exact .placing hstage hr hf
    · exact .naming hstage hr hp hf
    · exact .encoding hstage hr hp hn hf

/-- The fault of a text is the first one. -/
theorem result_assemble_eq_error_iff :
    (assemble source text origin).result = .error f ↔ FirstFault source text f := by
  refine ⟨fun h => ?_, FirstFault.result_assemble⟩
  cases ht : (Token.tokenize source text).result with
  | error g =>
    obtain rfl : g = f := Except.error.inj ((result_assemble_of_splitting ht).symm.trans h)
    exact .splitting (Token.stage_of_tokenize_error ht) ht
  | ok tokens =>
    cases hread : (Program.read tokens).result with
    | error g =>
      obtain rfl : g = f := Except.error.inj ((result_assemble_of_reading ht hread).symm.trans h)
      exact .reading (Program.stage_of_read_error hread) ht hread
    | ok program =>
      have hr : Reads source text program := ⟨tokens, ht, hread⟩
      rw [result_assemble_of_reads hr] at h
      exact firstFault_of_assembleProgram hr h

/-- Behind the other passes, bytes are wanting for no name that is left and no unknown directive. -/
theorem cause_of_result_emit {addresses : List UInt32} {resolved : List Statement}
    (hplaced : ((Layout.start origin).placeAll program).2.result = .ok addresses)
    (hresolved : Program.resolve ((Layout.start origin).placeAll program).1.symbols program =
      (resolved, none)) (hemit : (Program.emit resolved).result = .error f) (x : String) :
    f.cause ≠ .unresolvedName x ∧ f.cause ≠ .unknownDirective x := by
  have hp := (Layout.result_placeAll_eq_ok_iff.mp hplaced).1
  rw [(Layout.placeAll_of_placeable (Layout.start origin) hp).1] at hresolved
  have hb := Program.resolve_eq_none_iff.mp (congrArg Prod.snd hresolved)
  have hn := fun s hs => Statement.bound_symbols_iff.mp (hb s hs)
  rw [Program.resolve_of_bound hb] at hresolved
  obtain rfl : Program.resolved origin program = resolved := congrArg Prod.fst hresolved
  obtain ⟨s, -, hs⟩ := ((Program.result_emit_resolved_eq_error_iff hp hn).mp hemit).exists_mem
  rcases hs.cause with ⟨m, kinds, hc⟩ | hc <;> simp [hc]

/-- **Which texts are assembled, and what is wrong with the others.** A text is assembled iff it is
read as a program whose directives can be placed, whose names are those of its labels and whose
statements have bytes. Otherwise the fault is the first one, by stage and then by place; and of the
faults that making bytes knows, a name that is left and an unknown directive do not arise. -/
theorem assemble_ok_iff_and_first_fault (source text : String) (origin : UInt32) :
    ((∃ a, (assemble source text origin).result = .ok a) ↔
      ∃ program, Reads source text program ∧ (∀ s ∈ program, s.Placeable) ∧
        (∀ s ∈ program, s.Named program) ∧ ∀ s ∈ program, s.Encodable) ∧
    (∀ f, (assemble source text origin).result = .error f ↔ FirstFault source text f) ∧
    ∀ program addresses resolved f, Reads source text program →
      ((Layout.start origin).placeAll program).2.result = .ok addresses →
      Program.resolve ((Layout.start origin).placeAll program).1.symbols program =
        (resolved, none) →
      (Program.emit resolved).result = .error f →
      ∀ x, f.cause ≠ .unresolvedName x ∧ f.cause ≠ .unknownDirective x := by
  refine ⟨exists_result_assemble_iff, fun f => result_assemble_eq_error_iff, ?_⟩
  intro program addresses resolved f _ hplaced hresolved hemit
  exact cause_of_result_emit hplaced hresolved hemit

end Chip8
