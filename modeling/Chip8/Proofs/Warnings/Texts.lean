/-
# Warnings are the suspicious spots

Of a text that is assembled, the warnings are what is suspicious about its lines, in
order (`Assembly.warnings`): first about where they stand, line by line, and then about
their operands. The other notices, of tokens, statements, labels and bytes, are accounts
of progress. So an assembly without a warning has put down just what the text says:
its labels have different names, no `.org` is cut or goes back, and the bytes hold all
numbers whole.

Key definitions: `Notice.warnings`, `Assembly.warnings`.
Key theorems: `warnings_assembleProgram`, `Assembly.warnings_eq_nil_iff`,
`warnings_are_suspicious_spots`.
-/
import Chip8.Proofs.Assembly.Labels
import Chip8.Proofs.Warnings.Operands
import Chip8.Proofs.Warnings.Placing

namespace Chip8

/-- The warnings among the notices. -/
def Notice.warnings (ns : List Notice) : List Notice := ns.filter fun n => n.level = .warn

/-- What is suspicious about an assembled program, in the order of its lines: first where they
stand, then their operands. -/
def Assembly.warnings (a : Assembly) : List Notice :=
  placeWarnings [] a.lines ++ a.lines.flatMap fun l => l.statement.warnings

namespace Notice

theorem warnings_append (ms ns : List Notice) : warnings (ms ++ ns) = warnings ms ++ warnings ns :=
  List.filter_append ..

theorem warnings_of_forall {ns : List Notice} (h : ∀ n ∈ ns, n.level = .warn) : warnings ns = ns :=
  List.filter_eq_self.mpr (by simpa using h)

/-- An account of progress is no warning. -/
theorem warnings_progress (n : Notice) (h : n.level = .debug) : warnings [n] = [] := by
  simp [warnings, h]

end Notice

/-! ### Only suspicious spots are warned of -/

theorem Statement.warnings_readAll (stop : Position) (ts : List Token) :
    Notice.warnings (readAll stop ts).notices = [] := by
  fun_induction readAll stop ts with
  | case1 => rfl
  | case2 => rfl
  | case3 t ts s rest hone ih => exact ih

theorem Token.warnings_tokenize (source text : String) :
    Notice.warnings (tokenize source text).notices = [] := by
  unfold tokenize
  rw [Outcome.notices_bind]
  cases scan (.start source) text.toList <;> rfl

theorem Line.level_of_mem_placeWarnings {before : List Line} {l : Line} :
    ∀ n ∈ l.placeWarnings before, n.level = .warn := by
  intro n hn
  unfold placeWarnings at hn
  split at hn
  · obtain ⟨address, -, rfl⟩ := Option.map_eq_some_iff.mp (Option.mem_toList.mp hn)
    rfl
  · cases hn
  · split at hn
    · rcases List.mem_append.mp hn with hn | hn
      · obtain rfl : n = _ := List.mem_singleton.mp (List.mem_ite_nil_right.mp hn).2
        rfl
      · obtain rfl : n = _ := List.mem_singleton.mp (List.mem_ite_nil_right.mp hn).2
        rfl
    · cases hn

theorem Operand.level_of_mem_warning? {o : Operand} : ∀ n ∈ o.warning?, n.level = .warn := by
  intro n hn
  unfold warning? at hn
  split at hn
  all_goals
    simp only [Option.mem_def, Option.ite_none_right_eq_some, Option.some.injEq, reduceCtorEq] at hn
  all_goals obtain ⟨-, rfl⟩ := hn; rfl

/-- Only warnings are among what is suspicious. -/
theorem Assembly.level_of_mem_warnings {a : Assembly} : ∀ n ∈ a.warnings, n.level = .warn := by
  have hplaces : ∀ {ls before : List Line}, ∀ n ∈ placeWarnings before ls, n.level = .warn := by
    intro ls
    induction ls with
    | nil => simp [placeWarnings]
    | cons l ls ih =>
      intro before
      exact List.forall_mem_append.mpr ⟨Line.level_of_mem_placeWarnings, ih⟩
  refine List.forall_mem_append.mpr ⟨hplaces, fun n hn => ?_⟩
  obtain ⟨l, -, hl⟩ := List.mem_flatMap.mp hn
  obtain ⟨o, -, ho⟩ := List.mem_filterMap.mp hl
  exact Operand.level_of_mem_warning? n ho

variable {source text : String} {origin : UInt32} {program : List Statement} {a : Assembly}

/-- Of a program that is assembled, placing it and making its bytes are what can be warned of. -/
theorem warnings_assembleProgram_eq
    (h : (assembleProgram source origin program).result = .ok a) :
    Notice.warnings (assembleProgram source origin program).notices =
      Notice.warnings (((Layout.start origin).placeAll program).2.notices ++
        (Program.emit (Program.resolved origin program)).notices) := by
  obtain ⟨hp, hb, code, hcode, -⟩ := result_assembleProgram_eq_ok_iff.mp h
  obtain ⟨hlayout, hplaced⟩ := Layout.placeAll_of_placeable (Layout.start origin) hp
  rcases hplace : (Layout.start origin).placeAll program with ⟨layout, placed⟩
  rw [hplace] at hlayout hplaced
  obtain rfl : layout = _ := hlayout
  have hresolve : Program.resolve ((Layout.start origin).pastAll program).symbols program =
      (Program.resolved origin program, none) := Program.resolve_of_bound hb
  have hnil : Notice.warnings [] = [] := rfl
  unfold assembleProgram
  simp only [hplace, hresolve, Outcome.bind_ok (Outcome.result_raise _), Outcome.bind_ok hplaced,
    Outcome.bind_ok hcode, Outcome.notices_raise, Outcome.notices_pure, Notice.warnings_append]
  rw [Notice.warnings_progress (.statements ..) rfl, Notice.warnings_progress (.labels ..) rfl,
    Notice.warnings_progress (.bytes ..) rfl, hnil]
  simp only [List.nil_append, List.append_nil]

/-- A program that is assembled is warned of where its lines are suspicious. -/
theorem warnings_assembleProgram (h : (assembleProgram source origin program).result = .ok a) :
    Notice.warnings (assembleProgram source origin program).notices = a.warnings := by
  obtain ⟨hp, hb, -⟩ := result_assembleProgram_eq_ok_iff.mp h
  have hliteral := Program.literal_resolved hb
  have hplaceable : ∀ s ∈ Program.resolved origin program, s.Placeable :=
    Program.placeable_resolved hp
  obtain ⟨-, hstatements, hemit, -⟩ := columns_of_assembleProgram h
  have hplace : ((Layout.start origin).placeAll program).2.notices =
      Assembly.placeWarnings [] a.lines := by
    have hsame : (Layout.start origin).placeAll (Program.resolved origin program) =
        (Layout.start origin).placeAll program := Layout.placeAll_resolved _ hp
    rw [← hsame, ← hstatements]
    exact Layout.notices_placeAll (List.forall_mem_map.mp (hstatements ▸ hplaceable))
      (addresses_of_assembleProgram h) (Layout.get?_start origin)
  have hbytes : (Program.emit (Program.resolved origin program)).notices =
      a.lines.flatMap fun l => l.statement.warnings := by
    rw [Program.notices_emit hliteral hemit, ← hstatements, List.flatMap_map]
  rw [warnings_assembleProgram_eq h, hplace, hbytes]
  exact Notice.warnings_of_forall a.level_of_mem_warnings

/-- The line's bytes hold the numbers of its operands whole. -/
def Line.Whole (l : Line) : Prop := l.statement.Whole l.bytes

/-- There is nothing suspicious about an assembled program iff its labels have different names, no
`.org` is cut or goes back, and the bytes hold all numbers whole. -/
theorem Assembly.warnings_eq_nil_iff (h : (assembleProgram source origin program).result = .ok a) :
    a.warnings = [] ↔
      (labelNames a.lines).Nodup ∧ (∀ l ∈ a.lines, l.GoesOn) ∧ ∀ l ∈ a.lines, l.Whole := by
  have hoperands : (∀ l ∈ a.lines, l.statement.warnings = []) ↔ ∀ l ∈ a.lines, l.Whole := by
    refine forall₂_congr fun l hl => ?_
    obtain ⟨hliteral, hemit⟩ := literal_and_emit_of_mem_lines h l hl
    exact Statement.warnings_eq_nil_iff hliteral hemit
  rw [warnings, List.append_eq_nil_iff, placeWarnings_eq_nil_iff, List.flatMap_eq_nil_iff,
    hoperands]
  simp [lastLabel?, and_assoc]

/-- **The warnings are the suspicious spots.** A text that is assembled is read as a program, and
its lines are the statements of this program, names replaced, at the addresses that they have from
the origin on. The warnings are those of the lines, in their order and no others: first of labels
that were there before, with the address of the last one, and of each `.org` that is cut and that
goes back; then of operands, left to right, that are read and whose numbers are too wide. So there
is none iff labels have different names, no `.org` is cut or goes back, and all numbers are put down
whole. -/
theorem warnings_are_suspicious_spots (h : (assemble source text origin).result = .ok a) :
    ∃ program, Reads source text program ∧
      a.lines.map Line.statement = Program.resolved origin program ∧
      a.lines.map Line.address = Program.addresses origin program ∧
      Notice.warnings (assemble source text origin).notices = a.warnings ∧
      (a.warnings = [] ↔
        (labelNames a.lines).Nodup ∧ (∀ l ∈ a.lines, l.GoesOn) ∧ ∀ l ∈ a.lines, l.Whole) := by
  obtain ⟨tokens, ht, h'⟩ := Outcome.bind_eq_ok_iff.mp h
  obtain ⟨program, hp, h'⟩ := Outcome.bind_eq_ok_iff.mp h'
  obtain ⟨haddresses, hstatements, -⟩ := columns_of_assembleProgram h'
  refine ⟨program, ⟨tokens, ht, hp⟩, hstatements, haddresses, ?_, Assembly.warnings_eq_nil_iff h'⟩
  have hstages : (assemble source text origin).notices = (Token.tokenize source text).notices ++
      ((Program.read tokens).notices ++ (assembleProgram source origin program).notices) := by
    unfold assemble
    rw [Outcome.bind_ok ht, Outcome.bind_ok hp]
  calc Notice.warnings (assemble source text origin).notices
      = Notice.warnings (Token.tokenize source text).notices ++
          (Notice.warnings (Program.read tokens).notices ++
            Notice.warnings (assembleProgram source origin program).notices) := by
        rw [hstages, Notice.warnings_append, Notice.warnings_append]
    _ = Notice.warnings (assembleProgram source origin program).notices := by
        rw [Token.warnings_tokenize, Program.read, Statement.warnings_readAll, List.nil_append,
          List.nil_append]
    _ = a.warnings := warnings_assembleProgram h'

/-- A label that is there three times, an `.org` that is cut and goes back, one that goes back
only, and operands of each kind that are too wide, the register of a jump apart. -/
theorem warnings_are_suspicious_spots_all_kinds :
    ∃ a, (assemble "all" "x: .org #1004 x: drw @16, @1, !16 .org 0 x: jp @99, [4096] .db 1, 256"
        512).result = .ok a ∧
      Notice.warnings (assemble "all"
        "x: .org #1004 x: drw @16, @1, !16 .org 0 x: jp @99, [4096] .db 1, 256" 512).notices =
          [.originCut ⟨"all", 3, 1, 4⟩ 0x1004, .originBack ⟨"all", 3, 1, 4⟩ 512 4,
            .redefined ⟨"all", 14, 1, 15⟩ "x" 512, .originBack ⟨"all", 34, 1, 35⟩ 6 0,
            .redefined ⟨"all", 41, 1, 42⟩ "x" 4, .operandCut ⟨"all", 21, 1, 22⟩ 16 4,
            .operandCut ⟨"all", 30, 1, 31⟩ 16 4, .operandCut ⟨"all", 52, 1, 53⟩ 4096 12,
            .operandCut ⟨"all", 66, 1, 67⟩ 256 8] ∧
      ∃ program, Reads "all"
          "x: .org #1004 x: drw @16, @1, !16 .org 0 x: jp @99, [4096] .db 1, 256" program ∧
        a.lines.map Line.statement = Program.resolved 512 program ∧
        a.lines.map Line.address = Program.addresses 512 program ∧
        Notice.warnings (assemble "all"
          "x: .org #1004 x: drw @16, @1, !16 .org 0 x: jp @99, [4096] .db 1, 256" 512).notices =
            a.warnings ∧
        (a.warnings = [] ↔
          (labelNames a.lines).Nodup ∧ (∀ l ∈ a.lines, l.GoesOn) ∧ ∀ l ∈ a.lines, l.Whole) :=
  exists_of_isOk (by decide +kernel) fun _ h =>
    ⟨by decide +kernel, warnings_are_suspicious_spots h⟩

end Chip8
