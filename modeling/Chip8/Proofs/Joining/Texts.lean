/-
# Assembling two texts with a newline between them

Every stage takes the two texts one behind another. Splitting goes on behind the
newline (`result_tokenize_newline`). Reading goes on behind the first program,
because a derivation of two programs is one of the whole (`result_readAll_append`),
and where the second stands does not matter to it. And the passes go on where the
cursor stands (`result_assembleProgram_append`).

Key definitions: `Assembly.Joined`.
Key theorems: `Splits.exists_concat`, `result_readAll_append`, `Reads.newline`,
`assemble_newline`.
-/
import Chip8.Proofs.Grammar.Reading
import Chip8.Proofs.Joining.Programs
import Chip8.Proofs.Joining.Splitting
import Chip8.Proofs.Moved.Assembling
import Chip8.Proofs.Moved.Reading
import Chip8.Proofs.Splitting.Lossless

namespace Chip8

variable {source : String}

/-! ### Reading -/

/-- Tokens that split a text end in the end of the input, and none before does. -/
theorem Splits.exists_concat {front cs : List Char} {ts : List Token}
    (h : Splits source front cs ts) :
    ∃ us stop, ts = us ++ [⟨.endOfInput, stop⟩] ∧ ∀ t ∈ us, t.kind ≠ .endOfInput := by
  induction h with
  | @done front gap stop skipped position => exact ⟨[], stop, rfl, by simp⟩
  | @token front gap rest t ts skipped position longest more ih =>
    obtain ⟨us, stop, rfl, hus⟩ := ih
    exact ⟨t :: us, stop, rfl, List.forall_mem_cons.mpr ⟨longest.kind_ne.2, hus⟩⟩

/-- Two programs are read one behind another: no statement of the first takes what begins the
second. -/
theorem Statement.result_readAll_append {stop stop' : Position} {ts us : List Token}
    {ss ss' : List Statement} (hts : (readAll stop ts).result = .ok ss)
    (hus : (readAll stop' us).result = .ok ss') (stop'' : Position) :
    (readAll stop'' (ts ++ us)).result = .ok (ss ++ ss') := by
  obtain ⟨T, rfl, rfl⟩ := exists_tree_of_readAll hts
  obtain ⟨T', rfl, rfl⟩ := exists_tree_of_readAll hus
  have hread := ProgramTree.readAll_tokens stop'' (T ++ T')
  rwa [ProgramTree.tokens, List.flatMap_append, ProgramTree.program, List.map_append] at hread

/-- **Behind a newline a text is read as it is alone**, moved behind the text in front. -/
theorem Reads.newline {a b : String} {ss ss' : List Statement} (ha : Reads source a ss)
    (hb : Reads source b ss') :
    Reads source (a ++ "\n" ++ b)
      (ss ++ ss'.map (Statement.moved (Position.later (a ++ "\n")))) := by
  obtain ⟨ts, hts, hss⟩ := ha
  obtain ⟨us, hus, hss'⟩ := hb
  refine ⟨_, Token.result_tokenize_newline hts hus, ?_⟩
  rw [Token.result_tokenize, Token.scan_eq_ok_iff_splits] at hts hus
  obtain ⟨ts, stop, rfl, hkinds⟩ := hts.exists_concat
  obtain ⟨us, stop', rfl, hkinds'⟩ := hus.exists_concat
  rw [Program.read, Program.body_concat hkinds rfl] at hss
  rw [Program.read, Program.body_concat hkinds' rfl] at hss'
  have hmoved := Statement.result_readAll_moved (f := Position.later (a ++ "\n"))
    (Program.stop (us ++ [⟨.endOfInput, stop'⟩])) us
  rw [hss'] at hmoved
  have hwhole : ∀ t ∈ ts ++ us.map (Token.moved (Position.later (a ++ "\n"))),
      t.kind ≠ .endOfInput :=
    List.forall_mem_append.mpr ⟨hkinds, List.forall_mem_map.mpr hkinds'⟩
  rw [List.dropLast_concat, List.map_append, List.map_singleton, ← List.append_assoc, Program.read,
    Program.body_concat hwhole rfl]
  exact Statement.result_readAll_append hss hmoved _

/-! ### Assembling -/

/-- The assembled program `c` is `a` and behind it `b`, which stands behind the text `front`: lines
and bytes follow one another, and the symbols are those of both in the order of listing. -/
structure Assembly.Joined (front : String) (a b c : Assembly) : Prop where
  lines : c.lines = a.lines ++ b.lines.map (Line.moved (Position.later front))
  image : c.image = a.image ++ b.image
  symbols : c.symbols.entries.Perm (a.symbols.entries ++ b.symbols.entries)
  ordered : c.symbols.entries.Pairwise Binding.Before

/-- **Two texts with a newline between them are assembled one behind the other.** Let a text be
assembled, and another one from where the cursor stands behind the first; and let no name be bound
in both. Then the two texts with a newline between them are assembled, and what comes out is the
first program and behind it the second, its positions moved behind the first text. -/
theorem assemble_newline {a b : String} {origin : UInt32} {program : List Statement}
    {A B : Assembly} (hr : Reads source a program) (ha : (assemble source a origin).result = .ok A)
    (hb : (assemble source b ((Layout.start origin).placeAll program).1.cursor).result = .ok B)
    (hnames : ∀ x ∈ A.symbols.entries.map Binding.name, x ∉ B.symbols.entries.map Binding.name) :
    ∃ C, (assemble source (a ++ "\n" ++ b) origin).result = .ok C ∧
      Assembly.Joined (a ++ "\n") A B C := by
  rw [result_assemble_of_reads hr] at ha
  have hplaceable := (result_assembleProgram_eq_ok_iff.mp ha).1
  rw [(Layout.placeAll_of_placeable (Layout.start origin) hplaceable).1] at hb
  obtain ⟨program', hr', hb⟩ := result_assemble_eq_ok_iff.mp hb
  have hmoved := result_assembleProgram_moved (f := Position.later (a ++ "\n")) source source
    ((Layout.start origin).pastAll program).cursor program'
  rw [hb] at hmoved
  obtain ⟨C, hC, hlines, hsymbols⟩ := result_assembleProgram_append ha hmoved hnames
  refine ⟨C, (result_assemble_of_reads (hr.newline hr')).trans hC, hlines, ?_, hsymbols,
    C.symbols.ordered⟩
  rw [Assembly.image, hlines, List.flatMap_append]
  exact congrArg (A.image ++ ·) (Assembly.image_moved B)

/-- A comment that a newline ends and a number in front of the other one, and a cursor that wraps
around. -/
theorem assemble_newline_wrapped :
    ∃ program A B, Reads "s" "x: ld I, [x];x\n.db 2" program ∧
      ((Layout.start 4294967295).placeAll program).1.cursor = 2 ∧
      (assemble "s" "x: ld I, [x];x\n.db 2" 4294967295).result = .ok A ∧
      (assemble "s" "y: .db y, z z:ret" 2).result = .ok B ∧
      (∀ x ∈ A.symbols.entries.map Binding.name, x ∉ B.symbols.entries.map Binding.name) ∧
      ∃ C, (assemble "s" ("x: ld I, [x];x\n.db 2" ++ "\n" ++ "y: .db y, z z:ret")
          4294967295).result = .ok C ∧
        Assembly.Joined ("x: ld I, [x];x\n.db 2" ++ "\n") A B C := by
  have hread : ((Token.tokenize "s" "x: ld I, [x];x\n.db 2").result.bind fun ts =>
      (Program.read ts).result).map (fun program =>
        ((Layout.start 4294967295).placeAll program).1.cursor) = .ok 2 := by decide +kernel
  have hx : (assemble "s" "x: ld I, [x];x\n.db 2" 4294967295).result.map
      (fun A => A.symbols.entries.map Binding.name) = .ok ["x"] := by decide +kernel
  have hyz : (assemble "s" "y: .db y, z z:ret" 2).result.map
      (fun B => B.symbols.entries.map Binding.name) = .ok ["y", "z"] := by decide +kernel
  obtain ⟨program, hprogram, hcursor⟩ := Except.map_eq_ok_iff.mp hread
  have hr : Reads "s" "x: ld I, [x];x\n.db 2" program := Except.bind_eq_ok_iff.mp hprogram
  obtain ⟨A, hA, hnamesA⟩ := Except.map_eq_ok_iff.mp hx
  obtain ⟨B, hB, hnamesB⟩ := Except.map_eq_ok_iff.mp hyz
  have hnames : ∀ x ∈ A.symbols.entries.map Binding.name,
      x ∉ B.symbols.entries.map Binding.name := by
    rw [hnamesA, hnamesB]
    decide
  exact ⟨program, A, B, hr, hcursor, hA, hB, hnames,
    assemble_newline hr hA (hcursor ▸ hB) hnames⟩

end Chip8
