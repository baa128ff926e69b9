/-
# A listing is a program

The statements of a listing, printed line by line, are a text that assembles to
the same listing. Three things come together. What a text was read as can be
printed, and so it can with its names replaced (`Reads.printable`). A program that
is printed is read back, at other positions (`exists_reads_print`), and positions
have no part in assembling (`result_assembleProgram_moved`). And a program whose
names are replaced assembles to what it was taken from
(`result_assembleProgram_of_lines`): every statement goes to the same address,
because an `.org` takes no name and replacing one changes no size.

Key theorems: `result_assembleProgram_of_lines`, `print_listing_assembles_alike`.
-/
import Chip8.Proofs.Moved.Assembling
import Chip8.Proofs.Printing.Reads

namespace Chip8

variable {source : String} {origin : UInt32}

/-- The statements of an assembled program assemble to it again. -/
theorem result_assembleProgram_of_lines {program : List Statement} {a : Assembly}
    (h : (assembleProgram source origin program).result = .ok a) :
    (assembleProgram source origin (a.lines.map Line.statement)).result = .ok a := by
  obtain ⟨hp, hb, code, hcode, ha⟩ := result_assembleProgram_eq_ok_iff.mp h
  have hsymbols : Program.symbols origin (Program.resolved origin program) =
      Program.symbols origin program :=
    congrArg Layout.symbols (Layout.pastAll_resolved (Layout.start origin) hp)
  have hliteral := Program.literal_resolved hb
  have hresolved : Program.resolved origin (Program.resolved origin program) =
      Program.resolved origin program := by
    conv_lhs => rw [Program.resolved, List.map_congr_left fun s hs =>
      Statement.resolved_of_literal (hliteral s hs), List.map_id']
  have haddresses : Program.addresses origin (Program.resolved origin program) =
      Program.addresses origin program := Program.addresses_resolved origin hp
  rw [(columns_of_assembleProgram h).2.1]
  refine result_assembleProgram_eq_ok_iff.mpr ⟨Program.placeable_resolved hp,
    fun s hs => (hliteral s hs).bound, code, ?_, ?_⟩
  · rw [hresolved, hcode]
  · rw [haddresses, hresolved, hsymbols, ha]

/-- Assemblies that are the same but for positions have the same columns but for positions. -/
theorem Assembly.columns_of_moved_eq {f : Position → Position} {a b : Assembly}
    (h : b.moved f = a.moved f) :
    b.lines.map Line.address = a.lines.map Line.address ∧
      b.lines.map Line.bytes = a.lines.map Line.bytes ∧ b.symbols = a.symbols ∧
      (b.lines.map fun l => l.statement.unlocated) =
        a.lines.map fun l => l.statement.unlocated := by
  obtain ⟨haddress, hbytes, hsymbols, hstatement⟩ := b.columns_moved f
  obtain ⟨haddress', hbytes', hsymbols', hstatement'⟩ := a.columns_moved f
  rw [h] at haddress hbytes hsymbols hstatement
  exact ⟨haddress.symm.trans haddress', hbytes.symm.trans hbytes', hsymbols.symm.trans hsymbols',
    hstatement.symm.trans hstatement'⟩

/-- **A printed listing is a faithful program.** Let a text be assembled, and print the statements
of the listing, names replaced, one in a line. This text is assembled too, and the two listings
have the same addresses, the same bytes, the same symbols, and the same statements up to their
positions. -/
theorem print_listing_assembles_alike {text : String} {a : Assembly}
    (h : (assemble source text origin).result = .ok a) :
    ∃ b, (assemble source (Program.print (a.lines.map Line.statement)) origin).result = .ok b ∧
      b.lines.map Line.address = a.lines.map Line.address ∧
      b.lines.map Line.bytes = a.lines.map Line.bytes ∧ b.symbols = a.symbols ∧
      (b.lines.map fun l => l.statement.unlocated) =
        a.lines.map fun l => l.statement.unlocated := by
  obtain ⟨program, hr, ha⟩ := result_assemble_eq_ok_iff.mp h
  have hprintable : ∀ s ∈ a.lines.map Line.statement, s.Printable := by
    rw [(columns_of_assembleProgram ha).2.1]
    exact List.forall_mem_map.mpr fun s hs => Statement.printable_resolved (hr.printable s hs)
  obtain ⟨again, hagain, hsame⟩ := Program.exists_reads_print hprintable source
  -- Without positions, what was read back is what was printed.
  have hprinted : (assembleProgram source origin
      ((a.lines.map Line.statement).map Statement.unlocated)).result =
        .ok (a.moved fun _ => .start "") := by
    have hmoved := result_assembleProgram_moved (f := fun _ => .start "") source source origin
      (a.lines.map Line.statement)
    rwa [result_assembleProgram_of_lines ha] at hmoved
  rw [← hsame] at hprinted
  have hread := result_assembleProgram_moved (f := fun _ => .start "") source source origin again
  obtain ⟨b, hb, hmoved⟩ := relocate_eq_ok_iff.mp (hread.symm.trans hprinted)
  exact ⟨b, (result_assemble_of_reads hagain).trans hb, Assembly.columns_of_moved_eq hmoved⟩

/-- Most kinds of operands, names used before and after their labels, a label behind an instruction
without operands, and blanks and a comment that are not printed. -/
theorem print_listing_assembles_alike_most_kinds :
    ∃ a, (assemble "kinds"
        "ret x: ld I,[x] ;\n.org 768 ld F, @y drw @1,@2,!3 y : ld [I], @x .db #ff, x" 512).result =
          .ok a ∧
      ∃ b, (assemble "kinds" (Program.print (a.lines.map Line.statement)) 512).result = .ok b ∧
        b.lines.map Line.address = a.lines.map Line.address ∧
        b.lines.map Line.bytes = a.lines.map Line.bytes ∧ b.symbols = a.symbols ∧
        (b.lines.map fun l => l.statement.unlocated) =
          a.lines.map fun l => l.statement.unlocated :=
  exists_of_isOk (by decide +kernel) fun _ h => print_listing_assembles_alike h

end Chip8
