/-
# Reading undoes printing

Printing a program and reading the text gives the program back, at other
positions, if the program can be printed (`Statement.Printable`); and there is no
other program of which this is true, because all that is read can be printed and
positions have no part in it (`printable_moved_iff`). So what a text is read as,
printed and read again, is the same program.

Key theorems: `Statement.printable_moved_iff`, `Program.printable_of_unlocated_eq`,
`reads_print_iff_printable`.
-/
import Chip8.Proofs.Printing.Reads

namespace Chip8

/-! ### Trying whether a program can be printed -/

instance : DecidablePred IsName := fun _ => inferInstanceAs (Decidable (_ ∧ _))

instance : DecidablePred Value.Printable
  | .name x => inferInstanceAs (Decidable (IsName x))
  | .number _ => .isTrue trivial
  | .absent => .isFalse id

instance : DecidablePred Operand.Printable := fun o => by
  unfold Operand.Printable
  split <;> infer_instance

instance : DecidablePred Statement.Printable
  | .label name _ => inferInstanceAs (Decidable (IsName name))
  | .instruction m os _ => inferInstanceAs (Decidable (m ∈ Token.mnemonics ∧ ∀ o ∈ os, o.Printable))
  | .directive name os _ => inferInstanceAs (Decidable (IsName name ∧ ∀ o ∈ os, o.Printable))

/-! ### Positions have no part in it -/

theorem Statement.printable_moved_iff {f : Position → Position} {s : Statement} :
    (s.moved f).Printable ↔ s.Printable := by
  -- What an operand prints as is its kind and value, which do not move.
  have hos : ∀ os : List Operand,
      (∀ o ∈ os.map (Operand.moved f), o.Printable) ↔ ∀ o ∈ os, o.Printable :=
    fun os => List.forall_mem_map
  cases s with
  | label name p => exact Iff.rfl
  | instruction m os p => exact and_congr_right fun _ => hos os
  | directive name os p => exact and_congr_right fun _ => hos os

/-- Of programs that are the same but for positions, all can be printed or none. -/
theorem Program.printable_of_unlocated_eq {ss ts : List Statement}
    (h : ss.map Statement.unlocated = ts.map Statement.unlocated) (hss : ∀ s ∈ ss, s.Printable) :
    ∀ t ∈ ts, t.Printable := by
  have hmoved : ∀ s ∈ ss.map Statement.unlocated, s.Printable :=
    List.forall_mem_map.mpr fun s hs => Statement.printable_moved_iff.mpr (hss s hs)
  rw [h] at hmoved
  intro t ht
  exact Statement.printable_moved_iff.mp (hmoved t.unlocated (List.mem_map_of_mem ht))

/-- A text is read if splitting and reading it meet with no fault. -/
theorem exists_reads_of_isOk {source text : String}
    (h : ((Token.tokenize source text).result.bind fun ts =>
      (Program.read ts).result).isOk = true) :
    ∃ program, Reads source text program := by
  obtain ⟨program, hprogram, -⟩ := exists_of_isOk h fun _ _ => trivial
  exact ⟨program, Except.bind_eq_ok_iff.mp hprogram⟩

/-- **Reading undoes printing.** A program is given back, up to its positions, by reading its
printed form iff it can be printed: its labels and directives have names, its instructions
mnemonics, and its operands carry what their kinds ask for. Whatever a text is read as can be
printed, so to print it and to read it again changes nothing but positions. -/
theorem reads_print_iff_printable (source : String) :
    (∀ program : List Statement, (∀ s ∈ program, s.Printable) ↔
      ∃ again, Reads source (Program.print program) again ∧
        again.map Statement.unlocated = program.map Statement.unlocated) ∧
    ∀ name text program, Reads name text program →
      (∀ s ∈ program, s.Printable) ∧
      ∃ again, Reads source (Program.print program) again ∧
        again.map Statement.unlocated = program.map Statement.unlocated := by
  refine ⟨fun program => ⟨fun h => Program.exists_reads_print h source, ?_⟩, ?_⟩
  · rintro ⟨again, hagain, hsame⟩
    exact Program.printable_of_unlocated_eq hsame hagain.printable
  · intro name text program h
    exact ⟨h.printable, Program.exists_reads_print h.printable source⟩

/-- A program that was never read, with numbers that no field has room for and a directive without
meaning; and a text with a label behind an instruction without operands, the operand of which it
could be, and with several spellings of numbers and addresses. -/
theorem reads_print_iff_printable_most_kinds :
    (∃ again, Reads "again" (Program.print
          [.label "é2" (.start "a"),
            .directive "even" [⟨.nibble, .number 4294967295, .start "b"⟩] (.start "c"),
            .instruction "ret" [⟨.address, .number 4294967295, .start "a"⟩,
              ⟨.indexAddress, .absent, .start "d"⟩, ⟨.byte, .name "IDX", .start ""⟩] (.start "b")])
          again ∧
        again.map Statement.unlocated =
          [.label "é2" (.start ""),
            .directive "even" [⟨.nibble, .number 4294967295, .start ""⟩] (.start ""),
            .instruction "ret" [⟨.address, .number 4294967295, .start ""⟩,
              ⟨.indexAddress, .absent, .start ""⟩, ⟨.byte, .name "IDX", .start ""⟩] (.start "")]) ∧
    ∃ program, Reads "kinds" "ret é2: .even x,é2 ld I,&x ld [I],@#FFFF ;\ndrw @0, @é2, !007 .db ret"
        program ∧
      (∀ s ∈ program, s.Printable) ∧
      ∃ again, Reads "again" (Program.print program) again ∧
        again.map Statement.unlocated = program.map Statement.unlocated := by
  constructor
  · exact ((reads_print_iff_printable "again").1 _).mp (by decide +kernel)
  · exact (exists_reads_of_isOk (by decide +kernel)).imp fun program h =>
      ⟨h, (reads_print_iff_printable "again").2 _ _ program h⟩

end Chip8
