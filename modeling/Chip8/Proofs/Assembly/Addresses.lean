/-
# Addresses and bytes agree

Addresses are given by one pass, which counts the bytes of a statement, and bytes
are made by another, after names were replaced. They agree: every line starts
where the bytes of the line before it end, and only an `.org` starts anew. Since
the last lines of a program are a program of their own that begins at their
address, this is an induction on the lines (`isChain_of_addresses`).

Key theorems: `isChain_of_addresses`, `lines_follow_one_another`.
-/
import Mathlib.Data.List.Chain
import Chip8.Proofs.Assembly.Program

namespace Chip8

/-- Lines with the addresses of a program stand one behind another. -/
theorem isChain_of_addresses : ∀ {ls : List Line} {address : UInt32},
    ls.map Line.address = Program.addresses address (ls.map Line.statement) →
      (∀ l ∈ ls.head?, l.address = address) ∧
        ls.IsChain fun l m => m.address = l.statement.next l.address
  | [], _, _ => ⟨nofun, .nil⟩
  | l :: ls, address, h => by
    obtain ⟨rfl, hrest⟩ := List.cons.inj h
    obtain ⟨hhead, hchain⟩ := isChain_of_addresses hrest
    refine ⟨by simp, ?_⟩
    cases ls with
    | nil => exact .singleton l
    | cons m ls => exact List.isChain_cons_cons.mpr ⟨hhead m rfl, hchain⟩

/-- The bytes of an assembled line are as many as its statement takes up. -/
theorem length_bytes_of_emit {ls : List Line}
    (h : (Program.emit (ls.map Line.statement)).result = .ok (ls.map Line.bytes)) :
    ∀ l ∈ ls, l.bytes.length = l.statement.size := by
  have hall := Outcome.result_mapM_eq_ok_iff.mp h
  rw [List.forall₂_map_left_iff, List.forall₂_map_right_iff, List.forall₂_same] at hall
  exact fun l hl => Statement.length_of_result_emit (hall l hl)

/-- **Addresses and bytes agree.** The lines of an assembled text are its statements, names
replaced, in their order. The first stands at the origin; any other stands where an `.org` in the
line before says, cut to 12 bits, or else behind the bytes of that line. A label or an `.org` has no
bytes, an instruction two, and a `.db` one for each operand. -/
theorem lines_follow_one_another {source text : String} {origin : UInt32} {a : Assembly}
    (h : (assemble source text origin).result = .ok a) :
    ∃ program, Reads source text program ∧
      a.lines.map Line.statement = program.map (Statement.resolved a.symbols) ∧
      (∀ l ∈ a.lines.head?, l.address = origin) ∧
      (a.lines.IsChain fun l m => m.address.toNat =
        match l.statement.origin? with
        | some n => n.toNat % 4096
        | none => (l.address.toNat + l.bytes.length) % UInt32.size) ∧
      ∀ l ∈ a.lines, l.bytes.length = l.statement.size := by
  obtain ⟨program, hr, ha⟩ := result_assemble_eq_ok_iff.mp h
  obtain ⟨hp, -⟩ := result_assembleProgram_eq_ok_iff.mp ha
  obtain ⟨haddresses, hstatements, hbytes, hsymbols⟩ := columns_of_assembleProgram ha
  have hsizes := length_bytes_of_emit (hstatements.symm ▸ hbytes)
  have hcolumn : a.lines.map Line.address =
      Program.addresses origin (a.lines.map Line.statement) := by
    rw [haddresses, hstatements, Program.resolved, Program.addresses_resolved origin hp]
  obtain ⟨hhead, hchain⟩ := isChain_of_addresses hcolumn
  refine ⟨program, hr, hsymbols ▸ hstatements, hhead, ?_, hsizes⟩
  refine hchain.imp_of_mem_imp fun l m hl _ hlm => ?_
  have hnext := Statement.toNat_next l.address l.statement
  rw [← hlm, ← hsizes l hl] at hnext
  exact hnext

/-- A label and data that run over the end of the addresses, an `.org` that is cut, and a jump. -/
theorem lines_follow_one_another_over_the_end :
    ∃ a, (assemble "wrap" "x: .db 1, 2, x\n.org #1ABC\njp [x]" 4294967295).result = .ok a ∧
      a.lines.map Line.address = [4294967295, 4294967295, 2, 0xABC] ∧
      a.lines.map Line.bytes = [[], [1, 2, 255], [], [0x1F, 0xFF]] ∧
      ∃ program, Reads "wrap" "x: .db 1, 2, x\n.org #1ABC\njp [x]" program ∧
        a.lines.map Line.statement = program.map (Statement.resolved a.symbols) ∧
        (∀ l ∈ a.lines.head?, l.address = 4294967295) ∧
        (a.lines.IsChain fun l m => m.address.toNat =
          match l.statement.origin? with
          | some n => n.toNat % 4096
          | none => (l.address.toNat + l.bytes.length) % UInt32.size) ∧
        ∀ l ∈ a.lines, l.bytes.length = l.statement.size := by
  have hlines : (assemble "wrap" "x: .db 1, 2, x\n.org #1ABC\njp [x]" 4294967295).result.map
      (fun a => (a.lines.map Line.address, a.lines.map Line.bytes)) =
        .ok ([4294967295, 4294967295, 2, 0xABC], [[], [1, 2, 255], [], [0x1F, 0xFF]]) := by
    decide +kernel
  obtain ⟨a, ha, hcolumns⟩ := Except.map_eq_ok_iff.mp hlines
  obtain ⟨haddresses, hbytes⟩ := Prod.mk.inj hcolumns
  exact ⟨a, ha, haddresses, hbytes, lines_follow_one_another ha⟩

end Chip8
