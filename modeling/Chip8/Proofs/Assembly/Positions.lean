/-
# Positions are places in the text

Every position that a program or a fault carries is one where splitting looks for a
token (`Position.IsPlace`): it is counted in the text before it, and there a token
begins, whole or malformed, or the text ends. A token has such a position, and no
stage makes one up: what reading and the passes complain of stands at a token, a
statement or an operand, and these stand at tokens (`ProgramTree.map_position_leading`).

Key definitions: `Begins`, `Position.IsPlace`.
Key theorems: `Token.isPlace_of_tokenize`, `Reads.exists_leading`, `FirstFault.isPlace`,
`positions_are_places`.
-/
import Chip8.Proofs.Assembly.Acceptance
import Chip8.Proofs.Grammar.Leading
import Chip8.Proofs.Grammar.Reading
import Chip8.Proofs.Grammar.Viable
import Chip8.Proofs.Splitting.Malformed

namespace Chip8

/-- A token is in front, whole or malformed, or the end of the input. -/
inductive Begins : List Char → Prop where
  | token {l : Lexeme} {rest : List Char} (longest : l.Longest rest) :
      Begins (l.text.toList ++ rest)
  | malformed {cs : List Char} {cause : Fault.Cause} (h : Malformed cs cause) : Begins cs
  | done : Begins []

/-- The position is counted in the text before it, which splitting takes as tokens, white space and
comments; and there the next token is in front, whole or malformed, or the end of the input. -/
def Position.IsPlace (source text : String) (p : Position) : Prop :=
  ∃ front rest, text.toList = front ++ rest ∧ p.Counts source front ∧ Begins rest ∧
    ∃ ss gap, front = ss.flatMap Stretch.chars ++ gap ∧ Reaches source [] ss gap p rest

variable {source text : String}

theorem Reaches.isPlace {ss : List Stretch} {gap rest : List Char} {p : Position}
    (h : Reaches source [] ss gap p rest)
    (htext : text.toList = ss.flatMap Stretch.chars ++ (gap ++ rest)) (hbegins : Begins rest) :
    p.IsPlace source text :=
  ⟨ss.flatMap Stretch.chars ++ gap, rest, by rw [htext, List.append_assoc], h.position, hbegins,
    ss, gap, rfl, h⟩

/-! ### Tokens -/

/-- The first of some stretches stand in front of the others. -/
theorem Stretch.AllStand.left {front last : List Char} {ss ts : List Stretch}
    (h : AllStand source front (ss ++ ts) last) :
    AllStand source front ss (ts.flatMap chars ++ last) := by
  rintro before s after rfl
  have hs := h before s (after ++ ts) (by simp)
  rwa [List.flatMap_append, List.append_assoc] at hs

/-- The tokens before one of a row reach it. -/
theorem Stretch.AllStand.reaches {front last : List Char} {before after : List Stretch}
    {s : Stretch} (h : AllStand source front (before ++ s :: after) last) :
    Reaches source front before s.skipped s.token.position
      (s.token.text.toList ++ (after.flatMap chars ++ last)) := by
  have hs := h before s after rfl
  have hbefore := h.left
  rw [List.flatMap_cons, chars, List.append_assoc, List.append_assoc] at hbefore
  refine ⟨hbefore, hs.skipped, ?_⟩
  rw [← List.append_assoc]
  exact hs.position

/-- **Tokens stand at places.** -/
theorem Token.isPlace_of_tokenize {tokens : List Token}
    (h : (tokenize source text).result = .ok tokens) :
    ∀ t ∈ tokens, t.position.IsPlace source text := by
  rw [result_tokenize, scan_eq_ok_iff_splits] at h
  obtain ⟨ss, last, stop, rfl, htext, hlast, hstop, hss⟩ := h.exists_stretches
  refine List.forall_mem_append.mpr ⟨fun t ht => ?_, List.forall_mem_singleton.mpr ?_⟩
  · obtain ⟨s, hs, rfl⟩ := List.mem_map.mp ht
    obtain ⟨before, after, rfl⟩ := List.append_of_mem hs
    refine hss.reaches.isPlace ?_ (.token (hss before s after rfl).longest)
    rw [htext, List.flatMap_append, List.flatMap_cons, Stretch.chars]
    simp only [List.append_assoc]
  · rw [htext] at hstop
    have hreach : Reaches source [] ss last stop [] := ⟨by rwa [List.append_nil], hlast, hstop⟩
    exact hreach.isPlace (by rw [htext, List.append_nil]) .done

theorem Lexeme.Longest.utf8ByteSize_pos {l : Lexeme} {rest : List Char} (h : l.Longest rest) :
    0 < l.text.utf8ByteSize := by
  obtain ⟨c, cs, htext⟩ := h.exists_cons
  have hc := c.utf8Size_pos
  rw [htext, String.ofList_cons, String.utf8ByteSize_append, String.utf8ByteSize_singleton]
  omega

/-- A token has a text, so the next one stands behind it. -/
theorem Splits.pairwise_offset_lt {front cs : List Char} {ts : List Token}
    (h : Splits source front cs ts) :
    ts.Pairwise fun t u => t.position.offset < u.position.offset := by
  induction h with
  | done skipped position => exact List.pairwise_singleton ..
  | @token front gap rest t ts skipped position longest more ih =>
    refine List.pairwise_cons.mpr ⟨fun u hu => ?_, ih⟩
    have hoffset := position.offset
    have hle := more.offset_le u hu
    have hpos := longest.utf8ByteSize_pos
    rw [String.ofList_append, String.utf8ByteSize_append] at hoffset hle
    rw [String.ofList_append, String.utf8ByteSize_append, String.ofList_toList] at hle
    omega

/-! ### Statements and operands -/

/-- **Statements and operands stand at the first of their tokens**, and these are in order. -/
theorem Reads.exists_leading {program : List Statement} (h : Reads source text program) :
    ∃ tokens T, (Token.tokenize source text).result = .ok tokens ∧
      ProgramTree.tokens T = Program.body tokens ∧ ProgramTree.program T = program ∧
      Program.positions program = (ProgramTree.leading T).map Token.position ∧
      (Program.positions program).Pairwise fun p q => p.offset < q.offset := by
  obtain ⟨tokens, ht, hread⟩ := h
  obtain ⟨T, rfl, hT⟩ := Statement.exists_tree_of_readAll hread
  refine ⟨tokens, T, ht, hT.symm, rfl, T.map_position_leading.symm, ?_⟩
  rw [Token.result_tokenize, Token.scan_eq_ok_iff_splits] at ht
  have hleaves : (ProgramTree.leading T).Sublist tokens :=
    (hT ▸ T.leading_sublist).trans (List.takeWhile_sublist _)
  rw [← T.map_position_leading, List.pairwise_map]
  exact ht.pairwise_offset_lt.sublist hleaves

theorem Reads.isPlace {program : List Statement} (h : Reads source text program) :
    ∀ p ∈ Program.positions program, p.IsPlace source text := by
  obtain ⟨tokens, T, ht, hT, rfl, hpositions, -⟩ := h.exists_leading
  rw [hpositions]
  refine List.forall_mem_map.mpr fun t hmem => Token.isPlace_of_tokenize ht t ?_
  have hbody : t ∈ Program.body tokens := hT ▸ T.leading_sublist.subset hmem
  exact List.takeWhile_subset _ hbody

/-! ### Faults -/

theorem Statement.position_mem_positions (s : Statement) : s.position ∈ s.positions :=
  List.mem_cons_self

theorem Statement.position_mem_positions_of_mem {s : Statement} {o : Operand}
    (h : o ∈ s.operands) : o.position ∈ s.positions :=
  List.mem_cons_of_mem _ (List.mem_map_of_mem h)

theorem Statement.Misplaced.position_mem {s : Statement} {f : Fault} (h : s.Misplaced f) :
    f.position ∈ s.positions := by
  cases h with
  | unknown | shape | empty => exact position_mem_positions _
  | named | absent => exact position_mem_positions_of_mem List.mem_cons_self

theorem Statement.Unencodable.position_mem {s : Statement} {f : Fault} (h : s.Unencodable f) :
    f.position ∈ s.positions := by
  cases h with
  | form => exact position_mem_positions _
  | data _ h =>
    obtain ⟨o, ho, -, rfl⟩ := h.exists_mem
    exact position_mem_positions_of_mem ho

/-- The first thing that is wrong stands at a place. -/
theorem FirstFault.isPlace {f : Fault} (h : FirstFault source text f) :
    f.position.IsPlace source text := by
  have hprogram {program : List Statement} (hr : Reads source text program) {s : Statement}
      (hs : s ∈ program) (hf : f.position ∈ s.positions) : f.position.IsPlace source text :=
    hr.isPlace f.position (List.mem_flatMap.mpr ⟨s, hs, hf⟩)
  cases h with
  | splitting _ h =>
    obtain ⟨ss, gap, rest, htext, hreach, hbad⟩ := Token.result_tokenize_eq_error_iff.mp h
    exact hreach.isPlace htext (.malformed hbad)
  | reading _ ht h =>
    obtain ⟨before, t, after, rfl, hwrong⟩ := Token.exists_wrongAt ht h
    rw [hwrong.position]
    exact Token.isPlace_of_tokenize ht t (by simp)
  | placing _ hr h =>
    obtain ⟨s, hs, hf⟩ := h.exists_mem
    exact hprogram hr hs hf.position_mem
  | naming _ hr _ h =>
    obtain ⟨s, hs, hfirst⟩ := h.exists_mem
    obtain ⟨o, ho, x, -, -, rfl⟩ := hfirst.exists_mem
    exact hprogram hr hs (Statement.position_mem_positions_of_mem ho)
  | encoding _ hr _ _ h =>
    obtain ⟨s, hs, hf⟩ := h.exists_mem
    exact hprogram hr hs hf.position_mem

/-- **Positions are places in the text.** Where a text is not assembled, the fault stands where the
next token, whole or malformed, or the end of the input is in front, and its position is counted in
the text before. Where a text is read as a program, its statements, each followed by its operands,
stand at the first tokens of their derivations, at offsets that increase. -/
theorem positions_are_places (source text : String) :
    (∀ origin f, (assemble source text origin).result = .error f →
      f.position.IsPlace source text) ∧
    ∀ program, Reads source text program →
      ∃ tokens T, (Token.tokenize source text).result = .ok tokens ∧
        ProgramTree.tokens T = Program.body tokens ∧ ProgramTree.program T = program ∧
        Program.positions program = (ProgramTree.leading T).map Token.position ∧
        (Program.positions program).Pairwise (fun p q => p.offset < q.offset) ∧
        ∀ p ∈ Program.positions program, p.IsPlace source text := by
  refine ⟨fun origin f h => (result_assemble_eq_error_iff.mp h).isPlace, fun program h => ?_⟩
  obtain ⟨tokens, T, ht, hT, hprogram, hpositions, horder⟩ := h.exists_leading
  exact ⟨tokens, T, ht, hT, hprogram, hpositions, horder, h.isPlace⟩

/-- A malformed number in a second line, and a program with a letter of two bytes in its first. -/
theorem positions_are_places_in_two_lines :
    (∃ f, (assemble "bad" "x:\n  jp & #" 512).result = .error f ∧
      f.position = ⟨"bad", 10, 2, 8⟩ ∧ f.position.IsPlace "bad" "x:\n  jp & #") ∧
    ∃ program, Reads "good" "x: ld @1, é\n jp [x] ; end" program ∧
      Program.positions program = [⟨"good", 0, 1, 1⟩, ⟨"good", 3, 1, 4⟩, ⟨"good", 6, 1, 7⟩,
        ⟨"good", 10, 1, 11⟩, ⟨"good", 14, 2, 2⟩, ⟨"good", 17, 2, 5⟩] ∧
      ∃ tokens T, (Token.tokenize "good" "x: ld @1, é\n jp [x] ; end").result = .ok tokens ∧
        ProgramTree.tokens T = Program.body tokens ∧ ProgramTree.program T = program ∧
        Program.positions program = (ProgramTree.leading T).map Token.position ∧
        (Program.positions program).Pairwise (fun p q => p.offset < q.offset) ∧
        ∀ p ∈ Program.positions program, p.IsPlace "good" "x: ld @1, é\n jp [x] ; end" := by
  have hfault : (assemble "bad" "x:\n  jp & #" 512).result =
      .error ⟨⟨"bad", 10, 2, 8⟩, .noHexDigits⟩ := by
    decide +kernel
  have hread : ((Token.tokenize "good" "x: ld @1, é\n jp [x] ; end").result.bind fun tokens =>
      (Program.read tokens).result.map Program.positions) = .ok [⟨"good", 0, 1, 1⟩,
        ⟨"good", 3, 1, 4⟩, ⟨"good", 6, 1, 7⟩, ⟨"good", 10, 1, 11⟩, ⟨"good", 14, 2, 2⟩,
        ⟨"good", 17, 2, 5⟩] := by
    decide +kernel
  obtain ⟨tokens, ht, hread⟩ := Except.bind_eq_ok_iff.mp hread
  obtain ⟨program, hp, hpositions⟩ := Except.map_eq_ok_iff.mp hread
  have hr : Reads "good" "x: ld @1, é\n jp [x] ; end" program := ⟨tokens, ht, hp⟩
  exact ⟨⟨_, hfault, rfl, (positions_are_places "bad" _).1 512 _ hfault⟩,
    program, hr, hpositions, (positions_are_places "good" _).2 program hr⟩

end Chip8
