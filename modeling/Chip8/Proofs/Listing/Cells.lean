/-
# What stands in the cells of a listing

A listing can be read back because of what its cells hold. Addresses, bytes, names and
operands are pieces, rows of characters without a space, a newline or an equals sign
(`IsPiece`). A statement is made of such pieces with single spaces between them, so that
it has no newline and no equals sign either, and neither begins nor ends with a space
(`Statement.isCell_render`). This holds for whatever a text is read as, and for the
names that it binds (`printable_of_assemble`, `isName_of_mem_symbols`).

Key definitions: `Solid`, `IsPiece`, `IsCell`.
Key theorems: `Operand.isPiece_render`, `Statement.isCell_render`, `printable_of_assemble`,
`isName_of_mem_symbols`.
-/
import Chip8.Proofs.Assembly.Labels
import Chip8.Proofs.Printing.Reads

namespace Chip8

/-- A character that is neither a space nor a newline nor an equals sign. -/
def Solid (c : Char) : Prop := c ≠ ' ' ∧ c ≠ '\n' ∧ c ≠ '='

instance : DecidablePred Solid := fun _ => inferInstanceAs (Decidable (_ ∧ _ ∧ _))

/-- Solid characters, and at least one. -/
structure IsPiece (cs : List Char) : Prop where
  some_char : cs ≠ []
  solid : ∀ c ∈ cs, Solid c

/-- A text that is found again between spaces: it has neither a newline nor an equals sign, and no
space at its ends. -/
structure IsCell (cs : List Char) : Prop where
  newline : '\n' ∉ cs
  equals : '=' ∉ cs
  first : ∃ c ∈ cs.head?, c ≠ ' '
  last : ∃ c ∈ cs.getLast?, c ≠ ' '

variable {c : Char} {cs ds : List Char} {x : String}

/-! ### Pieces -/

/-- No letter or digit is a space, a newline or an equals sign. -/
theorem solid_of_isAlphanumeric (h : isAlphanumeric c = true) : Solid c := by
  have hother : ∀ d, isAlphanumeric d = false → c ≠ d := by
    rintro d hd rfl
    rw [h] at hd
    cases hd
  exact ⟨hother ' ' (by decide), hother '\n' (by decide), hother '=' (by decide)⟩

theorem IsPiece.append (h : IsPiece cs) (h' : IsPiece ds) : IsPiece (cs ++ ds) where
  some_char := by simp [h.some_char]
  solid := List.forall_mem_append.mpr ⟨h.solid, h'.solid⟩

theorem IsPiece.cons (hc : Solid c) (h : IsPiece cs) : IsPiece (c :: cs) where
  some_char := List.cons_ne_nil c cs
  solid := List.forall_mem_cons.mpr ⟨hc, h.solid⟩

theorem isPiece_singleton (hc : Solid c) : IsPiece [c] where
  some_char := List.cons_ne_nil c []
  solid := List.forall_mem_singleton.mpr hc

theorem IsWord.isPiece (h : IsWord x) : IsPiece x.toList := by
  obtain ⟨c, cs, rfl, hc, hcs⟩ := h.exists_cons
  rw [String.toList_ofList]
  refine ⟨List.cons_ne_nil c cs, List.forall_mem_cons.mpr ⟨?_, fun d hd => ?_⟩⟩
  · exact solid_of_isAlphanumeric (isAlphanumeric_of_isAlphabetic hc)
  · exact solid_of_isAlphanumeric (hcs d hd)

/-- Digits are a piece. -/
theorem isPiece_of_digits {radix : Radix} (hcs : cs ≠ []) (h : ∀ d ∈ cs, radix.isDigit d = true) :
    IsPiece cs :=
  ⟨hcs, fun d hd => solid_of_isAlphanumeric (isAlphanumeric_of_isDigit (h d hd))⟩

theorem isPiece_decimal (n : Nat) : IsPiece (decimal n).toList := by
  rw [decimal, String.toList_ofList]
  exact isPiece_of_digits (Radix.digits_ne_nil _ n) (Radix.all_isDigit_digits _ n)

theorem isPiece_hex (width n : Nat) : IsPiece (hex width n).toList := by
  rw [hex, String.toList_ofList]
  exact isPiece_of_digits (Radix.padded_ne_nil _ width n) (Radix.all_isDigit_padded _ width n)

theorem Value.isPiece_render {v : Value} (h : v.Printable) : IsPiece v.render.toList := by
  cases v with
  | name x => exact IsWord.isPiece (And.left h)
  | number n => exact isPiece_decimal n.toNat
  | absent => exact h.elim

theorem IsPiece.brackets (h : IsPiece cs) : IsPiece ('[' :: (cs ++ [']'])) :=
  (h.append (isPiece_singleton (by decide))).cons (by decide)

/-- **An operand is a piece**: nothing in it is a blank. -/
theorem Operand.isPiece_render {o : Operand} (h : o.Printable) : IsPiece o.render.toList := by
  obtain ⟨kind, value, p⟩ := o
  have hword : ∀ w ∈ Token.keywords, IsPiece w.toList :=
    fun w hw => (isWord_of_mem_keywords w hw).isPiece
  cases kind with
  | index => exact hword "I" (by decide)
  | delayTimer => exact hword "DT" (by decide)
  | soundTimer => exact hword "ST" (by decide)
  | bcd => exact hword "B" (by decide)
  | key => exact hword "K" (by decide)
  | flags => exact hword "F" (by decide)
  | indexAddress =>
    have hindex : IsPiece ('[' :: (['I'] ++ [']'])) := (isPiece_singleton (by decide)).brackets
    simpa [render] using hindex
  | byte => exact Value.isPiece_render h
  | register | nibble =>
    rw [render, String.toList_append]
    exact (Value.isPiece_render h).cons (by decide)
  | address =>
    cases value with
    | number n =>
      rw [render, String.toList_append, String.toList_append, List.append_assoc]
      exact (((isPiece_hex 3 n.toNat).append (isPiece_singleton (by decide))).cons
        (by decide)).cons (by decide)
    | name x =>
      have hname : IsPiece (Value.name x).render.toList := Value.isPiece_render h
      rw [render, String.toList_append, String.toList_append, List.append_assoc]
      exact hname.brackets
    | absent => exact h.elim

/-! ### Cells -/

theorem IsPiece.isCell (h : IsPiece cs) : IsCell cs where
  newline hmem := (h.solid _ hmem).2.1 rfl
  equals hmem := (h.solid _ hmem).2.2 rfl
  first := ⟨cs.head h.some_char, by simp [List.head?_eq_some_head h.some_char],
    (h.solid _ (List.head_mem h.some_char)).1⟩
  last := ⟨cs.getLast h.some_char, by simp [List.getLast?_eq_some_getLast h.some_char],
    (h.solid _ (List.getLast_mem h.some_char)).1⟩

/-- Cells may be joined by anything without a newline and an equals sign. -/
theorem IsCell.join (h : IsCell cs) (h' : IsCell ds) {separator : List Char}
    (hnewline : '\n' ∉ separator) (hequals : '=' ∉ separator) :
    IsCell (cs ++ (separator ++ ds)) where
  newline := by simp [h.newline, hnewline, h'.newline]
  equals := by simp [h.equals, hequals, h'.equals]
  first := by
    obtain ⟨c, hc, hne⟩ := h.first
    exact ⟨c, by simp [Option.mem_def.mp hc], hne⟩
  last := by
    obtain ⟨c, hc, hne⟩ := h'.last
    exact ⟨c, by simp [Option.mem_def.mp hc], hne⟩

namespace Statement

/-- Operands with commas between them are a cell. -/
theorem isCell_intercalate : ∀ {o : Operand} {os : List Operand},
    (∀ o' ∈ o :: os, o'.Printable) →
      IsCell (", ".intercalate ((o :: os).map Operand.render)).toList
  | o, [], h => by
    have ho := (Operand.isPiece_render (h o List.mem_cons_self)).isCell
    simpa using ho
  | o, o' :: os, h => by
    obtain ⟨ho, hos⟩ := List.forall_mem_cons.mp h
    have hrender : (", ".intercalate ((o :: o' :: os).map Operand.render)).toList =
        o.render.toList ++ ([',', ' '] ++
          (", ".intercalate ((o' :: os).map Operand.render)).toList) :=
      toList_intercalate_cons_cons ", " o.render o'.render (os.map Operand.render)
    rw [hrender]
    exact (Operand.isPiece_render ho).isCell.join (isCell_intercalate hos) (by decide) (by decide)

/-- A word and operands behind it are a cell. -/
theorem isCell_append_renderOperands (h : IsPiece cs) {os : List Operand}
    (hos : ∀ o ∈ os, o.Printable) : IsCell (cs ++ (renderOperands os).toList) := by
  cases os with
  | nil =>
    rw [renderOperands, String.toList_empty, List.append_nil]
    exact h.isCell
  | cons o os =>
    have hrender : (renderOperands (o :: os)).toList =
        [' '] ++ (", ".intercalate ((o :: os).map Operand.render)).toList := by
      rw [renderOperands, String.toList_append]
      · rfl
      · simp
    rw [hrender]
    exact h.isCell.join (isCell_intercalate hos) (by decide) (by decide)

/-- **A statement is a cell**: it has no newline, no equals sign, and no space at its ends. -/
theorem isCell_render {s : Statement} (h : s.Printable) : IsCell s.render.toList := by
  cases s with
  | label name p =>
    rw [render, String.toList_append]
    exact (h.1.isPiece.append (isPiece_singleton (by decide))).isCell
  | instruction m os p =>
    obtain ⟨hm, hos⟩ := h
    rw [render, String.toList_append]
    exact isCell_append_renderOperands (isWord_of_mem_mnemonics m hm).isPiece hos
  | directive name os p =>
    obtain ⟨hname, hos⟩ := h
    rw [render, String.toList_append, String.toList_append]
    exact isCell_append_renderOperands (hname.1.isPiece.cons (by decide)) hos

end Statement

/-! ### What a text is assembled to -/

variable {source text : String} {origin : UInt32} {a : Assembly}

/-- The statements of a listing can be printed. -/
theorem printable_of_assemble (h : (assemble source text origin).result = .ok a) :
    ∀ l ∈ a.lines, l.statement.Printable := by
  obtain ⟨program, hr, ha⟩ := result_assemble_eq_ok_iff.mp h
  have hstatements := (columns_of_assembleProgram ha).2.1
  intro l hl
  have hmem : l.statement ∈ Program.resolved origin program :=
    hstatements ▸ List.mem_map_of_mem hl
  obtain ⟨s, hs, heq⟩ := List.mem_map.mp hmem
  rw [← heq]
  exact Statement.printable_resolved (hr.printable s hs)

/-- The symbols of a listing have names, for they are those of its labels. -/
theorem isName_of_mem_symbols (h : (assemble source text origin).result = .ok a) :
    ∀ b ∈ a.symbols.entries, IsName b.name := by
  obtain ⟨program, -, ha⟩ := result_assemble_eq_ok_iff.mp h
  intro b hb
  have hlast := (get?_symbols_eq_some_iff ha).mp (Symbols.get?_eq_some_iff.mpr hb)
  obtain ⟨l, hl, hlabel⟩ := hlast.exists_mem
  have hprintable := printable_of_assemble h l hl
  cases hs : l.statement with
  | label name p =>
    rw [hs] at hprintable hlabel
    obtain rfl : name = b.name := Option.some.inj hlabel
    exact hprintable
  | instruction m os p | directive m os p =>
    rw [hs] at hlabel
    cases hlabel

end Chip8
