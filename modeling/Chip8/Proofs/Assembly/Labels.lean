/-
# Names stand for their last labels

A name may be used before its label, behind it, or between two labels that both
bear it. It makes no difference: the symbols of a program are complete before any
name is replaced, and the last label of a name is the one that counts
(`LastLabel`). What a walk over labels leaves a name bound to is the address of
its last label, or else what it was bound to before (`get?_pastAll_eq_some_iff`).
A name in an operand gives way to that address, and nothing else in the program
changes (`Statement.Replaced`).

Key definitions: `LastLabel`, `Operand.Replaced`, `Statement.Replaced`.
Key theorems: `get?_pastAll_eq_some_iff`, `get?_symbols_eq_some_iff`,
`Statement.replaced_resolved`, `names_stand_for_last_labels`.
-/
import Chip8.Proofs.Assembly.Program

namespace Chip8

/-- The last of the lines that is a label with the name `x` has the address `address`. -/
def LastLabel (ls : List Line) (x : String) (address : UInt32) : Prop :=
  ∃ before l after, ls = before ++ l :: after ∧ l.statement.label? = some x ∧
    l.address = address ∧ ∀ m ∈ after, m.statement.label? ≠ some x

/-- The second operand is the first one, its name replaced by the address of the last label that
bears it. -/
inductive Operand.Replaced (ls : List Line) : Operand → Operand → Prop where
  | name {kind : Operand.Kind} {x : String} {p : Position} {address : UInt32}
      (h : LastLabel ls x address) : Replaced ls ⟨kind, .name x, p⟩ ⟨kind, .number address, p⟩
  | literal {o : Operand} (h : o.Literal) : Replaced ls o o

/-- The second statement is the first one, the names in its operands replaced. -/
inductive Statement.Replaced (ls : List Line) : Statement → Statement → Prop where
  | label (name : String) (p : Position) : Replaced ls (.label name p) (.label name p)
  | instruction (m : String) (p : Position) {os os' : List Operand}
      (h : List.Forall₂ (Operand.Replaced ls) os os') :
      Replaced ls (.instruction m os p) (.instruction m os' p)
  | directive (name : String) (p : Position) {os os' : List Operand}
      (h : List.Forall₂ (Operand.Replaced ls) os os') :
      Replaced ls (.directive name os p) (.directive name os' p)

variable {x : String} {address origin : UInt32}

/-! ### The last label -/

theorem not_lastLabel_nil : ¬LastLabel [] x address := by
  rintro ⟨before, l, after, h, -⟩
  simp at h

/-- The last label stands behind the first line, or is the first line itself. -/
theorem lastLabel_cons_iff {l : Line} {ls : List Line} :
    LastLabel (l :: ls) x address ↔ LastLabel ls x address ∨
      (∀ m ∈ ls, m.statement.label? ≠ some x) ∧ l.statement.label? = some x ∧
        l.address = address := by
  constructor
  · rintro ⟨before, m, after, h, hm, ha, hafter⟩
    cases before with
    | nil =>
      obtain ⟨rfl, rfl⟩ := List.cons.inj h
      exact .inr ⟨hafter, hm, ha⟩
    | cons k before =>
      obtain ⟨rfl, rfl⟩ := List.cons.inj h
      exact .inl ⟨before, m, after, rfl, hm, ha, hafter⟩
  · rintro (⟨before, m, after, rfl, hm, ha, hafter⟩ | ⟨hls, hl, ha⟩)
    · exact ⟨l :: before, m, after, rfl, hm, ha, hafter⟩
    · exact ⟨[], l, ls, rfl, hl, ha, hls⟩

theorem LastLabel.exists_mem {ls : List Line} (h : LastLabel ls x address) :
    ∃ l ∈ ls, l.statement.label? = some x := by
  obtain ⟨before, l, after, rfl, hl, -⟩ := h
  exact ⟨l, by simp, hl⟩

/-- Where there is a label of a name, there is a last one. -/
theorem exists_lastLabel : ∀ {ls : List Line}, (∃ l ∈ ls, l.statement.label? = some x) →
    ∃ address, LastLabel ls x address
  | [], h => by simp at h
  | l :: ls, h => by
    by_cases hls : ∃ m ∈ ls, m.statement.label? = some x
    · obtain ⟨address, hlast⟩ := exists_lastLabel hls
      exact ⟨address, lastLabel_cons_iff.mpr (.inl hlast)⟩
    · have hnone : ∀ m ∈ ls, m.statement.label? ≠ some x := fun m hm hx => hls ⟨m, hm, hx⟩
      obtain ⟨m, hm, hx⟩ := h
      rcases List.mem_cons.mp hm with rfl | hm
      · exact ⟨m.address, lastLabel_cons_iff.mpr (.inr ⟨hnone, hx, rfl⟩)⟩
      · exact absurd hx (hnone m hm)

/-! ### What names are bound to -/

/-- Behind a program a name is bound to the address of its last label, or if it has none to what it
was bound to before. The lines stand at the addresses of the walk, so the cursor at a label is
the address of its line. -/
theorem Layout.get?_pastAll_eq_some_iff {ls : List Line} {l : Layout}
    (h : ls.map Line.address = Program.addresses l.cursor (ls.map Line.statement)) :
    (l.pastAll (ls.map Line.statement)).get? x = some address ↔
      LastLabel ls x address ∨
        (∀ m ∈ ls, m.statement.label? ≠ some x) ∧ l.get? x = some address := by
  induction ls generalizing l with
  | nil => simp [pastAll, not_lastLabel_nil]
  | cons m ls ih =>
    obtain ⟨hm, hls⟩ := List.cons.inj h
    rw [List.map_cons, pastAll_cons, ih hls, get?_past, lastLabel_cons_iff, or_assoc]
    refine or_congr_right ?_
    by_cases hx : m.statement.label? = some x
    · simp [hx, hm]
    · simp [hx]

variable {source : String} {program : List Statement} {a : Assembly}

/-- An assembled program has the addresses of its lines, names replaced. -/
theorem addresses_of_assembleProgram
    (h : (assembleProgram source origin program).result = .ok a) :
    a.lines.map Line.address = Program.addresses origin (a.lines.map Line.statement) := by
  obtain ⟨hp, -⟩ := result_assembleProgram_eq_ok_iff.mp h
  obtain ⟨haddresses, hstatements, -⟩ := columns_of_assembleProgram h
  rw [haddresses, hstatements, Program.resolved, Program.addresses_resolved origin hp]

/-- The symbols of an assembled program bind each name to the address of its last label. -/
theorem get?_symbols_eq_some_iff (h : (assembleProgram source origin program).result = .ok a) :
    a.symbols.get? x = some address ↔ LastLabel a.lines x address := by
  obtain ⟨hp, -⟩ := result_assembleProgram_eq_ok_iff.mp h
  obtain ⟨-, hstatements, -, hsymbols⟩ := columns_of_assembleProgram h
  have hlayout : (Layout.start origin).pastAll (a.lines.map Line.statement) =
      (Layout.start origin).pastAll program := by
    rw [hstatements, Program.resolved, Layout.pastAll_resolved _ hp]
  have hget : a.symbols.get? x =
      ((Layout.start origin).pastAll (a.lines.map Line.statement)).get? x := by
    rw [hsymbols, hlayout]
    rfl
  rw [hget, Layout.get?_pastAll_eq_some_iff (addresses_of_assembleProgram h)]
  simp [Layout.get?_start]

/-! ### What operands become -/

variable {ls : List Line} {symbols : Symbols}

/-- A bound operand is replaced, if the symbols bind names to their last labels. -/
theorem Operand.replaced_resolved (hs : ∀ x address, symbols.get? x = some address →
    LastLabel ls x address) {o : Operand} (ho : o.Bound symbols) :
    Replaced ls o (o.resolved symbols) := by
  by_cases hlit : o.Literal
  · rw [resolved_of_literal hlit]
    exact .literal hlit
  · obtain ⟨kind, value, p⟩ := o
    cases value with
    | name x =>
      obtain ⟨address, hx⟩ := Option.ne_none_iff_exists'.mp (ho x rfl)
      have hresolved : resolved symbols ⟨kind, .name x, p⟩ = ⟨kind, .number address, p⟩ := by
        simp [resolved, resolve, hx]
      rw [hresolved]
      exact .name (hs x address hx)
    | number n => exact absurd nofun hlit
    | absent => exact absurd nofun hlit

theorem Statement.replaced_resolved (hs : ∀ x address, symbols.get? x = some address →
    LastLabel ls x address) {s : Statement} (hb : s.Bound symbols) :
    Replaced ls s (s.resolved symbols) := by
  have hos : List.Forall₂ (Operand.Replaced ls) s.operands
      (s.operands.map (Operand.resolved symbols)) := by
    rw [List.forall₂_map_right_iff, List.forall₂_same]
    exact fun o ho => Operand.replaced_resolved hs (hb o ho)
  cases s with
  | label name p => exact .label name p
  | instruction m os p => exact .instruction m p hos
  | directive name os p => exact .directive name p hos

/-- **Names stand for their last labels.** The lines of an assembled text are its statements in
their order, and in each the names of operands are replaced by the addresses of the last labels
that bear them, wherever these stand; nothing else is changed, and no name is left. The symbols
are the names of the labels, each once and with the address of its last label, in the order of
listing. -/
theorem names_stand_for_last_labels {text : String}
    (h : (assemble source text origin).result = .ok a) :
    ∃ program, Reads source text program ∧
      List.Forall₂ (Statement.Replaced a.lines) program (a.lines.map Line.statement) ∧
      (∀ l ∈ a.lines, l.statement.Literal) ∧
      (∀ x address, ⟨x, address⟩ ∈ a.symbols.entries ↔ LastLabel a.lines x address) ∧
      (∀ x, x ∈ a.symbols.entries.map Binding.name ↔
        ∃ l ∈ a.lines, l.statement.label? = some x) ∧
      (a.symbols.entries.map Binding.name).Nodup ∧ a.symbols.entries.Pairwise Binding.Before := by
  obtain ⟨program, hr, ha⟩ := result_assemble_eq_ok_iff.mp h
  obtain ⟨-, hb, -⟩ := result_assembleProgram_eq_ok_iff.mp ha
  obtain ⟨-, hstatements, -, hsymbols⟩ := columns_of_assembleProgram ha
  have hget := fun x address => @get?_symbols_eq_some_iff x address origin source program a ha
  have hentries : ∀ x address, ⟨x, address⟩ ∈ a.symbols.entries ↔ LastLabel a.lines x address :=
    fun x address => by rw [← Symbols.get?_eq_some_iff, hget]
  refine ⟨program, hr, ?_, ?_, hentries, ?_, a.symbols.distinct, a.symbols.ordered⟩
  · rw [hstatements, Program.resolved, ← hsymbols, List.forall₂_map_right_iff, List.forall₂_same]
    intro s hs
    exact Statement.replaced_resolved (fun x address => (hget x address).mp) (hsymbols ▸ hb s hs)
  · have hliteral := Program.literal_resolved hb
    rw [← hstatements] at hliteral
    exact List.forall_mem_map.mp hliteral
  · intro x
    constructor
    · intro hx
      obtain ⟨b, hmem, rfl⟩ := List.mem_map.mp hx
      exact ((hentries b.name b.address).mp hmem).exists_mem
    · intro hx
      obtain ⟨address, hlast⟩ := exists_lastLabel hx
      exact List.mem_map.mpr ⟨_, (hentries x address).mpr hlast, rfl⟩

/-- A name before, between and behind its two labels, the second one at a lower address, and a
name of another label at the same one. -/
theorem names_stand_for_last_labels_twice :
    ∃ a, (assemble "twice" "jp [x] x: ret\n.org 2 .db x y: x: ld I, [y] jp @0, [x]" 512).result =
        .ok a ∧
      a.symbols.entries = [⟨"x", 3⟩, ⟨"y", 3⟩] ∧
      a.image = [0x10, 0x03, 0x00, 0xEE, 0x03, 0xA0, 0x03, 0xB0, 0x03] ∧
      ∃ program, Reads "twice" "jp [x] x: ret\n.org 2 .db x y: x: ld I, [y] jp @0, [x]" program ∧
        List.Forall₂ (Statement.Replaced a.lines) program (a.lines.map Line.statement) ∧
        (∀ l ∈ a.lines, l.statement.Literal) ∧
        (∀ x address, ⟨x, address⟩ ∈ a.symbols.entries ↔ LastLabel a.lines x address) ∧
        (∀ x, x ∈ a.symbols.entries.map Binding.name ↔
          ∃ l ∈ a.lines, l.statement.label? = some x) ∧
        (a.symbols.entries.map Binding.name).Nodup ∧
        a.symbols.entries.Pairwise Binding.Before := by
  have hassembled : (assemble "twice" "jp [x] x: ret\n.org 2 .db x y: x: ld I, [y] jp @0, [x]"
      512).result.map (fun a => (a.symbols.entries, a.image)) =
        .ok ([⟨"x", 3⟩, ⟨"y", 3⟩], [0x10, 0x03, 0x00, 0xEE, 0x03, 0xA0, 0x03, 0xB0, 0x03]) := by
    decide +kernel
  obtain ⟨a, ha, hpair⟩ := Except.map_eq_ok_iff.mp hassembled
  obtain ⟨hsymbols, himage⟩ := Prod.mk.inj hpair
  exact ⟨a, ha, hsymbols, himage, names_stand_for_last_labels ha⟩

end Chip8
