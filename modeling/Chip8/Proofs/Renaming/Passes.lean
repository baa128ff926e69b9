/-
# Label names do not matter

A program whose labels have other names is assembled in the same way. Two runs are
compared, one of the program and one of the program renamed: side by side they stay
renamings of one another (`Workbench.Renamed`). That is kept by a pass if `f` makes no two of
the names one that occur (`Pass.run_renamed`), for only looking a name up and binding it
compare names, and a pass brings no other names in. So it is kept by a row of passes
(`Workbench.Renamed.after`). Making bytes compares no names at all (`Program.emit_renamed`).

The symbols are the one thing whose order changes, since labels at one address are listed
by name.

Key definitions: `Layout.Renamed`, `Workbench.Renamed`, `Assembly.Renamed`.
Key theorems: `Layout.placeAll_renamed`, `Program.resolve_renamed`, `Program.emit_renamed`,
`Pass.run_renamed`, `Workbench.Renamed.after`, `label_names_do_not_matter`.
-/
import Chip8.Proofs.Assembly.Passes
import Chip8.Proofs.Assembly.Program
import Chip8.Proofs.Renaming.Basic

namespace Chip8

variable {f : String → String} {used : List String}

/-- The second layout is the first one with the names of labels mapped by `f`; they are among
`used`. -/
structure Layout.Renamed (f : String → String) (used : List String) (l k : Layout) : Prop where
  cursor : k.cursor = l.cursor
  symbols : l.symbols.Renamed f k.symbols
  bound : l.symbols.names ⊆ used

/-- The second workbench is the first one with the names of labels mapped by `f`; they are among
`used`. -/
structure Workbench.Renamed (f : String → String) (used : List String) (b c : Workbench) :
    Prop where
  statements : c.statements = b.statements.map (Statement.renamed f)
  occurring : Program.names b.statements ⊆ used
  layout : b.layout.Renamed f used c.layout

/-! ### Placing -/

theorem Directive.originOf_renamed (p : Position) (os : List Operand) :
    originOf p (os.map (Operand.renamed f)) = (originOf p os).mapError (Fault.renamed f) := by
  match os with
  | [] => rfl
  | [o] =>
    obtain ⟨kind, value, position⟩ := o
    simp only [List.map_cons, List.map_nil, originOf, Operand.renamed]
    split
    · cases value <;> rfl
    · rfl
  | o :: o' :: os => rfl

namespace Layout

variable {l k : Layout}

theorem renamed_start (origin : UInt32) : (start origin).Renamed f used (start origin) :=
  ⟨rfl, Symbols.renamed_empty, List.nil_subset used⟩

theorem Renamed.advance (h : l.Renamed f used k) (count : UInt32) :
    (l.advance count).Renamed f used (k.advance count) :=
  ⟨congrArg (· + count) h.cursor, h.symbols, h.bound⟩

theorem Renamed.moveTo (h : l.Renamed f used k) (address : UInt32) :
    (l.moveTo address).Renamed f used (k.moveTo address) := ⟨rfl, h.symbols, h.bound⟩

variable (hf : Distinguishes f used)

include hf

theorem Renamed.get? {x : String} (h : l.Renamed f used k) (hx : x ∈ used) :
    k.get? (f x) = l.get? x :=
  h.symbols.get? (hf.mono (List.cons_subset.mpr ⟨hx, h.bound⟩))

theorem Renamed.define {x : String} (h : l.Renamed f used k) (hx : x ∈ used) :
    (l.define x).2.Renamed f used (k.define (f x)).2 := by
  have hinsert : (l.define x).2.symbols.Renamed f (k.symbols.insert (f x) l.cursor) :=
    h.symbols.insert (hf.mono (List.cons_subset.mpr ⟨hx, h.bound⟩)) l.cursor
  rw [← h.cursor] at hinsert
  refine ⟨h.cursor, hinsert, ?_⟩
  intro y hy
  obtain ⟨b, hb, rfl⟩ := List.mem_map.mp hy
  rcases Symbols.mem_entries_insert.mp hb with rfl | ⟨hold, -⟩
  · exact hx
  · exact h.bound (List.mem_map_of_mem hold)

/-- A statement is placed as it is, and renamed in a renamed layout: the layouts that are left and
the outcomes are renamings of one another. -/
theorem place_renamed (h : l.Renamed f used k) {s : Statement} (hs : s.names ⊆ used) :
    (l.place s).1.Renamed f used (k.place (s.renamed f)).1 ∧
      (k.place (s.renamed f)).2 = (l.place s).2.renamed f := by
  cases s with
  | label name p =>
    have hname : name ∈ used := hs List.mem_cons_self
    rw [Statement.renamed, place_label, place_label, h.get? hf hname]
    refine ⟨h.define hf hname, ?_⟩
    cases l.get? name <;> rfl
  | instruction m os p => exact ⟨h.advance 2, rfl⟩
  | directive name os p =>
    rw [Statement.renamed]
    cases hd : Directive.ofName? name with
    | none =>
      rw [place_unknown l hd, place_unknown k hd]
      exact ⟨h, rfl⟩
    | some d =>
      cases d with
      | org =>
        obtain rfl := Directive.ofName?_eq_org_iff.mp hd
        have ho := Directive.originOf_renamed (f := f) p os
        cases horigin : Directive.originOf p os with
        | error e =>
          rw [horigin] at ho
          rw [place_origin_error l horigin, place_origin_error k ho]
          exact ⟨h, rfl⟩
        | ok n =>
          rw [horigin] at ho
          rw [place_origin l horigin, place_origin k ho, h.cursor]
          refine ⟨h.moveTo (n % 0x1000), ?_⟩
          simp only [originNotices, Outcome.renamed]
          split <;> split <;> rfl
      | db =>
        obtain rfl := Directive.ofName?_eq_db_iff.mp hd
        cases os with
        | nil => exact ⟨h, rfl⟩
        | cons o os =>
          rw [List.map_cons, place_data l (List.cons_ne_nil o os),
            place_data k (List.cons_ne_nil _ _), List.length_cons, List.length_cons,
            List.length_map]
          exact ⟨h.advance _, rfl⟩

/-- A program is placed as it is, and renamed in a renamed layout: the layouts that are left and
the outcomes are renamings of one another. -/
theorem placeAll_renamed : ∀ {ss : List Statement} {l k : Layout}, l.Renamed f used k →
    Program.names ss ⊆ used →
      (l.placeAll ss).1.Renamed f used (k.placeAll (ss.map (Statement.renamed f))).1 ∧
        (k.placeAll (ss.map (Statement.renamed f))).2 = (l.placeAll ss).2.renamed f
  | [], l, k, h, _ => ⟨h, rfl⟩
  | s :: ss, l, k, h, hnames => by
    obtain ⟨hs, hss⟩ := List.append_subset.mp hnames
    rw [List.map_cons]
    obtain ⟨hlayout, hout⟩ := place_renamed hf h hs
    cases hplace : (l.place s).2.result with
    | error e =>
      have hplace' : (k.place (s.renamed f)).2.result = .error (e.renamed f) := by
        rw [hout, Outcome.renamed, hplace]
        rfl
      rw [placeAll_error hplace, placeAll_error hplace', hout]
      exact ⟨hlayout, rfl⟩
    | ok =>
      have hplace' : (k.place (s.renamed f)).2.result = .ok () := by
        rw [hout, Outcome.renamed, hplace]
        rfl
      obtain ⟨hlast, hrest⟩ := placeAll_renamed hlayout hss
      rw [placeAll_ok hplace, placeAll_ok hplace']
      refine ⟨hlast, ?_⟩
      simp only [hout, hrest, h.cursor, Outcome.renamed, List.map_append]
      cases ((l.place s).1.placeAll ss).2.result <;> rfl

end Layout

/-! ### Replacing names -/

section Resolving

variable {s t : Symbols} (h : s.Renamed f t) (hf : Distinguishes f used) (hbound : s.names ⊆ used)

include h hf hbound

theorem Operand.resolve_renamed {o : Operand} (ho : ∀ x, o.value = .name x → x ∈ used) :
    (o.renamed f).resolve t =
      (o.resolve s).map (Operand.renamed f) (Option.map (Fault.renamed f)) := by
  obtain ⟨kind, value, p⟩ := o
  cases value with
  | name x =>
    have hx := h.get? (hf.mono (List.cons_subset.mpr ⟨ho x rfl, hbound⟩))
    simp only [resolve, renamed, Value.renamed, hx]
    cases s.get? x <;> rfl
  | number n => rfl
  | absent => rfl

theorem Statement.resolve_renamed {u : Statement} (hu : u.names ⊆ used) :
    (u.renamed f).resolve t =
      (u.resolve s).map (Statement.renamed f) (Option.map (Fault.renamed f)) := by
  have hos : ∀ o ∈ u.operands, (o.renamed f).resolve t =
      (o.resolve s).map (Operand.renamed f) (Option.map (Fault.renamed f)) := fun o ho =>
    Operand.resolve_renamed h hf hbound fun x hx => hu (mem_names_iff.mpr (.inr ⟨o, ho, hx⟩))
  rw [resolve, operands_renamed, replaceUntil_map hos]
  simp only [Prod.map, withOperands_renamed]
  rfl

/-- Names are replaced by the same addresses, or the same operand is not bound. -/
theorem Program.resolve_renamed {ss : List Statement} (hss : names ss ⊆ used) :
    resolve t (ss.map (Statement.renamed f)) =
      (resolve s ss).map (List.map (Statement.renamed f)) (Option.map (Fault.renamed f)) :=
  replaceUntil_map fun u hu =>
    u.resolve_renamed h hf hbound fun _ hx => hss (List.mem_flatMap.mpr ⟨u, hu, hx⟩)

end Resolving

/-- Replacing names brings no name in. -/
theorem Statement.names_resolve (symbols : Symbols) (s : Statement) :
    (s.resolve symbols).1.names ⊆ s.names := by
  intro x hx
  rcases mem_names_iff.mp hx with hlabel | ⟨o, ho, hx⟩
  · refine mem_names_iff.mpr (.inl ?_)
    rw [← hlabel]
    cases s <;> rfl
  · rw [operands_resolve] at ho
    rcases mem_replaceUntil ho with hsame | ⟨o', ho', hnew⟩
    · exact mem_names_iff.mpr (.inr ⟨o, hsame, hx⟩)
    · rcases Operand.resolve_cases symbols o' with hsame | ⟨_, address, -, -, hreplaced⟩
      · obtain rfl : o' = o := hsame.symm.trans hnew
        exact mem_names_iff.mpr (.inr ⟨o', ho', hx⟩)
      · rw [← hnew, hreplaced] at hx
        cases hx

theorem Program.names_resolve (symbols : Symbols) (ss : List Statement) :
    names (resolve symbols ss).1 ⊆ names ss := by
  intro x hx
  obtain ⟨s, hs, hx⟩ := List.mem_flatMap.mp hx
  rcases mem_replaceUntil hs with hsame | ⟨s', hs', rfl⟩
  · exact List.mem_flatMap.mpr ⟨s, hsame, hx⟩
  · exact List.mem_flatMap.mpr ⟨s', hs', s'.names_resolve symbols hx⟩

/-! ### Making bytes -/

theorem Operand.load_renamed (o : Operand) : (o.renamed f).load = o.load.renamed f := by
  obtain ⟨kind, value, p⟩ := o
  cases value with
  | name x => rfl
  | number n =>
    simp only [load, renamed, Value.renamed, cutNotice?, Outcome.renamed]
    cases kind.bits? with
    | none => rfl
    | some bits => simp only; split <;> rfl
  | absent => rfl

theorem Operand.byte_renamed (o : Operand) : (o.renamed f).byte = o.byte.renamed f := by
  by_cases hk : o.kind = .byte
  · simp only [byte, kind_renamed, if_pos hk, load_renamed, Outcome.renamed_bind,
      Outcome.renamed_pure]
  · rw [byte, byte, kind_renamed, if_neg hk, if_neg hk]
    rfl

theorem Slot.lay_renamed : ∀ (slots : List Slot) (os : List Operand) (opcode : UInt16),
    lay slots (os.map (Operand.renamed f)) opcode = (lay slots os opcode).renamed f
  | [], os, opcode => by simp [lay]
  | slot :: slots, [], opcode => by simp [lay]
  | ⟨kind, none⟩ :: slots, o :: os, opcode => by
    rw [List.map_cons, lay, lay]
    exact lay_renamed slots os opcode
  | ⟨kind, some field⟩ :: slots, o :: os, opcode => by
    simp only [List.map_cons, lay, Outcome.renamed_bind, Operand.load_renamed, lay_renamed slots os]

theorem Instruction.encode_renamed (m : String) (os : List Operand) (p : Position) :
    encode m (os.map (Operand.renamed f)) p = (encode m os p).renamed f := by
  have hkinds := Operand.map_kind_renamed (f := f) os
  cases hform : Form.find? m (os.map Operand.kind) with
  | none =>
    rw [encode_of_find?_eq_none hform, encode_of_find?_eq_none (hkinds ▸ hform), hkinds]
    rfl
  | some form =>
    rw [encode_eq_lay_slots hform, encode_eq_lay_slots (hkinds ▸ hform)]
    exact Slot.lay_renamed _ os _

theorem Statement.emit_renamed (s : Statement) : (s.renamed f).emit = s.emit.renamed f := by
  cases s with
  | label name p => rfl
  | instruction m os p =>
    simp only [renamed, emit, Instruction.encode_renamed, Outcome.renamed_bind,
      Outcome.renamed_pure]
  | directive name os p =>
    simp only [renamed, emit]
    split
    · rfl
    · exact Outcome.renamed_mapM fun o _ => o.byte_renamed
    · rfl

/-- Making bytes does not compare names. -/
theorem Program.emit_renamed (ss : List Statement) :
    emit (ss.map (Statement.renamed f)) = (emit ss).renamed f :=
  Outcome.renamed_mapM fun s _ => s.emit_renamed

/-! ### One pass, and a row of them -/

section Running

variable (hf : Distinguishes f used)

include hf

/-- A pass on a workbench and on the workbench renamed: what they leave and what they come to are
renamings of one another. -/
theorem Pass.run_renamed (p : Pass) {b c : Workbench} (h : b.Renamed f used c) :
    (p.run b).1.Renamed f used (p.run c).1 ∧ (p.run c).2 = (p.run b).2.renamed f := by
  obtain ⟨bs, l⟩ := b
  obtain ⟨cs, k⟩ := c
  obtain ⟨hstatements, hoccurring, hlayout⟩ := h
  subst hstatements
  cases p with
  | place =>
    obtain ⟨hlast, hplaced⟩ := Layout.placeAll_renamed hf hlayout hoccurring
    refine ⟨⟨rfl, hoccurring, hlast⟩, ?_⟩
    change Product.addresses <$> (k.placeAll (bs.map (Statement.renamed f))).2 =
      Outcome.renamed f (Product.addresses <$> (l.placeAll bs).2)
    rw [Outcome.renamed_map, hplaced]
  | resolve =>
    have hresolve := Program.resolve_renamed hlayout.symbols hf hlayout.bound hoccurring
    have hnames := Program.names_resolve l.symbols bs
    simp only [run, hresolve]
    refine ⟨⟨rfl, List.Subset.trans hnames hoccurring, hlayout⟩, ?_⟩
    rcases Program.resolve l.symbols bs with ⟨ss, _ | e⟩ <;> rfl
  | emit =>
    refine ⟨⟨rfl, hoccurring, hlayout⟩, ?_⟩
    change Product.code <$> _ = Outcome.renamed f (Product.code <$> _)
    rw [Outcome.renamed_map, Program.emit_renamed]

/-- Workbenches that are renamings of one another still are behind a row of passes. -/
theorem Workbench.Renamed.after {b c : Workbench} (h : b.Renamed f used c) (ps : List Pass) :
    (b.after ps).Renamed f used (c.after ps) := by
  induction ps generalizing b c with
  | nil => exact h
  | cons p ps ih => exact ih (p.run_renamed hf h).1

end Running

/-! ### Assembling -/

/-- The workbench with a program of which nothing is placed yet. -/
def Workbench.start (origin : UInt32) (program : List Statement) : Workbench :=
  ⟨program, .start origin⟩

/-- The second assembled program is the first one with the names of labels mapped by `f`: it has the
same addresses and bytes. -/
structure Assembly.Renamed (f : String → String) (a b : Assembly) : Prop where
  lines : b.lines = a.lines.map fun l => { l with statement := l.statement.renamed f }
  symbols : a.symbols.Renamed f b.symbols

theorem Workbench.renamed_start (f : String → String) (origin : UInt32)
    (program : List Statement) : (start origin program).Renamed f (Program.names program)
      (start origin (program.map (Statement.renamed f))) :=
  ⟨rfl, List.Subset.refl _, Layout.renamed_start origin⟩

section Assembling

variable {program : List Statement} (hf : Distinguishes f (Program.names program))
  (source : String) (origin : UInt32)

include hf

/-- A program and the program renamed have the same fault, or both are assembled. -/
theorem assembleProgram_renamed :
    (∃ e, (assembleProgram source origin program).result = .error e ∧
        (assembleProgram source origin (program.map (Statement.renamed f))).result =
          .error (e.renamed f)) ∨
      ∃ a b, (assembleProgram source origin program).result = .ok a ∧
        (assembleProgram source origin (program.map (Statement.renamed f))).result = .ok b ∧
          a.Renamed f b := by
  obtain ⟨hlayout, hplaced⟩ :=
    Layout.placeAll_renamed hf (Layout.renamed_start origin) (List.Subset.refl _)
  have hresolve :=
    Program.resolve_renamed hlayout.symbols hf hlayout.bound (List.Subset.refl _)
  rw [result_assembleProgram, result_assembleProgram, hplaced, hresolve]
  generalize (Layout.start origin).placeAll program = placed at *
  obtain ⟨l, ns, _ | addresses⟩ := placed
  · exact .inl ⟨_, rfl, rfl⟩
  · generalize Program.resolve l.symbols program = replaced
    obtain ⟨resolved, _ | e⟩ := replaced
    · have hemit := Program.emit_renamed (f := f) resolved
      have hlines := Assembly.linesOf_map (Statement.renamed f) addresses resolved
      simp only [Outcome.renamed, Except.mapError, Except.bind, Prod.map,
        Option.map_none] at hemit ⊢
      rw [hemit]
      cases (Program.emit resolved).result with
      | error e => exact .inl ⟨_, rfl, rfl⟩
      | ok code => exact .inr ⟨_, _, rfl, rfl, hlines code, hlayout.symbols⟩
    · exact .inl ⟨_, rfl, rfl⟩

/-- **Label names do not matter.** Let `f` make no two names one of the labels and operands of a
program. Then the passes do the same to the program and to the program renamed, in whatever order
and however often they run: each has the same notices and addresses or bytes, or the same fault at
the same place, but for the names in messages; and behind them the statements are the same, renamed,
and the symbols too, in their own order of listing. So a program and the program renamed are
assembled to the same addresses and bytes, or have the same fault. -/
theorem label_names_do_not_matter :
    (∀ ps, ((Workbench.start origin program).after ps).Renamed f (Program.names program)
        ((Workbench.start origin (program.map (Statement.renamed f))).after ps) ∧
      ∀ p : Pass,
        (p.run ((Workbench.start origin (program.map (Statement.renamed f))).after ps)).2 =
          (p.run ((Workbench.start origin program).after ps)).2.renamed f) ∧
    ((∃ e, (assembleProgram source origin program).result = .error e ∧
        (assembleProgram source origin (program.map (Statement.renamed f))).result =
          .error (e.renamed f)) ∨
      ∃ a b, (assembleProgram source origin program).result = .ok a ∧
        (assembleProgram source origin (program.map (Statement.renamed f))).result = .ok b ∧
          a.Renamed f b) := by
  refine ⟨fun ps => ?_, assembleProgram_renamed hf source origin⟩
  have hafter := (Workbench.renamed_start f origin program).after hf ps
  exact ⟨hafter, fun p => (p.run_renamed hf hafter).2⟩

end Assembling

/-- Two labels at one address get names of directives, and change places in the list of symbols. If
names are replaced before there are labels, the same operand is at fault. -/
theorem label_names_do_not_matter_reordered :
    ∃ (f : String → String) (p : Position) (program : List Statement),
      program = [.label "a" p, .label "b" p, .instruction "jp" [⟨.address, .name "b", p⟩] p,
        .directive "db" [⟨.byte, .name "a", p⟩] p] ∧
      f "a" = "org" ∧ f "b" = "db" ∧ Distinguishes f (Program.names program) ∧
      (∃ a b, (assembleProgram "t" 512 program).result = .ok a ∧
        (assembleProgram "t" 512 (program.map (Statement.renamed f))).result = .ok b ∧
        a.symbols.entries.map Binding.name = ["a", "b"] ∧
        b.symbols.entries.map Binding.name = ["db", "org"] ∧ a.Renamed f b) ∧
      (Pass.resolve.run (Workbench.start 512 program)).2.result =
        .error ⟨p, .unknownName "b"⟩ ∧
      (Pass.resolve.run (Workbench.start 512 (program.map (Statement.renamed f)))).2.result =
        .error ⟨p, .unknownName "db"⟩ := by
  obtain ⟨program, hprogram⟩ : ∃ program : List Statement, program =
      [.label "a" (.start "t"), .label "b" (.start "t"),
        .instruction "jp" [⟨.address, .name "b", .start "t"⟩] (.start "t"),
        .directive "db" [⟨.byte, .name "a", .start "t"⟩] (.start "t")] := ⟨_, rfl⟩
  have hf : Distinguishes (fun x => if x = "a" then "org" else "db") (Program.names program) := by
    subst hprogram
    decide
  obtain ⟨hpasses, hassembled⟩ := label_names_do_not_matter hf "t" 512
  have hfault := congrArg Outcome.result ((hpasses []).2 .resolve)
  refine ⟨_, .start "t", program, hprogram, rfl, rfl, hf, ?_, ?_, hfault.trans ?_⟩
  · subst hprogram
    obtain ⟨e, he, -⟩ | ⟨a, b, ha, hb, hab⟩ := hassembled
    · cases he
    · refine ⟨a, b, ha, hb, ?_, ?_, hab⟩
      · cases ha
        decide +kernel
      · cases hb
        decide +kernel
  · subst hprogram
    decide +kernel
  · subst hprogram
    decide +kernel

end Chip8
