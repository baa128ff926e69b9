/-
# Passes in any order

The passes may be run in any order and again, also behind one that met with a
fault. Whatever the row of passes, this is all that comes of it: names that are
bound stay bound (`get?_after_ne_none`), statements change in nothing but the
values of operands (`unvalued_after`), and of these a name may give way, once, to
the address that it is bound to just then (`stays_or_replaced`).

Behind a pass that has replaced all names there is none left, so the statements
stay as they are (`statements_after_of_literal`), and so does what is made of them.

Key definitions: `Operand.unvalued`, `Statement.unvalued`, `Workbench.operand?`,
`Workbench.Stays`.
Key theorems: `getElem?_replaceUntil`, `operand?_run_cases`, `stays_or_replaced`,
`statements_after_of_literal`, `passes_only_bind_and_replace_names`.
-/
import Chip8.Assembly.Passes
import Chip8.Proofs.Assembly.Resolve

namespace Chip8

/-! ### What a replacement leaves, wherever it ends -/

section Replacing

variable {α β ε : Type} {f : α → α × Option ε}

/-- What no step changes is not changed. -/
theorem map_replaceUntil {g : α → β} (h : ∀ a, g (f a).1 = g a) :
    ∀ as : List α, (replaceUntil f as).1.map g = as.map g
  | [] => rfl
  | a :: as => by
    have ha := h a
    have ih := map_replaceUntil h as
    rcases hf : f a with ⟨b, _ | e⟩
    · simp only [hf] at ha
      simp [replaceUntil, hf, ha, ih]
    · simp only [hf] at ha
      simp [replaceUntil, hf, ha]

/-- Each member is as it was, or is replaced. -/
theorem getElem?_replaceUntil : ∀ (as : List α) (i : Nat),
    (replaceUntil f as).1[i]? = as[i]? ∨
      (replaceUntil f as).1[i]? = as[i]?.map fun a => (f a).1
  | [], i => .inl rfl
  | a :: as, i => by
    rcases hf : f a with ⟨b, _ | e⟩
    · cases i with
      | zero => exact .inr (by simp [replaceUntil, hf])
      | succ i => simpa [replaceUntil, hf] using getElem?_replaceUntil as i
    · cases i with
      | zero => exact .inr (by simp [replaceUntil, hf])
      | succ i => exact .inl (by simp [replaceUntil, hf])

/-- What is in the list behind a replacement was there before, or is what a member was replaced
by. -/
theorem mem_replaceUntil {as : List α} {b : α} (hb : b ∈ (replaceUntil f as).1) :
    b ∈ as ∨ ∃ a ∈ as, (f a).1 = b := by
  obtain ⟨i, hi⟩ := List.mem_iff_getElem?.mp hb
  rcases getElem?_replaceUntil (f := f) as i with hsame | hnew
  · exact .inl (List.mem_iff_getElem?.mpr ⟨i, hsame ▸ hi⟩)
  · rw [hi] at hnew
    obtain ⟨a, ha, hab⟩ := Option.map_eq_some_iff.mp hnew.symm
    exact .inr ⟨a, List.mem_of_getElem? ha, hab⟩

end Replacing

variable {symbols : Symbols}

namespace Operand

/-- The operand without its value. -/
def unvalued (o : Operand) : Operand := { o with value := .absent }

/-- An operand stays, or it is a name and what the name is bound to takes its place. -/
theorem resolve_cases (symbols : Symbols) (o : Operand) :
    (o.resolve symbols).1 = o ∨ ∃ x address, o.value = .name x ∧
      symbols.get? x = some address ∧
        (o.resolve symbols).1 = { o with value := .number address } := by
  unfold resolve
  split
  · next x hx =>
    cases hg : symbols.get? x with
    | none => exact .inl rfl
    | some address => exact .inr ⟨x, address, hx, hg, rfl⟩
  · exact .inl rfl

theorem unvalued_resolve (o : Operand) : (o.resolve symbols).1.unvalued = o.unvalued := by
  rcases resolve_cases symbols o with h | ⟨x, address, -, -, h⟩
  · rw [h]
  · rw [h]
    rfl

end Operand

namespace Statement

/-- The statement without the values of its operands. -/
def unvalued (s : Statement) : Statement := s.withOperands (s.operands.map Operand.unvalued)

theorem operands_resolve (s : Statement) :
    (s.resolve symbols).1.operands = (replaceUntil (Operand.resolve symbols) s.operands).1 := by
  cases s <;> rfl

theorem unvalued_resolve (s : Statement) : (s.resolve symbols).1.unvalued = s.unvalued := by
  have hos := map_replaceUntil (f := Operand.resolve symbols) Operand.unvalued_resolve s.operands
  rw [unvalued, operands_resolve, hos]
  cases s <;> rfl

end Statement

/-- Placing unbinds no name, wherever it ends. -/
theorem Layout.get?_placeAll_ne_none {x : String} : ∀ (ss : List Statement) {l : Layout},
    l.get? x ≠ none → (l.placeAll ss).1.get? x ≠ none
  | [], _, h => h
  | s :: ss, l, h => by
    rcases s.placeable_or_misplaced with hs | ⟨f, hs⟩
    · obtain ⟨hpast, hok⟩ := l.place_of_placeable hs
      rw [placeAll_ok hok, hpast]
      refine get?_placeAll_ne_none ss ?_
      rw [get?_past]
      split
      · simp
      · exact h
    · rw [placeAll_error (result_place_eq_error_iff.mpr hs), l.place_of_misplaced hs]
      exact h

/-! ### One pass -/

namespace Workbench

/-- The operand `j` of the statement `i`. -/
def operand? (b : Workbench) (i j : Nat) : Option Operand :=
  b.statements[i]?.bind fun s => s.operands[j]?

end Workbench

namespace Pass

variable {b : Workbench} {x : String} {i j : Nat} {o : Operand}

theorem get?_run_ne_none (p : Pass) (h : b.layout.get? x ≠ none) :
    (p.run b).1.layout.get? x ≠ none := by
  cases p with
  | place => exact Layout.get?_placeAll_ne_none b.statements h
  | resolve => exact h
  | emit => exact h

theorem unvalued_run (p : Pass) (b : Workbench) :
    (p.run b).1.statements.map Statement.unvalued = b.statements.map Statement.unvalued := by
  cases p with
  | place => rfl
  | resolve => exact map_replaceUntil Statement.unvalued_resolve b.statements
  | emit => rfl

/-- A pass leaves an operand alone, or it resolves: then what a name is bound to may take its
place. -/
theorem operand?_run_cases (p : Pass) (h : b.operand? i j = some o) :
    (p.run b).1.operand? i j = some o ∨ p = .resolve ∧ ∃ x address, o.value = .name x ∧
      b.layout.get? x = some address ∧
        (p.run b).1.operand? i j = some { o with value := .number address } := by
  cases p with
  | place => exact .inl h
  | emit => exact .inl h
  | resolve =>
    obtain ⟨s, hs, ho⟩ := Option.bind_eq_some_iff.mp h
    have hstatement :=
      getElem?_replaceUntil (f := Statement.resolve b.layout.symbols) b.statements i
    have hoperand := getElem?_replaceUntil (f := Operand.resolve b.layout.symbols) s.operands j
    rw [← Statement.operands_resolve, ho, Option.map_some] at hoperand
    rw [hs, Option.map_some] at hstatement
    have hrun : (Pass.resolve.run b).1.operand? i j =
        (replaceUntil (Statement.resolve b.layout.symbols) b.statements).1[i]?.bind
          fun s => s.operands[j]? := rfl
    rcases hstatement with hsame | hresolved
    · exact .inl (by rw [hrun, hsame]; exact ho)
    · rw [hrun, hresolved, Option.bind_some]
      rcases hoperand with hsame | hresolved
      · exact .inl hsame
      · rw [hresolved]
        rcases Operand.resolve_cases b.layout.symbols o with hsame | ⟨x, address, hx, hg, hnew⟩
        · exact .inl (by rw [hsame])
        · exact .inr ⟨rfl, x, address, hx, hg, by rw [hnew]⟩

/-- Where there is no name, a pass changes no statement. -/
theorem statements_run_of_literal (p : Pass) (h : ∀ s ∈ b.statements, s.Literal) :
    (p.run b).1.statements = b.statements := by
  cases p with
  | place => rfl
  | emit => rfl
  | resolve =>
    have hbound : ∀ s ∈ b.statements, s.Bound b.layout.symbols := fun s hs => (h s hs).bound
    have hsame : b.statements.map (Statement.resolved b.layout.symbols) = b.statements := by
      rw [List.map_congr_left fun s hs => Statement.resolved_of_literal (h s hs), List.map_id']
    exact (congrArg Prod.fst (Program.resolve_of_bound hbound)).trans hsame

/-- A resolving pass that meets with no fault leaves no name. -/
theorem literal_of_run_resolve {product : Product}
    (h : (Pass.resolve.run b).2.result = .ok product) :
    ∀ s ∈ (Pass.resolve.run b).1.statements, s.Literal := by
  have hnone : (Program.resolve b.layout.symbols b.statements).2 = none := by
    unfold run at h
    cases hf : (Program.resolve b.layout.symbols b.statements).2 with
    | none => rfl
    | some f => simp [hf] at h
  have hbound := Program.resolve_eq_none_iff.mp hnone
  have hstatements : (Pass.resolve.run b).1.statements =
      b.statements.map (Statement.resolved b.layout.symbols) :=
    congrArg Prod.fst (Program.resolve_of_bound hbound)
  rw [hstatements]
  exact List.forall_mem_map.mpr fun s hs => Statement.literal_resolved (hbound s hs)

/-- Where there is no name, resolving succeeds and changes nothing. -/
theorem run_resolve_of_literal (h : ∀ s ∈ b.statements, s.Literal) :
    Pass.resolve.run b = (b, pure .resolved) := by
  have hnone : (Program.resolve b.layout.symbols b.statements).2 = none :=
    Program.resolve_eq_none_iff.mpr fun s hs => (h s hs).bound
  have hstatements := statements_run_of_literal .resolve h
  unfold run at hstatements ⊢
  simp only [hnone] at hstatements ⊢
  rw [hstatements]

end Pass

/-! ### A row of passes -/

namespace Workbench

variable {b : Workbench} {x : String} {i j : Nat} {o : Operand}

theorem after_cons (b : Workbench) (p : Pass) (ps : List Pass) :
    b.after (p :: ps) = (p.run b).1.after ps := rfl

theorem get?_after_ne_none (ps : List Pass) (h : b.layout.get? x ≠ none) :
    (b.after ps).layout.get? x ≠ none := by
  induction ps generalizing b with
  | nil => exact h
  | cons p ps ih => exact ih (p.get?_run_ne_none h)

theorem unvalued_after (ps : List Pass) (b : Workbench) :
    (b.after ps).statements.map Statement.unvalued = b.statements.map Statement.unvalued := by
  induction ps generalizing b with
  | nil => rfl
  | cons p ps ih => rw [after_cons, ih, p.unvalued_run]

theorem statements_after_of_literal (ps : List Pass) (h : ∀ s ∈ b.statements, s.Literal) :
    (b.after ps).statements = b.statements := by
  induction ps generalizing b with
  | nil => rfl
  | cons p ps ih =>
    have hsame := p.statements_run_of_literal h
    rw [after_cons, ih (by rwa [hsame]), hsame]

/-- All along a row of passes, the operand `j` of the statement `i` is `o`. -/
def Stays (b : Workbench) (ps : List Pass) (i j : Nat) (o : Operand) : Prop :=
  ∀ qs, qs <+: ps → (b.after qs).operand? i j = some o

theorem stays_nil (h : b.operand? i j = some o) : b.Stays [] i j o := by
  intro qs hqs
  obtain rfl := List.prefix_nil.mp hqs
  exact h

theorem Stays.cons {p : Pass} {ps : List Pass} (h : b.operand? i j = some o)
    (hps : (p.run b).1.Stays ps i j o) : b.Stays (p :: ps) i j o := by
  intro qs hqs
  rcases List.prefix_cons_iff.mp hqs with rfl | ⟨rs, rfl, hrs⟩
  · exact h
  · exact hps rs hrs

/-- An operand that is no name stays. -/
theorem stays_of_literal (ps : List Pass) (h : b.operand? i j = some o) (ho : o.Literal) :
    b.Stays ps i j o := by
  induction ps generalizing b with
  | nil => exact stays_nil h
  | cons p ps ih =>
    rcases p.operand?_run_cases h with hsame | ⟨-, x, -, hx, -⟩
    · exact .cons h (ih hsame)
    · exact absurd hx (ho x)

/-- An operand stays, or it is a name, and in one of the passes that resolve it gives way to the
address that the name is bound to there. -/
theorem stays_or_replaced (ps : List Pass) (h : b.operand? i j = some o) :
    b.Stays ps i j o ∨ ∃ before after x address, ps = before ++ .resolve :: after ∧
      o.value = .name x ∧ (b.after before).layout.get? x = some address ∧ b.Stays before i j o ∧
        (b.after (before ++ [.resolve])).Stays after i j { o with value := .number address } := by
  induction ps generalizing b with
  | nil => exact .inl (stays_nil h)
  | cons p ps ih =>
    rcases p.operand?_run_cases h with hsame | ⟨rfl, x, address, hx, hg, hnew⟩
    · rcases ih hsame with hstays | ⟨before, after, x, address, rfl, hx, hg, hbefore, hafter⟩
      · exact .inl (.cons h hstays)
      · exact .inr ⟨p :: before, after, x, address, rfl, hx, hg, .cons h hbefore, hafter⟩
    · exact .inr ⟨[], ps, x, address, rfl, hx, hg, stays_nil h, stays_of_literal ps hnew nofun⟩

end Workbench

/-- **Passes only bind names and replace them.** Behind any row of passes the statements are the
same but for the values of their operands; an operand stayed all along, or it was a name and gave
way once to the address that the name was bound to in that pass; and no name was unbound. Behind a
resolving pass that met with no fault, whatever passes follow, resolving succeeds and changes
nothing, and the same bytes are made. -/
theorem passes_only_bind_and_replace_names (b : Workbench) (ps : List Pass) :
    (b.after ps).statements.map Statement.unvalued = b.statements.map Statement.unvalued ∧
      (∀ i j o, b.operand? i j = some o → b.Stays ps i j o ∨
        ∃ before after x address, ps = before ++ .resolve :: after ∧ o.value = .name x ∧
          (b.after before).layout.get? x = some address ∧ b.Stays before i j o ∧
            (b.after (before ++ [.resolve])).Stays after i j { o with value := .number address }) ∧
      (∀ x, b.layout.get? x ≠ none → (b.after ps).layout.get? x ≠ none) ∧
      ∀ product, (Pass.resolve.run (b.after ps)).2.result = .ok product →
        ∀ qs, Pass.resolve.run (b.after (ps ++ .resolve :: qs)) =
            (b.after (ps ++ .resolve :: qs), pure .resolved) ∧
          (Pass.emit.run (b.after (ps ++ .resolve :: qs))).2 =
            (Pass.emit.run (b.after (ps ++ [.resolve]))).2 := by
  refine ⟨Workbench.unvalued_after ps b, fun i j o => Workbench.stays_or_replaced ps,
    fun x => Workbench.get?_after_ne_none ps, fun product hproduct qs => ?_⟩
  have hliteral := Pass.literal_of_run_resolve hproduct
  have hone : b.after (ps ++ [.resolve]) = (Pass.resolve.run (b.after ps)).1 :=
    Workbench.after_append b ps [.resolve]
  have hall : b.after (ps ++ .resolve :: qs) = (Pass.resolve.run (b.after ps)).1.after qs :=
    Workbench.after_append b ps (.resolve :: qs)
  have hstatements := Workbench.statements_after_of_literal qs hliteral
  rw [hall, hone]
  refine ⟨Pass.run_resolve_of_literal (by rwa [hstatements]), ?_⟩
  change Product.code <$> Program.emit _ = Product.code <$> Program.emit _
  rw [hstatements]

/-- A jump to a label behind it: resolving comes too early, and again behind a pass that binds the
label; then the label is bound anew, further on. -/
theorem passes_only_bind_and_replace_names_too_early :
    ∃ b : Workbench, b = ⟨[.instruction "jp" [⟨.address, .name "x", .start "t"⟩] (.start "t"),
        .label "x" (.start "t")], .start 0x200⟩ ∧
      (Pass.resolve.run b).2.result.isOk = false ∧
      (Pass.resolve.run (b.after [.resolve, .place])).2.result = .ok .resolved ∧
      (b.after [.resolve, .place]).layout.get? "x" = some 0x202 ∧
      (b.after [.resolve, .place, .resolve, .place]).layout.get? "x" = some 0x204 ∧
      ∀ qs, Pass.resolve.run (b.after ([.resolve, .place] ++ .resolve :: qs)) =
          (b.after ([.resolve, .place] ++ .resolve :: qs), pure .resolved) ∧
        (Pass.emit.run (b.after ([.resolve, .place] ++ .resolve :: qs))).2 =
          (Pass.emit.run (b.after ([.resolve, .place] ++ [.resolve]))).2 := by
  refine ⟨_, rfl, by decide +kernel, rfl, by decide +kernel, by decide +kernel, ?_⟩
  exact (passes_only_bind_and_replace_names _ [.resolve, .place]).2.2.2 .resolved rfl

end Chip8
