/-
# What replacing names does

An operand is replaced iff it is a name that something is bound to; a name that
nothing is bound to is at fault (`Operand.Unbound`). So a program is resolved iff
all names in it are bound (`Statement.Bound`), and otherwise the first operand
that is not is at fault. All that changes are the values of operands: kinds,
names and positions stay, and so does whatever placing a statement reads
(`past_resolved`). What is left has no names (`literal_resolved`), and nothing
more is replaced in it (`resolved_of_literal`).

Key definitions: `Operand.Bound`, `Operand.Unbound`, `Operand.Literal`, `Operand.resolved`,
`Statement.resolved`.
Key theorems: `Program.resolve_of_bound`, `Program.resolve_eq_some_iff`, `past_resolved`,
`literal_resolved`, `resolved_of_literal`.
-/
import Chip8.Proofs.Assembly.Place

namespace Chip8

variable {symbols : Symbols}

namespace Operand

variable {o : Operand}

/-- If the operand is a name, something is bound to it. -/
def Bound (symbols : Symbols) (o : Operand) : Prop :=
  ∀ x, o.value = .name x → symbols.get? x ≠ none

/-- The operand is a name that nothing is bound to, and `f` says so. -/
def Unbound (symbols : Symbols) (o : Operand) (f : Fault) : Prop :=
  ∃ x, o.value = .name x ∧ symbols.get? x = none ∧ f = ⟨o.position, .unknownName x⟩

/-- The operand is not a name. -/
def Literal (o : Operand) : Prop := ∀ x, o.value ≠ .name x

/-- The operand, its name replaced if something is bound to it. -/
def resolved (symbols : Symbols) (o : Operand) : Operand := (o.resolve symbols).1

theorem resolve_eq_some_iff {f : Fault} : (o.resolve symbols).2 = some f ↔ o.Unbound symbols f := by
  unfold resolve Unbound
  split
  · next x hx => cases hg : symbols.get? x <;> simp [hx, hg, eq_comm]
  · next hne =>
    constructor
    · nofun
    · rintro ⟨x, hx, -⟩
      exact absurd hx (hne x)

theorem resolve_eq_none_iff : (o.resolve symbols).2 = none ↔ o.Bound symbols := by
  unfold resolve Bound
  split
  · next x hx => cases hg : symbols.get? x <;> simp [hx, hg]
  · next hne => exact ⟨fun _ x hx => absurd hx (hne x), fun _ => rfl⟩

theorem bound_iff : o.Bound symbols ↔ ∀ f, ¬o.Unbound symbols f := by
  simp only [← resolve_eq_none_iff, ← resolve_eq_some_iff, ← Option.eq_none_iff_forall_ne_some]

theorem resolve_of_bound (h : o.Bound symbols) : o.resolve symbols = (o.resolved symbols, none) :=
  Prod.ext rfl (resolve_eq_none_iff.mpr h)

/-- A name that is bound gives way to a number. -/
theorem literal_resolved (h : o.Bound symbols) : (o.resolved symbols).Literal := by
  unfold resolved resolve
  split
  · next x hx =>
    obtain ⟨address, ha⟩ := Option.ne_none_iff_exists'.mp (h x hx)
    simp [ha, Literal]
  · next hne => exact hne

theorem resolved_of_literal (h : o.Literal) : o.resolved symbols = o := by
  unfold resolved resolve
  split
  · next x hx => exact absurd hx (h x)
  · rfl

theorem kind_resolved (o : Operand) : (o.resolved symbols).kind = o.kind := by
  unfold resolved resolve
  split
  · split <;> rfl
  · rfl

theorem map_kind_resolved (os : List Operand) :
    (os.map (resolved symbols)).map kind = os.map kind := by
  rw [List.map_map]
  exact List.map_congr_left fun o _ => kind_resolved o

theorem position_resolved (o : Operand) : (o.resolved symbols).position = o.position := by
  unfold resolved resolve
  split
  · split <;> rfl
  · rfl

end Operand

namespace Statement

variable {s : Statement}

/-- All names in the operands are bound. -/
def Bound (symbols : Symbols) (s : Statement) : Prop := ∀ o ∈ s.operands, o.Bound symbols

/-- None of the operands is a name. -/
def Literal (s : Statement) : Prop := ∀ o ∈ s.operands, o.Literal

/-- The statement, the names in its operands replaced. -/
def resolved (symbols : Symbols) (s : Statement) : Statement :=
  s.withOperands (s.operands.map (Operand.resolved symbols))

theorem resolve_eq_some_iff {f : Fault} :
    (s.resolve symbols).2 = some f ↔ First (Operand.Unbound symbols) s.operands f := by
  rw [resolve, replaceUntil_eq_some_iff]
  exact first_congr (fun o _ f => Operand.resolve_eq_some_iff) f

theorem resolve_eq_none_iff : (s.resolve symbols).2 = none ↔ s.Bound symbols := by
  rw [resolve, replaceUntil_eq_none_iff]
  simp only [Operand.resolve_eq_none_iff, Bound]

theorem bound_iff : s.Bound symbols ↔ ∀ f, ¬First (Operand.Unbound symbols) s.operands f := by
  simp only [← resolve_eq_none_iff, ← resolve_eq_some_iff, ← Option.eq_none_iff_forall_ne_some]

theorem resolve_of_bound (h : s.Bound symbols) :
    s.resolve symbols = (s.resolved symbols, none) := by
  rw [resolve, replaceUntil_of_forall_none fun o ho => Operand.resolve_eq_none_iff.mpr (h o ho)]
  rfl

theorem operands_resolved (s : Statement) :
    (s.resolved symbols).operands = s.operands.map (Operand.resolved symbols) := by
  cases s <;> rfl

theorem literal_resolved (h : s.Bound symbols) : (s.resolved symbols).Literal := by
  intro o ho
  rw [operands_resolved] at ho
  obtain ⟨o', ho', rfl⟩ := List.mem_map.mp ho
  exact Operand.literal_resolved (h o' ho')

theorem Literal.bound (h : s.Literal) : s.Bound symbols := fun o ho x hx => absurd hx (h o ho x)

theorem resolved_of_literal (h : s.Literal) : s.resolved symbols = s := by
  have hos : s.operands.map (Operand.resolved symbols) = s.operands := by
    rw [List.map_congr_left fun o ho => Operand.resolved_of_literal (h o ho), List.map_id']
  rw [resolved, hos]
  cases s <;> rfl

theorem position_resolved (s : Statement) : (s.resolved symbols).position = s.position := by
  cases s <;> rfl

theorem label?_resolved (s : Statement) : (s.resolved symbols).label? = s.label? := by
  cases s <;> rfl

theorem size_resolved (s : Statement) : (s.resolved symbols).size = s.size := by
  cases s <;> simp [resolved, withOperands, operands, size]

/-- In a directive whose one operand is a number there is nothing to replace. -/
theorem resolved_of_number {name : String} {o : Operand} {n : UInt32} {p : Position}
    (hv : o.value = .number n) :
    (directive name [o] p).resolved symbols = directive name [o] p := by
  apply resolved_of_literal
  simp [Literal, operands, Operand.Literal, hv]

/-- A statement that can be placed can be placed with its names replaced, and to the same effect:
the operand of an `.org` is no name. -/
theorem placeable_and_origin?_resolved (h : s.Placeable) :
    (s.resolved symbols).Placeable ∧ (s.resolved symbols).origin? = s.origin? := by
  cases s with
  | label name p => exact ⟨trivial, rfl⟩
  | instruction m os p => exact ⟨trivial, rfl⟩
  | directive name os p =>
    rcases h with ⟨rfl, o, n, rfl, hk, hv⟩ | ⟨rfl, hne⟩
    · rw [resolved_of_number hv]
      exact ⟨.inl ⟨rfl, o, n, rfl, hk, hv⟩, rfl⟩
    · exact ⟨.inr ⟨rfl, by simpa [operands] using hne⟩, rfl⟩

theorem placeable_resolved (h : s.Placeable) : (s.resolved symbols).Placeable :=
  (placeable_and_origin?_resolved h).1

theorem origin?_resolved (h : s.Placeable) : (s.resolved symbols).origin? = s.origin? :=
  (placeable_and_origin?_resolved h).2

theorem next_resolved (h : s.Placeable) (address : UInt32) :
    (s.resolved symbols).next address = s.next address := by
  rw [next, next, origin?_resolved h, size_resolved]

end Statement

/-- A layout moves past a statement in the same way when the names in it are replaced. -/
theorem Layout.past_resolved (l : Layout) {s : Statement} (h : s.Placeable) :
    l.past (s.resolved symbols) = l.past s := by
  rw [past, past, Statement.next_resolved h, Statement.label?_resolved]

namespace Program

/-- A program whose names are all bound has all of them replaced. -/
theorem resolve_of_bound {ss : List Statement} (h : ∀ s ∈ ss, s.Bound symbols) :
    resolve symbols ss = (ss.map (Statement.resolved symbols), none) := by
  rw [resolve, replaceUntil_of_forall_none fun s hs => Statement.resolve_eq_none_iff.mpr (h s hs)]
  refine Prod.ext (List.map_congr_left fun s hs => ?_) rfl
  rw [Statement.resolve_of_bound (h s hs)]

theorem resolve_eq_none_iff {ss : List Statement} :
    (resolve symbols ss).2 = none ↔ ∀ s ∈ ss, s.Bound symbols := by
  simp only [resolve, replaceUntil_eq_none_iff, Statement.resolve_eq_none_iff]

/-- The first operand that is not bound is at fault. -/
theorem resolve_eq_some_iff {ss : List Statement} {f : Fault} :
    (resolve symbols ss).2 = some f ↔
      First (fun s => First (Operand.Unbound symbols) s.operands) ss f := by
  rw [resolve, replaceUntil_eq_some_iff]
  exact first_congr (fun s _ f => Statement.resolve_eq_some_iff) f

end Program

/-- A program has the same addresses when the names in it are replaced. -/
theorem Program.addresses_resolved : ∀ {ss : List Statement} (address : UInt32),
    (∀ s ∈ ss, s.Placeable) →
      addresses address (ss.map (Statement.resolved symbols)) = addresses address ss
  | [], _, _ => rfl
  | s :: ss, address, h => by
    obtain ⟨hs, hss⟩ := List.forall_mem_cons.mp h
    rw [List.map_cons, addresses, addresses, Statement.next_resolved hs, addresses_resolved _ hss]

theorem Layout.pastAll_resolved : ∀ {ss : List Statement} (l : Layout), (∀ s ∈ ss, s.Placeable) →
    l.pastAll (ss.map (Statement.resolved symbols)) = l.pastAll ss
  | [], _, _ => rfl
  | s :: ss, l, h => by
    obtain ⟨hs, hss⟩ := List.forall_mem_cons.mp h
    rw [List.map_cons, pastAll_cons, pastAll_cons, past_resolved l hs, pastAll_resolved _ hss]

end Chip8
