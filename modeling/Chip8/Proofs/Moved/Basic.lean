/-
# Moving positions

Positions are only copied: from tokens to operands and statements, and from these
to faults. Nothing looks at them. So a map of positions can be applied before a
step or after it, with the same outcome. This module says what it is applied to;
`relocate` applies it to the outcome of a step. Mapping all positions to one
forgets them (`unlocated`).

Key definitions: `Token.moved`, `Operand.moved`, `Statement.moved`, `Fault.moved`,
`Operand.unlocated`, `Statement.unlocated`, `relocate`.
Key theorems: `relocate_bind`, `relocate_mapM`, `kind_moved`, `operands_moved`, `unlocated_moved`.
-/
import Chip8.Outcome
import Chip8.Program.Statement

namespace Chip8

variable (f : Position → Position)

/-- The token at the place that `f` gives. -/
def Token.moved (t : Token) : Token := { t with position := f t.position }

/-- The operand at the place that `f` gives. -/
def Operand.moved (o : Operand) : Operand := { o with position := f o.position }

/-- The statement and its operands at the places that `f` gives. -/
def Statement.moved : Statement → Statement
  | label name p => label name (f p)
  | instruction mnemonic os p => instruction mnemonic (os.map (Operand.moved f)) (f p)
  | directive name os p => directive name (os.map (Operand.moved f)) (f p)

/-- The fault at the place that `f` gives. -/
def Fault.moved (e : Fault) : Fault := { e with position := f e.position }

/-- The operand, its position forgotten. -/
def Operand.unlocated (o : Operand) : Operand := o.moved fun _ => .start ""

/-- The statement, its positions forgotten. -/
def Statement.unlocated (s : Statement) : Statement := s.moved fun _ => .start ""

/-- What came of a step, moved: the value is changed by `g`, or the fault is moved. -/
def relocate {α β : Type} (g : α → β) : Except Fault α → Except Fault β
  | .ok a => .ok (g a)
  | .error e => .error (e.moved f)

/-! ### What does not move -/

variable {f}

@[simp] theorem Token.toLexeme_moved (t : Token) : (t.moved f).toLexeme = t.toLexeme := rfl

@[simp] theorem Token.position_moved (t : Token) : (t.moved f).position = f t.position := rfl

namespace Operand

@[simp] theorem kind_moved (o : Operand) : (o.moved f).kind = o.kind := rfl

@[simp] theorem value_moved (o : Operand) : (o.moved f).value = o.value := rfl

@[simp] theorem position_moved (o : Operand) : (o.moved f).position = f o.position := rfl

theorem map_kind_moved (os : List Operand) :
    (os.map (moved f)).map kind = os.map kind := by
  rw [List.map_map]
  rfl

end Operand

theorem Statement.operands_moved (s : Statement) :
    (s.moved f).operands = s.operands.map (Operand.moved f) := by
  cases s <;> rfl

/-- Moving a statement does not change what is left of it without its positions. -/
theorem Statement.unlocated_moved (f : Position → Position) (s : Statement) :
    (s.moved f).unlocated = s.unlocated := by
  cases s <;> simp [moved, unlocated, Operand.moved]

/-! ### Steps in a row -/

section relocate

variable {α β γ δ : Type} {g : α → β} {h : γ → δ}

theorem relocate_eq_ok_iff {x : Except Fault α} {b : β} :
    relocate f g x = .ok b ↔ ∃ a, x = .ok a ∧ g a = b := by
  cases x <;> simp [relocate]

/-- Two steps can be moved if each of them can. -/
theorem relocate_bind {x : Except Fault α} {x' : Except Fault β} {k : α → Except Fault γ}
    {k' : β → Except Fault δ} (hx : x' = relocate f g x)
    (hk : ∀ a, k' (g a) = relocate f h (k a)) : x'.bind k' = relocate f h (x.bind k) := by
  subst hx
  cases x with
  | error e => rfl
  | ok a => exact hk a

theorem relocate_ite {c : Prop} [Decidable c] {x y : Except Fault α} {x' y' : Except Fault β}
    (hx : x' = relocate f g x) (hy : y' = relocate f g y) :
    (if c then x' else y') = relocate f g (if c then x else y) := by
  split
  · exact hx
  · exact hy

theorem relocate_map {x : Except Fault α} {x' : Except Fault β} {k : α → γ} {k' : β → δ}
    (hx : x' = relocate f g x) (hk : ∀ a, k' (g a) = h (k a)) :
    x'.map k' = relocate f h (x.map k) := by
  subst hx
  cases x with
  | error e => rfl
  | ok a => exact congrArg Except.ok (hk a)

/-- A step for each member of a list can be moved if the step can. -/
theorem relocate_mapM {k : α → Outcome γ} {k' : β → Outcome δ} : ∀ {xs : List α},
    (∀ x ∈ xs, (k' (g x)).result = relocate f h (k x).result) →
      ((xs.map g).mapM k').result = relocate f (List.map h) (xs.mapM k).result
  | [], _ => rfl
  | x :: xs, hk => by
    obtain ⟨hx, hxs⟩ := List.forall_mem_cons.mp hk
    have ih := relocate_mapM hxs
    simp only [List.map_cons, List.mapM_cons, Outcome.result_bind, Outcome.result_pure]
    exact relocate_bind hx fun a => relocate_bind ih fun as => rfl

end relocate
end Chip8
